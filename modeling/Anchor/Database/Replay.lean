import Mathlib
import Anchor.Database.Mirror

/-!
# Replaying additions and removals of validators

The two updates that change which validators and clusters there are.  The tables change
by inserts that keep what is there and by cascading deletes, the maps by overwriting
and by removing from every index; both end up with the same keys.
-/

namespace Anchor

open Ssz

variable {C : Type} [DecidableEq C] {env : EventEnv C} {sha256 : Bytes → Hash256}
  {sql sql' : Sql C} {state : Database.NetworkState C}

/-! ## Additions -/

structure Addition (env : EventEnv C) (sql sql' : Sql C) (owner : Address)
    (ids : List OperatorId) (cluster : Cluster C) (validator : ValidatorMetadata C)
    (shares : List (Share C)) : Prop where
  wellFormed : sql.WellFormed env.toDatabaseEnv
  keccak : Function.Injective env.keccak256
  checked : ValidatorAddition env sql owner ids validator.publicKey shares
  added : sql.Added sql' cluster validator shares
  clusterId : cluster.clusterId = computeClusterId env.keccak256 owner ids
  owner : cluster.owner = owner
  clusterMembers : cluster.clusterMembers = IndexSet.fromIter ids
  validator : validator.clusterId = cluster.clusterId
  feeRecipient : cluster.feeRecipient = sql.feeRecipientOf cluster.owner

namespace Addition

variable {owner : Address} {ids : List OperatorId} {cluster : Cluster C}
  {validator : ValidatorMetadata C} {shares : List (Share C)}

section

variable (h : Addition env sql sql' owner ids cluster validator shares)
include h

theorem wellFormed' :
    sql'.WellFormed env.toDatabaseEnv :=
  h.wellFormed.added h.keccak h.checked h.added h.clusterId h.owner h.validator rfl

theorem inCluster (pubkey : PublicKeyBytes) (c : C) : sql'.InCluster pubkey c ↔
      sql.InCluster pubkey c ∨ pubkey = validator.publicKey ∧ c = cluster.clusterId := by
  constructor
  · rintro ⟨v, hv, rfl, rfl⟩
    rcases (h.added.validators v).mp hv with hv | rfl
    · exact Or.inl ⟨v, hv, rfl, rfl⟩
    · exact Or.inr ⟨rfl, h.validator⟩
  · rintro (⟨v, hv, rfl, rfl⟩ | ⟨rfl, rfl⟩)
    · exact ⟨v, (h.added.validators v).mpr (Or.inl hv), rfl, rfl⟩
    · exact ⟨validator, (h.added.validators _).mpr (Or.inr rfl), rfl, h.validator⟩

theorem not_inCluster (c : C) :
    ¬ sql.InCluster validator.publicKey c := by
  rintro ⟨v, hv, hpubkey, -⟩
  exact Table.find?_eq_none.mp h.checked.fresh v hv hpubkey

theorem hasCluster (c : C) :
    sql'.HasCluster c ↔ sql.HasCluster c ∨ c = cluster.clusterId := by
  constructor
  · rintro ⟨row, hrow, rfl⟩
    rcases (h.added.mem_clusters row).mp hrow with hrow | ⟨rfl, -⟩
    · exact Or.inl ⟨row, hrow, rfl⟩
    · exact Or.inr rfl
  · rintro (⟨row, hrow, rfl⟩ | rfl)
    · exact ⟨row, (h.added.mem_clusters row).mpr (Or.inl hrow), rfl⟩
    · exact h.added.exists_cluster

theorem ownedBy (c : C)
    (o : Address) : sql'.OwnedBy c o ↔
      sql.OwnedBy c o ∨ c = cluster.clusterId ∧ o = cluster.owner := by
  constructor
  · rintro ⟨row, hrow, rfl, rfl⟩
    rcases (h.added.mem_clusters row).mp hrow with hrow | ⟨rfl, -⟩
    · exact Or.inl ⟨row, hrow, rfl, rfl⟩
    · exact Or.inr ⟨rfl, rfl⟩
  · rintro (⟨row, hrow, rfl, rfl⟩ | ⟨rfl, rfl⟩)
    · exact ⟨row, (h.added.mem_clusters row).mpr (Or.inl hrow), rfl, rfl⟩
    · obtain ⟨row, hrow, hid⟩ := h.added.exists_cluster
      refine ⟨row, hrow, hid, ?_⟩
      rcases (h.added.mem_clusters row).mp hrow with hrow | ⟨rfl, -⟩
      · rw [h.owner]
        exact (h.wellFormed.cluster_eq h.keccak hrow (hid.trans h.clusterId)).1
      · rfl

theorem members (id : OperatorId) : ⟨cluster.clusterId, id⟩ ∈ sql'.clusterMembers ↔ id ∈ ids := by
  rw [h.clusterId]
  exact h.added.members_iff h.checked h.wellFormed h.keccak id

theorem members_of_hasCluster {c : C} (hc : sql.HasCluster c) (id : OperatorId) :
    ⟨c, id⟩ ∈ sql'.clusterMembers ↔ ⟨c, id⟩ ∈ sql.clusterMembers := by
  obtain ⟨row, hrow, rfl⟩ := hc
  exact h.added.members_iff_of_mem h.checked h.wellFormed h.keccak hrow id

theorem committeeOf :
    sql'.committeeOf sha256 cluster.clusterId = cluster.committeeId sha256 := by
  rw [Cluster.committeeId, h.clusterMembers, IndexSet.toList_fromIter h.checked.nodup]
  exact Sql.committeeOf_eq sha256 h.checked.nodup h.members

theorem feeRecipientOf (o : Address) : sql'.feeRecipientOf o = sql.feeRecipientOf o := by
  simp only [Sql.feeRecipientOf, Sql.feeRecipientForOwner, h.added.owners]
  unfold Table.insertOrIgnore
  split
  · rename_i hnone
    by_cases ho : o = cluster.owner
    · subst ho
      have hfind : (⟨sql.owners.rows ++ [⟨cluster.owner, some cluster.owner, none⟩],
          Table.nodup_append_row hnone⟩ : Table OwnerRow.owner).find? cluster.owner =
            some ⟨cluster.owner, some cluster.owner, none⟩ :=
        Table.find?_eq_some.mpr ⟨by simp [Table.mem_def], rfl⟩
      rw [hfind, show sql.owners.find? cluster.owner = none from hnone]
      rfl
    · congr 2
      apply Option.ext
      intro row
      rw [Table.find?_eq_some, Table.find?_eq_some]
      refine and_congr_left ?_
      rintro rfl
      simp only [Table.mem_def, List.mem_append, List.mem_singleton, or_iff_left_iff_imp]
      rintro rfl
      exact absurd rfl ho
  · rfl

end

theorem indexed {V : Type} {m : ValidatorMap C V}
    (h : Addition env sql sql' owner ids cluster validator shares)
    (hm : ValidatorMap.Indexed sha256 sql m) (hnone : m.primary validator.publicKey = none) :
    ValidatorMap.Indexed sha256 sql' m := by
  refine hm.congr ?_ ?_ ?_
  · intro pubkey hsome c
    rw [h.inCluster]
    refine or_iff_left ?_
    rintro ⟨rfl, -⟩
    simp [hnone] at hsome
  · intro pubkey c _ hin o
    rw [h.ownedBy]
    refine or_iff_left_of_imp ?_
    rintro ⟨rfl, rfl⟩
    obtain ⟨row, hrow, hid⟩ := h.wellFormed.hasCluster hin
    have howner := (h.wellFormed.cluster_eq h.keccak hrow (hid.trans h.clusterId)).1
    exact ⟨row, hrow, hid, howner.trans h.owner.symm⟩
  · intro pubkey c _ hin id
    exact h.members_of_hasCluster (h.wellFormed.hasCluster hin) id

theorem insert_indexed {V : Type} {m : ValidatorMap C V} {v : V}
    (h : Addition env sql sql' owner ids cluster validator shares)
    (hm : ValidatorMap.Indexed sha256 sql m) (hnone : m.primary validator.publicKey = none) :
    ValidatorMap.Indexed sha256 sql' (m.insertOrUpdate validator.publicKey cluster.clusterId
      cluster.owner (cluster.committeeId sha256) v) :=
  (h.indexed hm hnone).insert ((h.inCluster _ _).mpr (Or.inr ⟨rfl, rfl⟩))
    ((h.ownedBy _ _).mpr (Or.inr ⟨rfl, rfl⟩)) h.committeeOf

theorem clusters_indexed {m : ClusterMap C}
    (h : Addition env sql sql' owner ids cluster validator shares)
    (hm : ClusterMap.Indexed sha256 sql m) :
    ClusterMap.Indexed sha256 sql' (m.insertOrUpdate cluster.clusterId validator.publicKey
      cluster.owner (cluster.committeeId sha256) cluster) := by
  constructor
  · intro c
    rw [h.hasCluster, ← hm.primary]
    by_cases hc : c = cluster.clusterId
    · subst hc
      simp [MultiIndexMap.insertOrUpdate]
    · simp [MultiIndexMap.insertOrUpdate, hc]
  · intro pubkey c hin
    ext c'
    simp only [MultiIndexMap.insertOrUpdate, Uniqueness.mem_unique_add, Finset.mem_singleton]
    rcases (h.inCluster pubkey c).mp hin with hin | ⟨rfl, rfl⟩
    · have hne : pubkey ≠ validator.publicKey := by
        rintro rfl
        exact h.not_inCluster c hin
      simp [hne, hm.secondary pubkey c hin]
    · simp
  · intro pubkey c hc
    rw [h.hasCluster]
    simp only [MultiIndexMap.insertOrUpdate, Uniqueness.mem_unique_add] at hc
    rcases hc with ⟨-, rfl⟩ | ⟨-, hc⟩
    · exact Or.inr rfl
    · exact Or.inl (hm.secondary_closed pubkey c hc)
  · intro o c
    simp only [MultiIndexMap.insertOrUpdate, Uniqueness.mem_notUnique_add, h.ownedBy, hm.tertiary]
    tauto
  · intro q c
    simp only [MultiIndexMap.insertOrUpdate, Uniqueness.mem_notUnique_add, h.hasCluster,
      hm.quaternary]
    by_cases hc : c = cluster.clusterId
    · subst hc
      rw [h.committeeOf]
      constructor
      · rintro (⟨rfl, -⟩ | ⟨hhas, hq⟩)
        · exact ⟨Or.inr rfl, rfl⟩
        · rw [← h.committeeOf, Sql.committeeOf_congr sha256 (h.members_of_hasCluster hhas)]
          exact ⟨Or.inl hhas, hq⟩
      · rintro ⟨-, rfl⟩
        exact Or.inl ⟨rfl, rfl⟩
    · simp only [hc, and_false, false_or, or_false]
      refine and_congr_right fun hhas => ?_
      rw [Sql.committeeOf_congr sha256 (h.members_of_hasCluster hhas)]

theorem clusters_valued {m : ClusterMap C}
    (h : Addition env sql sql' owner ids cluster validator shares)
    (hm : ClusterMap.Valued sql m) :
    ClusterMap.Valued sql' (m.insertOrUpdate cluster.clusterId validator.publicKey
      cluster.owner (cluster.committeeId sha256) cluster) := by
  have hvalue : ∀ c cluster', (m.insertOrUpdate cluster.clusterId validator.publicKey
      cluster.owner (cluster.committeeId sha256) cluster).primary c = some cluster' →
      c = cluster.clusterId ∧ cluster' = cluster ∨
        c ≠ cluster.clusterId ∧ m.primary c = some cluster' := by
    intro c cluster' hc
    by_cases hcc : c = cluster.clusterId
    · subst hcc
      simp only [MultiIndexMap.insertOrUpdate, Function.update_self, Option.some.injEq] at hc
      exact Or.inl ⟨rfl, hc.symm⟩
    · simp only [MultiIndexMap.insertOrUpdate, Function.update_of_ne hcc] at hc
      exact Or.inr ⟨hcc, hc⟩
  constructor
  · intro c cluster' hc
    rw [h.ownedBy]
    rcases hvalue c cluster' hc with ⟨rfl, rfl⟩ | ⟨-, hc⟩
    · exact Or.inr ⟨rfl, rfl⟩
    · exact Or.inl (hm.owner c cluster' hc)
  · intro c cluster' hc
    rw [h.feeRecipientOf]
    rcases hvalue c cluster' hc with ⟨rfl, rfl⟩ | ⟨-, hc⟩
    · exact h.feeRecipient
    · exact hm.feeRecipient c cluster' hc
  · intro c cluster' hc id
    rcases hvalue c cluster' hc with ⟨rfl, rfl⟩ | ⟨hne, hc⟩
    · rw [h.members, h.clusterMembers, IndexSet.mem_toList_fromIter]
    · rw [h.members_of_hasCluster (Sql.hasCluster_iff.mpr ⟨_, hm.owner c cluster' hc⟩)]
      exact hm.clusterMembers c cluster' hc id

theorem mirrors (h : Addition env sql sql' owner ids cluster validator shares)
    (hstate : Mirrors env.sha256 sql state) {ownShare : Option (Share C)}
    (hown : ∀ share, ownShare = some share → share ∈ shares) :
    Mirrors env.sha256 sql'
      (state.insertValidator env.toDatabaseEnv cluster validator ownShare) := by
  have hmetadata : state.metadata.primary validator.publicKey = none := by
    rw [hstate.metadata]
    exact h.checked.fresh
  have hshares : state.shares.primary validator.publicKey = none := by
    rw [Option.eq_none_iff_forall_ne_some]
    intro share hshare
    obtain ⟨hmem, hpubkey⟩ := hstate.shares _ share hshare
    exact h.wellFormed.share_ne h.checked.fresh hmem hpubkey
  constructor
  case metadata =>
    funext pubkey
    apply Option.ext
    intro v
    rw [Table.find?_eq_some, h.added.validators]
    have hold : state.metadata.primary pubkey = some v ↔
        v ∈ sql.validators ∧ v.publicKey = pubkey := by
      rw [hstate.metadata, Table.find?_eq_some]
    by_cases hpubkey : pubkey = validator.publicKey
    · subst hpubkey
      have hnew : (state.insertValidator env.toDatabaseEnv cluster validator
          ownShare).metadata.primary validator.publicKey = some validator := by
        simp [Database.NetworkState.insertValidator, MultiIndexMap.insertOrUpdate]
      rw [hnew, Option.some.injEq]
      constructor
      · rintro rfl
        exact ⟨Or.inr rfl, rfl⟩
      · rintro ⟨hv | rfl, hkey⟩
        · exact absurd hkey (Table.find?_eq_none.mp h.checked.fresh v hv)
        · rfl
    · have hsame : (state.insertValidator env.toDatabaseEnv cluster validator
          ownShare).metadata.primary pubkey = state.metadata.primary pubkey := by
        cases ownShare <;>
          simp [Database.NetworkState.insertValidator, Database.NetworkState.insertOwnShare,
            MultiIndexMap.insertOrUpdate, hpubkey]
      rw [hsame, hold]
      constructor
      · rintro ⟨hv, hkey⟩
        exact ⟨Or.inl hv, hkey⟩
      · rintro ⟨hv | rfl, hkey⟩
        · exact ⟨hv, hkey⟩
        · exact absurd hkey.symm hpubkey
  case metadata_indexed =>
    cases ownShare <;> exact h.insert_indexed hstate.metadata_indexed hmetadata
  case shares =>
    intro pubkey share hshare
    have hold : state.shares.primary pubkey = some share →
        share ∈ sql'.shares ∧ share.validatorPubkey = pubkey := by
      intro hmem
      obtain ⟨hsql, hpubkey⟩ := hstate.shares pubkey share hmem
      exact ⟨(h.added.mem_shares share).mpr (Or.inl hsql), hpubkey⟩
    cases ownShare with
    | none => exact hold hshare
    | some own =>
      by_cases hpubkey : pubkey = validator.publicKey
      · subst hpubkey
        simp only [Database.NetworkState.insertValidator, Database.NetworkState.insertOwnShare,
          MultiIndexMap.insertOrUpdate, Function.update_self, Option.some.injEq] at hshare
        subst hshare
        have hmem := hown own rfl
        exact ⟨(h.added.mem_shares own).mpr (Or.inr hmem), (h.checked.belongs own hmem).1⟩
      · apply hold
        simpa only [Database.NetworkState.insertValidator, Database.NetworkState.insertOwnShare,
          MultiIndexMap.insertOrUpdate, Function.update_of_ne hpubkey] using hshare
  case shares_indexed =>
    cases ownShare with
    | none => exact h.indexed hstate.shares_indexed hshares
    | some share => exact h.insert_indexed hstate.shares_indexed hshares
  case clusters_indexed =>
    cases ownShare <;> exact h.clusters_indexed hstate.clusters_indexed
  case clusters_valued =>
    cases ownShare <;> exact h.clusters_valued hstate.clusters_valued

end Addition

/-! ## Removals -/

omit [DecidableEq C] in
theorem Sql.InCluster.kept {pubkey : PublicKeyBytes} {c : C} {validator : ValidatorMetadata C}
    (hin : sql.InCluster pubkey c) (hne : pubkey ≠ validator.publicKey) :
    ¬ (sql.IsLast validator ∧ c = validator.clusterId) := by
  rintro ⟨hlast, rfl⟩
  obtain ⟨v, hv, rfl, hid⟩ := hin
  exact hne (hlast v hv hid)

structure Database.NetworkState.Removed (last : Prop) (validator : ValidatorMetadata C)
    (state state' : Database.NetworkState C) : Prop where
  shares : state'.shares = state.shares.remove validator.publicKey
  metadata : state'.metadata = state.metadata.remove validator.publicKey
  id : state'.id = state.id
  kept : ¬ last → state'.clusters = state.clusters ∧ state'.ownClusters = state.ownClusters
  dropped : last → state'.clusters = state.clusters.remove validator.clusterId ∧
    state'.ownClusters = state.ownClusters.erase validator.clusterId

structure Removal (env : DatabaseEnv C) (sql sql' : Sql C) (validator : ValidatorMetadata C) :
    Prop where
  wellFormed : sql.WellFormed env
  stored : validator ∈ sql.validators
  removed : sql.Removed sql' validator

namespace Removal

variable {env : DatabaseEnv C} {validator : ValidatorMetadata C}

theorem wellFormed' (h : Removal env sql sql' validator) : sql'.WellFormed env :=
  h.wellFormed.removed h.stored h.removed

omit [DecidableEq C] in
theorem inCluster (h : Removal env sql sql' validator) (pubkey : PublicKeyBytes) (c : C) :
    sql'.InCluster pubkey c ↔ sql.InCluster pubkey c ∧ pubkey ≠ validator.publicKey := by
  constructor
  · rintro ⟨v, hv, rfl, rfl⟩
    obtain ⟨hmem, hne⟩ := (h.removed.validators v).mp hv
    exact ⟨⟨v, hmem, rfl, rfl⟩, hne⟩
  · rintro ⟨⟨v, hv, rfl, rfl⟩, hne⟩
    exact ⟨v, (h.removed.validators v).mpr ⟨hv, hne⟩, rfl, rfl⟩

omit [DecidableEq C] in
theorem ownedBy (h : Removal env sql sql' validator) (c : C) (owner : Address) :
    sql'.OwnedBy c owner ↔
      sql.OwnedBy c owner ∧ ¬ (sql.IsLast validator ∧ c = validator.clusterId) := by
  constructor
  · rintro ⟨row, hrow, rfl, rfl⟩
    obtain ⟨hmem, hkept⟩ := (h.removed.clusters row).mp hrow
    exact ⟨⟨row, hmem, rfl, rfl⟩, hkept⟩
  · rintro ⟨⟨row, hrow, rfl, rfl⟩, hkept⟩
    exact ⟨row, (h.removed.clusters row).mpr ⟨hrow, hkept⟩, rfl, rfl⟩

omit [DecidableEq C] in
theorem hasCluster (h : Removal env sql sql' validator) (c : C) :
    sql'.HasCluster c ↔
      sql.HasCluster c ∧ ¬ (sql.IsLast validator ∧ c = validator.clusterId) := by
  simp only [Sql.hasCluster_iff, h.ownedBy, exists_and_right]

theorem remove_indexed {V : Type} {m : ValidatorMap C V} (h : Removal env sql sql' validator)
    (hm : ValidatorMap.Indexed sha256 sql m) :
    ValidatorMap.Indexed sha256 sql' (m.remove validator.publicKey) := by
  have hne : ∀ pubkey, ((m.remove validator.publicKey).primary pubkey).isSome →
      pubkey ≠ validator.publicKey := by
    rintro pubkey hsome rfl
    simp [MultiIndexMap.primary_remove] at hsome
  refine (hm.remove validator.publicKey).congr ?_ ?_ ?_
  · intro pubkey hsome c
    rw [h.inCluster, and_iff_left (hne pubkey hsome)]
  · intro pubkey c hsome hin owner
    rw [h.ownedBy, and_iff_left (hin.kept (hne pubkey hsome))]
  · intro pubkey c hsome hin id
    rw [h.removed.clusterMembers, and_iff_left (hin.kept (hne pubkey hsome))]

theorem present_nonempty_iff {m : ValidatorMap C (ValidatorMetadata C)}
    (h : Removal env sql sql' validator) (hm : ValidatorMap.Indexed sha256 sql m)
    (hprimary : m.primary = sql.validators.find?) :
    ((m.remove validator.publicKey).present
      ((m.remove validator.publicKey).secondary validator.clusterId)).Nonempty ↔
        ¬ sql.IsLast validator := by
  have hindexed := h.remove_indexed hm
  rw [MultiIndexMap.present_eq (hindexed.closed.secondary _)]
  simp only [Finset.Nonempty, hindexed.secondary, h.inCluster, Sql.IsLast, not_forall]
  constructor
  · rintro ⟨pubkey, -, ⟨v, hv, rfl, hid⟩, hne⟩
    exact ⟨v, hv, hid, hne⟩
  · rintro ⟨v, hv, hid, hne⟩
    refine ⟨v.publicKey, ?_, ⟨v, hv, rfl, hid⟩, hne⟩
    rw [MultiIndexMap.primary_remove, Function.update_of_ne hne, hprimary,
      Table.find?_eq_some.mpr ⟨hv, rfl⟩]
    rfl

theorem clusters_indexed_of_not_last {m : ClusterMap C} (h : Removal env sql sql' validator)
    (hnot : ¬ sql.IsLast validator) (hm : ClusterMap.Indexed sha256 sql m) :
    ClusterMap.Indexed sha256 sql' m := by
  have hhas : ∀ c, sql'.HasCluster c ↔ sql.HasCluster c := by simp [h.hasCluster, hnot]
  constructor
  · simpa only [hhas] using hm.primary
  · intro pubkey c hin
    exact hm.secondary pubkey c ((h.inCluster pubkey c).mp hin).1
  · simpa only [hhas] using hm.secondary_closed
  · simpa [h.ownedBy, hnot] using hm.tertiary
  · intro q c
    have hcommittee : sql'.committeeOf sha256 c = sql.committeeOf sha256 c :=
      Sql.committeeOf_congr sha256 fun id => by simp [h.removed.clusterMembers, hnot]
    rw [hm.quaternary, hhas, hcommittee]

theorem clusters_indexed_of_last {m : ClusterMap C} (h : Removal env sql sql' validator)
    (hlast : sql.IsLast validator) (hm : ClusterMap.Indexed sha256 sql m) :
    ClusterMap.Indexed sha256 sql' (m.remove validator.clusterId) := by
  rw [hm.closed.remove_eq]
  constructor
  · intro c
    rw [h.hasCluster, ← hm.primary]
    by_cases hc : c = validator.clusterId
    · subst hc
      simp [hlast]
    · simp [hc]
  · intro pubkey c hin
    obtain ⟨hin, hne⟩ := (h.inCluster pubkey c).mp hin
    have hc : c ≠ validator.clusterId := fun hc => hin.kept hne ⟨hlast, hc⟩
    change (m.secondary pubkey).erase validator.clusterId = {c}
    rw [hm.secondary pubkey c hin, Finset.erase_eq_of_notMem (by simpa using hc.symm)]
  · intro pubkey c hc
    obtain ⟨hne, hmem⟩ := Finset.mem_erase.mp hc
    exact (h.hasCluster c).mpr ⟨hm.secondary_closed pubkey c hmem, fun hgone => hne hgone.2⟩
  · intro owner c
    rw [Finset.mem_erase, hm.tertiary, h.ownedBy]
    simp [hlast, and_comm]
  · intro q c
    rw [Finset.mem_erase, hm.quaternary, h.hasCluster]
    by_cases hc : c = validator.clusterId
    · simp [hc, hlast]
    · have hcommittee : sql'.committeeOf sha256 c = sql.committeeOf sha256 c :=
        Sql.committeeOf_congr sha256 fun id => by simp [h.removed.clusterMembers, hc]
      simp [hc, hcommittee]

omit [DecidableEq C] in
theorem clusters_valued {m m' : ClusterMap C} (h : Removal env sql sql' validator)
    (hm : ClusterMap.Valued sql m)
    (hsub : ∀ c cluster, m'.primary c = some cluster → m.primary c = some cluster ∧
      ¬ (sql.IsLast validator ∧ c = validator.clusterId)) : ClusterMap.Valued sql' m' := by
  constructor
  · intro c cluster hc
    obtain ⟨hmem, hkept⟩ := hsub c cluster hc
    exact (h.ownedBy c cluster.owner).mpr ⟨hm.owner c cluster hmem, hkept⟩
  · intro c cluster hc
    rw [hm.feeRecipient c cluster (hsub c cluster hc).1]
    simp only [Sql.feeRecipientOf, Sql.feeRecipientForOwner, h.removed.owners]
  · intro c cluster hc id
    obtain ⟨hmem, hkept⟩ := hsub c cluster hc
    rw [h.removed.clusterMembers, and_iff_left hkept]
    exact hm.clusterMembers c cluster hmem id

theorem exists_deleteValidator (h : Removal env sql sql' validator)
    (hstate : Mirrors sha256 sql state) :
    ∃ state', state.deleteValidator validator.publicKey = some state' ∧
      state.Removed (sql.IsLast validator) validator state' := by
  have hprimary : state.metadata.primary validator.publicKey = some validator := by
    rw [hstate.metadata]
    exact Table.find?_eq_some.mpr ⟨h.stored, rfl⟩
  have hnonempty := h.present_nonempty_iff hstate.metadata_indexed hstate.metadata
  refine ⟨_, by rw [Database.NetworkState.deleteValidator, hprimary], ?_⟩
  unfold Database.NetworkState.dropEmptyCluster
  split
  · rename_i hne
    exact ⟨rfl, rfl, rfl, fun _ => ⟨rfl, rfl⟩, fun hlast => absurd hlast (hnonempty.mp hne)⟩
  · rename_i hne
    exact ⟨rfl, rfl, rfl, fun hnot => absurd (hnonempty.mpr hnot) hne, fun _ => ⟨rfl, rfl⟩⟩

theorem mirrors (h : Removal env sql sql' validator) (hstate : Mirrors sha256 sql state)
    {state' : Database.NetworkState C}
    (hremoved : state.Removed (sql.IsLast validator) validator state') :
    Mirrors sha256 sql' state' := by
  constructor
  case metadata =>
    funext pubkey
    apply Option.ext
    intro v
    rw [hremoved.metadata, MultiIndexMap.primary_remove, Table.find?_eq_some,
      h.removed.validators, hstate.metadata]
    by_cases hpubkey : pubkey = validator.publicKey
    · subst hpubkey
      simp only [Function.update_self, reduceCtorEq, false_iff]
      rintro ⟨⟨-, hne⟩, heq⟩
      exact hne heq
    · rw [Function.update_of_ne hpubkey, Table.find?_eq_some]
      constructor
      · rintro ⟨hv, rfl⟩
        exact ⟨⟨hv, hpubkey⟩, rfl⟩
      · rintro ⟨⟨hv, -⟩, hkey⟩
        exact ⟨hv, hkey⟩
  case metadata_indexed =>
    rw [hremoved.metadata]
    exact h.remove_indexed hstate.metadata_indexed
  case shares =>
    intro pubkey share hshare
    rw [hremoved.shares, MultiIndexMap.primary_remove] at hshare
    by_cases hpubkey : pubkey = validator.publicKey
    · subst hpubkey
      simp at hshare
    · rw [Function.update_of_ne hpubkey] at hshare
      obtain ⟨hmem, rfl⟩ := hstate.shares pubkey share hshare
      obtain ⟨v, hv, hkey, hid⟩ := h.wellFormed.share_validator share hmem
      exact ⟨(h.removed.mem_shares share).mpr
        ⟨hmem, hpubkey, Sql.InCluster.kept ⟨v, hv, hkey, hid⟩ hpubkey⟩, rfl⟩
  case shares_indexed =>
    rw [hremoved.shares]
    exact h.remove_indexed hstate.shares_indexed
  case clusters_indexed =>
    by_cases hlast : sql.IsLast validator
    · rw [(hremoved.dropped hlast).1]
      exact h.clusters_indexed_of_last hlast hstate.clusters_indexed
    · rw [(hremoved.kept hlast).1]
      exact h.clusters_indexed_of_not_last hlast hstate.clusters_indexed
  case clusters_valued =>
    refine h.clusters_valued hstate.clusters_valued fun c cluster hc => ?_
    by_cases hlast : sql.IsLast validator
    · rw [(hremoved.dropped hlast).1, MultiIndexMap.primary_remove] at hc
      by_cases hcc : c = validator.clusterId
      · subst hcc
        simp at hc
      · rw [Function.update_of_ne hcc] at hc
        exact ⟨hc, fun hgone => hcc hgone.2⟩
    · rw [(hremoved.kept hlast).1] at hc
      exact ⟨hc, fun hgone => hlast hgone.1⟩

end Removal

end Anchor
