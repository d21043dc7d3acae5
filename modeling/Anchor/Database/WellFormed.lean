import Mathlib
import Anchor.Database.Statements

/-!
# Well-formed tables

What the constraints, the triggers and the checks of the event processor keep true of
the tables: validators, clusters, members and shares belong together.
-/

namespace Anchor

open Ssz

variable {C : Type}

namespace Sql

structure WellFormed (env : DatabaseEnv C) (sql : Sql C) : Prop where
  validator_cluster : ∀ v ∈ sql.validators, ∃ row ∈ sql.clusters, row.clusterId = v.clusterId
  cluster_validator : ∀ row ∈ sql.clusters, ∃ v ∈ sql.validators, v.clusterId = row.clusterId
  cluster_members : ∀ row ∈ sql.clusters, ∃ ids : List OperatorId, ids ≠ [] ∧ ids.Nodup ∧
    row.clusterId = computeClusterId env.keccak256 row.owner ids ∧
    ∀ id, ⟨row.clusterId, id⟩ ∈ sql.clusterMembers ↔ id ∈ ids
  member_cluster : ∀ m ∈ sql.clusterMembers, ∃ row ∈ sql.clusters, row.clusterId = m.clusterId
  member_operator : ∀ m ∈ sql.clusterMembers, ∃ row ∈ sql.operators, row.operatorId = m.operatorId
  share_validator : ∀ s ∈ sql.shares, ∃ v ∈ sql.validators, v.publicKey = s.validatorPubkey ∧
    v.clusterId = s.clusterId
  share_iff : ∀ v ∈ sql.validators, ∀ id, (∃ s ∈ sql.shares, s.validatorPubkey = v.publicKey ∧
    s.operatorId = id) ↔ ⟨v.clusterId, id⟩ ∈ sql.clusterMembers
  shares_valid : ∀ v ∈ sql.validators, validateSharePublicKeys env.interpolates v.publicKey
    ((sql.shares.rows.filter (·.validatorPubkey = v.publicKey)).map fun s =>
      (s.operatorId, s.sharePubkey)) = .ok ()
  key_unique : ∀ a ∈ sql.operators, ∀ b ∈ sql.operators, a.publicKey = b.publicKey → a = b
  operator_storable : ∀ row ∈ sql.operators, storable row.operatorId = true
  nonces : sql.NoncesOk

variable {env : DatabaseEnv C} {sql sql' : Sql C}

theorem wellFormed_new : (new : Sql C).WellFormed env := by
  constructor <;> intro x hx <;> exact absurd hx (Table.not_mem_empty _)

theorem WellFormed.congr (h : sql.WellFormed env) (hcore : sql.SameCore sql')
    (hnonces : sql'.NoncesOk) : sql'.WellFormed env := by
  obtain ⟨h1, h2, h3, h4, h5, h6, h7, h8, h9, h10, -⟩ := h
  constructor
  all_goals
    first
    | exact hnonces
    | simpa only [hcore.operators, hcore.clusters, hcore.clusterMembers, hcore.validators,
        hcore.shares] using by assumption

/-! ## Operators -/

theorem mem_of_getAnyOperatorId {key : Bytes} (h : sql.getAnyOperatorId key = none) :
    ∀ row ∈ sql.operators, row.publicKey ≠ key := by
  intro row hrow heq
  have hnone : sql.operators.rows.find? (fun row => row.publicKey = key) = none := by
    simpa [getAnyOperatorId] using h
  exact absurd heq (by simpa using List.find?_eq_none.mp hnone row hrow)

theorem insertOperator_ok {operator : Operator} (h : sql.insertOperator operator = .ok sql') :
    storable operator.id = true ∧ sql.operators.find? operator.id = none ∧
    (∀ row ∈ sql.operators, row.publicKey ≠ operator.rsaPubkey) ∧
    ∃ operators : Table OperatorRow.operatorId, sql' = { sql with operators } ∧
      ∀ row, row ∈ operators ↔
        row ∈ sql.operators ∨ row = ⟨operator.id, operator.rsaPubkey, operator.owner, false⟩ := by
  unfold insertOperator at h
  split at h
  · cases h
  rename_i hid
  split at h
  · rename_i operators hinsert
    split at h
    · cases h
    · rename_i hkey
      cases h
      refine ⟨by simpa using hid, (Table.insert?_eq_some hinsert).1,
        mem_of_getAnyOperatorId (by simpa using hkey), operators, rfl,
        fun row => Table.mem_of_insert? hinsert⟩
  · cases h

theorem WellFormed.insertOperator (hsql : sql.WellFormed env) {operator : Operator}
    (h : sql.insertOperator operator = .ok sql') : sql'.WellFormed env := by
  obtain ⟨hid, -, hkey, operators, rfl, hmem⟩ := insertOperator_ok h
  refine { hsql with member_operator := ?_, key_unique := ?_, operator_storable := ?_ }
  · intro m hm
    obtain ⟨row, hrow, hid⟩ := hsql.member_operator m hm
    exact ⟨row, (hmem row).mpr (Or.inl hrow), hid⟩
  · intro a ha b hb hab
    rcases (hmem a).mp ha with ha | rfl <;> rcases (hmem b).mp hb with hb | rfl
    · exact hsql.key_unique a ha b hb hab
    · exact absurd hab (hkey a ha)
    · exact absurd hab.symm (hkey b hb)
    · rfl
  · intro row hrow
    rcases (hmem row).mp hrow with hrow | rfl
    · exact hsql.operator_storable row hrow
    · exact hid

theorem mem_operators_deleteOperator {id : OperatorId} {row : OperatorRow} :
    row ∈ (sql.deleteOperator id).operators ↔
      row ∈ sql.operators ∧ row.operatorId ≠ id ∨
      (∃ m ∈ sql.clusterMembers, m.operatorId = id) ∧
        ∃ old ∈ sql.operators, old.operatorId = id ∧ row = { old with removed := true } := by
  unfold deleteOperator
  split
  · rename_i hmember
    have hmember : ∃ m ∈ sql.clusterMembers, m.operatorId = id := by
      simpa [Table.mem_def] using hmember
    rw [Table.mem_update]
    constructor
    · rintro ⟨old, hold, rfl⟩
      by_cases hid : old.operatorId = id
      · rw [if_pos hid]
        exact Or.inr ⟨hmember, old, hold, hid, rfl⟩
      · rw [if_neg hid]
        exact Or.inl ⟨hold, hid⟩
    · rintro (⟨hrow, hid⟩ | ⟨-, old, hold, hid, rfl⟩)
      · exact ⟨row, hrow, if_neg hid⟩
      · exact ⟨old, hold, if_pos hid⟩
  · rename_i hmember
    have hmember : ¬ ∃ m ∈ sql.clusterMembers, m.operatorId = id := by
      simpa [Table.mem_def] using hmember
    simp [hmember]

@[simp] theorem clusters_deleteOperator (id : OperatorId) :
    (sql.deleteOperator id).clusters = sql.clusters := by
  unfold deleteOperator
  split <;> rfl

@[simp] theorem clusterMembers_deleteOperator (id : OperatorId) :
    (sql.deleteOperator id).clusterMembers = sql.clusterMembers := by
  unfold deleteOperator
  split <;> rfl

@[simp] theorem validators_deleteOperator (id : OperatorId) :
    (sql.deleteOperator id).validators = sql.validators := by
  unfold deleteOperator
  split <;> rfl

@[simp] theorem shares_deleteOperator (id : OperatorId) :
    (sql.deleteOperator id).shares = sql.shares := by
  unfold deleteOperator
  split <;> rfl

@[simp] theorem owners_deleteOperator (id : OperatorId) :
    (sql.deleteOperator id).owners = sql.owners := by
  unfold deleteOperator
  split <;> rfl

theorem WellFormed.deleteOperator (hsql : sql.WellFormed env) (id : OperatorId) :
    (sql.deleteOperator id).WellFormed env := by
  obtain ⟨h1, h2, h3, h4, h5, h6, h7, h8, h9, hstorable, h10⟩ := hsql
  constructor
  case operator_storable =>
    intro row hrow
    rcases mem_operators_deleteOperator.mp hrow with ⟨hrow, -⟩ | ⟨-, old, hold, -, rfl⟩
    · exact hstorable row hrow
    · exact hstorable old hold
  case member_operator =>
    intro m hm
    rw [clusterMembers_deleteOperator] at hm
    obtain ⟨row, hrow, hid⟩ := h5 m hm
    by_cases hrowid : row.operatorId = id
    · exact ⟨{ row with removed := true },
        mem_operators_deleteOperator.mpr
          (Or.inr ⟨⟨m, hm, hid.symm.trans hrowid⟩, row, hrow, hrowid, rfl⟩), hid⟩
    · exact ⟨row, mem_operators_deleteOperator.mpr (Or.inl ⟨hrow, hrowid⟩), hid⟩
  case key_unique =>
    intro a ha b hb hab
    rcases mem_operators_deleteOperator.mp ha with ⟨ha, hida⟩ | ⟨-, a', ha', hida, rfl⟩ <;>
      rcases mem_operators_deleteOperator.mp hb with ⟨hb, hidb⟩ | ⟨-, b', hb', hidb, rfl⟩
    · exact h9 a ha b hb hab
    · rw [h9 a ha b' hb' hab] at hida
      exact absurd hidb hida
    · rw [← h9 a' ha' b hb hab] at hidb
      exact absurd hida hidb
    · rw [h9 a' ha' b' hb' hab]
  case nonces =>
    simpa only [NoncesOk, owners_deleteOperator] using h10
  all_goals
    simpa only [clusters_deleteOperator, clusterMembers_deleteOperator, validators_deleteOperator,
      shares_deleteOperator] using by assumption

/-! ## Fee recipients and the status of clusters -/

def feeRecipientOf (sql : Sql C) (owner : Address) : Address :=
  (sql.feeRecipientForOwner owner).getD owner

theorem WellFormed.setFeeRecipient (hsql : sql.WellFormed env) (owner recipient : Address) :
    (sql.setFeeRecipient owner recipient).WellFormed env := by
  refine { hsql with nonces := ?_ }
  intro row hrow nonce hnonce
  simp only [Sql.setFeeRecipient, Table.upsert] at hrow
  split at hrow
  · rcases Table.mem_insertOrIgnore.mp hrow with hrow | ⟨rfl, -⟩
    · exact hsql.nonces row hrow nonce hnonce
    · cases hnonce
  · obtain ⟨old, hold, rfl⟩ := Table.mem_update.mp hrow
    split at hnonce <;> exact hsql.nonces old hold nonce hnonce

variable [DecidableEq C]

theorem mem_clusters_updateClusterStatus {clusterId : C} {liquidated : Bool} {row : ClusterRow C} :
    row ∈ (sql.updateClusterStatus clusterId liquidated).clusters ↔ ∃ old ∈ sql.clusters,
      row = if old.clusterId = clusterId then { old with liquidated } else old := by
  simp only [updateClusterStatus, Table.mem_update, eq_comm (a := row)]

theorem exists_updateClusterStatus {clusterId : C} {liquidated : Bool} {P : C → Address → Prop} :
    (∃ row ∈ (sql.updateClusterStatus clusterId liquidated).clusters, P row.clusterId row.owner) ↔
      ∃ row ∈ sql.clusters, P row.clusterId row.owner := by
  have hsame : ∀ old : ClusterRow C,
      (if old.clusterId = clusterId then { old with liquidated } else old).clusterId =
        old.clusterId ∧
      (if old.clusterId = clusterId then { old with liquidated } else old).owner = old.owner := by
    intro old
    split <;> exact ⟨rfl, rfl⟩
  constructor
  · rintro ⟨row, hrow, hP⟩
    obtain ⟨old, hold, rfl⟩ := mem_clusters_updateClusterStatus.mp hrow
    rw [(hsame old).1, (hsame old).2] at hP
    exact ⟨old, hold, hP⟩
  · rintro ⟨old, hold, hP⟩
    refine ⟨_, mem_clusters_updateClusterStatus.mpr ⟨old, hold, rfl⟩, ?_⟩
    rwa [(hsame old).1, (hsame old).2]

theorem WellFormed.updateClusterStatus (hsql : sql.WellFormed env) (clusterId : C)
    (liquidated : Bool) : (sql.updateClusterStatus clusterId liquidated).WellFormed env := by
  have hold : ∀ row ∈ (sql.updateClusterStatus clusterId liquidated).clusters,
      ∃ old ∈ sql.clusters, row.clusterId = old.clusterId ∧ row.owner = old.owner := by
    intro row hrow
    obtain ⟨old, hmem, rfl⟩ := mem_clusters_updateClusterStatus.mp hrow
    refine ⟨old, hmem, ?_⟩
    split <;> exact ⟨rfl, rfl⟩
  refine { hsql with
    validator_cluster := ?_, cluster_validator := ?_, cluster_members := ?_, member_cluster := ?_ }
  · intro v hv
    exact (exists_updateClusterStatus (P := fun id _ => id = v.clusterId)).mpr
      (hsql.validator_cluster v hv)
  · intro row hrow
    obtain ⟨old, hmem, hid, -⟩ := hold row hrow
    rw [hid]
    exact hsql.cluster_validator old hmem
  · intro row hrow
    obtain ⟨old, hmem, hid, howner⟩ := hold row hrow
    rw [hid, howner]
    exact hsql.cluster_members old hmem
  · intro m hm
    exact (exists_updateClusterStatus (P := fun id _ => id = m.clusterId)).mpr
      (hsql.member_cluster m hm)

/-! ## Adding a validator -/

omit [DecidableEq C] in
theorem WellFormed.cluster_eq (hsql : sql.WellFormed env)
    (hkeccak : Function.Injective env.keccak256) {row : ClusterRow C} (hrow : row ∈ sql.clusters)
    {owner : Address} {ids : List OperatorId}
    (hid : row.clusterId = computeClusterId env.keccak256 owner ids) :
    row.owner = owner ∧ ∀ id, ⟨row.clusterId, id⟩ ∈ sql.clusterMembers ↔ id ∈ ids := by
  obtain ⟨ids', -, -, hid', hmembers⟩ := hsql.cluster_members row hrow
  obtain ⟨howner, hperm⟩ := computeClusterId_inj hkeccak (hid'.symm.trans hid)
  exact ⟨howner, fun id => (hmembers id).trans hperm.mem_iff⟩

section Added

variable {envE : EventEnv C} {owner : Address} {ids : List OperatorId} {pubkey : PublicKeyBytes}
  {shares : List (Share C)} {cluster : Cluster C} {validator : ValidatorMetadata C}

section

variable (hadd : sql.Added sql' cluster validator shares)
  (hva : ValidatorAddition envE sql owner ids pubkey shares)
include hadd hva

theorem Added.mem_clusterMembers (m : ClusterMember C) :
    m ∈ sql'.clusterMembers ↔ m ∈ sql.clusterMembers ∨
      m.clusterId = computeClusterId envE.keccak256 owner ids ∧ m.operatorId ∈ ids := by
  rw [hadd.clusterMembers]
  refine or_congr_right ?_
  constructor
  · rintro ⟨share, hshare, rfl⟩
    refine ⟨(hva.belongs share hshare).2, ?_⟩
    rw [← hva.operators]
    exact List.mem_map_of_mem hshare
  · rintro ⟨hcluster, hoperator⟩
    rw [← hva.operators] at hoperator
    obtain ⟨share, hshare, hid⟩ := List.mem_map.mp hoperator
    refine ⟨share, hshare, ?_⟩
    rw [(hva.belongs share hshare).2, hid, ← hcluster]

theorem Added.members_iff
    (hsql : sql.WellFormed envE.toDatabaseEnv) (hkeccak : Function.Injective envE.keccak256)
    (id : OperatorId) :
    ⟨computeClusterId envE.keccak256 owner ids, id⟩ ∈ sql'.clusterMembers ↔ id ∈ ids := by
  rw [hadd.mem_clusterMembers hva]
  constructor
  · rintro (hold | hnew)
    · obtain ⟨row, hrow, hid⟩ := hsql.member_cluster _ hold
      refine ((hsql.cluster_eq hkeccak hrow hid).2 id).mp ?_
      rwa [show row.clusterId = computeClusterId envE.keccak256 owner ids from hid]
    · exact hnew.2
  · intro hid
    exact Or.inr ⟨rfl, hid⟩

theorem Added.members_iff_of_mem
    (hsql : sql.WellFormed envE.toDatabaseEnv) (hkeccak : Function.Injective envE.keccak256)
    {row : ClusterRow C} (hrow : row ∈ sql.clusters) (id : OperatorId) :
    ⟨row.clusterId, id⟩ ∈ sql'.clusterMembers ↔ ⟨row.clusterId, id⟩ ∈ sql.clusterMembers := by
  by_cases hid : row.clusterId = computeClusterId envE.keccak256 owner ids
  · rw [(hsql.cluster_eq hkeccak hrow hid).2 id, hid]
    exact hadd.members_iff hva hsql hkeccak id
  · rw [hadd.mem_clusterMembers hva]
    simp [hid]

end

theorem Added.mem_clusters (hadd : sql.Added sql' cluster validator shares) (row : ClusterRow C) :
    row ∈ sql'.clusters ↔ row ∈ sql.clusters ∨
      row = ⟨cluster.clusterId, cluster.owner, false⟩ ∧
        ∀ old ∈ sql.clusters, old.clusterId ≠ cluster.clusterId := by
  rw [hadd.clusters, Table.mem_insertOrIgnore, Table.find?_eq_none]

theorem Added.mem_shares (hadd : sql.Added sql' cluster validator shares) (s : Share C) :
    s ∈ sql'.shares ↔ s ∈ sql.shares ∨ s ∈ shares := by
  rw [Table.mem_def, hadd.shares, List.mem_append, Table.mem_def]

omit [DecidableEq C] in
theorem WellFormed.share_ne (hsql : sql.WellFormed env)
    (hfresh : sql.validators.find? pubkey = none) {s : Share C} (hs : s ∈ sql.shares) :
    s.validatorPubkey ≠ pubkey := by
  obtain ⟨v, hv, hpubkey, -⟩ := hsql.share_validator s hs
  rw [← hpubkey]
  exact Table.find?_eq_none.mp hfresh v hv

theorem Added.exists_cluster (hadd : sql.Added sql' cluster validator shares) :
    ∃ row ∈ sql'.clusters, row.clusterId = cluster.clusterId := by
  by_cases hold : ∃ old ∈ sql.clusters, old.clusterId = cluster.clusterId
  · obtain ⟨old, hmem, hid⟩ := hold
    exact ⟨old, (hadd.mem_clusters old).mpr (Or.inl hmem), hid⟩
  · push Not at hold
    exact ⟨_, (hadd.mem_clusters _).mpr (Or.inr ⟨rfl, hold⟩), rfl⟩

theorem WellFormed.added (hsql : sql.WellFormed envE.toDatabaseEnv)
    (hkeccak : Function.Injective envE.keccak256)
    (hva : ValidatorAddition envE sql owner ids pubkey shares)
    (hadd : sql.Added sql' cluster validator shares)
    (hcluster : cluster.clusterId = computeClusterId envE.keccak256 owner ids)
    (howner : cluster.owner = owner) (hvalidator : validator.clusterId = cluster.clusterId)
    (hpubkey : validator.publicKey = pubkey) : sql'.WellFormed envE.toDatabaseEnv := by
  have hfresh : ∀ v ∈ sql.validators, v.publicKey ≠ pubkey := Table.find?_eq_none.mp hva.fresh
  constructor
  case validator_cluster =>
    intro v hv
    rcases (hadd.validators v).mp hv with hv | rfl
    · obtain ⟨row, hrow, hid⟩ := hsql.validator_cluster v hv
      exact ⟨row, (hadd.mem_clusters row).mpr (Or.inl hrow), hid⟩
    · obtain ⟨row, hrow, hid⟩ := hadd.exists_cluster
      exact ⟨row, hrow, hid.trans hvalidator.symm⟩
  case cluster_validator =>
    intro row hrow
    rcases (hadd.mem_clusters row).mp hrow with hrow | ⟨rfl, -⟩
    · obtain ⟨v, hv, hid⟩ := hsql.cluster_validator row hrow
      exact ⟨v, (hadd.validators v).mpr (Or.inl hv), hid⟩
    · exact ⟨validator, (hadd.validators _).mpr (Or.inr rfl), hvalidator⟩
  case cluster_members =>
    intro row hrow
    rcases (hadd.mem_clusters row).mp hrow with hrow | ⟨rfl, -⟩
    · obtain ⟨ids', hne, hnodup, hid, hmembers⟩ := hsql.cluster_members row hrow
      refine ⟨ids', hne, hnodup, hid, fun id => ?_⟩
      rw [hadd.members_iff_of_mem hva hsql hkeccak hrow]
      exact hmembers id
    · refine ⟨ids, ?_, hva.nodup, ?_, fun id => ?_⟩
      · rintro rfl
        exact absurd hva.size (by decide)
      · rw [hcluster, howner]
      · rw [hcluster]
        exact hadd.members_iff hva hsql hkeccak id
  case member_cluster =>
    intro m hm
    rcases (hadd.mem_clusterMembers hva m).mp hm with hm | ⟨hid, -⟩
    · obtain ⟨row, hrow, hid⟩ := hsql.member_cluster m hm
      exact ⟨row, (hadd.mem_clusters row).mpr (Or.inl hrow), hid⟩
    · obtain ⟨row, hrow, hrowid⟩ := hadd.exists_cluster
      exact ⟨row, hrow, hrowid.trans (hcluster.trans hid.symm)⟩
  case member_operator =>
    intro m hm
    rw [hadd.operators]
    rcases (hadd.mem_clusterMembers hva m).mp hm with hm | ⟨-, hid⟩
    · exact hsql.member_operator m hm
    · obtain ⟨row, hrow, hrowid, -⟩ := hva.active m.operatorId hid
      exact ⟨row, hrow, hrowid⟩
  case share_validator =>
    intro s hs
    rcases (hadd.mem_shares s).mp hs with hs | hs
    · obtain ⟨v, hv, hv'⟩ := hsql.share_validator s hs
      exact ⟨v, (hadd.validators v).mpr (Or.inl hv), hv'⟩
    · refine ⟨validator, (hadd.validators _).mpr (Or.inr rfl), ?_, ?_⟩
      · rw [hpubkey, (hva.belongs s hs).1]
      · rw [hvalidator, hcluster, (hva.belongs s hs).2]
  case share_iff =>
    intro v hv id
    rcases (hadd.validators v).mp hv with hv | rfl
    · obtain ⟨row, hrow, hid⟩ := hsql.validator_cluster v hv
      rw [← hid, hadd.members_iff_of_mem hva hsql hkeccak hrow, hid, ← hsql.share_iff v hv id]
      constructor
      · rintro ⟨s, hs, hsv, hsid⟩
        rcases (hadd.mem_shares s).mp hs with hs | hs
        · exact ⟨s, hs, hsv, hsid⟩
        · exact absurd (hsv.symm.trans (hva.belongs s hs).1) (hfresh v hv)
      · rintro ⟨s, hs, hs'⟩
        exact ⟨s, (hadd.mem_shares s).mpr (Or.inl hs), hs'⟩
    · rw [hvalidator, hcluster, hadd.members_iff hva hsql hkeccak, ← hva.operators, List.mem_map,
        hpubkey]
      constructor
      · rintro ⟨s, hs, hsv, hsid⟩
        rcases (hadd.mem_shares s).mp hs with hs | hs
        · exact absurd hsv (hsql.share_ne hva.fresh hs)
        · exact ⟨s, hs, hsid⟩
      · rintro ⟨s, hs, hsid⟩
        exact ⟨s, (hadd.mem_shares s).mpr (Or.inr hs), (hva.belongs s hs).1, hsid⟩
  case shares_valid =>
    intro v hv
    rw [hadd.shares, List.filter_append]
    rcases (hadd.validators v).mp hv with hv | rfl
    · have hnew : shares.filter (fun s => s.validatorPubkey = v.publicKey) = [] := by
        rw [List.filter_eq_nil_iff]
        intro s hs
        simpa [(hva.belongs s hs).1] using (hfresh v hv).symm
      rw [hnew, List.append_nil]
      exact hsql.shares_valid v hv
    · have hold : sql.shares.rows.filter (fun s => s.validatorPubkey = v.publicKey) = [] := by
        rw [List.filter_eq_nil_iff]
        intro s hs
        simpa [hpubkey] using hsql.share_ne hva.fresh hs
      have hnew : shares.filter (fun s => s.validatorPubkey = v.publicKey) = shares := by
        rw [List.filter_eq_self]
        intro s hs
        simpa [hpubkey] using (hva.belongs s hs).1
      rw [hold, hnew, List.nil_append, hpubkey]
      exact hva.valid
  case key_unique =>
    rw [hadd.operators]
    exact hsql.key_unique
  case operator_storable =>
    rw [hadd.operators]
    exact hsql.operator_storable
  case nonces =>
    intro row hrow nonce hnonce
    rw [hadd.owners] at hrow
    rcases Table.mem_insertOrIgnore.mp hrow with hrow | ⟨rfl, -⟩
    · exact hsql.nonces row hrow nonce hnonce
    · cases hnonce

end Added

/-! ## Removing a validator -/

def IsLast (sql : Sql C) (validator : ValidatorMetadata C) : Prop :=
  ∀ v ∈ sql.validators, v.clusterId = validator.clusterId → v.publicKey = validator.publicKey

structure Removed (sql sql' : Sql C) (validator : ValidatorMetadata C) : Prop where
  validators : ∀ v, v ∈ sql'.validators ↔
    v ∈ sql.validators ∧ v.publicKey ≠ validator.publicKey
  clusters : ∀ row, row ∈ sql'.clusters ↔ row ∈ sql.clusters ∧
    ¬ (sql.IsLast validator ∧ row.clusterId = validator.clusterId)
  clusterMembers : ∀ m, m ∈ sql'.clusterMembers ↔ m ∈ sql.clusterMembers ∧
    ¬ (sql.IsLast validator ∧ m.clusterId = validator.clusterId)
  shares : ∃ p : Share C → Bool, sql'.shares.rows = sql.shares.rows.filter p ∧
    ∀ s, p s = true ↔ s.validatorPubkey ≠ validator.publicKey ∧
      ¬ (sql.IsLast validator ∧ s.clusterId = validator.clusterId)
  operators : ∀ row, row ∈ sql'.operators ↔ row ∈ sql.operators ∧
    ¬ (sql.IsLast validator ∧ row.removed = true ∧
      ⟨validator.clusterId, row.operatorId⟩ ∈ sql.clusterMembers ∧
      ∀ m ∈ sql'.clusterMembers, m.operatorId ≠ row.operatorId)
  owners : sql'.owners = sql.owners

variable {validator : ValidatorMetadata C}

theorem removed_deleteValidator
    (h : sql.validators.find? validator.publicKey = some validator) :
    sql.Removed (sql.deleteValidator validator.publicKey) validator := by
  have hlast : (sql.validators.delete (·.publicKey = validator.publicKey)).rows.any
      (·.clusterId = validator.clusterId) = true ↔ ¬ sql.IsLast validator := by
    simp only [IsLast, List.any_eq_true, decide_eq_true_eq]
    push Not
    constructor
    · rintro ⟨v, hv, hid⟩
      obtain ⟨hmem, hne⟩ := Table.mem_delete.mp hv
      exact ⟨v, hmem, hid, by simpa using hne⟩
    · rintro ⟨v, hmem, hid, hne⟩
      exact ⟨v, Table.mem_delete.mpr ⟨hmem, by simpa using hne⟩, hid⟩
  simp only [deleteValidator, h, deleteEmptyCluster]
  split
  · rename_i hany
    have hnot : ¬ sql.IsLast validator := hlast.mp hany
    constructor
    case shares =>
      exact ⟨_, rfl, by simp [hnot]⟩
    all_goals simp [hnot]
  · rename_i hany
    have his : sql.IsLast validator := not_not.mp fun hnot => hany (hlast.mpr hnot)
    constructor
    case shares =>
      refine ⟨_, List.filter_filter, ?_⟩
      intro s
      simp [his, and_comm]
    case operators =>
      intro row
      simp only [Table.mem_delete, his, true_and, Bool.and_eq_false_iff, Bool.not_eq_false',
        List.any_eq_true, List.any_eq_false, decide_eq_true_eq]
      refine and_congr_right fun _ => ?_
      constructor
      · rintro ((hremoved | hmember) | ⟨m, hm, hid⟩) ⟨hrow, hmem, hnone⟩
        · rw [hrow] at hremoved
          cases hremoved
        · exact hmember _ hmem rfl
        · exact hnone m (Table.mem_delete.mp hm) hid
      · intro hnot
        by_contra hcon
        push Not at hcon
        obtain ⟨⟨hremoved, m, hm, rfl⟩, hnone⟩ := hcon
        exact hnot ⟨by simpa using hremoved, hm, fun m' hm' => hnone m' (Table.mem_delete.mpr hm')⟩
    all_goals simp [his]

omit [DecidableEq C] in
theorem Removed.mem_shares (h : sql.Removed sql' validator)
    (s : Share C) : s ∈ sql'.shares ↔ s ∈ sql.shares ∧ s.validatorPubkey ≠ validator.publicKey ∧
      ¬ (sql.IsLast validator ∧ s.clusterId = validator.clusterId) := by
  obtain ⟨p, hrows, hp⟩ := h.shares
  rw [Table.mem_def, hrows, List.mem_filter, hp, Table.mem_def]

theorem WellFormed.removed (hsql : sql.WellFormed env)
    (hvalidator : validator ∈ sql.validators) (h : sql.Removed sql' validator) :
    sql'.WellFormed env := by
  -- a validator that stays keeps its cluster
  have hstays : ∀ v ∈ sql'.validators,
      ¬ (sql.IsLast validator ∧ v.clusterId = validator.clusterId) := by
    rintro v hv ⟨hlast, hid⟩
    obtain ⟨hmem, hne⟩ := (h.validators v).mp hv
    exact hne (hlast v hmem hid)
  -- and the shares of such a validator are kept
  have hshares : ∀ v ∈ sql'.validators, ∀ s ∈ sql.shares, s.validatorPubkey = v.publicKey →
      s.validatorPubkey ≠ validator.publicKey ∧
        ¬ (sql.IsLast validator ∧ s.clusterId = validator.clusterId) := by
    intro v hv s hs hsv
    obtain ⟨hmem, hne⟩ := (h.validators v).mp hv
    refine ⟨hsv ▸ hne, ?_⟩
    obtain ⟨w, hw, hwpubkey, hwid⟩ := hsql.share_validator s hs
    rw [Table.eq_of_key_eq hw hmem (hwpubkey.trans hsv)] at hwid
    rw [← hwid]
    exact hstays v hv
  constructor
  case validator_cluster =>
    intro v hv
    obtain ⟨row, hrow, hid⟩ := hsql.validator_cluster v ((h.validators v).mp hv).1
    exact ⟨row, (h.clusters row).mpr ⟨hrow, hid ▸ hstays v hv⟩, hid⟩
  case cluster_validator =>
    intro row hrow
    obtain ⟨hmem, hkept⟩ := (h.clusters row).mp hrow
    obtain ⟨v, hv, hid⟩ := hsql.cluster_validator row hmem
    by_cases hrowid : row.clusterId = validator.clusterId
    · have hnot : ¬ sql.IsLast validator := fun hlast => hkept ⟨hlast, hrowid⟩
      simp only [IsLast, not_forall] at hnot
      obtain ⟨w, hw, hwid, hne⟩ := hnot
      exact ⟨w, (h.validators w).mpr ⟨hw, hne⟩, hwid.trans hrowid.symm⟩
    · refine ⟨v, (h.validators v).mpr ⟨hv, ?_⟩, hid⟩
      intro hpubkey
      rw [Table.eq_of_key_eq hv hvalidator hpubkey] at hid
      exact hrowid hid.symm
  case cluster_members =>
    intro row hrow
    obtain ⟨hmem, hkept⟩ := (h.clusters row).mp hrow
    obtain ⟨ids, hne, hnodup, hid, hmembers⟩ := hsql.cluster_members row hmem
    refine ⟨ids, hne, hnodup, hid, fun id => ?_⟩
    rw [h.clusterMembers, hmembers, and_iff_left hkept]
  case member_cluster =>
    intro m hm
    obtain ⟨hmem, hkept⟩ := (h.clusterMembers m).mp hm
    obtain ⟨row, hrow, hid⟩ := hsql.member_cluster m hmem
    exact ⟨row, (h.clusters row).mpr ⟨hrow, hid ▸ hkept⟩, hid⟩
  case member_operator =>
    intro m hm
    obtain ⟨row, hrow, hid⟩ := hsql.member_operator m ((h.clusterMembers m).mp hm).1
    exact ⟨row, (h.operators row).mpr ⟨hrow, fun hgone => hgone.2.2.2 m hm hid.symm⟩, hid⟩
  case share_validator =>
    intro s hs
    obtain ⟨hmem, hne, -⟩ := (h.mem_shares s).mp hs
    obtain ⟨v, hv, hpubkey, hid⟩ := hsql.share_validator s hmem
    exact ⟨v, (h.validators v).mpr ⟨hv, hpubkey ▸ hne⟩, hpubkey, hid⟩
  case share_iff =>
    intro v hv id
    rw [h.clusterMembers, and_iff_left (hstays v hv),
      ← hsql.share_iff v ((h.validators v).mp hv).1 id]
    constructor
    · rintro ⟨s, hs, hs'⟩
      exact ⟨s, ((h.mem_shares s).mp hs).1, hs'⟩
    · rintro ⟨s, hs, hsv, hsid⟩
      exact ⟨s, (h.mem_shares s).mpr ⟨hs, hshares v hv s hs hsv⟩, hsv, hsid⟩
  case shares_valid =>
    intro v hv
    obtain ⟨p, hrows, hp⟩ := h.shares
    have hsame : sql'.shares.rows.filter (fun s => s.validatorPubkey = v.publicKey) =
        sql.shares.rows.filter fun s => s.validatorPubkey = v.publicKey := by
      rw [hrows, List.filter_filter]
      apply List.filter_congr
      intro s hs
      rw [Bool.and_eq_left_iff_imp]
      intro hsv
      exact (hp s).mpr (hshares v hv s hs (by simpa using hsv))
    rw [hsame]
    exact hsql.shares_valid v ((h.validators v).mp hv).1
  case key_unique =>
    intro a ha b hb
    exact hsql.key_unique a ((h.operators a).mp ha).1 b ((h.operators b).mp hb).1
  case operator_storable =>
    exact fun row hrow => hsql.operator_storable row ((h.operators row).mp hrow).1
  case nonces =>
    simpa only [NoncesOk, h.owners] using hsql.nonces

end Sql

end Anchor
