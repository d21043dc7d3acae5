import Mathlib
import Anchor.Database.WellFormed

/-!
# The state in memory mirrors the tables

The maps in memory hold what the tables hold, under the keys by which the tables relate
it, as far as this is true of every update.  Not every update keeps the index of clusters
by validator, the status of clusters and the own identity.
-/

namespace Anchor

open Ssz

variable {C : Type}

namespace Sql

def InCluster (sql : Sql C) (pubkey : PublicKeyBytes) (c : C) : Prop :=
  ∃ v ∈ sql.validators, v.publicKey = pubkey ∧ v.clusterId = c

def OwnedBy (sql : Sql C) (c : C) (owner : Address) : Prop :=
  ∃ row ∈ sql.clusters, row.clusterId = c ∧ row.owner = owner

def HasCluster (sql : Sql C) (c : C) : Prop := ∃ row ∈ sql.clusters, row.clusterId = c

variable {sql : Sql C}

theorem InCluster.unique {pubkey : PublicKeyBytes} {c c' : C}
    (h : sql.InCluster pubkey c) (h' : sql.InCluster pubkey c') : c = c' := by
  obtain ⟨v, hv, hpubkey, rfl⟩ := h
  obtain ⟨v', hv', hpubkey', rfl⟩ := h'
  rw [Table.eq_of_key_eq hv hv' (hpubkey.trans hpubkey'.symm)]

variable {c : C}

theorem OwnedBy.unique {owner owner' : Address}
    (h : sql.OwnedBy c owner) (h' : sql.OwnedBy c owner') : owner = owner' := by
  obtain ⟨row, hrow, hid, rfl⟩ := h
  obtain ⟨row', hrow', hid', rfl⟩ := h'
  rw [Table.eq_of_key_eq hrow hrow' (hid.trans hid'.symm)]

theorem hasCluster_iff : sql.HasCluster c ↔ ∃ owner, sql.OwnedBy c owner := by
  constructor
  · rintro ⟨row, hrow, hid⟩
    exact ⟨row.owner, row, hrow, hid, rfl⟩
  · rintro ⟨owner, row, hrow, hid, -⟩
    exact ⟨row, hrow, hid⟩

theorem WellFormed.hasCluster {env : DatabaseEnv C} (hsql : sql.WellFormed env)
    {pubkey : PublicKeyBytes} (h : sql.InCluster pubkey c) : sql.HasCluster c := by
  obtain ⟨v, hv, -, rfl⟩ := h
  exact hsql.validator_cluster v hv

variable [DecidableEq C]

theorem mem_fetchClusterMembers {id : OperatorId} :
    id ∈ sql.fetchClusterMembers c ↔ ⟨c, id⟩ ∈ sql.clusterMembers := by
  simp only [fetchClusterMembers, List.mem_map, List.mem_filter, decide_eq_true_eq]
  constructor
  · rintro ⟨m, ⟨hm, rfl⟩, rfl⟩
    exact hm
  · intro h
    exact ⟨_, ⟨h, rfl⟩, rfl⟩

theorem nodup_fetchClusterMembers (sql : Sql C) (c : C) : (sql.fetchClusterMembers c).Nodup := by
  have hnodup : sql.clusterMembers.rows.Nodup := by simpa using sql.clusterMembers.nodup
  refine (hnodup.filter _).map_on ?_
  rintro ⟨c1, id1⟩ h1 ⟨c2, id2⟩ h2 h
  simp only [List.mem_filter, decide_eq_true_eq] at h1 h2
  obtain rfl : id1 = id2 := h
  rw [h1.2, h2.2]

def committeeOf (sql : Sql C) (sha256 : Bytes → Hash256) (c : C) : CommitteeId :=
  CommitteeId.ofVec sha256 (sql.fetchClusterMembers c)

theorem committeeOf_eq (sha256 : Bytes → Hash256) {ids : List OperatorId}
    (hnodup : ids.Nodup) (h : ∀ id, ⟨c, id⟩ ∈ sql.clusterMembers ↔ id ∈ ids) :
    sql.committeeOf sha256 c = CommitteeId.ofVec sha256 ids := by
  apply CommitteeId.ofVec_eq_of_perm
  rw [List.perm_ext_iff_of_nodup (sql.nodup_fetchClusterMembers c) hnodup]
  intro id
  rw [mem_fetchClusterMembers]
  exact h id

theorem committeeOf_congr {sql sql' : Sql C} (sha256 : Bytes → Hash256)
    (h : ∀ id, ⟨c, id⟩ ∈ sql'.clusterMembers ↔ ⟨c, id⟩ ∈ sql.clusterMembers) :
    sql'.committeeOf sha256 c = sql.committeeOf sha256 c := by
  refine committeeOf_eq sha256 (sql.nodup_fetchClusterMembers c) fun id => ?_
  rw [h, mem_fetchClusterMembers]

end Sql

/-! ## Maps keyed by validators -/

variable [DecidableEq C] {V : Type} {sha256 : Bytes → Hash256} {sql sql' : Sql C}

/-- The indices find a validator by its cluster, its owner and its committee. -/
structure ValidatorMap.Indexed (sha256 : Bytes → Hash256) (sql : Sql C) (m : ValidatorMap C V) :
    Prop where
  secondary : ∀ c pubkey, pubkey ∈ m.secondary c ↔
    (m.primary pubkey).isSome ∧ sql.InCluster pubkey c
  tertiary : ∀ owner pubkey, pubkey ∈ m.tertiary owner ↔
    (m.primary pubkey).isSome ∧ ∃ c, sql.InCluster pubkey c ∧ sql.OwnedBy c owner
  quaternary : ∀ q pubkey, pubkey ∈ m.quaternary q ↔
    (m.primary pubkey).isSome ∧ ∃ c, sql.InCluster pubkey c ∧ sql.committeeOf sha256 c = q

namespace ValidatorMap.Indexed

variable {m m' : ValidatorMap C V}

theorem closed (h : Indexed sha256 sql m) : m.Closed where
  secondary c pubkey hmem := ((h.secondary c pubkey).mp hmem).1
  tertiary owner pubkey hmem := ((h.tertiary owner pubkey).mp hmem).1
  quaternary q pubkey hmem := ((h.quaternary q pubkey).mp hmem).1

theorem congr (h : Indexed sha256 sql m)
    (hin : ∀ pubkey, (m.primary pubkey).isSome → ∀ c,
      sql'.InCluster pubkey c ↔ sql.InCluster pubkey c)
    (howned : ∀ pubkey c, (m.primary pubkey).isSome → sql.InCluster pubkey c →
      ∀ owner, sql'.OwnedBy c owner ↔ sql.OwnedBy c owner)
    (hmembers : ∀ pubkey c, (m.primary pubkey).isSome → sql.InCluster pubkey c →
      ∀ id, ⟨c, id⟩ ∈ sql'.clusterMembers ↔ ⟨c, id⟩ ∈ sql.clusterMembers) :
    Indexed sha256 sql' m where
  secondary c pubkey := by
    rw [h.secondary]
    exact and_congr_right fun hsome => (hin pubkey hsome c).symm
  tertiary owner pubkey := by
    rw [h.tertiary]
    refine and_congr_right fun hsome => exists_congr fun c => ?_
    rw [hin pubkey hsome c]
    exact and_congr_right fun hc => (howned pubkey c hsome hc owner).symm
  quaternary q pubkey := by
    rw [h.quaternary]
    refine and_congr_right fun hsome => exists_congr fun c => ?_
    rw [hin pubkey hsome c]
    exact and_congr_right fun hc => by
      rw [Sql.committeeOf_congr sha256 (hmembers pubkey c hsome hc)]

theorem remove (h : Indexed sha256 sql m) (pubkey : PublicKeyBytes) :
    Indexed sha256 sql (m.remove pubkey) := by
  rw [h.closed.remove_eq pubkey]
  have hsome : ∀ k, (Function.update m.primary pubkey none k).isSome ↔
      k ≠ pubkey ∧ (m.primary k).isSome := by
    intro k
    by_cases hk : k = pubkey
    · subst hk
      simp
    · simp [hk]
  constructor
  · intro c k
    rw [Finset.mem_erase, h.secondary, hsome, and_assoc]
  · intro owner k
    rw [Finset.mem_erase, h.tertiary, hsome, and_assoc]
  · intro q k
    rw [Finset.mem_erase, h.quaternary, hsome, and_assoc]

theorem insert (h : Indexed sha256 sql m) {pubkey : PublicKeyBytes} {c : C} {owner : Address}
    {q : CommitteeId} {v : V} (hin : sql.InCluster pubkey c) (howned : sql.OwnedBy c owner)
    (hq : sql.committeeOf sha256 c = q) :
    Indexed sha256 sql (m.insertOrUpdate pubkey c owner q v) := by
  have hsome : ∀ k, (Function.update m.primary pubkey (some v) k).isSome ↔
      k = pubkey ∨ (m.primary k).isSome := by
    intro k
    by_cases hk : k = pubkey
    · subst hk
      simp
    · simp [hk]
  constructor
  · intro c' k
    simp only [MultiIndexMap.insertOrUpdate, Uniqueness.mem_notUnique_add, hsome, h.secondary]
    constructor
    · rintro (⟨rfl, rfl⟩ | ⟨hk, hc⟩)
      · exact ⟨Or.inl rfl, hin⟩
      · exact ⟨Or.inr hk, hc⟩
    · rintro ⟨rfl | hk, hc⟩
      · exact Or.inl ⟨hc.unique hin, rfl⟩
      · exact Or.inr ⟨hk, hc⟩
  · intro owner' k
    simp only [MultiIndexMap.insertOrUpdate, Uniqueness.mem_notUnique_add, hsome, h.tertiary]
    constructor
    · rintro (⟨rfl, rfl⟩ | ⟨hk, hc⟩)
      · exact ⟨Or.inl rfl, c, hin, howned⟩
      · exact ⟨Or.inr hk, hc⟩
    · rintro ⟨rfl | hk, c', hc', ho⟩
      · obtain rfl := hc'.unique hin
        exact Or.inl ⟨ho.unique howned, rfl⟩
      · exact Or.inr ⟨hk, c', hc', ho⟩
  · intro q' k
    simp only [MultiIndexMap.insertOrUpdate, Uniqueness.mem_notUnique_add, hsome, h.quaternary]
    constructor
    · rintro (⟨rfl, rfl⟩ | ⟨hk, hc⟩)
      · exact ⟨Or.inl rfl, c, hin, hq⟩
      · exact ⟨Or.inr hk, hc⟩
    · rintro ⟨rfl | hk, c', hc', hq'⟩
      · obtain rfl := hc'.unique hin
        exact Or.inl ⟨hq'.symm.trans hq, rfl⟩
      · exact Or.inr ⟨hk, c', hc', hq'⟩

theorem sameKeys (h : Indexed sha256 sql m) (h' : Indexed sha256 sql m')
    (hprimary : ∀ k, (m.primary k).isSome = (m'.primary k).isSome) : m.SameKeys m' := by
  refine ⟨hprimary, ?_, ?_, ?_⟩
  · intro c
    rw [MultiIndexMap.present_eq (h.closed.secondary c),
      MultiIndexMap.present_eq (h'.closed.secondary c)]
    ext k
    rw [h.secondary, h'.secondary, hprimary]
  · intro owner
    rw [MultiIndexMap.present_eq (h.closed.tertiary owner),
      MultiIndexMap.present_eq (h'.closed.tertiary owner)]
    ext k
    rw [h.tertiary, h'.tertiary, hprimary]
  · intro q
    rw [MultiIndexMap.present_eq (h.closed.quaternary q),
      MultiIndexMap.present_eq (h'.closed.quaternary q)]
    ext k
    rw [h.quaternary, h'.quaternary, hprimary]

theorem eq_of_primary (h : Indexed sha256 sql m) (h' : Indexed sha256 sql m')
    (hprimary : m.primary = m'.primary) : m = m' := by
  obtain ⟨p, s, t, q⟩ := m
  obtain ⟨p', s', t', q'⟩ := m'
  obtain rfl : p = p' := hprimary
  obtain rfl : s = s' := funext fun c => Finset.ext fun k =>
    (h.secondary c k).trans (h'.secondary c k).symm
  obtain rfl : t = t' := funext fun c => Finset.ext fun k =>
    (h.tertiary c k).trans (h'.tertiary c k).symm
  obtain rfl : q = q' := funext fun c => Finset.ext fun k =>
    (h.quaternary c k).trans (h'.quaternary c k).symm
  rfl

end ValidatorMap.Indexed

/-! ## The map of clusters -/

/-- The clusters are those of the tables, found by owner and committee, and by every validator
that is in the tables; a validator that is not may be found as well. -/
structure ClusterMap.Indexed (sha256 : Bytes → Hash256) (sql : Sql C) (m : ClusterMap C) :
    Prop where
  primary : ∀ c, (m.primary c).isSome ↔ sql.HasCluster c
  secondary : ∀ pubkey c, sql.InCluster pubkey c → m.secondary pubkey = {c}
  secondary_closed : ∀ pubkey, ∀ c ∈ m.secondary pubkey, sql.HasCluster c
  tertiary : ∀ owner c, c ∈ m.tertiary owner ↔ sql.OwnedBy c owner
  quaternary : ∀ q c, c ∈ m.quaternary q ↔ sql.HasCluster c ∧ sql.committeeOf sha256 c = q

structure ClusterMap.Valued (sql : Sql C) (m : ClusterMap C) : Prop where
  owner : ∀ c cluster, m.primary c = some cluster → sql.OwnedBy c cluster.owner
  feeRecipient : ∀ c cluster, m.primary c = some cluster →
    cluster.feeRecipient = sql.feeRecipientOf cluster.owner
  clusterMembers : ∀ c cluster, m.primary c = some cluster → ∀ id,
    id ∈ cluster.clusterMembers.toList ↔ ⟨c, id⟩ ∈ sql.clusterMembers

/-- What is true of the state in memory after every log. -/
structure Mirrors (sha256 : Bytes → Hash256) (sql : Sql C) (state : Database.NetworkState C) :
    Prop where
  metadata : state.metadata.primary = sql.validators.find?
  metadata_indexed : ValidatorMap.Indexed sha256 sql state.metadata
  shares : ∀ pubkey share, state.shares.primary pubkey = some share →
    share ∈ sql.shares ∧ share.validatorPubkey = pubkey
  shares_indexed : ValidatorMap.Indexed sha256 sql state.shares
  clusters_indexed : ClusterMap.Indexed sha256 sql state.clusters
  clusters_valued : ClusterMap.Valued sql state.clusters

namespace ClusterMap

variable {m : ClusterMap C}

theorem Indexed.closed (h : Indexed sha256 sql m) : m.Closed where
  secondary pubkey c hc := (h.primary c).mpr (h.secondary_closed pubkey c hc)
  tertiary owner c hc :=
    (h.primary c).mpr (Sql.hasCluster_iff.mpr ⟨owner, (h.tertiary owner c).mp hc⟩)
  quaternary q c hc := (h.primary c).mpr ((h.quaternary q c).mp hc).1

theorem Indexed.congr (h : Indexed sha256 sql m)
    (hin : ∀ pubkey c, sql'.InCluster pubkey c ↔ sql.InCluster pubkey c)
    (howned : ∀ c owner, sql'.OwnedBy c owner ↔ sql.OwnedBy c owner)
    (hmembers : ∀ id, id ∈ sql'.clusterMembers ↔ id ∈ sql.clusterMembers) :
    Indexed sha256 sql' m := by
  have hhas : ∀ c, sql'.HasCluster c ↔ sql.HasCluster c := by
    intro c
    simp only [Sql.hasCluster_iff, howned]
  constructor
  · simpa only [hhas] using h.primary
  · simpa only [hin] using h.secondary
  · simpa only [hhas] using h.secondary_closed
  · simpa only [howned] using h.tertiary
  · intro q c
    rw [h.quaternary, hhas, Sql.committeeOf_congr sha256 fun id => hmembers ⟨c, id⟩]

theorem Indexed.of_keys {m' : ClusterMap C} (h : Indexed sha256 sql m)
    (hprimary : ∀ c, (m'.primary c).isSome = (m.primary c).isSome)
    (hsecondary : m'.secondary = m.secondary) (htertiary : m'.tertiary = m.tertiary)
    (hquaternary : m'.quaternary = m.quaternary) : Indexed sha256 sql m' := by
  obtain ⟨h1, h2, h3, h4, h5⟩ := h
  constructor
  · simpa only [hprimary] using h1
  · simpa only [hsecondary] using h2
  · simpa only [hsecondary] using h3
  · simpa only [htertiary] using h4
  · simpa only [hquaternary] using h5

end ClusterMap

theorem Mirrors.congr {state : Database.NetworkState C} (h : Mirrors sha256 sql state)
    (hvalidators : sql'.validators = sql.validators)
    (howned : ∀ c owner, sql'.OwnedBy c owner ↔ sql.OwnedBy c owner)
    (hmembers : sql'.clusterMembers = sql.clusterMembers)
    (hshares : sql'.shares = sql.shares)
    (hfee : ∀ owner, sql'.feeRecipientOf owner = sql.feeRecipientOf owner) :
    Mirrors sha256 sql' state := by
  have hin : ∀ pubkey c, sql'.InCluster pubkey c ↔ sql.InCluster pubkey c := by
    intro pubkey c
    simp only [Sql.InCluster, hvalidators]
  constructor
  · rw [hvalidators]
    exact h.metadata
  · exact h.metadata_indexed.congr (fun pubkey _ c => hin pubkey c) (fun _ c _ _ => howned c)
      (by simp [hmembers])
  · simpa only [hshares] using h.shares
  · exact h.shares_indexed.congr (fun pubkey _ c => hin pubkey c) (fun _ c _ _ => howned c)
      (by simp [hmembers])
  · exact h.clusters_indexed.congr hin howned (by simp [hmembers])
  · obtain ⟨h1, h2, h3⟩ := h.clusters_valued
    constructor
    · simpa only [howned] using h1
    · simpa only [hfee] using h2
    · simpa only [hmembers] using h3

theorem Mirrors.of_maps {state state' : Database.NetworkState C} (h : Mirrors sha256 sql state)
    (hmetadata : state'.metadata = state.metadata) (hshares : state'.shares = state.shares)
    (hclusters : state'.clusters = state.clusters) : Mirrors sha256 sql state' := by
  obtain ⟨h1, h2, h3, h4, h5, h6⟩ := h
  constructor
  all_goals simpa only [hmetadata, hshares, hclusters] using by assumption

/-! ## The status and the fee recipient of clusters -/

namespace Mirrors

variable {state : Database.NetworkState C}

theorem updateClusterStatus (h : Mirrors sha256 sql state) (c : C) (liquidated : Bool) :
    Mirrors sha256 (sql.updateClusterStatus c liquidated)
      { state with
        clusters := state.clusters.modify c fun cluster => { cluster with liquidated } } := by
  have hsql : Mirrors sha256 (sql.updateClusterStatus c liquidated) state :=
    h.congr rfl
      (fun c' owner =>
        Sql.exists_updateClusterStatus (P := fun id o => id = c' ∧ o = owner)) rfl rfl
      fun _ => rfl
  -- the changed value differs from the old one in the status only
  have hvalue : ∀ c' cluster', (state.clusters.modify c fun cluster =>
      { cluster with liquidated }).primary c' = some cluster' →
      ∃ cluster, state.clusters.primary c' = some cluster ∧
        cluster'.owner = cluster.owner ∧ cluster'.feeRecipient = cluster.feeRecipient ∧
        cluster'.clusterMembers = cluster.clusterMembers := by
    intro c' cluster' hc'
    by_cases hcc : c' = c
    · subst hcc
      simp only [MultiIndexMap.modify, Function.update_self, Option.map_eq_some_iff] at hc'
      obtain ⟨cluster, hcluster, rfl⟩ := hc'
      exact ⟨cluster, hcluster, rfl, rfl, rfl⟩
    · simp only [MultiIndexMap.modify, Function.update_of_ne hcc] at hc'
      exact ⟨cluster', hc', rfl, rfl, rfl⟩
  refine { hsql with clusters_indexed := ?_, clusters_valued := ?_ }
  · exact hsql.clusters_indexed.of_keys
      (fun c' => state.clusters.isSome_primary_modify c c' _) rfl rfl rfl
  · constructor
    · intro c' cluster' hc'
      obtain ⟨cluster, hcluster, howner, -, -⟩ := hvalue c' cluster' hc'
      rw [howner]
      exact hsql.clusters_valued.owner c' cluster hcluster
    · intro c' cluster' hc'
      obtain ⟨cluster, hcluster, howner, hfee, -⟩ := hvalue c' cluster' hc'
      rw [howner, hfee]
      exact hsql.clusters_valued.feeRecipient c' cluster hcluster
    · intro c' cluster' hc'
      obtain ⟨cluster, hcluster, -, -, hmembers⟩ := hvalue c' cluster' hc'
      rw [hmembers]
      exact hsql.clusters_valued.clusterMembers c' cluster hcluster

end Mirrors

omit [DecidableEq C] in
theorem Sql.feeRecipientOf_setFeeRecipient (sql : Sql C) (owner recipient o : Address) :
    (sql.setFeeRecipient owner recipient).feeRecipientOf o =
      if o = owner then recipient else sql.feeRecipientOf o := by
  simp only [feeRecipientOf, feeRecipientForOwner, setFeeRecipient]
  split
  · rename_i h
    subst h
    have hfind := Table.find?_upsert_self sql.owners ⟨o, some recipient, none⟩
      (fun row => { row with feeRecipient := some recipient }) fun _ => rfl
    rw [show OwnerRow.owner ⟨o, some recipient, none⟩ = o from rfl] at hfind
    rw [hfind]
    cases sql.owners.find? o <;> rfl
  · rename_i h
    rw [Table.find?_upsert_of_ne h]

namespace Mirrors

variable {state : Database.NetworkState C}

theorem setFeeRecipient (h : Mirrors sha256 sql state) (owner recipient : Address) :
    Mirrors sha256 (sql.setFeeRecipient owner recipient)
      { state with
        clusters := state.clusters.modifyAll (state.clusters.tertiary owner) fun cluster =>
          { cluster with feeRecipient := recipient } } := by
  have hvalue : ∀ c cluster', (state.clusters.modifyAll (state.clusters.tertiary owner)
      fun cluster => { cluster with feeRecipient := recipient }).primary c = some cluster' →
      ∃ cluster, state.clusters.primary c = some cluster ∧ cluster'.owner = cluster.owner ∧
        cluster'.clusterMembers = cluster.clusterMembers ∧ cluster'.feeRecipient =
          if cluster.owner = owner then recipient else cluster.feeRecipient := by
    intro c cluster' hc
    have howner : ∀ cluster, state.clusters.primary c = some cluster →
        (c ∈ state.clusters.tertiary owner ↔ cluster.owner = owner) := by
      intro cluster hcluster
      rw [h.clusters_indexed.tertiary]
      have hown := h.clusters_valued.owner c cluster hcluster
      exact ⟨fun ho => hown.unique ho, fun ho => ho ▸ hown⟩
    simp only [MultiIndexMap.modifyAll] at hc
    split at hc
    · rename_i hmem
      obtain ⟨cluster, hcluster, rfl⟩ := Option.map_eq_some_iff.mp hc
      exact ⟨cluster, hcluster, rfl, rfl, (if_pos ((howner cluster hcluster).mp hmem)).symm⟩
    · rename_i hmem
      exact ⟨cluster', hc, rfl, rfl,
        (if_neg fun ho => hmem ((howner cluster' hc).mpr ho)).symm⟩
  refine ⟨h.metadata, h.metadata_indexed.congr (fun _ _ _ => Iff.rfl) (fun _ _ _ _ _ => Iff.rfl)
    (fun _ _ _ _ _ => Iff.rfl), h.shares, h.shares_indexed.congr (fun _ _ _ => Iff.rfl)
    (fun _ _ _ _ _ => Iff.rfl) (fun _ _ _ _ _ => Iff.rfl), ?_, ?_⟩
  · have hindexed : ClusterMap.Indexed sha256 (sql.setFeeRecipient owner recipient)
        state.clusters :=
      h.clusters_indexed.congr (fun _ _ => Iff.rfl) (fun _ _ => Iff.rfl) fun _ => Iff.rfl
    exact hindexed.of_keys (fun c => state.clusters.isSome_primary_modifyAll _ _ c) rfl rfl rfl
  · constructor
    · intro c cluster' hc
      obtain ⟨cluster, hcluster, howner, -, -⟩ := hvalue c cluster' hc
      rw [howner]
      exact h.clusters_valued.owner c cluster hcluster
    · intro c cluster' hc
      obtain ⟨cluster, hcluster, howner, -, hfee⟩ := hvalue c cluster' hc
      rw [hfee, Sql.feeRecipientOf_setFeeRecipient, howner,
        h.clusters_valued.feeRecipient c cluster hcluster]
    · intro c cluster' hc
      obtain ⟨cluster, hcluster, -, hmembers, -⟩ := hvalue c cluster' hc
      rw [hmembers]
      exact h.clusters_valued.clusterMembers c cluster hcluster

end Mirrors

end Anchor
