import Mathlib
import Anchor.Database.Replay

/-!
# Starting from well-formed tables

The state that a node builds from the tables when it starts: its maps are filled by
inserting every validator with its cluster, and every share of the own operator.
-/

namespace Anchor

open Ssz

/-! ## Filling a map -/

section Fill

variable {E K K1 K2 K3 K4 V : Type} [DecidableEq K] [DecidableEq K1] [DecidableEq K2]
  [DecidableEq K3] [DecidableEq K4]

theorem Uniqueness.mem_foldl_add (u : Uniqueness) (k : E → K) (k1 : E → K1) {es : List E}
    (hunique : u = .unique → ∀ e ∈ es, ∀ e' ∈ es, k e = k e' → k1 e = k1 e') {κ : K} {x : K1} :
    x ∈ es.foldl (fun index e => u.add index (k e) (k1 e)) (fun _ => ∅) κ ↔
      ∃ e ∈ es, k e = κ ∧ k1 e = x := by
  induction es using List.reverseRecOn with
  | nil => simp
  | append_singleton es e ih =>
    have ih := ih fun hu a ha b hb => hunique hu a (by simp [ha]) b (by simp [hb])
    rw [List.foldl_append, List.foldl_cons, List.foldl_nil]
    cases u with
    | notUnique =>
      rw [mem_notUnique_add, ih]
      constructor
      · rintro (⟨rfl, rfl⟩ | ⟨a, ha, hk, hx⟩)
        · exact ⟨e, by simp, rfl, rfl⟩
        · exact ⟨a, by simp [ha], hk, hx⟩
      · rintro ⟨a, ha, rfl, rfl⟩
        rcases List.mem_append.mp ha with ha | ha
        · exact Or.inr ⟨a, ha, rfl, rfl⟩
        · obtain rfl := List.mem_singleton.mp ha
          exact Or.inl ⟨rfl, rfl⟩
    | unique =>
      rw [mem_unique_add, ih]
      constructor
      · rintro (⟨rfl, rfl⟩ | ⟨-, a, ha, hk, hx⟩)
        · exact ⟨e, by simp, rfl, rfl⟩
        · exact ⟨a, by simp [ha], hk, hx⟩
      · rintro ⟨a, ha, rfl, rfl⟩
        by_cases hk : k a = k e
        · exact Or.inl ⟨hk, hunique rfl a ha e (by simp) hk⟩
        · refine Or.inr ⟨hk, a, ?_, rfl, rfl⟩
          rcases List.mem_append.mp ha with ha | ha
          · exact ha
          · exact absurd (congrArg k (List.mem_singleton.mp ha)) hk

namespace MultiIndexMap

variable {U1 U2 U3 : Uniqueness}

abbrev fill (k1 : E → K1) (k2 : E → K2) (k3 : E → K3) (k4 : E → K4) (v : E → V) (es : List E) :
    MultiIndexMap U1 U2 U3 K1 K2 K3 K4 V :=
  es.foldl (fun m e => m.insertOrUpdate (k1 e) (k2 e) (k3 e) (k4 e) (v e)) new

variable {k1 : E → K1} {k2 : E → K2} {k3 : E → K3} {k4 : E → K4} {v : E → V}

theorem fill_concat (es : List E) (e : E) :
    (fill k1 k2 k3 k4 v (es ++ [e]) : MultiIndexMap U1 U2 U3 K1 K2 K3 K4 V) =
      (fill k1 k2 k3 k4 v es).insertOrUpdate (k1 e) (k2 e) (k3 e) (k4 e) (v e) := by
  rw [fill, List.foldl_append, List.foldl_cons, List.foldl_nil]

variable {es : List E}

theorem primary_fill (hv : ∀ e ∈ es, ∀ e' ∈ es, k1 e = k1 e' → v e = v e') {k : K1} {x : V} :
    (fill k1 k2 k3 k4 v es : MultiIndexMap U1 U2 U3 K1 K2 K3 K4 V).primary k = some x ↔
      ∃ e ∈ es, k1 e = k ∧ v e = x := by
  induction es using List.reverseRecOn with
  | nil => simp [fill, new]
  | append_singleton es e ih =>
    have ih := ih fun a ha b hb => hv a (by simp [ha]) b (by simp [hb])
    rw [fill_concat]
    by_cases hk : k = k1 e
    · subst hk
      simp only [insertOrUpdate, Function.update_self, Option.some.injEq]
      constructor
      · rintro rfl
        exact ⟨e, by simp, rfl, rfl⟩
      · rintro ⟨a, ha, hk, rfl⟩
        exact hv e (by simp) a ha hk.symm
    · simp only [insertOrUpdate, Function.update_of_ne hk, ih]
      constructor
      · rintro ⟨a, ha, hk, hx⟩
        exact ⟨a, by simp [ha], hk, hx⟩
      · rintro ⟨a, ha, rfl, rfl⟩
        rcases List.mem_append.mp ha with ha | ha
        · exact ⟨a, ha, rfl, rfl⟩
        · exact absurd (congrArg k1 (List.mem_singleton.mp ha)) hk

theorem indices_fill (es : List E) :
    (fill k1 k2 k3 k4 v es : MultiIndexMap U1 U2 U3 K1 K2 K3 K4 V).secondary =
        es.foldl (fun index e => U1.add index (k2 e) (k1 e)) (fun _ => ∅) ∧
      (fill k1 k2 k3 k4 v es : MultiIndexMap U1 U2 U3 K1 K2 K3 K4 V).tertiary =
        es.foldl (fun index e => U2.add index (k3 e) (k1 e)) (fun _ => ∅) ∧
      (fill k1 k2 k3 k4 v es : MultiIndexMap U1 U2 U3 K1 K2 K3 K4 V).quaternary =
        es.foldl (fun index e => U3.add index (k4 e) (k1 e)) (fun _ => ∅) := by
  induction es using List.reverseRecOn with
  | nil => exact ⟨rfl, rfl, rfl⟩
  | append_singleton es e ih =>
    obtain ⟨h2, h3, h4⟩ := ih
    rw [fill_concat, List.foldl_append, List.foldl_append, List.foldl_append]
    simp only [insertOrUpdate, h2, h3, h4, List.foldl_cons, List.foldl_nil, and_self]

theorem mem_secondary_fill {κ : K2} {x : K1}
    (h : U1 = .unique → ∀ e ∈ es, ∀ e' ∈ es, k2 e = k2 e' → k1 e = k1 e') :
    x ∈ (fill k1 k2 k3 k4 v es : MultiIndexMap U1 U2 U3 K1 K2 K3 K4 V).secondary κ ↔
      ∃ e ∈ es, k2 e = κ ∧ k1 e = x := by
  rw [(indices_fill es).1, Uniqueness.mem_foldl_add U1 k2 k1 h]

theorem mem_tertiary_fill {κ : K3} {x : K1}
    (h : U2 = .unique → ∀ e ∈ es, ∀ e' ∈ es, k3 e = k3 e' → k1 e = k1 e') :
    x ∈ (fill k1 k2 k3 k4 v es : MultiIndexMap U1 U2 U3 K1 K2 K3 K4 V).tertiary κ ↔
      ∃ e ∈ es, k3 e = κ ∧ k1 e = x := by
  rw [(indices_fill es).2.1, Uniqueness.mem_foldl_add U2 k3 k1 h]

theorem mem_quaternary_fill {κ : K4} {x : K1}
    (h : U3 = .unique → ∀ e ∈ es, ∀ e' ∈ es, k4 e = k4 e' → k1 e = k1 e') :
    x ∈ (fill k1 k2 k3 k4 v es : MultiIndexMap U1 U2 U3 K1 K2 K3 K4 V).quaternary κ ↔
      ∃ e ∈ es, k4 e = κ ∧ k1 e = x := by
  rw [(indices_fill es).2.2, Uniqueness.mem_foldl_add U3 k4 k1 h]

end MultiIndexMap

end Fill

variable {C : Type} [DecidableEq C] {env : DatabaseEnv C} {sql : Sql C}

theorem ValidatorMap.indexed_fill {E V : Type} {sha256 : Bytes → Hash256} {k1 : E → PublicKeyBytes}
    {k2 : E → C} {k3 : E → Address} {k4 : E → CommitteeId} {v : E → V} {es : List E}
    (hin : ∀ e ∈ es, sql.InCluster (k1 e) (k2 e)) (howned : ∀ e ∈ es, sql.OwnedBy (k2 e) (k3 e))
    (hq : ∀ e ∈ es, sql.committeeOf sha256 (k2 e) = k4 e) :
    ValidatorMap.Indexed sha256 sql (MultiIndexMap.fill k1 k2 k3 k4 v es) := by
  induction es using List.reverseRecOn with
  | nil => constructor <;> simp [MultiIndexMap.fill, MultiIndexMap.new]
  | append_singleton es e ih =>
    have hsub : ∀ a ∈ es, a ∈ es ++ [e] := fun a ha => by simp [ha]
    have hlast : e ∈ es ++ [e] := by simp
    have hrest := ih (fun a ha => hin a (hsub a ha)) (fun a ha => howned a (hsub a ha))
      fun a ha => hq a (hsub a ha)
    rw [MultiIndexMap.fill_concat]
    exact hrest.insert (hin e hlast) (howned e hlast) (hq e hlast)

/-! ## The entries -/

variable (hsql : sql.WellFormed env)
include hsql

namespace Sql

def OwnShare (env : DatabaseEnv C) (sql : Sql C) (share : Share C) : Prop :=
  share ∈ sql.shares ∧ sql.ownId env = some share.operatorId

theorem members_ne_nil {row : ClusterRow C}
    (hrow : row ∈ sql.clusters) : sql.fetchClusterMembers row.clusterId ≠ [] := by
  obtain ⟨ids, hne, -, -, hids⟩ := hsql.cluster_members row hrow
  obtain ⟨id, hid⟩ := List.exists_mem_of_ne_nil ids hne
  exact List.ne_nil_of_mem (mem_fetchClusterMembers.mpr ((hids id).mpr hid))

theorem mem_fetchClusters {cluster : Cluster C} :
    cluster ∈ sql.fetchClusters ↔ ∃ row ∈ sql.clusters, sql.toCluster row = cluster := by
  simp only [fetchClusters, List.mem_map, List.mem_filter, Bool.not_eq_true',
    List.isEmpty_eq_false_iff]
  constructor
  · rintro ⟨row, ⟨hrow, -⟩, heq⟩
    exact ⟨row, hrow, heq⟩
  · rintro ⟨row, hrow, heq⟩
    exact ⟨row, ⟨hrow, members_ne_nil hsql hrow⟩, heq⟩

variable {e : Cluster C × ValidatorMetadata C}

theorem mem_clusterEntries :
    e ∈ sql.clusterEntries ↔ ∃ row ∈ sql.clusters, sql.toCluster row = e.1 ∧
      e.2 ∈ sql.validators ∧ e.2.clusterId = row.clusterId := by
  simp only [clusterEntries, List.mem_flatMap, mem_fetchClusters hsql, List.mem_map,
    List.mem_filter, decide_eq_true_eq]
  constructor
  · rintro ⟨-, ⟨row, hrow, rfl⟩, v, ⟨hv, hid⟩, rfl⟩
    exact ⟨row, hrow, rfl, hv, hid⟩
  · rintro ⟨row, hrow, heq, hv, hid⟩
    exact ⟨_, ⟨row, hrow, rfl⟩, e.2, ⟨hv, hid⟩, by rw [heq]⟩

theorem entry_facts (he : e ∈ sql.clusterEntries) (sha256 : Bytes → Hash256) :
    sql.InCluster e.2.publicKey e.1.clusterId ∧ sql.OwnedBy e.1.clusterId e.1.owner ∧
      sql.committeeOf sha256 e.1.clusterId = e.1.committeeId sha256 := by
  obtain ⟨row, hrow, heq, hv, hid⟩ := (mem_clusterEntries hsql).mp he
  rw [← heq]
  refine ⟨⟨e.2, hv, rfl, hid⟩, ⟨row, hrow, rfl, rfl⟩, ?_⟩
  have hnodup := sql.nodup_fetchClusterMembers row.clusterId
  have hmembers : (IndexSet.fromIter (sql.fetchClusterMembers row.clusterId)).toList =
      sql.fetchClusterMembers row.clusterId := IndexSet.toList_fromIter hnodup
  exact (congrArg (CommitteeId.ofVec sha256) hmembers).symm

/-- The public keys that are checked for a share are those that were checked when the validator
was added. -/
theorem fetchCommitteeSharePubkeys_eq {v : ValidatorMetadata C}
    (hv : v ∈ sql.validators) {id : OperatorId} (hid : ⟨v.clusterId, id⟩ ∈ sql.clusterMembers) :
    sql.fetchCommitteeSharePubkeys id v.publicKey =
      (sql.shares.rows.filter (·.validatorPubkey = v.publicKey)).map fun share =>
        (share.operatorId, share.sharePubkey) := by
  unfold fetchCommitteeSharePubkeys
  congr 1
  apply List.filter_congr
  intro share hshare
  by_cases hkey : share.validatorPubkey = v.publicKey
  · obtain ⟨w, hw, hwkey, hwid⟩ := hsql.share_validator share hshare
    obtain rfl : w = v := Table.eq_of_key_eq hw hv (hwkey.trans hkey)
    have hany : sql.clusterMembers.rows.any (· = ⟨share.clusterId, id⟩) = true := by
      rw [List.any_eq_true]
      exact ⟨_, hid, by simp [hwid]⟩
    simp [hkey, hany]
  · simp [hkey]

theorem mem_shareEntries {e : (Cluster C × ValidatorMetadata C) × Share C} :
    e ∈ sql.shareEntries env ↔ e.1 ∈ sql.clusterEntries ∧ sql.OwnShare env e.2 ∧
      e.2.clusterId = e.1.1.clusterId ∧ e.2.validatorPubkey = e.1.2.publicKey := by
  obtain ⟨entry, share⟩ := e
  unfold shareEntries OwnShare
  cases hown : sql.ownId env with
  | none => simp
  | some id =>
    simp only [List.mem_flatMap, List.mem_map, loadedShares, fetchShares, List.mem_filter,
      Bool.and_eq_true, decide_eq_true_eq, Prod.mk.injEq, Option.some.injEq]
    constructor
    · rintro ⟨_, hentry, _, ⟨⟨hshare, hid⟩, ⟨hcluster, hkey⟩, -⟩, rfl, rfl⟩
      exact ⟨hentry, ⟨hshare, hid.symm⟩, hcluster, hkey⟩
    · rintro ⟨hentry, ⟨hshare, hid⟩, hcluster, hkey⟩
      refine ⟨entry, hentry, share, ⟨⟨hshare, hid.symm⟩, ⟨hcluster, hkey⟩, ?_⟩, rfl, rfl⟩
      obtain ⟨-, -, -, hv, -⟩ := (mem_clusterEntries hsql).mp hentry
      have hmember := (hsql.share_iff entry.2 hv id).mp ⟨share, hshare, hkey, hid.symm⟩
      rw [fetchCommitteeSharePubkeys_eq hsql hv hmember, hsql.shares_valid entry.2 hv]
      rfl

theorem exists_entry_of_share {share : Share C}
    (hshare : share ∈ sql.shares) : ∃ e ∈ sql.clusterEntries, share.clusterId = e.1.clusterId ∧
      share.validatorPubkey = e.2.publicKey := by
  obtain ⟨v, hv, hkey, hid⟩ := hsql.share_validator share hshare
  obtain ⟨row, hrow, hrowid⟩ := hsql.validator_cluster v hv
  exact ⟨(sql.toCluster row, v), (mem_clusterEntries hsql).mpr ⟨row, hrow, rfl, hv, hrowid.symm⟩,
    (hrowid.trans hid).symm, hkey.symm⟩

end Sql

/-! ## The state at the start -/

structure Rebuilt (env : DatabaseEnv C) (sql : Sql C) (state : Database.NetworkState C) :
    Prop where
  mirrors : Mirrors env.sha256 sql state
  clusters_secondary : ∀ pubkey c, c ∈ state.clusters.secondary pubkey ↔ sql.InCluster pubkey c
  clusters_primary : ∀ c cluster, state.clusters.primary c = some cluster ↔
    ∃ row ∈ sql.clusters, row.clusterId = c ∧ sql.toCluster row = cluster
  shares : ∀ pubkey share, state.shares.primary pubkey = some share ↔
    sql.OwnShare env share ∧ share.validatorPubkey = pubkey
  id : state.id = sql.ownId env
  ownClusters : ∀ c, c ∈ state.ownClusters ↔ ∃ share, sql.OwnShare env share ∧ share.clusterId = c

variable {e e' : Cluster C × ValidatorMetadata C}

theorem Sql.toCluster_eq_of_entry (he : e ∈ sql.clusterEntries)
    (he' : e' ∈ sql.clusterEntries) (hid : e.1.clusterId = e'.1.clusterId) : e.1 = e'.1 := by
  obtain ⟨row, hrow, heq, -⟩ := (mem_clusterEntries hsql).mp he
  obtain ⟨row', hrow', heq', -⟩ := (mem_clusterEntries hsql).mp he'
  rw [← heq, ← heq'] at hid ⊢
  rw [Table.eq_of_key_eq hrow hrow' hid]

theorem Sql.validator_eq_of_entry (he : e ∈ sql.clusterEntries)
    (he' : e' ∈ sql.clusterEntries) (hkey : e.2.publicKey = e'.2.publicKey) : e = e' := by
  obtain ⟨row, hrow, heq, hv, hid⟩ := (mem_clusterEntries hsql).mp he
  obtain ⟨row', hrow', heq', hv', hid'⟩ := (mem_clusterEntries hsql).mp he'
  have hvv : e.2 = e'.2 := Table.eq_of_key_eq hv hv' hkey
  have hcc : e.1.clusterId = e'.1.clusterId := by
    rw [← heq, ← heq']
    exact hid.symm.trans ((congrArg ValidatorMetadata.clusterId hvv).trans hid')
  exact Prod.ext (toCluster_eq_of_entry hsql he he' hcc) hvv

namespace Database.NetworkState

theorem primary_loadMetadata :
    (loadMetadata env sql.clusterEntries).primary = sql.validators.find? := by
  funext pubkey
  apply Option.ext
  intro v
  rw [Table.find?_eq_some]
  refine (MultiIndexMap.primary_fill fun e he e' he' hkey =>
    congrArg Prod.snd (Sql.validator_eq_of_entry hsql he he' hkey)).trans ?_
  constructor
  · rintro ⟨e, he, hkey, rfl⟩
    obtain ⟨-, -, -, hv, -⟩ := (Sql.mem_clusterEntries hsql).mp he
    exact ⟨hv, hkey⟩
  · rintro ⟨hv, hkey⟩
    obtain ⟨row, hrow, hid⟩ := hsql.validator_cluster v hv
    exact ⟨(sql.toCluster row, v),
      (Sql.mem_clusterEntries hsql).mpr ⟨row, hrow, rfl, hv, hid.symm⟩, hkey, rfl⟩

theorem primary_loadShares {pubkey : PublicKeyBytes}
    {share : Share C} : (loadShares env (sql.shareEntries env)).primary pubkey = some share ↔
      sql.OwnShare env share ∧ share.validatorPubkey = pubkey := by
  refine (MultiIndexMap.primary_fill ?_).trans ?_
  · -- an operator has one share of a validator
    intro e he e' he' hkey
    obtain ⟨-, ⟨hshare, hown⟩, -, hpubkey⟩ := (Sql.mem_shareEntries hsql).mp he
    obtain ⟨-, ⟨hshare', hown'⟩, -, hpubkey'⟩ := (Sql.mem_shareEntries hsql).mp he'
    have hid : e.2.operatorId = e'.2.operatorId := Option.some.inj (hown.symm.trans hown')
    refine Table.eq_of_key_eq hshare hshare' (Prod.ext ?_ hid)
    exact hpubkey.trans (hkey.trans hpubkey'.symm)
  · constructor
    · rintro ⟨e, he, rfl, rfl⟩
      obtain ⟨-, hown, -, hpubkey⟩ := (Sql.mem_shareEntries hsql).mp he
      exact ⟨hown, hpubkey⟩
    · rintro ⟨hown, rfl⟩
      obtain ⟨entry, hentry, hcluster, hpubkey⟩ := Sql.exists_entry_of_share hsql hown.1
      exact ⟨(entry, share), (Sql.mem_shareEntries hsql).mpr ⟨hentry, hown, hcluster, hpubkey⟩,
        hpubkey.symm, rfl⟩

theorem primary_loadClusters {c : C} {cluster : Cluster C} :
    (loadClusters env sql.clusterEntries).primary c = some cluster ↔
      ∃ row ∈ sql.clusters, row.clusterId = c ∧ sql.toCluster row = cluster := by
  refine (MultiIndexMap.primary_fill fun e he e' he' hid =>
    Sql.toCluster_eq_of_entry hsql he he' hid).trans ?_
  constructor
  · rintro ⟨e, he, rfl, rfl⟩
    obtain ⟨row, hrow, heq, -⟩ := (Sql.mem_clusterEntries hsql).mp he
    exact ⟨row, hrow, by rw [← heq]; rfl, heq⟩
  · rintro ⟨row, hrow, rfl, rfl⟩
    obtain ⟨v, hv, hid⟩ := hsql.cluster_validator row hrow
    exact ⟨(sql.toCluster row, v), (Sql.mem_clusterEntries hsql).mpr ⟨row, hrow, rfl, hv, hid⟩,
      rfl, rfl⟩

theorem secondary_loadClusters {pubkey : PublicKeyBytes} {c : C} :
    c ∈ (loadClusters env sql.clusterEntries).secondary pubkey ↔ sql.InCluster pubkey c := by
  refine (MultiIndexMap.mem_secondary_fill fun _ e he e' he' hkey => ?_).trans ?_
  · rw [Sql.validator_eq_of_entry hsql he he' hkey]
  · constructor
    · rintro ⟨e, he, rfl, rfl⟩
      exact (Sql.entry_facts hsql he env.sha256).1
    · rintro ⟨v, hv, rfl, rfl⟩
      obtain ⟨row, hrow, hid⟩ := hsql.validator_cluster v hv
      exact ⟨(sql.toCluster row, v),
        (Sql.mem_clusterEntries hsql).mpr ⟨row, hrow, rfl, hv, hid.symm⟩, rfl, hid⟩

theorem indexed_loadClusters :
    ClusterMap.Indexed env.sha256 sql (loadClusters env sql.clusterEntries) := by
  -- every cluster has an entry, with the keys that the tables give it
  have hentry : ∀ c, sql.HasCluster c → ∃ e ∈ sql.clusterEntries, e.1.clusterId = c := by
    rintro c ⟨row, hrow, rfl⟩
    obtain ⟨v, hv, hid⟩ := hsql.cluster_validator row hrow
    exact ⟨(sql.toCluster row, v), (Sql.mem_clusterEntries hsql).mpr ⟨row, hrow, rfl, hv, hid⟩, rfl⟩
  constructor
  · intro c
    rw [Option.isSome_iff_exists]
    simp only [primary_loadClusters hsql, Sql.HasCluster]
    constructor
    · rintro ⟨-, row, hrow, hid, -⟩
      exact ⟨row, hrow, hid⟩
    · rintro ⟨row, hrow, hid⟩
      exact ⟨_, row, hrow, hid, rfl⟩
  · intro pubkey c hin
    ext c'
    rw [secondary_loadClusters hsql, Finset.mem_singleton]
    exact ⟨fun hin' => hin'.unique hin, fun h => h ▸ hin⟩
  · intro pubkey c hc
    exact hsql.hasCluster ((secondary_loadClusters hsql).mp hc)
  · intro owner c
    refine (MultiIndexMap.mem_tertiary_fill (by simp)).trans ?_
    constructor
    · rintro ⟨e, he, rfl, rfl⟩
      exact (Sql.entry_facts hsql he env.sha256).2.1
    · intro howned
      obtain ⟨e, he, rfl⟩ := hentry c (Sql.hasCluster_iff.mpr ⟨owner, howned⟩)
      exact ⟨e, he, (Sql.entry_facts hsql he env.sha256).2.1.unique howned, rfl⟩
  · intro q c
    refine (MultiIndexMap.mem_quaternary_fill (by simp)).trans ?_
    constructor
    · rintro ⟨e, he, rfl, rfl⟩
      obtain ⟨hin, -, hq⟩ := Sql.entry_facts hsql he env.sha256
      exact ⟨hsql.hasCluster hin, hq⟩
    · rintro ⟨hhas, hq⟩
      obtain ⟨e, he, rfl⟩ := hentry c hhas
      exact ⟨e, he, (Sql.entry_facts hsql he env.sha256).2.2.symm.trans hq, rfl⟩

theorem valued_loadClusters :
    ClusterMap.Valued sql (loadClusters env sql.clusterEntries) := by
  constructor
  · intro c cluster hc
    obtain ⟨row, hrow, hid, rfl⟩ := (primary_loadClusters hsql).mp hc
    exact ⟨row, hrow, hid, rfl⟩
  · intro c cluster hc
    obtain ⟨row, hrow, hid, rfl⟩ := (primary_loadClusters hsql).mp hc
    rfl
  · intro c cluster hc id
    obtain ⟨row, hrow, rfl, rfl⟩ := (primary_loadClusters hsql).mp hc
    change id ∈ (IndexSet.fromIter (sql.fetchClusterMembers row.clusterId)).toList ↔ _
    rw [IndexSet.mem_toList_fromIter, Sql.mem_fetchClusterMembers]

theorem newWithState_eq :
    newWithState env sql = some (loadState env sql) := by
  have hvalidators : (sql.fetchClusters.all fun cluster =>
      sql.validators.rows.any (·.clusterId = cluster.clusterId)) = true := by
    simp only [List.all_eq_true, List.any_eq_true, decide_eq_true_eq]
    intro cluster hcluster
    obtain ⟨row, hrow, rfl⟩ := (Sql.mem_fetchClusters hsql).mp hcluster
    exact hsql.cluster_validator row hrow
  have hnonces : (sql.owners.rows.all fun row => row.nonce.all (· < 2 ^ 16)) = true := by
    rw [List.all_eq_true]
    intro row hrow
    cases hnonce : row.nonce with
    | none => rfl
    | some nonce => simpa using hsql.nonces row hrow nonce hnonce
  rw [newWithState, hvalidators, hnonces]
  rfl

theorem rebuilt_loadState : Rebuilt env sql (loadState env sql) := by
  constructor
  case clusters_secondary => exact fun pubkey c => secondary_loadClusters hsql
  case clusters_primary => exact fun c cluster => primary_loadClusters hsql
  case shares => exact fun pubkey share => primary_loadShares hsql
  case id => rfl
  case ownClusters =>
    intro c
    simp only [loadState, List.mem_toFinset, List.mem_map, Sql.OwnShare]
    cases sql.ownId env with
    | none => simp
    | some id =>
      simp only [Option.elim, Sql.fetchShares, List.mem_filter, decide_eq_true_eq,
        Option.some.injEq]
      constructor
      · rintro ⟨share, ⟨hshare, hid⟩, hc⟩
        exact ⟨share, ⟨hshare, hid.symm⟩, hc⟩
      · rintro ⟨share, ⟨hshare, hid⟩, hc⟩
        exact ⟨share, ⟨hshare, hid.symm⟩, hc⟩
  case mirrors =>
    constructor
    · exact primary_loadMetadata hsql
    · exact ValidatorMap.indexed_fill (fun e he => (Sql.entry_facts hsql he env.sha256).1)
        (fun e he => (Sql.entry_facts hsql he env.sha256).2.1)
        fun e he => (Sql.entry_facts hsql he env.sha256).2.2
    · intro pubkey share hshare
      obtain ⟨hown, hpubkey⟩ := (primary_loadShares hsql).mp hshare
      exact ⟨hown.1, hpubkey⟩
    · have hentries : ∀ e ∈ sql.shareEntries env, e.1 ∈ sql.clusterEntries := fun e he =>
        ((Sql.mem_shareEntries hsql).mp he).1
      exact ValidatorMap.indexed_fill
        (fun e he => (Sql.entry_facts hsql (hentries e he) env.sha256).1)
        (fun e he => (Sql.entry_facts hsql (hentries e he) env.sha256).2.1)
        fun e he => (Sql.entry_facts hsql (hentries e he) env.sha256).2.2
    · exact indexed_loadClusters hsql
    · exact valued_loadClusters hsql

end Database.NetworkState

end Anchor
