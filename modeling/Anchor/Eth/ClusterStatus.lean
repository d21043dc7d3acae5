import Mathlib
import Anchor.Eth.Identity

/-!
# The attributes of clusters

The status, the fee recipient and the members of the clusters in memory against their
rows.  A validator that is added makes its cluster active in memory, while the insert
into the table ignores a cluster that is there and leaves it liquidated.
-/

namespace Anchor

open Ssz

variable {C : Type} [DecidableEq C]

def SameStatus (sql : Sql C) (mem : Database.NetworkState C) : Prop :=
  ∀ c cluster, mem.clusters.primary c = some cluster →
    ∀ row ∈ sql.clusters, row.clusterId = c → cluster.liquidated = row.liquidated

/-- A validator is added to an active cluster only. -/
def StatusKept (env : EventEnv C) (published : Database.NetworkState C) (tx : Tx C) :
    ContractLog → Prop
  | .validatorAdded owner operatorIds publicKey shares =>
    tx.Accepts env published (.validatorAdded owner operatorIds publicKey shares) →
      env.mode = .node → ∀ row ∈ tx.sql.clusters.rows,
        row.clusterId = computeClusterId env.keccak256 owner operatorIds →
          row.liquidated = false
  | _ => True

instance (env : EventEnv C) (published : Database.NetworkState C) (tx : Tx C) :
    (log : ContractLog) → Decidable (StatusKept env published tx log)
  | .validatorAdded owner operatorIds publicKey shares =>
    inferInstanceAs (Decidable
      (tx.Accepts env published (.validatorAdded owner operatorIds publicKey shares) →
        env.mode = .node → ∀ row ∈ tx.sql.clusters.rows,
          row.clusterId = computeClusterId env.keccak256 owner operatorIds →
            row.liquidated = false))
  | .operatorAdded .. | .operatorRemoved .. | .validatorRemoved .. | .clusterLiquidated ..
  | .clusterReactivated .. | .feeRecipientAddressUpdated .. | .validatorExited .. | .unknown =>
    inferInstanceAs (Decidable True)

variable {env : EventEnv C} {mem mem' : Database.NetworkState C}

namespace SameStatus

variable {sql sql' : Sql C}

omit [DecidableEq C] in
theorem mono (h : SameStatus sql mem) (hsql : ∀ row ∈ sql'.clusters, row ∈ sql.clusters)
    (hmem : ∀ c cluster', mem'.clusters.primary c = some cluster' →
      ∃ cluster, mem.clusters.primary c = some cluster ∧
        cluster'.liquidated = cluster.liquidated) : SameStatus sql' mem' := by
  intro c cluster' hc row hrow hid
  obtain ⟨cluster, hcluster, hstatus⟩ := hmem c cluster' hc
  rw [hstatus]
  exact h c cluster hcluster row (hsql row hrow) hid

theorem validatorAdded_iff {owner : Address} {ids : List OperatorId} {cluster : Cluster C}
    {validator : ValidatorMetadata C} {shares : List (Share C)} {ownShare : Option (Share C)}
    (hadd : Addition env sql sql' owner ids cluster validator shares)
    (hactive : cluster.liquidated = false) (h : SameStatus sql mem) :
    SameStatus sql' (mem.insertValidator env.toDatabaseEnv cluster validator ownShare) ↔
      ∀ row ∈ sql.clusters, row.clusterId = cluster.clusterId → row.liquidated = false := by
  have hprimary : (mem.insertValidator env.toDatabaseEnv cluster validator
      ownShare).clusters.primary =
        Function.update mem.clusters.primary cluster.clusterId (some cluster) := by
    cases ownShare <;> rfl
  constructor
  · intro h' row hrow hid
    rw [← hactive]
    refine (h' cluster.clusterId cluster ?_ row ((hadd.added.mem_clusters row).mpr (Or.inl hrow))
      hid).symm
    rw [hprimary, Function.update_self]
  · intro hrows c cluster' hc row hrow hid
    rw [hprimary] at hc
    by_cases hcc : c = cluster.clusterId
    · subst hcc
      rw [Function.update_self, Option.some.injEq] at hc
      subst hc
      rcases (hadd.added.mem_clusters row).mp hrow with hold | ⟨rfl, -⟩
      · rw [hactive, hrows row hold hid]
      · exact hactive
    · rw [Function.update_of_ne hcc] at hc
      rcases (hadd.added.mem_clusters row).mp hrow with hold | ⟨rfl, -⟩
      · exact h c cluster' hc row hold hid
      · exact absurd hid.symm hcc

theorem updateClusterStatus (h : SameStatus sql mem) (c : C) (liquidated : Bool) :
    SameStatus (sql.updateClusterStatus c liquidated) (mem.withStatus c liquidated) := by
  intro c' cluster' hc row' hrow' hid
  obtain ⟨row, hrow, rfl⟩ := Sql.mem_clusters_updateClusterStatus.mp hrow'
  simp only [Database.NetworkState.withStatus, MultiIndexMap.modify] at hc
  by_cases hrowc : row.clusterId = c
  · rw [if_pos hrowc] at hid ⊢
    rw [← hid, show row.clusterId = c from hrowc, Function.update_self,
      Option.map_eq_some_iff] at hc
    obtain ⟨cluster, -, rfl⟩ := hc
    rfl
  · rw [if_neg hrowc] at hid ⊢
    rw [Function.update_of_ne (hid ▸ hrowc)] at hc
    exact h c' cluster' hc row hrow hid

theorem validatorRemoved {denv : DatabaseEnv C} {validator : ValidatorMetadata C}
    (hremoval : Removal denv sql sql' validator) (h : SameStatus sql mem)
    (hmem : mem.Removed (sql.IsLast validator) validator mem') : SameStatus sql' mem' := by
  refine h.mono (fun row hrow => ((hremoval.removed.clusters row).mp hrow).1) fun c cluster hc => ?_
  refine ⟨cluster, ?_, rfl⟩
  by_cases hlast : sql.IsLast validator
  · rw [(hmem.dropped hlast).1, MultiIndexMap.primary_remove] at hc
    by_cases hcc : c = validator.clusterId
    · subst hcc
      simp at hc
    · rwa [Function.update_of_ne hcc] at hc
  · rwa [(hmem.kept hlast).1] at hc

theorem setFeeRecipient (h : SameStatus sql mem) (owner recipient : Address) :
    SameStatus (sql.setFeeRecipient owner recipient)
      { mem with
        clusters := mem.clusters.modifyAll (mem.clusters.tertiary owner) fun cluster =>
          { cluster with feeRecipient := recipient } } := by
  refine h.mono (fun row hrow => hrow) fun c cluster' hc => ?_
  simp only [MultiIndexMap.modifyAll] at hc
  split at hc
  · obtain ⟨cluster, hcluster, rfl⟩ := Option.map_eq_some_iff.mp hc
    exact ⟨cluster, hcluster, rfl⟩
  · exact ⟨cluster', hc, rfl⟩

end SameStatus

theorem agreement_sameStatus (env : EventEnv C) :
    Agreement env SameStatus (StatusKept env) := by
  have hcongr : ∀ {sql sql' : Sql C} {mem mem' : Database.NetworkState C}, sql.SameCore sql' →
      mem.SameCore mem' → (SameStatus sql' mem' ↔ SameStatus sql mem) := by
    intro sql sql' mem mem' hsql hmem
    simp only [SameStatus, hsql.clusters, hmem.clusters]
  refine ⟨hcongr, ?_, ?_⟩
  · intro sql state hsql hrebuilt c cluster hc row hrow hid
    obtain ⟨row', hrow', hid', rfl⟩ := (hrebuilt.clusters_primary c cluster).mp hc
    rw [Table.eq_of_key_eq hrow hrow' (hid.trans hid'.symm)]
    rfl
  · intro published tx mem log sql' mem' htx hmirrors hreplays h
    cases hreplays with
    | quiet hsql hmem hlog =>
      refine iff_of_true ((hcongr hsql hmem).mpr h) ?_
      cases log with
      | validatorAdded owner ids publicKey bytes =>
        exact fun haccepts hmode => absurd haccepts (hlog hmode)
      | _ => trivial
    | operatorAdded hsql hmem hwellFormed hinsert =>
      refine iff_of_true ?_ trivial
      obtain ⟨-, -, -, operators, rfl, -⟩ := Sql.insertOperator_ok hinsert
      exact ((hcongr hsql hmem).mpr h).mono (fun row hrow => hrow)
        fun c cluster hc => ⟨cluster, hc, rfl⟩
    | operatorRemoved haccepts hactive =>
      refine iff_of_true (h.mono ?_ fun c cluster hc => ⟨cluster, hc, rfl⟩) trivial
      simp
    | validatorAdded haccepts hmode hsql hmem hadd hactive hown =>
      rw [SameStatus.validatorAdded_iff hadd hactive ((hcongr hsql hmem).mpr h), hsql.clusters,
        hadd.clusterId]
      exact ⟨fun hrows _ _ => hrows, fun hkept => hkept haccepts hmode⟩
    | validatorRemoved haccepts hpubkey hremoval hmem =>
      exact iff_of_true (h.validatorRemoved hremoval hmem) trivial
    | liquidated => exact iff_of_true (h.updateClusterStatus _ _) trivial
    | reactivated => exact iff_of_true (h.updateClusterStatus _ _) trivial
    | feeRecipient => exact iff_of_true (h.setFeeRecipient _ _) trivial

namespace NetworkDatabase

/-- The row of a cluster, with the fee recipient and the members that the cluster has. -/
def RowOf (db : NetworkDatabase C) (cluster : Cluster C) (row : ClusterRow C) : Prop :=
  cluster.feeRecipient = (db.sql.feeRecipientForOwner row.owner).getD row.owner ∧
    ∀ id, id ∈ cluster.clusterMembers.toList ↔ ⟨row.clusterId, id⟩ ∈ db.sql.clusterMembers

def ClustersAgree (db : NetworkDatabase C) : Prop :=
  ∀ c cluster, db.state.clusters.primary c = some cluster →
    ∃ row ∈ db.sql.clusters, row.clusterId = c ∧ cluster.liquidated = row.liquidated ∧
      db.RowOf cluster row

theorem Sound.exists_row {db : NetworkDatabase C} (hsound : db.Sound env) {c : C}
    {cluster : Cluster C} (hc : db.state.clusters.primary c = some cluster) :
    ∃ row ∈ db.sql.clusters, row.clusterId = c ∧ db.RowOf cluster row := by
  have hvalued := hsound.mirrors.clusters_valued
  obtain ⟨row, hrow, rfl, howner⟩ := hvalued.owner c cluster hc
  refine ⟨row, hrow, rfl, ?_, hvalued.clusterMembers _ cluster hc⟩
  rw [howner]
  exact hvalued.feeRecipient _ cluster hc

theorem clustersAgree_iff {db : NetworkDatabase C} (hsound : db.Sound env) :
    db.ClustersAgree ↔ SameStatus db.sql db.state := by
  constructor
  · intro h c cluster hc row hrow hid
    obtain ⟨row', hrow', hid', hstatus, -⟩ := h c cluster hc
    rw [hstatus, Table.eq_of_key_eq hrow hrow' (hid.trans hid'.symm)]
  · intro h c cluster hc
    obtain ⟨row, hrow, hid, hof⟩ := hsound.exists_row hc
    exact ⟨row, hrow, hid, h c cluster hc row hrow hid, hof⟩

end NetworkDatabase

/-- The fee recipient and the members of clusters always agree with the tables.  Their status does
as long as no validator is added to a liquidated cluster, and such an addition always separates
the two. -/
theorem clusters_agree_iff_status_kept (env : EventEnv C)
    (hkeccak : Function.Injective env.keccak256) :
    (∀ events, Machine.Steps (NetworkDatabase.step env)
        (NetworkDatabase.Meets env (StatusKept env)) (NetworkDatabase.new env) events →
      (Machine.run (NetworkDatabase.step env) (NetworkDatabase.new env) events).ClustersAgree) ∧
    (∀ (db : NetworkDatabase C) (logs : List ContractLog) (log : ContractLog) (tx tx' : Tx C)
      (m n : ℕ), db.Reachable env →
      Tx.afterLogs env db.state db.beginTx logs = .ok tx →
      tx.afterLog env db.state log = .ok tx' → (db.commit env tx m).ClustersAgree →
      ((db.commit env tx' n).ClustersAgree ↔ StatusKept env db.state tx log)) ∧
    ∀ db : NetworkDatabase C, db.Reachable env → ∀ c cluster,
      db.state.clusters.primary c = some cluster →
      ∃ row ∈ db.sql.clusters, row.clusterId = c ∧ db.RowOf cluster row := by
  refine ⟨?_, ?_, ?_⟩
  · intro events hsteps
    exact NetworkDatabase.agrees_run hkeccak (agreement_sameStatus env)
      NetworkDatabase.clustersAgree_iff hsteps
  · intro db logs log tx tx' m n hdb hlogs hlog hagrees
    exact NetworkDatabase.agrees_commit_iff hkeccak (agreement_sameStatus env)
      NetworkDatabase.clustersAgree_iff hdb hlogs hlog hagrees
  · intro db hdb c cluster hc
    exact (hdb.sound hkeccak).exists_row hc

namespace Sample

def liquidateCluster : ContractLog := .clusterLiquidated clusterOwner [⟨1⟩, ⟨2⟩, ⟨3⟩, ⟨4⟩]

def addedToLiquidated : NetworkDatabase Bytes :=
  runChain [.block operatorLogs 1, .block [addValidator 8] 2, .block [liquidateCluster] 3,
    .block [addValidator 9] 4]

end Sample

theorem clusters_agree_sample :
    Function.Injective Sample.chainEnv.keccak256 ∧
      (Sample.runChain [.block Sample.operatorLogs 1,
        .block [Sample.addValidator 8, Sample.addValidator 9, Sample.liquidateCluster]
          2]).ClustersAgree :=
  ⟨Function.injective_id,
    (clusters_agree_iff_status_kept Sample.chainEnv Function.injective_id).1 _
      (by decide +kernel)⟩

/-- The cluster is active in memory and liquidated in its row. -/
theorem liquidated_cluster_active_in_memory : ¬ Sample.addedToLiquidated.ClustersAgree := by
  intro h
  have hmemory : (Sample.addedToLiquidated.state.clusters.primary
      (computeClusterId id Sample.clusterOwner [⟨1⟩, ⟨2⟩, ⟨3⟩, ⟨4⟩])).map (·.liquidated) =
      some false := by
    decide +kernel
  have htables : ∀ row ∈ Sample.addedToLiquidated.sql.clusters.rows, row.liquidated = true := by
    decide +kernel
  obtain ⟨cluster, hcluster, hactive⟩ := Option.map_eq_some_iff.mp hmemory
  obtain ⟨row, hrow, -, hstatus, -⟩ := h _ cluster hcluster
  rw [hactive, htables row hrow] at hstatus
  cases hstatus

/-! ## Validators and their clusters -/

/-- Whatever the chain has said, every validator in memory has its cluster there, whose id is the
digest of its owner and its members; exactly the members hold shares of the validator, and these
combine to its key. -/
theorem validators_backed_by_cluster (env : EventEnv C)
    (hkeccak : Function.Injective env.keccak256) (db : NetworkDatabase C) (h : db.Reachable env)
    (pubkey : PublicKeyBytes) (metadata : ValidatorMetadata C)
    (hmetadata : db.state.metadata.primary pubkey = some metadata) :
    ∃ cluster ids, db.state.clusters.primary metadata.clusterId = some cluster ∧
      cluster.clusterMembers.toList.Perm ids ∧
      metadata.clusterId = computeClusterId env.keccak256 cluster.owner ids ∧
      (∀ id, id ∈ ids ↔
        ∃ s ∈ db.sql.shares, s.validatorPubkey = pubkey ∧ s.operatorId = id) ∧
      (∀ share, db.state.shares.primary pubkey = some share → share.operatorId ∈ ids) ∧
      validateSharePublicKeys env.interpolates pubkey
        ((db.sql.shares.rows.filter (·.validatorPubkey = pubkey)).map fun s =>
          (s.operatorId, s.sharePubkey)) = .ok () := by
  obtain ⟨hsql, hmirrors⟩ := h.sound hkeccak
  rw [hmirrors.metadata] at hmetadata
  obtain ⟨hv, rfl⟩ := Table.find?_eq_some.mp hmetadata
  obtain ⟨cluster, hcluster⟩ := Option.isSome_iff_exists.mp
    ((hmirrors.clusters_indexed.primary _).mpr (hsql.validator_cluster metadata hv))
  obtain ⟨row, hrow, hid, howner⟩ := hmirrors.clusters_valued.owner _ cluster hcluster
  obtain ⟨ids, -, hnodup, hdigest, hids⟩ := hsql.cluster_members row hrow
  rw [hid] at hdigest hids
  have hholds : ∀ id, id ∈ ids ↔
      ∃ s ∈ db.sql.shares, s.validatorPubkey = metadata.publicKey ∧ s.operatorId = id :=
    fun id => (hids id).symm.trans (hsql.share_iff metadata hv id).symm
  refine ⟨cluster, ids, hcluster, ?_, howner ▸ hdigest, hholds, fun share hshare => ?_,
    hsql.shares_valid metadata hv⟩
  · refine (List.perm_ext_iff_of_nodup cluster.clusterMembers.nodup hnodup).mpr fun id => ?_
    rw [hmirrors.clusters_valued.clusterMembers _ cluster hcluster, hids]
  · obtain ⟨hmem, hkey⟩ := hmirrors.shares _ share hshare
    exact (hholds _).mpr ⟨share, hmem, hkey, rfl⟩

namespace Sample

def oneValidator : NetworkDatabase Bytes :=
  runChain [.block operatorLogs 1, .block [addValidator 9] 2]

theorem validators_backed_by_cluster_oneValidator : ∃ pubkey metadata cluster,
    oneValidator.state.metadata.primary pubkey = some metadata ∧
      oneValidator.state.clusters.primary metadata.clusterId = some cluster := by
  obtain ⟨metadata, hmetadata⟩ := Option.isSome_iff_exists.mp
    (show (oneValidator.state.metadata.primary ⟨validatorKey 9, rfl⟩).isSome by decide +kernel)
  obtain ⟨cluster, -, hcluster, -⟩ := validators_backed_by_cluster chainEnv
    Function.injective_id oneValidator (.new _) _ metadata hmetadata
  exact ⟨_, metadata, cluster, hmetadata, hcluster⟩

end Sample

end Anchor
