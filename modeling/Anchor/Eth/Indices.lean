import Mathlib
import Anchor.Eth.Identity

/-!
# The indices of the maps in memory

Every lookup in memory against the same lookup after a start from the tables.  A
validator that is removed from a cluster that stays is still found in the index of
clusters by validator, which a start from the tables does not fill for it.
-/

namespace Anchor

open Ssz

variable {C : Type} [DecidableEq C]

/-- The clusters are found by their own validators only, and the shares are those of the own
operator. -/
structure OwnKeys (env : DatabaseEnv C) (sql : Sql C) (mem : Database.NetworkState C) :
    Prop where
  clusters : ∀ pubkey, ∀ c ∈ mem.clusters.secondary pubkey, sql.InCluster pubkey c
  shares : ∀ pubkey, (mem.shares.primary pubkey).isSome ↔
    ∃ share, sql.OwnShare env share ∧ share.validatorPubkey = pubkey

/-- The id that is used for a new validator, and the one of the tables, are both among the
operators of the validator, or neither is. -/
def SameShare (env : EventEnv C) (published : Database.NetworkState C) (tx : Tx C)
    (operatorIds : List OperatorId) : Prop :=
  (∃ id ∈ operatorIds, tx.getOwnOperatorIdTx env.toDatabaseEnv published = some id) ↔
    ∃ id ∈ operatorIds, tx.sql.ownId env.toDatabaseEnv = some id

/-- A validator that is removed is the last one of its cluster, an own operator that is removed has
no shares, and a validator that is added is given the share of the own operator. -/
def IndicesKept (env : EventEnv C) (published : Database.NetworkState C) (tx : Tx C) :
    ContractLog → Prop
  | .validatorRemoved owner operatorIds publicKey =>
    tx.Accepts env published (.validatorRemoved owner operatorIds publicKey) →
      ∀ validator ∈ tx.sql.validators.rows,
        FixedBytes.new? publicKey = some validator.publicKey → tx.sql.IsLast validator
  | .operatorRemoved operatorId =>
    tx.Accepts env published (.operatorRemoved operatorId) →
      tx.sql.OwnByKey env.toDatabaseEnv operatorId →
        ∀ share ∈ tx.sql.shares.rows, share.operatorId ≠ operatorId
  | .validatorAdded owner operatorIds publicKey shares =>
    tx.Accepts env published (.validatorAdded owner operatorIds publicKey shares) →
      env.mode = .node → SameShare env published tx operatorIds
  | _ => True

instance (env : EventEnv C) (published : Database.NetworkState C) (tx : Tx C)
    (operatorIds : List OperatorId) : Decidable (SameShare env published tx operatorIds) :=
  inferInstanceAs (Decidable (_ ↔ _))

instance (sql : Sql C) (validator : ValidatorMetadata C) : Decidable (sql.IsLast validator) :=
  inferInstanceAs (Decidable (∀ v ∈ sql.validators.rows, v.clusterId = validator.clusterId →
    v.publicKey = validator.publicKey))

instance (env : EventEnv C) (published : Database.NetworkState C) (tx : Tx C) :
    (log : ContractLog) → Decidable (IndicesKept env published tx log)
  | .operatorRemoved operatorId =>
    inferInstanceAs (Decidable (tx.Accepts env published (.operatorRemoved operatorId) →
      tx.sql.OwnByKey env.toDatabaseEnv operatorId →
        ∀ share ∈ tx.sql.shares.rows, share.operatorId ≠ operatorId))
  | .validatorRemoved owner operatorIds publicKey =>
    inferInstanceAs (Decidable
      (tx.Accepts env published (.validatorRemoved owner operatorIds publicKey) →
        ∀ validator ∈ tx.sql.validators.rows,
          FixedBytes.new? publicKey = some validator.publicKey → tx.sql.IsLast validator))
  | .validatorAdded owner operatorIds publicKey shares =>
    inferInstanceAs (Decidable
      (tx.Accepts env published (.validatorAdded owner operatorIds publicKey shares) →
        env.mode = .node → SameShare env published tx operatorIds))
  | .operatorAdded .. | .clusterLiquidated .. | .clusterReactivated ..
  | .feeRecipientAddressUpdated .. | .validatorExited .. | .unknown =>
    inferInstanceAs (Decidable True)

variable {env : EventEnv C} {published mem mem' : Database.NetworkState C} {tx : Tx C}

namespace OwnKeys

variable {denv : DatabaseEnv C} {sql sql' : Sql C}

omit [DecidableEq C] in
theorem congr (h : OwnKeys denv sql mem)
    (hin : ∀ pubkey c, sql'.InCluster pubkey c ↔ sql.InCluster pubkey c)
    (hshare : ∀ share, sql'.OwnShare denv share ↔ sql.OwnShare denv share)
    (hsecondary : mem'.clusters.secondary = mem.clusters.secondary)
    (hshares : mem'.shares = mem.shares) : OwnKeys denv sql' mem' := by
  constructor
  · simpa only [hsecondary, hin] using h.clusters
  · simpa only [hshares, hshare] using h.shares

/-- The share of a new validator is in memory if the id that is used is among its operators, and
in the tables if the own id is. -/
theorem validatorAdded_iff {owner : Address} {ids : List OperatorId} {cluster : Cluster C}
    {validator : ValidatorMetadata C} {shares : List (Share C)} {ownShare : Option (Share C)}
    {used : Option OperatorId}
    (hadd : Addition env sql sql' owner ids cluster validator shares)
    (h : OwnKeys env.toDatabaseEnv sql mem)
    (hown : ∀ share, ownShare = some share ↔ share ∈ shares ∧ used = some share.operatorId) :
    OwnKeys env.toDatabaseEnv sql'
        (mem.insertValidator env.toDatabaseEnv cluster validator ownShare) ↔
      ((∃ id ∈ ids, used = some id) ↔ ∃ id ∈ ids, sql.ownId env.toDatabaseEnv = some id) := by
  have hids : ∀ own : Option OperatorId, (∃ id ∈ ids, own = some id) ↔
      ∃ share ∈ shares, own = some share.operatorId := by
    intro own
    rw [← hadd.checked.operators]
    simp only [List.mem_map, exists_exists_and_eq_and]
  have hfresh : ∀ share, sql.OwnShare env.toDatabaseEnv share →
      share.validatorPubkey ≠ validator.publicKey := fun share hold =>
    hadd.wellFormed.share_ne hadd.checked.fresh hold.1
  have hmemory : ∀ pubkey, ((mem.insertValidator env.toDatabaseEnv cluster validator
      ownShare).shares.primary pubkey).isSome ↔
      pubkey = validator.publicKey ∧ (∃ id ∈ ids, used = some id) ∨
        (mem.shares.primary pubkey).isSome := by
    intro pubkey
    rw [hids]
    cases ownShare with
    | none =>
      have hnone : ¬ ∃ share ∈ shares, used = some share.operatorId := by
        rintro ⟨share, hshare⟩
        cases (hown share).mpr hshare
      simp only [hnone, and_false, false_or]
      rfl
    | some own =>
      have hsome : ∃ share ∈ shares, used = some share.operatorId := ⟨own, (hown own).mp rfl⟩
      simp only [hsome, and_true, Database.NetworkState.insertValidator,
        Database.NetworkState.insertOwnShare, MultiIndexMap.insertOrUpdate]
      by_cases hpubkey : pubkey = validator.publicKey
      · simp [hpubkey]
      · simp [hpubkey]
  have htables : ∀ pubkey, (∃ share, sql'.OwnShare env.toDatabaseEnv share ∧
      share.validatorPubkey = pubkey) ↔
      pubkey = validator.publicKey ∧ (∃ id ∈ ids, sql.ownId env.toDatabaseEnv = some id) ∨
        (mem.shares.primary pubkey).isSome := by
    intro pubkey
    rw [hids, h.shares]
    simp only [Sql.ownShare_added hadd.added]
    constructor
    · rintro ⟨share, hold | ⟨hmem, hid⟩, rfl⟩
      · exact Or.inr ⟨share, hold, rfl⟩
      · exact Or.inl ⟨(hadd.checked.belongs share hmem).1, share, hmem, hid⟩
    · rintro (⟨rfl, share, hmem, hid⟩ | ⟨share, hold, hkey⟩)
      · exact ⟨share, Or.inr ⟨hmem, hid⟩, (hadd.checked.belongs share hmem).1⟩
      · exact ⟨share, Or.inl hold, hkey⟩
  -- the new validator has no share in memory yet
  have hnew : ¬ (mem.shares.primary validator.publicKey).isSome := by
    rw [h.shares]
    rintro ⟨share, hold, hkey⟩
    exact hfresh share hold hkey
  constructor
  · intro h'
    have hiff := (hmemory validator.publicKey).symm.trans
      ((h'.shares validator.publicKey).trans (htables validator.publicKey))
    simpa [hnew] using hiff
  · intro hsame
    refine ⟨?_, fun pubkey => by rw [hmemory, htables, hsame]⟩
    intro pubkey c hc
    rw [hadd.inCluster]
    have hclusters : (mem.insertValidator env.toDatabaseEnv cluster validator
        ownShare).clusters.secondary = Uniqueness.unique.add mem.clusters.secondary
          validator.publicKey cluster.clusterId := by
      cases ownShare <;> rfl
    rw [hclusters, Uniqueness.mem_unique_add] at hc
    rcases hc with ⟨rfl, rfl⟩ | ⟨-, hc⟩
    · exact Or.inr ⟨rfl, rfl⟩
    · exact Or.inl (h.clusters pubkey c hc)

theorem validatorRemoved_iff {validator : ValidatorMetadata C}
    (hremoval : Removal denv sql sql' validator) (hmirrors : Mirrors denv.sha256 sql mem)
    (h : OwnKeys denv sql mem)
    (hmem : mem.Removed (sql.IsLast validator) validator mem') :
    OwnKeys denv sql' mem' ↔ sql.IsLast validator := by
  have hin : sql.InCluster validator.publicKey validator.clusterId :=
    ⟨validator, hremoval.stored, rfl, rfl⟩
  have hshares : ∀ pubkey, (mem'.shares.primary pubkey).isSome ↔
      ∃ share, sql'.OwnShare denv share ∧ share.validatorPubkey = pubkey := by
    intro pubkey
    rw [hmem.shares, MultiIndexMap.primary_remove]
    simp only [Sql.ownShare_removal hremoval]
    by_cases hpubkey : pubkey = validator.publicKey
    · subst hpubkey
      simp only [Function.update_self, Option.isSome_none, Bool.false_eq_true, false_iff]
      rintro ⟨share, ⟨-, hne⟩, heq⟩
      exact hne heq
    · rw [Function.update_of_ne hpubkey, h.shares]
      constructor
      · rintro ⟨share, hold, rfl⟩
        exact ⟨share, ⟨hold, hpubkey⟩, rfl⟩
      · rintro ⟨share, ⟨hold, -⟩, hkey⟩
        exact ⟨share, hold, hkey⟩
  by_cases hlast : sql.IsLast validator
  · refine iff_of_true ⟨?_, hshares⟩ hlast
    intro pubkey c hc
    rw [(hmem.dropped hlast).1, hmirrors.clusters_indexed.closed.remove_eq] at hc
    obtain ⟨hne, hc⟩ := Finset.mem_erase.mp hc
    have hold := h.clusters pubkey c hc
    refine (hremoval.inCluster pubkey c).mpr ⟨hold, ?_⟩
    rintro rfl
    exact hne (hold.unique hin)
  · -- the index still leads from the removed validator to its cluster
    refine iff_of_false (fun h' => ?_) hlast
    have hsecondary := hmirrors.clusters_indexed.secondary _ _ hin
    rw [← (hmem.kept hlast).1] at hsecondary
    have hstill := h'.clusters validator.publicKey validator.clusterId (by simp [hsecondary])
    exact ((hremoval.inCluster _ _).mp hstill).2 rfl

omit [DecidableEq C] in
theorem operatorRemoved_iff (hsql : sql.WellFormed denv) {id : OperatorId}
    (hkey : sql.OwnByKey denv id) (h : OwnKeys denv sql mem) :
    OwnKeys denv (sql.deleteOperator id)
        { mem with operators := Function.update mem.operators id none } ↔
      ∀ share ∈ sql.shares.rows, share.operatorId ≠ id := by
  have hnone := Sql.ownId_deleteOperator_of_ownByKey hsql hkey
  have hanonymous : ∀ share, ¬ (sql.deleteOperator id).OwnShare denv share := by
    rintro share ⟨-, hown⟩
    rw [hnone] at hown
    cases hown
  constructor
  · rintro h' share hshare rfl
    have hsome := (h.shares share.validatorPubkey).mpr ⟨share, ⟨hshare, hkey.2⟩, rfl⟩
    obtain ⟨share', hown, -⟩ := (h'.shares share.validatorPubkey).mp hsome
    exact hanonymous share' hown
  · intro hnone
    constructor
    · simpa [Sql.InCluster] using h.clusters
    · intro pubkey
      refine iff_of_false (fun hsome => ?_) ?_
      · obtain ⟨share, ⟨hshare, hown⟩, -⟩ := (h.shares pubkey).mp hsome
        exact hnone share hshare (Option.some.inj (hown.symm.trans hkey.2))
      · rintro ⟨share, hown, -⟩
        exact hanonymous share hown

end OwnKeys

theorem agreement_ownKeys (env : EventEnv C) :
    Agreement env (OwnKeys env.toDatabaseEnv) (IndicesKept env) := by
  have hshare : ∀ {sql sql' : Sql C}, sql.SameCore sql' → ∀ share,
      sql'.OwnShare env.toDatabaseEnv share ↔ sql.OwnShare env.toDatabaseEnv share := by
    intro sql sql' hsql share
    simp only [Sql.OwnShare, hsql.shares, Sql.ownId_congr hsql.operators]
  have hin : ∀ {sql sql' : Sql C}, sql.SameCore sql' → ∀ pubkey c,
      sql'.InCluster pubkey c ↔ sql.InCluster pubkey c := by
    intro sql sql' hsql pubkey c
    simp only [Sql.InCluster, hsql.validators]
  have hcongr : ∀ {sql sql' : Sql C} {mem mem' : Database.NetworkState C}, sql.SameCore sql' →
      mem.SameCore mem' →
      (OwnKeys env.toDatabaseEnv sql' mem' ↔ OwnKeys env.toDatabaseEnv sql mem) := by
    intro sql sql' mem mem' hsql hmem
    constructor
    · intro h
      exact h.congr (fun pubkey c => (hin hsql pubkey c).symm)
        (fun share => (hshare hsql share).symm) (by rw [hmem.clusters]) hmem.shares.symm
    · intro h
      exact h.congr (hin hsql) (hshare hsql) (by rw [hmem.clusters]) hmem.shares
  refine ⟨hcongr, ?_, ?_⟩
  · intro sql state hsql hrebuilt
    refine ⟨fun pubkey c hc => (hrebuilt.clusters_secondary pubkey c).mp hc, fun pubkey => ?_⟩
    rw [Option.isSome_iff_exists]
    exact exists_congr fun share => hrebuilt.shares pubkey share
  · intro published tx mem log sql' mem' htx hmirrors hreplays h
    cases hreplays with
    | quiet hsql hmem hlog =>
      refine iff_of_true ((hcongr hsql hmem).mpr h) ?_
      cases log with
      | operatorRemoved id => exact fun haccepts => absurd haccepts (hlog trivial)
      | validatorRemoved owner ids publicKey =>
        exact fun haccepts => absurd haccepts (hlog trivial)
      | validatorAdded owner ids publicKey bytes =>
        exact fun haccepts hmode => absurd haccepts (hlog hmode)
      | _ => trivial
    | operatorAdded hsql hmem hwellFormed hinsert =>
      refine iff_of_true ?_ trivial
      refine ((hcongr hsql hmem).mpr h).congr ?_
        (Sql.ownShare_insertOperator hwellFormed hinsert) rfl rfl
      obtain ⟨-, -, -, operators, rfl, -⟩ := Sql.insertOperator_ok hinsert
      exact fun _ _ => Iff.rfl
    | operatorRemoved haccepts hactive =>
      rename_i id
      by_cases hkey : tx.sql.OwnByKey env.toDatabaseEnv id
      · rw [OwnKeys.operatorRemoved_iff htx.wellFormed hkey h]
        exact ⟨fun hnone _ _ => hnone, fun hkept => hkept haccepts hkey⟩
      · have hid := Sql.ownId_deleteOperator_of_not htx.wellFormed hkey
        refine iff_of_true (h.congr ?_ ?_ rfl rfl) fun _ hown => absurd hown hkey
        · simp [Sql.InCluster]
        · simp [Sql.OwnShare, hid]
    | validatorAdded haccepts hmode hsql hmem hadd hactive hown =>
      rw [OwnKeys.validatorAdded_iff hadd ((hcongr hsql hmem).mpr h) hown,
        Sql.ownId_congr hsql.operators]
      exact ⟨fun hsame _ _ => hsame, fun hkept => hkept haccepts hmode⟩
    | validatorRemoved haccepts hpubkey hremoval hmem =>
      rename_i validator
      rw [OwnKeys.validatorRemoved_iff hremoval htx.mirrors h hmem]
      constructor
      · intro hlast _ v hv hvkey
        have hkey : v.publicKey = validator.publicKey :=
          Option.some.inj (hvkey.symm.trans hpubkey)
        rwa [Table.eq_of_key_eq hv hremoval.stored hkey]
      · intro hkept
        exact hkept haccepts validator hremoval.stored hpubkey
    | liquidated =>
      exact iff_of_true (h.congr (fun _ _ => Iff.rfl) (fun _ => Iff.rfl) rfl rfl) trivial
    | reactivated =>
      exact iff_of_true (h.congr (fun _ _ => Iff.rfl) (fun _ => Iff.rfl) rfl rfl) trivial
    | feeRecipient =>
      exact iff_of_true (h.congr (fun _ _ => Iff.rfl) (fun _ => Iff.rfl) rfl rfl) trivial

namespace NetworkDatabase

/-- Every lookup finds the primary keys that it finds after a start from the tables. -/
def IndicesAgree (env : EventEnv C) (db : NetworkDatabase C) : Prop :=
  ∃ rebuilt, Database.NetworkState.newWithState env.toDatabaseEnv db.sql = some rebuilt ∧
    db.state.shares.SameKeys rebuilt.shares ∧ db.state.metadata.SameKeys rebuilt.metadata ∧
    db.state.clusters.SameKeys rebuilt.clusters

theorem indicesAgree_iff {db : NetworkDatabase C} (hsound : db.Sound env) :
    db.IndicesAgree env ↔ OwnKeys env.toDatabaseEnv db.sql db.state := by
  have hrebuilt := Database.NetworkState.rebuilt_loadState hsound.wellFormed
  have hclusters := hsound.mirrors.clusters_indexed
  have hclusters' := hrebuilt.mirrors.clusters_indexed
  have hshares : ∀ pubkey, ((Database.NetworkState.loadState env.toDatabaseEnv
      db.sql).shares.primary pubkey).isSome ↔
      ∃ share, db.sql.OwnShare env.toDatabaseEnv share ∧ share.validatorPubkey = pubkey := by
    intro pubkey
    rw [Option.isSome_iff_exists]
    exact exists_congr fun share => hrebuilt.shares pubkey share
  rw [IndicesAgree, Database.NetworkState.newWithState_eq hsound.wellFormed]
  constructor
  · rintro ⟨rebuilt, hsome, hsame, -, hsame'⟩
    cases hsome
    constructor
    · intro pubkey c hc
      have hsecondary := hsame'.secondary pubkey
      rw [MultiIndexMap.present_eq (hclusters.closed.secondary pubkey),
        MultiIndexMap.present_eq (hclusters'.closed.secondary pubkey)] at hsecondary
      rw [hsecondary] at hc
      exact (hrebuilt.clusters_secondary pubkey c).mp hc
    · intro pubkey
      rw [hsame.primary, hshares]
  · intro h
    refine ⟨_, rfl, ?_, ?_, ?_, ?_, ?_, ?_⟩
    · refine hsound.mirrors.shares_indexed.sameKeys hrebuilt.mirrors.shares_indexed fun pubkey => ?_
      rw [Bool.eq_iff_iff, h.shares, hshares]
    · refine hsound.mirrors.metadata_indexed.sameKeys hrebuilt.mirrors.metadata_indexed
        fun pubkey => ?_
      rw [hsound.mirrors.metadata, hrebuilt.mirrors.metadata]
    · intro c
      rw [Bool.eq_iff_iff, hclusters.primary, hclusters'.primary]
    · intro pubkey
      rw [MultiIndexMap.present_eq (hclusters.closed.secondary pubkey),
        MultiIndexMap.present_eq (hclusters'.closed.secondary pubkey)]
      ext c
      rw [hrebuilt.clusters_secondary]
      refine ⟨h.clusters pubkey c, fun hin => ?_⟩
      simp [hclusters.secondary pubkey c hin]
    · intro owner
      rw [MultiIndexMap.present_eq (hclusters.closed.tertiary owner),
        MultiIndexMap.present_eq (hclusters'.closed.tertiary owner)]
      ext c
      rw [hclusters.tertiary, hclusters'.tertiary]
    · intro q
      rw [MultiIndexMap.present_eq (hclusters.closed.quaternary q),
        MultiIndexMap.present_eq (hclusters'.closed.quaternary q)]
      ext c
      rw [hclusters.quaternary, hclusters'.quaternary]

end NetworkDatabase

/-- The lookups in memory agree with those after a start from the tables as long as every log
meets the condition, and a log that does not meet it always separates them. -/
theorem indices_agree_iff_kept (env : EventEnv C) (hkeccak : Function.Injective env.keccak256) :
    (∀ events, Machine.Steps (NetworkDatabase.step env)
        (NetworkDatabase.Meets env (IndicesKept env)) (NetworkDatabase.new env) events →
      (Machine.run (NetworkDatabase.step env) (NetworkDatabase.new env) events).IndicesAgree
        env) ∧
    ∀ (db : NetworkDatabase C) (logs : List ContractLog) (log : ContractLog) (tx tx' : Tx C)
      (m n : ℕ), db.Reachable env →
      Tx.afterLogs env db.state db.beginTx logs = .ok tx →
      tx.afterLog env db.state log = .ok tx' → (db.commit env tx m).IndicesAgree env →
      ((db.commit env tx' n).IndicesAgree env ↔ IndicesKept env db.state tx log) := by
  constructor
  · intro events hsteps
    exact NetworkDatabase.agrees_run hkeccak (agreement_ownKeys env)
      NetworkDatabase.indicesAgree_iff hsteps
  · intro db logs log tx tx' m n hdb hlogs hlog hagrees
    exact NetworkDatabase.agrees_commit_iff hkeccak (agreement_ownKeys env)
      NetworkDatabase.indicesAgree_iff hdb hlogs hlog hagrees

theorem indices_agree_sample :
    Function.Injective Sample.chainEnv.keccak256 ∧
      (Sample.runChain [.block Sample.operatorLogs 1,
        .block [Sample.addValidator 8, Sample.addValidator 9] 2]).IndicesAgree Sample.chainEnv :=
  ⟨Function.injective_id,
    (indices_agree_iff_kept Sample.chainEnv Function.injective_id).1 _ (by decide +kernel)⟩

namespace Sample

def oneRemoved : NetworkDatabase Bytes :=
  runChain [.block operatorLogs 1, .block [addValidator 8, addValidator 9] 2,
    .block [removeValidator 9] 3]

end Sample

/-- The validator that is removed still leads to its cluster. -/
theorem removed_validator_still_indexed : ¬ Sample.oneRemoved.IndicesAgree Sample.chainEnv := by
  rintro ⟨rebuilt, hrebuilt, -, -, hclusters⟩
  have hmemory : Sample.oneRemoved.state.clusters.present
      (Sample.oneRemoved.state.clusters.secondary ⟨Sample.validatorKey 9, rfl⟩) ≠ ∅ := by
    decide +kernel
  have htables : (Database.NetworkState.newWithState Sample.chainEnv.toDatabaseEnv
      Sample.oneRemoved.sql).map (fun state => state.clusters.present
        (state.clusters.secondary ⟨Sample.validatorKey 9, rfl⟩)) = some ∅ := by
    decide +kernel
  rw [hrebuilt, Option.map_some, Option.some.injEq] at htables
  exact hmemory ((hclusters.secondary _).trans htables)

end Anchor
