import Mathlib
import Anchor.Eth.Atomicity

/-!
# Logs that end their block

A log is applied or skipped, unless a statement fails in the database.  That happens to
operator ids that do not fit a column, to nonces that do not fit 16 bits, to the removal
of an operator that is not there and, in an adopted database, to the addition of one that
was removed while it was a member of a cluster.
-/

namespace Anchor

open Ssz

variable {C : Type}

/-! ## Lookups of operators -/

namespace Sql

variable (sql : Sql C)

def isActive (id : OperatorId) : Bool := (sql.operators.find? id).any (!·.removed)

def isSoftDeleted (id : OperatorId) : Bool := (sql.operators.find? id).any (·.removed)

variable {sql} in
theorem isSoftDeleted_iff {id : OperatorId} : sql.isSoftDeleted id = true ↔
    sql.operators.find? id ≠ none ∧ sql.isActive id = false := by
  unfold isSoftDeleted isActive
  cases sql.operators.find? id with
  | none => simp
  | some row => simp

/-- The operators are looked up in their order, up to the first one that is not active. -/
def namesUnstorable (ids : List OperatorId) : Bool :=
  (ids.find? fun id => !storable id || !sql.isActive id).any (!storable ·)

theorem getOperatorStatus_of_storable {id : OperatorId} (h : storable id = true) :
    ∃ status, sql.getOperatorStatus id = .ok status ∧
      (status = .active ↔ sql.isActive id = true) := by
  unfold getOperatorStatus isActive
  rw [h]
  cases sql.operators.find? id with
  | none => exact ⟨.notFound, rfl, by simp⟩
  | some row => cases hremoved : row.removed <;> simp [hremoved]

theorem getOperatorStatus_of_not_storable {id : OperatorId} (h : storable id = false) :
    sql.getOperatorStatus id = .error .sqlError := by
  simp [getOperatorStatus, h]

end Sql

theorem checkOperatorsExist_fails_iff {sql : Sql C} {ids : List OperatorId} :
    (∃ e, checkOperatorsExist sql ids = .error (.database e)) ↔ sql.namesUnstorable ids = true := by
  induction ids with
  | nil => simp [checkOperatorsExist, Sql.namesUnstorable]
  | cons id ids ih =>
    unfold checkOperatorsExist
    cases hid : Sql.storable id with
    | false => simp [sql.getOperatorStatus_of_not_storable hid, Sql.namesUnstorable, hid]
    | true =>
      obtain ⟨status, hstatus, hactive⟩ := sql.getOperatorStatus_of_storable hid
      rw [hstatus]
      dsimp only
      by_cases h : status = .active
      · rw [if_pos h, ih]
        simp [Sql.namesUnstorable, hid, hactive.mp h]
      · have hinactive : sql.isActive id = false := by
          simpa using fun hact => h (hactive.mpr hact)
        simp [h, Sql.namesUnstorable, hid, hinactive]

/-- The committee is looked up, and an operator that cannot be looked up is reached. -/
def Sql.failsFor (sql : Sql C) (ids : List OperatorId) : Bool :=
  isValidCommitteeSize ids.length && decide ids.Nodup && sql.namesUnstorable ids

theorem validateOperators_fails_iff {sql : Sql C} {ids : List OperatorId} :
    (∃ e, validateOperators sql ids = .error (.database e)) ↔ sql.failsFor ids = true := by
  unfold validateOperators Sql.failsFor
  by_cases hsize : isValidCommitteeSize ids.length = true
  · have hlength := (isValidCommitteeSize_iff _).mp hsize
    have hmax : ¬ maxOperators < ids.length := by
      unfold maxOperators
      omega
    have hzero : ¬ ids.length = 0 := by omega
    simp only [if_neg hmax, if_neg hzero, hsize, Bool.not_true, Bool.false_eq_true, if_false,
      Bool.true_and]
    by_cases hnodup : ids.Nodup
    · simp only [hnodup, not_true_eq_false, if_false, decide_true, Bool.true_and]
      exact checkOperatorsExist_fails_iff
    · simp [hnodup]
  · split_ifs <;> simp_all

/-! ## Inserting a validator that was checked -/

section Insert

variable [DecidableEq C]

theorem Sql.exists_insertMembersAndShares {sql : Sql C} {shares : List (Share C)}
    (hrows : ∀ s ∈ shares, (sql.clusters.find? s.clusterId).isSome ∧
      (sql.operators.find? s.operatorId).isSome ∧ (sql.validators.find? s.validatorPubkey).isSome)
    (hnew : ∀ s ∈ shares, sql.shares.find? s.key = none) (hnodup : (shares.map Share.key).Nodup) :
    ∃ sql', sql.insertMembersAndShares shares = .ok sql' := by
  induction shares generalizing sql with
  | nil => exact ⟨sql, rfl⟩
  | cons share shares ih =>
    rw [List.map_cons, List.nodup_cons] at hnodup
    rw [List.forall_mem_cons] at hrows hnew
    obtain ⟨⟨hcluster, hoperator, hvalidator⟩, hrows⟩ := hrows
    have hinsert : sql.shares.insert? share = some (sql.shares.insertOrIgnore share) := by
      rw [Table.insert?, if_pos hnew.1]
    have hstep : sql.insertMemberAndShare share = .ok { sql with
        clusterMembers := sql.clusterMembers.insertOrIgnore ⟨share.clusterId, share.operatorId⟩
        shares := sql.shares.insertOrIgnore share } := by
      rw [insertMemberAndShare, hinsert]
      simp [← Option.not_isSome, hcluster, hoperator, hvalidator]
    rw [insertMembersAndShares, hstep]
    refine ih hrows (fun s hs => ?_) hnodup.2
    refine Table.find?_eq_none.mpr fun r hr hkey => ?_
    rcases Table.mem_insertOrIgnore.mp hr with hr | ⟨rfl, -⟩
    · exact Table.find?_eq_none.mp (hnew.2 s hs) r hr hkey
    · exact hnodup.1 (List.mem_map.mpr ⟨s, hs, hkey.symm⟩)

theorem Sql.exists_insertClusterAndValidator {sql : Sql C} (cluster : Cluster C)
    {validator : ValidatorMetadata C} (h : sql.validators.find? validator.publicKey = none) :
    ∃ mid, sql.insertClusterAndValidator cluster validator = .ok mid ∧
      mid.operators = sql.operators ∧ mid.shares = sql.shares ∧
      (mid.clusters.find? cluster.clusterId).isSome = true ∧
      (mid.validators.find? validator.publicKey).isSome = true := by
  have hinsert : sql.validators.insert? { validator with clusterId := cluster.clusterId } =
      some (sql.validators.insertOrIgnore { validator with clusterId := cluster.clusterId }) := by
    rw [Table.insert?, if_pos h]
  unfold insertClusterAndValidator
  rw [hinsert]
  refine ⟨_, rfl, rfl, rfl, ?_, ?_⟩
  · exact Table.isSome_find?_insertOrIgnore sql.clusters ⟨cluster.clusterId, cluster.owner, false⟩
  · exact Table.isSome_find?_insertOrIgnore sql.validators
      { validator with clusterId := cluster.clusterId }

variable {env : EventEnv C} {tx : Tx C}

theorem Tx.exists_insertValidatorTx (hsql : tx.sql.WellFormed env.toDatabaseEnv) {owner : Address}
    {ids : List OperatorId} {pubkey : PublicKeyBytes} {shares : List (Share C)}
    (h : ValidatorAddition env tx.sql owner ids pubkey shares)
    (published : Database.NetworkState C) :
    ∃ tx', tx.insertValidatorTx env.toDatabaseEnv published (tx.addedCluster env owner ids)
      (constructValidatorMetadata pubkey (tx.addedCluster env owner ids).clusterId) shares =
        .ok tx' := by
  obtain ⟨mid, hmid, hoperators, hshares, hcluster, hvalidator⟩ :=
    Sql.exists_insertClusterAndValidator (tx.addedCluster env owner ids)
      (show tx.sql.validators.find? (constructValidatorMetadata pubkey
        (tx.addedCluster env owner ids).clusterId).publicKey = none from h.fresh)
  have hrows : ∀ s ∈ shares, (mid.clusters.find? s.clusterId).isSome ∧
      (mid.operators.find? s.operatorId).isSome ∧
      (mid.validators.find? s.validatorPubkey).isSome := by
    intro s hs
    obtain ⟨hkey, hid⟩ := h.belongs s hs
    have hmem : s.operatorId ∈ ids := by
      rw [← h.operators]
      exact List.mem_map.mpr ⟨s, hs, rfl⟩
    obtain ⟨row, hrow, hrowid, -⟩ := h.active s.operatorId hmem
    rw [hkey, hid, hoperators]
    exact ⟨hcluster, Option.isSome_iff_exists.mpr ⟨row, Table.find?_eq_some.mpr ⟨hrow, hrowid⟩⟩,
      hvalidator⟩
  have hnew : ∀ s ∈ shares, mid.shares.find? s.key = none := by
    intro s hs
    rw [hshares]
    refine Table.find?_eq_none.mpr fun r hr hkey => ?_
    obtain ⟨v, hv, hvkey, -⟩ := hsql.share_validator r hr
    have hpubkey : v.publicKey = pubkey :=
      hvkey.trans ((congrArg Prod.fst hkey).trans (h.belongs s hs).1)
    exact Table.find?_eq_none.mp h.fresh v hv hpubkey
  have hnodup : (shares.map Share.key).Nodup := by
    refine List.Nodup.of_map Prod.snd ?_
    rw [List.map_map]
    change (shares.map (·.operatorId)).Nodup
    rw [h.operators]
    exact h.nodup
  obtain ⟨sql', hsql'⟩ := Sql.exists_insertMembersAndShares hrows hnew hnodup
  unfold insertValidatorTx
  rw [hmid]
  dsimp only
  rw [hsql']
  exact ⟨_, rfl⟩

end Insert

/-! ## Which logs end their block -/

/-- The operator is the next one, and its key is one that no other operator has. -/
def Sql.admitsOperator (env : EventEnv C) (sql : Sql C) (id : OperatorId) (publicKey : Bytes) :
    Bool :=
  sql.maxOperatorIdSeen.all (· = id.val - 1) &&
    match env.parseOperatorPublicKey publicKey with
    | .error _ => false
    | .ok rsaPubkey => (sql.getAnyOperatorId rsaPubkey).isNone

/-- The log makes a statement fail: a lookup of an operator id that cannot be stored, of a nonce of
more than 16 bits or of an operator that is to be removed, or the insertion of an operator that is
still there as a removed one. -/
def ContractLog.Stalls (env : EventEnv C) (sql : Sql C) : ContractLog → Prop
  | .operatorAdded id _ publicKey =>
    Sql.storable id = false ∨
      (sql.isSoftDeleted id = true ∧ sql.admitsOperator env id publicKey = true)
  | .operatorRemoved id =>
    Sql.storable id = false ∨
      (sql.skippedOperatorAdds.find? id = none ∧ sql.isActive id = false)
  | .validatorAdded owner operatorIds publicKey _ =>
    2 ^ 16 ≤ sql.nextNonce owner ∨
      (env.mode = .node ∧ publicKey.length = 48 ∧ sql.failsFor operatorIds = true)
  | _ => False

instance (env : EventEnv C) (sql : Sql C) : (log : ContractLog) → Decidable (log.Stalls env sql)
  | .operatorAdded id _ publicKey =>
    inferInstanceAs (Decidable (Sql.storable id = false ∨
      (sql.isSoftDeleted id = true ∧ sql.admitsOperator env id publicKey = true)))
  | .operatorRemoved id =>
    inferInstanceAs (Decidable (Sql.storable id = false ∨
      (sql.skippedOperatorAdds.find? id = none ∧ sql.isActive id = false)))
  | .validatorAdded owner operatorIds publicKey _ =>
    inferInstanceAs (Decidable (2 ^ 16 ≤ sql.nextNonce owner ∨
      (env.mode = .node ∧ publicKey.length = 48 ∧ sql.failsFor operatorIds = true)))
  | .validatorRemoved .. | .clusterLiquidated .. | .clusterReactivated ..
  | .feeRecipientAddressUpdated .. | .validatorExited .. | .unknown =>
    inferInstanceAs (Decidable False)

section Stalls

variable [DecidableEq C] {env : EventEnv C} {published : Database.NetworkState C} {tx : Tx C}

theorem Tx.afterLog_fails_iff {log : ContractLog} :
    (∃ e, tx.afterLog env published log = .error e) ↔
      ∃ e, (tx.processLog env published log).2 = some (.database e) := by
  unfold afterLog
  split
  · rename_i hresult
    simp [hresult]
  · rename_i e hresult
    rw [hresult]
    cases e <;> simp [ExecutionError.logDisposition]

variable {owner : Address}

theorem Tx.validateValidatorAddedConflict_ne_database {pubkey : PublicKeyBytes}
    {clusterId : C} {e : DatabaseError} :
    tx.validateValidatorAddedConflict owner pubkey clusterId ≠ .error (.database e) := by
  unfold validateValidatorAddedConflict
  split
  · simp
  split
  · simp
  · split_ifs <;> simp

theorem Tx.checkValidatorAdded_fails_iff (env : EventEnv C) (nonce : ℕ) (owner : Address)
    (operatorIds : List OperatorId) (publicKey shares : Bytes) :
    (∃ e, tx.checkValidatorAdded env nonce owner operatorIds publicKey shares =
        .error (.database e)) ↔
      publicKey.length = 48 ∧ tx.sql.failsFor operatorIds = true := by
  unfold checkValidatorAdded FixedBytes.new?
  by_cases hlength : publicKey.length = 48
  · simp only [hlength, dif_pos, true_and]
    rw [← validateOperators_fails_iff]
    cases hoperators : validateOperators tx.sql operatorIds with
    | error e => simp only [Except.error.injEq]
    | ok u =>
      simp only [reduceCtorEq, exists_false, iff_false, not_exists]
      intro e
      split
      · simp
      split
      · simp
      split
      · simp
      split
      · rename_i hconflict
        intro he
        cases he
        exact validateValidatorAddedConflict_ne_database hconflict
      · simp
  · simp [hlength]

variable {operatorIds : List OperatorId}

theorem Tx.processValidatorExited_ne_database (hkeccak : Function.Injective env.keccak256)
    (hsql : tx.sql.WellFormed env.toDatabaseEnv) {publicKey : Bytes}
    {hasTimestamp : Bool} {e : DatabaseError} :
    tx.processValidatorExited env owner operatorIds publicKey hasTimestamp ≠
      some (.database e) := by
  unfold processValidatorExited
  split
  · simp
  split
  · simp
  split
  · simp
  rename_i cluster hcluster
  split
  · simp
  rename_i hid
  split
  · simp
  split
  · simp
  split
  · rename_i e' hoperators
    intro he
    cases he
    have hfails := validateOperators_fails_iff.mp ⟨e, hoperators⟩
    obtain ⟨row, hrow, rfl⟩ := Option.map_eq_some_iff.mp hcluster
    obtain ⟨v, -, hv⟩ := Option.bind_eq_some_iff.mp hrow
    obtain ⟨hmem, -⟩ := Table.find?_eq_some.mp hv
    obtain ⟨ids, -, -, hids, hmembers⟩ := hsql.cluster_members row hmem
    have hperm := (computeClusterId_inj hkeccak (hids.symm.trans (not_not.mp hid))).2
    have hstorable : ∀ id ∈ operatorIds, Sql.storable id = true := by
      intro id hmemid
      have hmember := (hmembers id).mpr (hperm.mem_iff.mpr hmemid)
      obtain ⟨operator, hoperator, hoid⟩ := hsql.member_operator _ hmember
      have hid : operator.operatorId = id := hoid
      exact hid ▸ hsql.operator_storable operator hoperator
    simp only [Sql.failsFor, Sql.namesUnstorable, Bool.and_eq_true, Option.any_eq_true] at hfails
    obtain ⟨-, id, hfind, hunstorable⟩ := hfails
    simp [hstorable id (List.mem_of_find?_eq_some hfind)] at hunstorable
  · split <;> simp

omit [DecidableEq C] in
theorem Sql.insertOperator_fails_iff {sql : Sql C} {operator : Operator}
    (hid : storable operator.id = true) (hkey : sql.getAnyOperatorId operator.rsaPubkey = none) :
    (∃ e, sql.insertOperator operator = .error e) ↔ sql.operators.find? operator.id ≠ none := by
  simp only [insertOperator, hid, Table.insert?, hkey]
  by_cases hnone : sql.operators.find? operator.id = none <;> simp [hnone]

omit [DecidableEq C] in
theorem Tx.insertOperatorTx_fails_iff (denv : DatabaseEnv C) {operator : Operator}
    (hid : Sql.storable operator.id = true)
    (hactive : tx.sql.isActive operator.id = false)
    (hkey : tx.sql.getAnyOperatorId operator.rsaPubkey = none) :
    (∃ e, tx.insertOperatorTx denv operator = .error e) ↔
      tx.sql.isSoftDeleted operator.id = true := by
  obtain ⟨status, hstatus, hiff⟩ := tx.sql.getOperatorStatus_of_storable hid
  have hne : status ≠ .active := fun h => by simp [hactive, h] at hiff
  rw [Sql.isSoftDeleted_iff, and_iff_left hactive, ← Sql.insertOperator_fails_iff hid hkey,
    insertOperatorTx, hstatus]
  dsimp only
  rw [if_neg hne]
  cases tx.sql.insertOperator operator <;> simp

omit [DecidableEq C] in
theorem Tx.processOperatorAdded_fails_iff {id : OperatorId} {publicKey : Bytes} :
    (∃ e, (tx.processOperatorAdded env id owner publicKey).2 = some (.database e)) ↔
      Sql.storable id = false ∨
        (tx.sql.isSoftDeleted id = true ∧ tx.sql.admitsOperator env id publicKey = true) := by
  unfold processOperatorAdded Sql.admitsOperator
  cases hid : Sql.storable id with
  | false => simp [tx.sql.getOperatorStatus_of_not_storable hid]
  | true =>
    obtain ⟨status, hstatus, hiff⟩ := tx.sql.getOperatorStatus_of_storable hid
    rw [hstatus]
    dsimp only
    by_cases hactive : status = .active
    · simp [hactive, Sql.isSoftDeleted_iff, hiff.mp hactive]
    · rw [if_neg hactive]
      rw [hiff, Bool.not_eq_true] at hactive
      cases hmax : tx.sql.maxOperatorIdSeen.filter (· ≠ id.val - 1) with
      | some maxSeen =>
        have hall : tx.sql.maxOperatorIdSeen.all (· = id.val - 1) = false := by
          obtain ⟨hseen, hne⟩ := Option.filter_eq_some_iff.mp hmax
          simpa [hseen] using hne
        simp [hall]
      | none =>
        have hall : tx.sql.maxOperatorIdSeen.all (· = id.val - 1) = true := by
          cases hseen : tx.sql.maxOperatorIdSeen with
          | none => rfl
          | some max => simpa [hseen, Option.filter_eq_none_iff] using hmax
        cases env.parseOperatorPublicKey publicKey with
        | error reason => simp
        | ok rsaPubkey =>
          have hkeys : (tx.setMaxOperatorIdSeenTx id.val).sql.getAnyOperatorId rsaPubkey =
            tx.sql.getAnyOperatorId rsaPubkey := rfl
          cases hkey : tx.sql.getAnyOperatorId rsaPubkey with
          | some existing => simp [hkeys, hkey]
          | none =>
            have hfails : _ ↔ tx.sql.isSoftDeleted id = true :=
              (tx.setMaxOperatorIdSeenTx id.val).insertOperatorTx_fails_iff env.toDatabaseEnv
                (show Sql.storable (Operator.mk id rsaPubkey owner).id = true from hid) hactive hkey
            simp only [hkeys, hkey, hall, ← hfails]
            cases (tx.setMaxOperatorIdSeenTx id.val).insertOperatorTx env.toDatabaseEnv
              ⟨id, rsaPubkey, owner⟩ <;> simp

omit [DecidableEq C] in
theorem Tx.processOperatorRemoved_fails_iff {id : OperatorId} :
    (∃ e, (tx.processOperatorRemoved id).2 = some (.database e)) ↔
      Sql.storable id = false ∨
        (tx.sql.skippedOperatorAdds.find? id = none ∧ tx.sql.isActive id = false) := by
  unfold processOperatorRemoved
  cases hid : Sql.storable id with
  | false => simp
  | true =>
    obtain ⟨status, hstatus, hactive⟩ := tx.sql.getOperatorStatus_of_storable hid
    cases hmarker : tx.sql.skippedOperatorAdds.find? id with
    | some marker => simp
    | none =>
      unfold deleteOperatorTx
      rw [hstatus]
      by_cases h : status = .active
      · simp [h, hactive.mp h]
      · simp [h, show tx.sql.isActive id = false by simpa [hactive] using h]

theorem Tx.addValidatorAt_fails_iff (hsql : tx.sql.WellFormed env.toDatabaseEnv) {nonce : ℕ}
    {publicKey shares : Bytes} :
    (∃ e, (tx.addValidatorAt env published nonce owner operatorIds publicKey shares).2 =
        some (.database e)) ↔
      env.mode = .node ∧ publicKey.length = 48 ∧ tx.sql.failsFor operatorIds = true := by
  unfold addValidatorAt
  cases hmode : env.mode with
  | keySplit => simp
  | node =>
    simp only [reduceCtorEq, if_false, true_and]
    rw [← checkValidatorAdded_fails_iff env nonce owner operatorIds publicKey shares]
    cases hcheck : tx.checkValidatorAdded env nonce owner operatorIds publicKey shares with
    | error e => simp
    | ok checked =>
      obtain ⟨pubkey, shares'⟩ := checked
      obtain ⟨tx', hinsert⟩ := exists_insertValidatorTx hsql
        (validatorAddition_of_check hcheck) published
      dsimp only
      rw [hinsert]
      simp

theorem Tx.processValidatorAdded_fails_iff (hsql : tx.sql.WellFormed env.toDatabaseEnv)
    {publicKey shares : Bytes} :
    (∃ e, (tx.processValidatorAdded env published owner operatorIds publicKey shares).2 =
        some (.database e)) ↔
      2 ^ 16 ≤ tx.sql.nextNonce owner ∨
        (env.mode = .node ∧ publicKey.length = 48 ∧ tx.sql.failsFor operatorIds = true) := by
  rw [processValidatorAdded_eq]
  by_cases h : tx.sql.nextNonce owner < 2 ^ 16
  · have hbump := tx.bumpAndGetNonceTx_eq owner
    rw [if_pos h] at hbump
    have hquiet := quiet_of_bumpAndGetNonceTx hbump
    rw [if_pos h, addValidatorAt_fails_iff (hsql.congr hquiet.core (hquiet.nonces hsql.nonces)),
      or_iff_right (by omega)]
    exact Iff.rfl
  · rw [if_neg h]
    simp only [Option.some.injEq, ExecutionError.database.injEq, exists_eq', true_iff]
    exact Or.inl (by omega)

theorem Tx.afterLog_fails_iff_stalls (hkeccak : Function.Injective env.keccak256)
    (hsql : tx.sql.WellFormed env.toDatabaseEnv)
    (published : Database.NetworkState C) (log : ContractLog) :
    (∃ e, tx.afterLog env published log = .error e) ↔ log.Stalls env tx.sql := by
  rw [afterLog_fails_iff]
  cases log with
  | operatorAdded id owner publicKey => exact processOperatorAdded_fails_iff
  | operatorRemoved id => exact processOperatorRemoved_fails_iff
  | validatorAdded owner operatorIds publicKey shares => exact processValidatorAdded_fails_iff hsql
  | validatorRemoved owner operatorIds publicKey =>
    simp only [processLog, ContractLog.Stalls, iff_false, not_exists]
    intro e
    unfold processValidatorRemoved
    repeat' split
    all_goals simp
  | clusterLiquidated owner operatorIds => simp [processLog, ContractLog.Stalls]
  | clusterReactivated owner operatorIds => simp [processLog, ContractLog.Stalls]
  | feeRecipientAddressUpdated owner recipient => simp [processLog, ContractLog.Stalls]
  | validatorExited owner operatorIds publicKey hasTimestamp =>
    simp only [processLog, ContractLog.Stalls, iff_false, not_exists]
    exact fun e => processValidatorExited_ne_database hkeccak hsql
  | unknown => simp [processLog, ContractLog.Stalls]

theorem Tx.afterLogs_ok_iff (hkeccak : Function.Injective env.keccak256)
    {mem : Database.NetworkState C} (h : tx.Consistent env published mem)
    (logs : List ContractLog) :
    (∃ tx', Tx.afterLogs env published tx logs = .ok tx') ↔
      Tx.EachLog env published (fun tx log => ¬ log.Stalls env tx.sql) tx logs := by
  induction logs generalizing tx mem with
  | nil => simp [afterLogs, EachLog]
  | cons log logs ih =>
    have hlog := afterLog_fails_iff_stalls hkeccak h.wellFormed published log
    unfold afterLogs EachLog
    cases hresult : tx.afterLog env published log with
    | error e =>
      rw [hresult] at hlog
      simp [← hlog]
    | ok mid =>
      rw [hresult] at hlog
      obtain ⟨mem', h', -⟩ := h.afterLog hkeccak hresult
      simp only [← hlog, reduceCtorEq, exists_false, not_false_eq_true, true_and]
      exact ih h'

end Stalls

namespace NetworkDatabase

variable [DecidableEq C] {env : EventEnv C} {db : NetworkDatabase C}

/-- In every database that is reached, a block is processed exactly if none of its logs makes a
statement fail. -/
theorem block_processed_iff_no_log_stalls (hkeccak : Function.Injective env.keccak256)
    (h : db.Reachable env) (logs : List ContractLog) (blockNumber : ℕ) :
    (∃ db', db.processBlockLogs env logs blockNumber = .ok db') ↔
      db.Meets env (fun _ tx log => ¬ log.Stalls env tx.sql) (.block logs blockNumber) := by
  have hlogs := Tx.afterLogs_ok_iff hkeccak (h.sound hkeccak).consistent logs
  rw [Meets, ← hlogs, processBlockLogs_eq]
  cases Tx.afterLogs env db.state db.beginTx logs with
  | error e => simp [Except.map]
  | ok tx => simp [Except.map]

/-- The removal of an operator whose key was refused is processed. -/
theorem block_processed_sample :
    Function.Injective Sample.chainEnv.keccak256 ∧
      ∃ db', (NetworkDatabase.new Sample.chainEnv).processBlockLogs Sample.chainEnv
        (Sample.operatorLogs ++ [.operatorRemoved ⟨2⟩]) 1 = .ok db' :=
  ⟨Function.injective_id, (block_processed_iff_no_log_stalls Function.injective_id (.new [])
    (Sample.operatorLogs ++ [.operatorRemoved ⟨2⟩]) 1).mpr (by decide +kernel)⟩

/-- An operator is added before the one in front of it, so that the addition is skipped without a
marker.  Its removal then ends the block. -/
theorem removal_of_skipped_operator_stalls :
    (NetworkDatabase.new Sample.chainEnv).processBlockLogs Sample.chainEnv
      [.operatorAdded ⟨2⟩ Sample.clusterOwner [2], .operatorRemoved ⟨2⟩] 1 =
        .error (.database (.notFound ⟨2⟩)) := by
  rfl

/-- In an adopted database a removed operator, still the member of a cluster, is added again with
another key. -/
example :
    ((opened Sample.chainEnv (Sample.runChain [.block (Sample.operatorLogs ++
      [Sample.addValidator 9, .operatorRemoved ⟨1⟩]) 1]).sql.upgradeV1).processBlockLogs
        Sample.chainEnv [.operatorAdded ⟨1⟩ Sample.clusterOwner [9]] 2).isOk = false := by
  decide +kernel

end NetworkDatabase

end Anchor
