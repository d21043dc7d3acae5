import Mathlib
import Anchor.Eth.Chain

/-!
# Nonces, markers and the highest operator id

Besides operators, clusters, validators and shares, a log can move the nonce of an owner, the
highest operator id seen, and the marker of an operator whose addition was skipped.  These
are what a skipped log may leave behind.
-/

namespace Anchor

open Ssz

variable {C : Type}

/-! ## Nonces -/

namespace Sql

variable (sql : Sql C)

def nonceOf (owner : Address) : Option ℕ := (sql.owners.find? owner).bind (·.nonce)

def nextNonce (owner : Address) : ℕ := ((sql.nonceOf owner).map (· + 1)).getD 0

theorem nonceOf_bumpNonce (owner o : Address) :
    (sql.bumpNonce owner).nonceOf o =
      if o = owner then some (sql.nextNonce owner) else sql.nonceOf o := by
  simp only [nonceOf, nextNonce, bumpNonce]
  by_cases h : o = owner
  · subst h
    have hfind := Table.find?_upsert_self sql.owners ⟨o, none, some 0⟩
      (fun row => { row with nonce := some ((row.nonce.map (· + 1)).getD 0) }) fun _ => rfl
    rw [show OwnerRow.owner ⟨o, none, some 0⟩ = o from rfl] at hfind
    rw [hfind, if_pos rfl]
    cases sql.owners.find? o <;> rfl
  · rw [Table.find?_upsert_of_ne h, if_neg h]

theorem nonceOf_setFeeRecipient (owner feeRecipient o : Address) :
    (sql.setFeeRecipient owner feeRecipient).nonceOf o = sql.nonceOf o := by
  simp only [nonceOf, setFeeRecipient]
  by_cases h : o = owner
  · subst h
    have hfind := Table.find?_upsert_self sql.owners ⟨o, some feeRecipient, none⟩
      (fun row => { row with feeRecipient := some feeRecipient }) fun _ => rfl
    rw [show OwnerRow.owner ⟨o, some feeRecipient, none⟩ = o from rfl] at hfind
    rw [hfind]
    cases sql.owners.find? o <;> rfl
  · rw [Table.find?_upsert_of_ne h]

theorem nonceOf_insertOrIgnore {sql' : Sql C} {row : OwnerRow} (hrow : row.nonce = none)
    (h : sql'.owners = sql.owners.insertOrIgnore row) (o : Address) :
    sql'.nonceOf o = sql.nonceOf o := by
  simp only [nonceOf, h, Table.insertOrIgnore]
  split
  · rename_i hnone
    simp only [Table.find?, List.find?_append, List.find?_singleton]
    by_cases ho : row.owner = o
    · subst ho
      have hold : sql.owners.rows.find? (fun r => r.owner = row.owner) = none := hnone
      simp [hold, hrow]
    · simp [ho]
  · rfl

end Sql

namespace Tx

def bumped (tx : Tx C) (owner : Address) : Tx C :=
  { tx with sql := tx.sql.bumpNonce owner }.push (.setOwnerNonce owner (tx.sql.nextNonce owner))

theorem bumpAndGetNonceTx_eq (tx : Tx C) (owner : Address) :
    tx.bumpAndGetNonceTx owner =
      if tx.sql.nextNonce owner < 2 ^ 16 then .ok (tx.bumped owner, tx.sql.nextNonce owner)
      else .error .sqlError := by
  have hget : (tx.sql.bumpNonce owner).getNonce owner =
      if tx.sql.nextNonce owner < 2 ^ 16 then .ok (tx.sql.nextNonce owner)
      else .error .sqlError := by
    have hnonce := tx.sql.nonceOf_bumpNonce owner owner
    rw [if_pos rfl, Sql.nonceOf] at hnonce
    rw [Sql.getNonce, hnonce]
  simp only [bumpAndGetNonceTx, hget]
  by_cases h : tx.sql.nextNonce owner < 2 ^ 16
  · simp only [if_pos h]
    rfl
  · simp only [if_neg h]

/-! ## What the handlers do -/

inductive OperatorAdded (env : EventEnv C) (tx : Tx C) (operatorId : OperatorId) (owner : Address)
    (publicKey : Bytes) : Result C → Prop where
  | unstorable (hid : Sql.storable operatorId = false) :
      OperatorAdded env tx operatorId owner publicKey (tx, some (.database .sqlError))
  | refused {e} (hid : Sql.storable operatorId = true) (he : e.logDisposition ≠ .abortBatch) :
      OperatorAdded env tx operatorId owner publicKey (tx, some e)
  | marked {reason e} (hid : Sql.storable operatorId = true)
      (hnext : ∀ max, tx.sql.maxOperatorIdSeen = some max → max = operatorId.val - 1) :
      OperatorAdded env tx operatorId owner publicKey
        ((tx.setMaxOperatorIdSeenTx operatorId.val).insertSkippedOperatorAddTx operatorId reason,
          some (.invalidEvent e))
  | failed {rsaPubkey e} (hid : Sql.storable operatorId = true)
      (hnext : ∀ max, tx.sql.maxOperatorIdSeen = some max → max = operatorId.val - 1)
      (hinsert : (tx.setMaxOperatorIdSeenTx operatorId.val).insertOperatorTx env.toDatabaseEnv
        ⟨operatorId, rsaPubkey, owner⟩ = .error e)
      (hactive : tx.sql.getOperatorStatus operatorId ≠ .ok .active)
      (hkey : tx.sql.getAnyOperatorId rsaPubkey = none) :
      OperatorAdded env tx operatorId owner publicKey
        (tx.setMaxOperatorIdSeenTx operatorId.val, some (.database e))
  | added {rsaPubkey tx'} (hid : Sql.storable operatorId = true)
      (hnext : ∀ max, tx.sql.maxOperatorIdSeen = some max → max = operatorId.val - 1)
      (hinsert : (tx.setMaxOperatorIdSeenTx operatorId.val).insertOperatorTx env.toDatabaseEnv
        ⟨operatorId, rsaPubkey, owner⟩ = .ok tx') :
      OperatorAdded env tx operatorId owner publicKey (tx', none)

theorem storable_of_getOperatorStatus {sql : Sql C} {id : OperatorId} {status : OperatorStatus}
    (h : sql.getOperatorStatus id = .ok status) : Sql.storable id = true := by
  unfold Sql.getOperatorStatus at h
  split at h
  · cases h
  · rename_i hid
    simpa using hid

theorem operatorAdded (env : EventEnv C) (tx : Tx C) (operatorId : OperatorId) (owner : Address)
    (publicKey : Bytes) :
    OperatorAdded env tx operatorId owner publicKey
      (tx.processOperatorAdded env operatorId owner publicKey) := by
  unfold processOperatorAdded
  cases hstatus : tx.sql.getOperatorStatus operatorId with
  | error e =>
    unfold Sql.getOperatorStatus at hstatus
    split at hstatus
    · rename_i hid
      cases hstatus
      exact .unstorable (by simpa using hid)
    · split at hstatus <;> cases hstatus
  | ok status =>
    have hid := storable_of_getOperatorStatus hstatus
    dsimp only
    split
    · exact .refused hid (by simp [ExecutionError.logDisposition])
    rename_i hactive
    split
    · exact .refused hid (by simp [ExecutionError.logDisposition])
    rename_i hmax
    have hnext : ∀ max, tx.sql.maxOperatorIdSeen = some max → max = operatorId.val - 1 := by
      intro max hseen
      rw [hseen] at hmax
      simpa [Option.filter_eq_none_iff] using hmax
    split
    · exact .marked hid hnext
    split
    · exact .marked hid hnext
    rename_i hkey
    split
    · rename_i hinsert
      refine .failed hid hnext hinsert ?_ hkey
      rw [hstatus]
      exact fun h => hactive (Except.ok.inj h)
    · rename_i hinsert
      exact .added hid hnext hinsert

/-- What is done for an added validator once its nonce is known. -/
def addValidatorAt [DecidableEq C] (env : EventEnv C) (published : Database.NetworkState C)
    (tx : Tx C) (nonce : ℕ) (owner : Address) (operatorIds : List OperatorId)
    (publicKey shares : Bytes) : Result C :=
  if env.mode = .keySplit then (tx, none)
  else
    match tx.checkValidatorAdded env nonce owner operatorIds publicKey shares with
    | .error e => (tx, some e)
    | .ok (pubkey, shares) =>
      let cluster := tx.addedCluster env owner operatorIds
      match tx.insertValidatorTx env.toDatabaseEnv published cluster
          (constructValidatorMetadata pubkey cluster.clusterId) shares with
      | .error e => (tx, some (.database e))
      | .ok tx => (tx, none)

theorem processValidatorAdded_eq [DecidableEq C] (env : EventEnv C)
    (published : Database.NetworkState C) (tx : Tx C) (owner : Address)
    (operatorIds : List OperatorId) (publicKey shares : Bytes) :
    tx.processValidatorAdded env published owner operatorIds publicKey shares =
      if tx.sql.nextNonce owner < 2 ^ 16 then
        (tx.bumped owner).addValidatorAt env published (tx.sql.nextNonce owner) owner operatorIds
          publicKey shares
      else (tx, some (.database .sqlError)) := by
  unfold processValidatorAdded
  rw [bumpAndGetNonceTx_eq]
  by_cases h : tx.sql.nextNonce owner < 2 ^ 16
  · simp only [if_pos h]
    rfl
  · simp only [if_neg h]

end Tx

/-! ## Facts about the logs that were applied -/

section History

variable [DecidableEq C] {env : EventEnv C}

def NetworkDatabase.committedBy (env : EventEnv C) (db : NetworkDatabase C) :
    ChainEvent → List ContractLog
  | .restart => []
  | .block logs blockNumber =>
    match db.processBlockLogs env logs blockNumber with
    | .ok _ => logs
    | .error _ => []

def NetworkDatabase.committed (env : EventEnv C) :
    NetworkDatabase C → List ChainEvent → List ContractLog
  | _, [] => []
  | db, e :: events => db.committedBy env e ++ committed env (db.step env e) events

/-- A relation between the logs so far and the tables that every log keeps. -/
structure LogHistory (env : EventEnv C) (J : List ContractLog → Sql C → Prop) : Prop where
  new : J [] Sql.new
  blockNumber : ∀ {logs sql blockNumber}, J logs sql → J logs { sql with blockNumber }
  log : ∀ {published} {tx tx' : Tx C} {logs log}, J logs tx.sql →
    tx.afterLog env published log = .ok tx' → J (logs ++ [log]) tx'.sql

namespace LogHistory

variable {J : List ContractLog → Sql C → Prop} {published : Database.NetworkState C}

theorem afterLogs (h : LogHistory env J) {tx tx' : Tx C} {earlier logs : List ContractLog}
    (hJ : J earlier tx.sql) (hlogs : Tx.afterLogs env published tx logs = .ok tx') :
    J (earlier ++ logs) tx'.sql := by
  induction logs generalizing tx earlier with
  | nil =>
    cases hlogs
    simpa using hJ
  | cons log logs ih =>
    simp only [Tx.afterLogs] at hlogs
    split at hlogs
    · cases hlogs
    · rename_i mid hmid
      have hrest := ih (h.log hJ hmid) hlogs
      rwa [List.append_assoc] at hrest

theorem run (h : LogHistory env J) {db : NetworkDatabase C} {earlier : List ContractLog}
    (hJ : J earlier db.sql) (events : List ChainEvent) :
    J (earlier ++ NetworkDatabase.committed env db events)
      (Machine.run (NetworkDatabase.step env) db events).sql := by
  induction events generalizing db earlier with
  | nil => simpa [NetworkDatabase.committed] using hJ
  | cons e events ih =>
    rw [Machine.run_cons, NetworkDatabase.committed, ← List.append_assoc]
    refine ih ?_
    cases e with
    | restart =>
      rw [NetworkDatabase.committedBy, List.append_nil, NetworkDatabase.step]
      split <;> exact hJ
    | block logs blockNumber =>
      simp only [NetworkDatabase.committedBy, NetworkDatabase.step,
        NetworkDatabase.processBlockLogs_eq]
      cases hlogs : Tx.afterLogs env db.state db.beginTx logs with
      | error e => simpa [Except.map] using hJ
      | ok tx => exact h.blockNumber (h.afterLogs hJ hlogs)

theorem within (h : LogHistory env J) {events : List ChainEvent} {logs : List ContractLog}
    {tx : Tx C}
    (hlogs : Tx.afterLogs env
      (Machine.run (NetworkDatabase.step env) (NetworkDatabase.new env) events).state
      (Machine.run (NetworkDatabase.step env) (NetworkDatabase.new env) events).beginTx logs =
        .ok tx) :
    J (NetworkDatabase.committed env (NetworkDatabase.new env) events ++ logs) tx.sql := by
  have hnew : J [] (NetworkDatabase.new env).sql := h.new
  refine h.afterLogs ?_ hlogs
  exact h.run hnew events

end LogHistory

end History

end Anchor
