import Mathlib
import Anchor.Eth.Bookkeeping
import Anchor.Eth.Identity

/-!
# Blocks are atomic

A block reaches the tables and the state in memory as a whole or not at all, and a log that
is skipped leaves no more than a nonce, the highest operator id with its marker, or a marker
less.
-/

namespace Anchor

open Ssz

variable {C : Type}

/-! ## Skipped logs -/

inductive Tx.Skip (tx : Tx C) : ContractLog → Tx C → Prop where
  | unchanged {log} : Skip tx log tx
  | bumped {owner operatorIds publicKey shares} :
      Skip tx (.validatorAdded owner operatorIds publicKey shares) (tx.bumped owner)
  | marked {operatorId owner publicKey reason} :
      Skip tx (.operatorAdded operatorId owner publicKey)
        ((tx.setMaxOperatorIdSeenTx operatorId.val).insertSkippedOperatorAddTx operatorId reason)
  | unmarked {operatorId} :
      Skip tx (.operatorRemoved operatorId)
        { tx with sql := tx.sql.deleteSkippedOperatorAdd operatorId }

structure Sql.SkipFrame (log : ContractLog) (sql sql' : Sql C) : Prop where
  core : sql.SameCore sql'
  blockNumber : sql'.blockNumber = sql.blockNumber
  nonce : ∀ owner, sql'.nonceOf owner ≠ sql.nonceOf owner →
    ∃ operatorIds publicKey shares, log = .validatorAdded owner operatorIds publicKey shares
  maxOperatorIdSeen : sql'.maxOperatorIdSeen ≠ sql.maxOperatorIdSeen →
    ∃ id owner publicKey, log = .operatorAdded id owner publicKey ∧
      sql'.maxOperatorIdSeen = some id.val ∧ (sql'.skippedOperatorAdds.find? id).isSome
  marker : ∀ id, sql'.skippedOperatorAdds.find? id ≠ sql.skippedOperatorAdds.find? id →
    (∃ owner publicKey, log = .operatorAdded id owner publicKey ∧
      sql'.maxOperatorIdSeen = some id.val) ∨
    (log = .operatorRemoved id ∧ sql'.skippedOperatorAdds.find? id = none)

structure Database.NetworkState.SkipFrame (log : ContractLog)
    (mem mem' : Database.NetworkState C) : Prop where
  core : mem.SameCore mem'
  operators : mem'.operators = mem.operators
  lastProcessedBlock : mem'.lastProcessedBlock = mem.lastProcessedBlock
  nonce : ∀ owner, mem'.nonces owner ≠ mem.nonces owner →
    ∃ operatorIds publicKey shares, log = .validatorAdded owner operatorIds publicKey shares
  maxOperatorIdSeen : mem'.maxOperatorIdSeen ≠ mem.maxOperatorIdSeen →
    ∃ id owner publicKey, log = .operatorAdded id owner publicKey ∧
      mem'.maxOperatorIdSeen = some id.val

namespace Tx.Skip

variable {tx tx' : Tx C} {log : ContractLog}

theorem sql (h : tx.Skip log tx') : tx.sql.SkipFrame log tx'.sql := by
  cases h with
  | unchanged =>
    exact ⟨.rfl, rfl, fun _ hne => absurd rfl hne, fun hne => absurd rfl hne,
      fun _ hne => absurd rfl hne⟩
  | bumped =>
    rename_i owner operatorIds publicKey shares
    refine ⟨.bumpNonce _ _, rfl, ?_, fun hne => absurd rfl hne, fun _ hne => absurd rfl hne⟩
    intro o hne
    by_cases ho : o = owner
    · subst ho
      exact ⟨operatorIds, publicKey, shares, rfl⟩
    · refine absurd ?_ hne
      exact (tx.sql.nonceOf_bumpNonce owner o).trans (if_neg ho)
  | marked =>
    rename_i id owner publicKey reason
    refine ⟨⟨rfl, rfl, rfl, rfl, rfl, fun _ => rfl⟩, rfl, fun _ hne => absurd rfl hne, ?_, ?_⟩
    · intro _
      refine ⟨id, owner, publicKey, rfl, rfl, ?_⟩
      have hfind := Table.find?_upsert_self tx.sql.skippedOperatorAdds ⟨id, reason⟩
        (fun row => { row with reason }) fun _ => rfl
      exact Option.isSome_iff_exists.mpr ⟨_, hfind⟩
    · intro o hne
      by_cases ho : o = id
      · subst ho
        exact Or.inl ⟨owner, publicKey, rfl, rfl⟩
      · refine absurd ?_ hne
        rw [Tx.insertSkippedOperatorAddTx, Sql.insertSkippedOperatorAdd,
          Table.find?_upsert_of_ne ho]
        rfl
  | unmarked =>
    rename_i id
    refine ⟨⟨rfl, rfl, rfl, rfl, rfl, fun _ => rfl⟩, rfl, fun _ hne => absurd rfl hne,
      fun hne => absurd rfl hne, ?_⟩
    intro o hne
    by_cases ho : o = id
    · subst ho
      refine Or.inr ⟨rfl, Table.find?_eq_none.mpr ?_⟩
      intro row hrow
      simpa using (Table.mem_delete.mp hrow).2
    · refine absurd ?_ hne
      apply Option.ext
      intro row
      rw [Table.find?_eq_some, Table.find?_eq_some, Sql.deleteSkippedOperatorAdd,
        Table.mem_delete]
      constructor
      · rintro ⟨⟨hrow, -⟩, hkey⟩
        exact ⟨hrow, hkey⟩
      · rintro ⟨hrow, rfl⟩
        exact ⟨⟨hrow, by simpa using ho⟩, rfl⟩

variable [DecidableEq C] {denv : DatabaseEnv C} {published mem : Database.NetworkState C}

theorem memory (h : tx.Skip log tx') (hmem : published.publish denv tx.updates = some mem) :
    ∃ mem', published.publish denv tx'.updates = some mem' ∧ mem.SkipFrame log mem' := by
  cases h with
  | unchanged =>
    exact ⟨mem, hmem, .rfl, rfl, rfl, fun _ hne => absurd rfl hne, fun hne => absurd rfl hne⟩
  | bumped =>
    rename_i owner operatorIds publicKey shares
    refine ⟨{ mem with
        nonces := Function.update mem.nonces owner (some (tx.sql.nextNonce owner)) },
      Database.NetworkState.publish_concat hmem _, ⟨rfl, rfl, rfl, rfl, rfl⟩, rfl, rfl, ?_,
      fun hne => absurd rfl hne⟩
    intro o hne
    by_cases ho : o = owner
    · subst ho
      exact ⟨operatorIds, publicKey, shares, rfl⟩
    · exact absurd (Function.update_of_ne ho _ _) hne
  | marked =>
    rename_i id owner publicKey reason
    exact ⟨{ mem with maxOperatorIdSeen := some id.val },
      Database.NetworkState.publish_concat hmem _, ⟨rfl, rfl, rfl, rfl, rfl⟩, rfl, rfl,
      fun _ hne => absurd rfl hne, fun _ => ⟨id, owner, publicKey, rfl, rfl⟩⟩
  | unmarked =>
    exact ⟨mem, hmem, .rfl, rfl, rfl, fun _ hne => absurd rfl hne, fun hne => absurd rfl hne⟩

end Tx.Skip

namespace Tx

variable [DecidableEq C] {env : EventEnv C} {published : Database.NetworkState C} {tx : Tx C}

theorem skip_of_addValidatorAt {nonce : ℕ} {owner : Address} {operatorIds : List OperatorId}
    {publicKey shares : Bytes} {e : ExecutionError}
    (h : (tx.addValidatorAt env published nonce owner operatorIds publicKey shares).2 = some e)
    (he : e.logDisposition ≠ .abortBatch) :
    (tx.addValidatorAt env published nonce owner operatorIds publicKey shares).1 = tx := by
  unfold addValidatorAt at h ⊢
  split_ifs at h ⊢ with hmode
  split at h
  · rfl
  dsimp only at h
  split at h
  · cases h
    exact absurd rfl he
  · cases h

/-- The log is none of the contract's events, or its handler refuses it. -/
def Skips (env : EventEnv C) (published : Database.NetworkState C) (tx : Tx C)
    (log : ContractLog) : Prop :=
  log = .unknown ∨
    ∃ e, (tx.processLog env published log).2 = some e ∧ e.logDisposition ≠ .abortBatch

theorem Skips.skip {log : ContractLog} (h : tx.Skips env published log) :
    tx.Skip log (tx.processLog env published log).1 := by
  rcases h with rfl | ⟨e, h, he⟩
  · exact .unchanged
  cases log with
  | operatorAdded operatorId owner publicKey =>
    have hcases := tx.operatorAdded env operatorId owner publicKey
    simp only [processLog] at h ⊢
    generalize tx.processOperatorAdded env operatorId owner publicKey = result at h hcases ⊢
    cases hcases with
    | unstorable hid =>
      cases h
      exact absurd rfl he
    | refused hid hdisposition => exact .unchanged
    | marked hid hnext => exact .marked
    | failed hid hnext hinsert =>
      cases h
      exact absurd rfl he
    | added hid hnext hinsert => cases h
  | operatorRemoved operatorId =>
    simp only [processLog, processOperatorRemoved] at h ⊢
    split_ifs at h ⊢ with hid hmarker
    · exact .unchanged
    · exact .unmarked
    · split at h
      · cases h
        exact absurd rfl he
      · cases h
  | validatorAdded owner operatorIds publicKey shares =>
    simp only [processLog, processValidatorAdded_eq] at h ⊢
    split_ifs at h ⊢ with hnonce
    · rw [skip_of_addValidatorAt h he]
      exact .bumped
    · exact .unchanged
  | validatorRemoved owner operatorIds publicKey =>
    rcases tx.processValidatorRemoved_cases owner publicKey with ⟨hsame, -⟩ | ⟨hnone, -⟩
    · simp only [processLog, hsame]
      exact .unchanged
    · simp only [processLog, hnone] at h
      cases h
  | clusterLiquidated owner operatorIds => cases h
  | clusterReactivated owner operatorIds => cases h
  | feeRecipientAddressUpdated owner recipient => cases h
  | validatorExited owner operatorIds publicKey hasTimestamp => exact .unchanged
  | unknown => cases h

end Tx

/-! ## Blocks -/

namespace NetworkDatabase

variable [DecidableEq C] (env : EventEnv C)

/-- A block during which the database fails: in a log, when the block number is written, or at
the commit.  The transaction is rolled back. -/
def processBlockLogsUntil (db : NetworkDatabase C) (logs : List ContractLog) (failsAfter : ℕ) :
    Except ExecutionError (NetworkDatabase C) :=
  match Tx.afterLogs env db.state db.beginTx (logs.take failsAfter) with
  | .error e => .error e
  | .ok _ => .error (.database .sqlError)

def afterBlock (db : NetworkDatabase C) (failure : Option ℕ) (logs : List ContractLog)
    (blockNumber : ℕ) : NetworkDatabase C :=
  let result :=
    match failure with
    | none => db.processBlockLogs env logs blockNumber
    | some failsAfter => db.processBlockLogsUntil env logs failsAfter
  match result with
  | .ok db' => db'
  | .error _ => db

structure Applied (db : NetworkDatabase C) (logs : List ContractLog) (blockNumber : ℕ)
    (db' : NetworkDatabase C) : Prop where
  exists_tx : ∃ tx, Tx.afterLogs env db.state db.beginTx logs = .ok tx ∧
    db'.sql = { tx.sql with blockNumber } ∧
    db.state.publish env.toDatabaseEnv (tx.updates ++ [.setLastProcessedBlock blockNumber]) =
      some db'.state

variable {env} {db : NetworkDatabase C}

theorem Sound.exists_publish (hkeccak : Function.Injective env.keccak256) (h : db.Sound env)
    {logs : List ContractLog} {tx : Tx C}
    (hlogs : Tx.afterLogs env db.state db.beginTx logs = .ok tx) (blockNumber : ℕ) :
    ∃ state, db.state.publish env.toDatabaseEnv
      (tx.updates ++ [.setLastProcessedBlock blockNumber]) = some state := by
  obtain ⟨mem, hmem⟩ := h.afterLogs hkeccak hlogs
  exact ⟨_, Database.NetworkState.publish_concat hmem.publish _⟩

theorem Sound.applied (hkeccak : Function.Injective env.keccak256) (h : db.Sound env)
    {logs : List ContractLog} {tx : Tx C} {blockNumber : ℕ}
    (hlogs : Tx.afterLogs env db.state db.beginTx logs = .ok tx) :
    Applied env db logs blockNumber (db.commit env tx blockNumber) := by
  obtain ⟨state, hstate⟩ := h.exists_publish hkeccak hlogs blockNumber
  refine ⟨tx, hlogs, rfl, ?_⟩
  rw [commit, hstate]
  rfl

/-- Wherever a block fails, it is in the tables and in memory as a whole or not at all, and each
of its logs that is skipped stays within the frame. -/
theorem block_atomic_and_skips_framed (hkeccak : Function.Injective env.keccak256)
    (h : db.Reachable env) (logs : List ContractLog) (blockNumber : ℕ) :
    (∀ failure, db.afterBlock env failure logs blockNumber = db ∨
      Applied env db logs blockNumber (db.afterBlock env failure logs blockNumber)) ∧
    ∀ before log after tx, logs = before ++ log :: after →
      Tx.afterLogs env db.state db.beginTx before = .ok tx → tx.Skips env db.state log →
      tx.sql.SkipFrame log (tx.processLog env db.state log).1.sql ∧
      ∃ mem mem', db.state.publish env.toDatabaseEnv tx.updates = some mem ∧
        db.state.publish env.toDatabaseEnv (tx.processLog env db.state log).1.updates =
          some mem' ∧ mem.SkipFrame log mem' := by
  have hsound := h.sound hkeccak
  constructor
  · intro failure
    cases failure with
    | none =>
      simp only [afterBlock, processBlockLogs_eq]
      cases hlogs : Tx.afterLogs env db.state db.beginTx logs with
      | error e => exact Or.inl rfl
      | ok tx => exact Or.inr (hsound.applied hkeccak hlogs)
    | some failsAfter =>
      simp only [afterBlock, processBlockLogsUntil]
      split
      · rename_i hresult
        split at hresult <;> cases hresult
      · exact Or.inl rfl
  · intro before log after tx _ hbefore hskips
    have hlog := hskips.skip
    obtain ⟨mem, hmem⟩ := hsound.afterLogs hkeccak hbefore
    obtain ⟨mem', hmem', hframe⟩ := hlog.memory hmem.publish
    exact ⟨hlog.sql, mem, mem', hmem.publish, hmem', hframe⟩

/-- A block whose only log is skipped, because three operators before it were never seen. -/
theorem block_atomic_sample :
    Function.Injective Sample.chainEnv.keccak256 ∧
      (∃ e, ((Sample.runChain [.block Sample.operatorLogs 1]).beginTx.processLog Sample.chainEnv
          (Sample.runChain [.block Sample.operatorLogs 1]).state
          (.operatorAdded ⟨8⟩ Sample.clusterOwner [8])).2 = some e) ∧
      (Sample.runChain [.block Sample.operatorLogs 1]).sql.SkipFrame
        (.operatorAdded ⟨8⟩ Sample.clusterOwner [8])
        ((Sample.runChain [.block Sample.operatorLogs 1]).beginTx.processLog Sample.chainEnv
          (Sample.runChain [.block Sample.operatorLogs 1]).state
          (.operatorAdded ⟨8⟩ Sample.clusterOwner [8])).1.sql := by
  have hskip : ((Sample.runChain [.block Sample.operatorLogs 1]).beginTx.processLog Sample.chainEnv
      (Sample.runChain [.block Sample.operatorLogs 1]).state
      (.operatorAdded ⟨8⟩ Sample.clusterOwner [8])).2 =
        some (.invalidEvent (.missingOperatorAdded 4 ⟨8⟩)) := by
    decide +kernel
  exact ⟨Function.injective_id, ⟨_, hskip⟩,
    ((block_atomic_and_skips_framed Function.injective_id
      (.new [.block Sample.operatorLogs 1]) [.operatorAdded ⟨8⟩ Sample.clusterOwner [8]] 2).2 [] _
      [] _ rfl rfl (.inr ⟨_, hskip, by decide⟩)).1⟩

/-- Publishing a block that is committed and starting from any database never panic. -/
theorem publishing_and_rebuilding_succeed (hkeccak : Function.Injective env.keccak256)
    (h : db.Reachable env) :
    (∀ logs tx blockNumber, Tx.afterLogs env db.state db.beginTx logs = .ok tx →
      ∃ state, db.state.publish env.toDatabaseEnv
        (tx.updates ++ [.setLastProcessedBlock blockNumber]) = some state) ∧
    ∃ state, Database.NetworkState.newWithState env.toDatabaseEnv db.sql = some state := by
  have hsound := h.sound hkeccak
  exact ⟨fun logs tx blockNumber hlogs => hsound.exists_publish hkeccak hlogs blockNumber,
    _, Database.NetworkState.newWithState_eq hsound.wellFormed⟩

theorem publishing_and_rebuilding_sample :
    Function.Injective Sample.chainEnv.keccak256 ∧
      ∃ state, Database.NetworkState.newWithState Sample.chainEnv.toDatabaseEnv
        (Sample.runChain [.block Sample.operatorLogs 1,
          .block [Sample.addValidator 9, Sample.removeValidator 9, Sample.addValidator 9] 2]).sql =
        some state :=
  ⟨Function.injective_id, (publishing_and_rebuilding_succeed Function.injective_id
    (.new [.block Sample.operatorLogs 1, .block [Sample.addValidator 9, Sample.removeValidator 9,
      Sample.addValidator 9] 2])).2⟩

end NetworkDatabase

end Anchor
