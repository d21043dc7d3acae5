import Mathlib
import Anchor.Eth.Stalls

/-!
# Nonces of owners

The nonce with which a validator is checked is the number of validators that its owner added
before, whether these were accepted or not.  The column is read as 16 bits, which ends the
count at 65536.
-/

namespace Anchor

open Ssz

variable {C : Type}

def ContractLog.addsValidatorOf (owner : Address) : ContractLog → Bool
  | .validatorAdded o .. => o = owner
  | _ => false

def addedBy (owner : Address) (logs : List ContractLog) : ℕ :=
  logs.countP (·.addsValidatorOf owner)

theorem addedBy_concat (owner : Address) (logs : List ContractLog) (log : ContractLog) :
    addedBy owner (logs ++ [log]) =
      addedBy owner logs + if log.addsValidatorOf owner then 1 else 0 := by
  simp only [addedBy, List.countP_append, List.countP_singleton]

namespace Sql

variable {sql sql' : Sql C}

theorem nextNonce_congr {owner : Address} (h : sql'.nonceOf owner = sql.nonceOf owner) :
    sql'.nextNonce owner = sql.nextNonce owner := by
  rw [nextNonce, h, nextNonce]

theorem nextNonce_of_owners (h : sql'.owners = sql.owners) (owner : Address) :
    sql'.nextNonce owner = sql.nextNonce owner :=
  nextNonce_congr (by rw [nonceOf, h, nonceOf])

theorem nextNonce_bumpNonce (sql : Sql C) (owner o : Address) :
    (sql.bumpNonce owner).nextNonce o = sql.nextNonce o + if owner = o then 1 else 0 := by
  rw [nextNonce, nonceOf_bumpNonce]
  by_cases h : o = owner
  · subst h
    simp
  · rw [if_neg h, if_neg (Ne.symm h), nextNonce, Nat.add_zero]

end Sql

section Logs

variable [DecidableEq C] {env : EventEnv C} {published : Database.NetworkState C} {tx tx' : Tx C}

omit [DecidableEq C] in
theorem Tx.owners_insertOperatorTx {denv : DatabaseEnv C} {operator : Operator}
    (h : tx.insertOperatorTx denv operator = .ok tx') : tx'.sql.owners = tx.sql.owners := by
  unfold insertOperatorTx at h
  split at h
  · cases h
  split at h
  · cases h
  split at h
  · cases h
  rename_i hsql
  cases h
  obtain ⟨-, -, -, operators, rfl, -⟩ := Sql.insertOperator_ok hsql
  rfl

omit [DecidableEq C] in
theorem Tx.owners_deleteOperatorTx {id : OperatorId} (h : tx.deleteOperatorTx id = .ok tx') :
    tx'.sql.owners = tx.sql.owners := by
  unfold deleteOperatorTx at h
  split at h
  · cases h
  split at h
  · cases h
    change (tx.sql.deleteOperator id).owners = _
    unfold Sql.deleteOperator
    split <;> rfl
  · cases h

variable {owner : Address} {operatorIds : List OperatorId} {publicKey shares : Bytes}

theorem Tx.nextNonce_addValidatorAt {nonce : ℕ} (o : Address) :
    (tx.addValidatorAt env published nonce owner operatorIds publicKey shares).1.sql.nextNonce o =
      tx.sql.nextNonce o := by
  unfold addValidatorAt
  split
  · rfl
  split
  · rfl
  dsimp only
  split
  · rfl
  · rename_i hinsert
    have hadded := (insertValidatorTx_ok rfl hinsert).1
    exact Sql.nextNonce_congr (Sql.nonceOf_insertOrIgnore _ rfl hadded.owners o)

theorem Tx.nextNonce_afterLog {log : ContractLog} (hlog : tx.afterLog env published log = .ok tx')
    (o : Address) :
    tx'.sql.nextNonce o = tx.sql.nextNonce o + if log.addsValidatorOf o then 1 else 0 := by
  obtain ⟨rfl, hdatabase⟩ := afterLog_ok hlog
  cases log with
  | validatorAdded owner operatorIds publicKey shares =>
    simp only [processLog, processValidatorAdded_eq] at hdatabase ⊢
    split
    · rw [nextNonce_addValidatorAt]
      refine (tx.sql.nextNonce_bumpNonce owner o).trans ?_
      simp [ContractLog.addsValidatorOf]
    · rename_i hnonce
      rw [if_neg hnonce] at hdatabase
      exact absurd rfl (hdatabase _)
  | operatorAdded id owner publicKey =>
    have hcases := tx.operatorAdded env id owner publicKey
    simp only [processLog] at hdatabase ⊢
    refine Sql.nextNonce_of_owners ?_ o
    generalize tx.processOperatorAdded env id owner publicKey = result at hcases ⊢
    cases hcases with
    | unstorable hid => rfl
    | refused hid he => rfl
    | marked hid hnext => rfl
    | failed hid hnext hinsert => rfl
    | added hid hnext hinsert => exact (owners_insertOperatorTx hinsert).trans rfl
  | operatorRemoved id =>
    refine Sql.nextNonce_of_owners ?_ o
    simp only [processLog, processOperatorRemoved]
    split
    · rfl
    split
    · rfl
    split
    · rfl
    · rename_i hdelete
      exact owners_deleteOperatorTx hdelete
  | validatorRemoved owner operatorIds publicKey =>
    refine Sql.nextNonce_of_owners ?_ o
    rcases tx.processValidatorRemoved_cases owner publicKey with
      ⟨hunchanged, -⟩ | ⟨-, pubkey, validator, -, hvalidator, hdelete⟩
    · simp only [processLog, hunchanged]
    · simp only [processLog, hdelete]
      obtain ⟨hmem, rfl⟩ := Table.find?_eq_some.mp hvalidator
      exact (Sql.removed_deleteValidator hvalidator).owners
  | clusterLiquidated owner operatorIds => exact Sql.nextNonce_of_owners rfl o
  | clusterReactivated owner operatorIds => exact Sql.nextNonce_of_owners rfl o
  | feeRecipientAddressUpdated owner recipient =>
    exact Sql.nextNonce_congr (tx.sql.nonceOf_setFeeRecipient owner recipient o)
  | validatorExited owner operatorIds publicKey hasTimestamp => rfl
  | unknown => rfl

theorem Tx.afterLog_malformed (hkey : publicKey.length ≠ 48)
    (hnonce : tx.sql.nextNonce owner < 2 ^ 16) :
    tx.afterLog env published (.validatorAdded owner operatorIds publicKey shares) =
      .ok (tx.bumped owner) := by
  have hcheck : (tx.bumped owner).checkValidatorAdded env (tx.sql.nextNonce owner) owner
      operatorIds publicKey shares = .error (.invalidEvent .validatorPublicKey) := by
    simp [checkValidatorAdded, FixedBytes.new?, hkey]
  rw [afterLog, processLog, processValidatorAdded_eq, if_pos hnonce, addValidatorAt]
  cases env.mode with
  | keySplit => rfl
  | node =>
    rw [if_neg (by decide), hcheck]
    rfl

theorem Tx.afterLogs_malformed (hkey : publicKey.length ≠ 48) (n : ℕ)
    (hnonce : tx.sql.nextNonce owner + n ≤ 2 ^ 16) :
    ∃ tx', tx'.sql.nextNonce owner = tx.sql.nextNonce owner + n ∧
      ∀ logs, Tx.afterLogs env published tx (List.replicate n
          (.validatorAdded owner operatorIds publicKey shares) ++ logs) =
        Tx.afterLogs env published tx' logs := by
  induction n generalizing tx with
  | zero => exact ⟨tx, rfl, fun logs => rfl⟩
  | succ n ih =>
    have hbumped : (tx.bumped owner).sql.nextNonce owner = tx.sql.nextNonce owner + 1 := by
      refine (tx.sql.nextNonce_bumpNonce owner owner).trans ?_
      rw [if_pos rfl]
    obtain ⟨tx', htx', hrest⟩ := ih (show (tx.bumped owner).sql.nextNonce owner + n ≤ _ by omega)
    refine ⟨tx', by omega, fun logs => ?_⟩
    rw [List.replicate_succ, List.cons_append, afterLogs,
      afterLog_malformed hkey (by omega)]
    exact hrest logs

theorem logHistory_nextNonce :
    LogHistory env fun logs (sql : Sql C) => ∀ o, sql.nextNonce o = addedBy o logs where
  new := fun _ => rfl
  blockNumber h := h
  log h hlog o := by
    rw [Tx.nextNonce_afterLog hlog, h o, addedBy_concat]

end Logs

namespace NetworkDatabase

variable [DecidableEq C] {env : EventEnv C}

/-- The nonce of the next validator of an owner is its number, and it is processed exactly if
that number fits 16 bits and its operators can be looked up. -/
theorem validator_checked_with_its_ordinal_iff (hkeccak : Function.Injective env.keccak256)
    (events : List ChainEvent) (logs : List ContractLog) (tx : Tx C)
    (hlogs : Tx.afterLogs env (Machine.run (step env) (new env) events).state
      (Machine.run (step env) (new env) events).beginTx logs = .ok tx)
    (owner : Address) (operatorIds : List OperatorId) (publicKey shares : Bytes) (k : ℕ)
    (hk : addedBy owner (committed env (new env) events ++ logs) = k) :
    (tx.processLog env (Machine.run (step env) (new env) events).state
        (.validatorAdded owner operatorIds publicKey shares) =
      (tx.bumped owner).addValidatorAt env (Machine.run (step env) (new env) events).state k owner
        operatorIds publicKey shares ∧
      ∃ tx', tx.afterLog env (Machine.run (step env) (new env) events).state
        (.validatorAdded owner operatorIds publicKey shares) = .ok tx') ↔
    k < 2 ^ 16 ∧
      ¬ (env.mode = .node ∧ publicKey.length = 48 ∧ tx.sql.failsFor operatorIds = true) := by
  have hnonce : tx.sql.nextNonce owner = k :=
    (logHistory_nextNonce.within hlogs owner).trans hk
  obtain ⟨mem, hmem⟩ := (sound_run hkeccak events).afterLogs hkeccak hlogs
  have hstalls := Tx.afterLog_fails_iff_stalls hkeccak hmem.wellFormed
    (Machine.run (step env) (new env) events).state
    (.validatorAdded owner operatorIds publicKey shares)
  rw [ContractLog.Stalls, hnonce] at hstalls
  have hok : (∃ tx', tx.afterLog env (Machine.run (step env) (new env) events).state
      (.validatorAdded owner operatorIds publicKey shares) = .ok tx') ↔
      k < 2 ^ 16 ∧
        ¬ (env.mode = .node ∧ publicKey.length = 48 ∧ tx.sql.failsFor operatorIds = true) := by
    rw [← not_le, ← not_or, ← hstalls]
    cases tx.afterLog env (Machine.run (step env) (new env) events).state
      (.validatorAdded owner operatorIds publicKey shares) <;> simp
  rw [hok, and_iff_right_iff_imp]
  rintro ⟨hlt, -⟩
  rw [Tx.processLog, Tx.processValidatorAdded_eq, hnonce, if_pos hlt]

/-- The third validator of an owner, after an accepted one, a malformed one and a restart. -/
theorem validator_checked_with_its_ordinal_sample :
    Function.Injective Sample.chainEnv.keccak256 ∧
      ∃ tx', (Sample.runChain [.block Sample.operatorLogs 1,
          .block [Sample.addValidator 9, .feeRecipientAddressUpdated Sample.clusterOwner
            Sample.clusterOwner, .validatorAdded Sample.clusterOwner [] [] []] 2,
          .restart]).beginTx.afterLog Sample.chainEnv
        (Sample.runChain [.block Sample.operatorLogs 1,
          .block [Sample.addValidator 9, .feeRecipientAddressUpdated Sample.clusterOwner
            Sample.clusterOwner, .validatorAdded Sample.clusterOwner [] [] []] 2,
          .restart]).state (Sample.addValidator 10) = .ok tx' :=
  ⟨Function.injective_id, ((validator_checked_with_its_ordinal_iff Function.injective_id
    [.block Sample.operatorLogs 1,
      .block [Sample.addValidator 9, .feeRecipientAddressUpdated Sample.clusterOwner
        Sample.clusterOwner, .validatorAdded Sample.clusterOwner [] [] []] 2, .restart]
    [] _ rfl Sample.clusterOwner [⟨1⟩, ⟨2⟩, ⟨3⟩, ⟨4⟩] (Sample.validatorKey 10)
    (List.replicate (96 + 48 * 4 + 256 * 4) 10) 2 (by decide +kernel)).mpr
    (by decide +kernel)).2⟩

/-- After 65536 validators of an owner, all of them skipped, the next one ends its block. -/
theorem validator_with_seventeen_bit_nonce_stalls :
    (NetworkDatabase.new Sample.chainEnv).processBlockLogs Sample.chainEnv
      (List.replicate (2 ^ 16) (.validatorAdded Sample.clusterOwner [] [] []) ++
        [Sample.addValidator 9]) 1 = .error (.database .sqlError) := by
  obtain ⟨tx, htx, hlogs⟩ := Tx.afterLogs_malformed
    (show ([] : Bytes).length ≠ 48 by decide) (2 ^ 16)
    (show (NetworkDatabase.new Sample.chainEnv).beginTx.sql.nextNonce Sample.clusterOwner + 2 ^ 16 ≤
      2 ^ 16 by decide)
  have hnonce : tx.sql.nextNonce Sample.clusterOwner = 2 ^ 16 := htx.trans (by decide)
  rw [processBlockLogs_eq, hlogs, Tx.afterLogs, Tx.afterLog, Sample.addValidator, Tx.processLog,
    Tx.processValidatorAdded_eq, hnonce]
  rfl

end NetworkDatabase

end Anchor
