import Mathlib
import Anchor.Eth.EventProcessor

/-!
# What a log can do

Every log that does not end its block either leaves the tables of operators, clusters,
validators and shares alone, or makes exactly one of seven changes.
-/

namespace Anchor

open Ssz

variable {C : Type}

/-- The tables that shares, validators and clusters are built from are the same. -/
structure Sql.SameCore (sql sql' : Sql C) : Prop where
  operators : sql'.operators = sql.operators
  clusters : sql'.clusters = sql.clusters
  clusterMembers : sql'.clusterMembers = sql.clusterMembers
  validators : sql'.validators = sql.validators
  shares : sql'.shares = sql.shares
  feeRecipient : ∀ owner, sql'.feeRecipientForOwner owner = sql.feeRecipientForOwner owner

theorem Sql.SameCore.rfl {sql : Sql C} : sql.SameCore sql :=
  ⟨Eq.refl _, Eq.refl _, Eq.refl _, Eq.refl _, Eq.refl _, fun _ => Eq.refl _⟩

def Sql.NoncesOk (sql : Sql C) : Prop := ∀ row ∈ sql.owners, ∀ nonce, row.nonce = some nonce →
  nonce < 2 ^ 16

/-- An update that leaves shares, validators, clusters and the own identity alone. -/
def StateUpdate.Quiet : StateUpdate C → Prop
  | .setLastProcessedBlock _ | .setMaxOperatorIdSeen _ | .setOwnerNonce _ _ => True
  | _ => False

structure Tx.Quiet (tx tx' : Tx C) : Prop where
  core : tx.sql.SameCore tx'.sql
  nonces : tx.sql.NoncesOk → tx'.sql.NoncesOk
  updates : ∃ us, tx'.updates = tx.updates ++ us ∧ ∀ u ∈ us, u.Quiet

theorem Tx.quiet_refl (tx : Tx C) : tx.Quiet tx := ⟨.rfl, id, [], by simp, by simp⟩

theorem Sql.SameCore.bumpNonce (sql : Sql C) (owner : Address) :
    sql.SameCore (sql.bumpNonce owner) := by
  refine ⟨Eq.refl _, Eq.refl _, Eq.refl _, Eq.refl _, Eq.refl _, ?_⟩
  intro o
  simp only [feeRecipientForOwner, Sql.bumpNonce]
  by_cases h : o = owner
  · subst h
    have hfind := Table.find?_upsert_self sql.owners ⟨o, none, some 0⟩
      (fun row => { row with nonce := some ((row.nonce.map (· + 1)).getD 0) }) fun _ => Eq.refl _
    rw [show OwnerRow.owner ⟨o, none, some 0⟩ = o from Eq.refl _] at hfind
    rw [hfind]
    cases sql.owners.find? o <;> rfl
  · rw [Table.find?_upsert_of_ne h]

theorem Tx.quiet_of_bumpAndGetNonceTx {tx mid : Tx C} {owner : Address} {nonce : ℕ}
    (h : tx.bumpAndGetNonceTx owner = .ok (mid, nonce)) : tx.Quiet mid := by
  simp only [bumpAndGetNonceTx] at h
  split at h
  · cases h
  · rename_i hn
    cases h
    refine ⟨.bumpNonce _ _, ?_, [.setOwnerNonce owner nonce], Eq.refl _,
      by simp [StateUpdate.Quiet]⟩
    intro hok row hrow m hm
    have hfind : (tx.sql.bumpNonce owner).owners.find? row.owner = some row :=
      Table.find?_eq_some.mpr ⟨hrow, Eq.refl _⟩
    by_cases ho : row.owner = owner
    · rw [ho] at hfind
      simp only [Sql.getNonce, hfind, Option.bind_some, hm] at hn
      split at hn
      · assumption
      · cases hn
    · rw [Sql.bumpNonce, Table.find?_upsert_of_ne ho] at hfind
      exact hok row (Table.find?_eq_some.mp hfind).1 m hm

namespace Tx

variable {tx tx' : Tx C}

theorem quiet_setMaxOperatorIdSeenTx (tx : Tx C) (operatorId : UInt64) :
    tx.Quiet (tx.setMaxOperatorIdSeenTx operatorId) :=
  ⟨⟨rfl, rfl, rfl, rfl, rfl, fun _ => rfl⟩, id, [.setMaxOperatorIdSeen operatorId], rfl,
    by simp [StateUpdate.Quiet]⟩

theorem Quiet.insertSkipped (h : tx.Quiet tx') (operatorId : OperatorId) (reason : String) :
    tx.Quiet (tx'.insertSkippedOperatorAddTx operatorId reason) :=
  ⟨⟨h.core.1, h.core.2, h.core.3, h.core.4, h.core.5, h.core.6⟩, h.nonces, h.updates⟩

theorem processOperatorAdded_cases (env : EventEnv C) (tx : Tx C) (operatorId : OperatorId)
    (owner : Address) (publicKey : Bytes) :
    (∃ e, (tx.processOperatorAdded env operatorId owner publicKey).2 = some (.database e)) ∨
    (tx.Quiet (tx.processOperatorAdded env operatorId owner publicKey).1 ∧
      (tx.processOperatorAdded env operatorId owner publicKey).2 ≠ none) ∨
    ((tx.processOperatorAdded env operatorId owner publicKey).2 = none ∧
      ∃ mid rsaPubkey, tx.Quiet mid ∧
        mid.insertOperatorTx env.toDatabaseEnv ⟨operatorId, rsaPubkey, owner⟩ =
          .ok (tx.processOperatorAdded env operatorId owner publicKey).1) := by
  unfold processOperatorAdded
  split
  · exact Or.inl ⟨_, rfl⟩
  split
  · exact Or.inr (Or.inl ⟨tx.quiet_refl, by simp⟩)
  split
  · exact Or.inr (Or.inl ⟨tx.quiet_refl, by simp⟩)
  dsimp only
  split
  · exact Or.inr (Or.inl ⟨(tx.quiet_setMaxOperatorIdSeenTx _).insertSkipped _ _, by simp⟩)
  split
  · exact Or.inr (Or.inl ⟨(tx.quiet_setMaxOperatorIdSeenTx _).insertSkipped _ _, by simp⟩)
  split
  · exact Or.inl ⟨_, rfl⟩
  · rename_i hinsert
    exact Or.inr (Or.inr ⟨rfl, _, _, tx.quiet_setMaxOperatorIdSeenTx _, hinsert⟩)

theorem processOperatorRemoved_cases (tx : Tx C) (operatorId : OperatorId) :
    (∃ e, (tx.processOperatorRemoved operatorId).2 = some (.database e)) ∨
    (tx.Quiet (tx.processOperatorRemoved operatorId).1 ∧
      (tx.processOperatorRemoved operatorId).2 ≠ none) ∨
    ((tx.processOperatorRemoved operatorId).2 = none ∧
      tx.deleteOperatorTx operatorId = .ok (tx.processOperatorRemoved operatorId).1) := by
  unfold processOperatorRemoved
  split
  · exact Or.inl ⟨_, rfl⟩
  split
  · exact Or.inr (Or.inl ⟨⟨⟨rfl, rfl, rfl, rfl, rfl, fun _ => rfl⟩, id, [], by simp, by simp⟩,
      by simp⟩)
  split
  · exact Or.inl ⟨_, rfl⟩
  · rename_i hdelete
    exact Or.inr (Or.inr ⟨rfl, hdelete⟩)

end Tx

def ContractLog.Writes (mode : Mode) : ContractLog → Prop
  | .validatorAdded .. => mode = .node
  | .validatorExited .. | .unknown => False
  | _ => True

variable [DecidableEq C]

def Tx.Accepts (env : EventEnv C) (published : Database.NetworkState C) (tx : Tx C)
    (log : ContractLog) : Prop :=
  (tx.processLog env published log).2 = none

instance (env : EventEnv C) (published : Database.NetworkState C) (tx : Tx C)
    (log : ContractLog) : Decidable (tx.Accepts env published log) :=
  inferInstanceAs (Decidable (_ = _))

inductive LogEffect (env : EventEnv C) (published : Database.NetworkState C) (tx : Tx C) :
    ContractLog → Tx C → Prop where
  | quiet {log tx'} (hquiet : tx.Quiet tx')
      (hlog : log.Writes env.mode → ¬ tx.Accepts env published log) :
      LogEffect env published tx log tx'
  | operatorAdded {operatorId owner publicKey mid tx'} {rsaPubkey : Bytes}
      (haccepts : tx.Accepts env published (.operatorAdded operatorId owner publicKey))
      (hmid : tx.Quiet mid)
      (hinsert : mid.insertOperatorTx env.toDatabaseEnv ⟨operatorId, rsaPubkey, owner⟩ = .ok tx') :
      LogEffect env published tx (.operatorAdded operatorId owner publicKey) tx'
  | operatorRemoved {operatorId tx'}
      (haccepts : tx.Accepts env published (.operatorRemoved operatorId))
      (hdelete : tx.deleteOperatorTx operatorId = .ok tx') :
      LogEffect env published tx (.operatorRemoved operatorId) tx'
  | validatorAdded {owner operatorIds publicKey bytes mid tx'} {nonce : ℕ} {pubkey : PublicKeyBytes}
      {shares : List (Share C)}
      (haccepts : tx.Accepts env published (.validatorAdded owner operatorIds publicKey bytes))
      (hmode : env.mode = .node) (hmid : tx.Quiet mid)
      (hcheck : mid.checkValidatorAdded env nonce owner operatorIds publicKey bytes =
        .ok (pubkey, shares))
      (hinsert : mid.insertValidatorTx env.toDatabaseEnv published
        (mid.addedCluster env owner operatorIds)
        (constructValidatorMetadata pubkey (computeClusterId env.keccak256 owner operatorIds))
        shares = .ok tx') :
      LogEffect env published tx (.validatorAdded owner operatorIds publicKey bytes) tx'
  | validatorRemoved {owner operatorIds publicKey pubkey} {validator : ValidatorMetadata C}
      (haccepts : tx.Accepts env published (.validatorRemoved owner operatorIds publicKey))
      (hpubkey : FixedBytes.new? publicKey = some pubkey)
      (hvalidator : tx.sql.validators.find? pubkey = some validator) :
      LogEffect env published tx (.validatorRemoved owner operatorIds publicKey)
        (tx.deleteValidatorTx pubkey)
  | liquidated {owner operatorIds} :
      LogEffect env published tx (.clusterLiquidated owner operatorIds)
        (tx.updateStatusTx (computeClusterId env.keccak256 owner operatorIds) true)
  | reactivated {owner operatorIds} :
      LogEffect env published tx (.clusterReactivated owner operatorIds)
        (tx.updateStatusTx (computeClusterId env.keccak256 owner operatorIds) false)
  | feeRecipient {owner recipient} :
      LogEffect env published tx (.feeRecipientAddressUpdated owner recipient)
        (tx.updateFeeRecipientTx owner recipient)

namespace Tx

variable {env : EventEnv C} {published : Database.NetworkState C} {tx tx' : Tx C}

theorem processValidatorAdded_cases (env : EventEnv C) (published : Database.NetworkState C)
    (tx : Tx C) (owner : Address) (operatorIds : List OperatorId) (publicKey bytes : Bytes) :
    (∃ e, (tx.processValidatorAdded env published owner operatorIds publicKey bytes).2 =
      some (.database e)) ∨
    (tx.Quiet (tx.processValidatorAdded env published owner operatorIds publicKey bytes).1 ∧
      ((tx.processValidatorAdded env published owner operatorIds publicKey bytes).2 ≠ none ∨
        env.mode = .keySplit)) ∨
    ((tx.processValidatorAdded env published owner operatorIds publicKey bytes).2 = none ∧
      env.mode = .node ∧ ∃ mid nonce pubkey shares, tx.Quiet mid ∧
        mid.checkValidatorAdded env nonce owner operatorIds publicKey bytes =
          .ok (pubkey, shares) ∧
        mid.insertValidatorTx env.toDatabaseEnv published (mid.addedCluster env owner operatorIds)
          (constructValidatorMetadata pubkey (computeClusterId env.keccak256 owner operatorIds))
          shares =
            .ok (tx.processValidatorAdded env published owner operatorIds publicKey bytes).1) := by
  unfold processValidatorAdded
  split
  · exact Or.inl ⟨_, rfl⟩
  rename_i mid nonce hbump
  have hquiet := quiet_of_bumpAndGetNonceTx hbump
  split
  · rename_i hmode
    exact Or.inr (Or.inl ⟨hquiet, Or.inr hmode⟩)
  rename_i hmode
  split
  · exact Or.inr (Or.inl ⟨hquiet, Or.inl (by simp)⟩)
  rename_i hcheck
  dsimp only
  split
  · exact Or.inl ⟨_, rfl⟩
  · rename_i hinsert
    have hnode : env.mode = .node := by
      cases h : env.mode with
      | node => rfl
      | keySplit => exact absurd h hmode
    exact Or.inr (Or.inr ⟨rfl, hnode, mid, nonce, _, _, hquiet, hcheck, hinsert⟩)

theorem processValidatorRemoved_cases (tx : Tx C) (owner : Address) (publicKey : Bytes) :
    ((tx.processValidatorRemoved owner publicKey).1 = tx ∧
      (tx.processValidatorRemoved owner publicKey).2 ≠ none) ∨
    ((tx.processValidatorRemoved owner publicKey).2 = none ∧
      ∃ pubkey validator, FixedBytes.new? publicKey = some pubkey ∧
        tx.sql.validators.find? pubkey = some validator ∧
        (tx.processValidatorRemoved owner publicKey).1 = tx.deleteValidatorTx pubkey) := by
  unfold processValidatorRemoved
  split
  · exact Or.inl ⟨rfl, by simp⟩
  rename_i hpubkey
  split
  · exact Or.inl ⟨rfl, by simp⟩
  rename_i hvalidator
  split
  · exact Or.inl ⟨rfl, by simp⟩
  split
  · exact Or.inl ⟨rfl, by simp⟩
  · exact Or.inr ⟨rfl, _, _, hpubkey, hvalidator, rfl⟩

theorem afterLog_ok {log : ContractLog} (h : tx.afterLog env published log = .ok tx') :
    tx' = (tx.processLog env published log).1 ∧
      ∀ e, (tx.processLog env published log).2 ≠ some (.database e) := by
  unfold afterLog at h
  split at h
  · rename_i heq
    rw [heq]
    exact ⟨(Except.ok.inj h).symm, by simp⟩
  · rename_i heq
    rw [heq]
    split at h
    · cases h
    · rename_i hdisposition
      refine ⟨(Except.ok.inj h).symm, ?_⟩
      rintro e he
      cases he
      exact hdisposition rfl

theorem logEffect_of_afterLog {log : ContractLog}
    (h : tx.afterLog env published log = .ok tx') : LogEffect env published tx log tx' := by
  obtain ⟨rfl, hdatabase⟩ := afterLog_ok h
  cases log with
  | operatorAdded operatorId owner publicKey =>
    rcases tx.processOperatorAdded_cases env operatorId owner publicKey with
      ⟨e, he⟩ | ⟨hquiet, hne⟩ | ⟨hnone, mid, rsaPubkey, hmid, hinsert⟩
    · exact absurd he (hdatabase e)
    · exact .quiet hquiet fun _ haccepts => hne haccepts
    · exact .operatorAdded hnone hmid hinsert
  | operatorRemoved operatorId =>
    rcases tx.processOperatorRemoved_cases operatorId with
      ⟨e, he⟩ | ⟨hquiet, hne⟩ | ⟨hnone, hdelete⟩
    · exact absurd he (hdatabase e)
    · exact .quiet hquiet fun _ haccepts => hne haccepts
    · exact .operatorRemoved hnone hdelete
  | validatorAdded owner operatorIds publicKey bytes =>
    rcases tx.processValidatorAdded_cases env published owner operatorIds publicKey bytes with
      ⟨e, he⟩ | ⟨hquiet, hne⟩ |
        ⟨hnone, hmode, mid, nonce, pubkey, shares, hmid, hcheck, hinsert⟩
    · exact absurd he (hdatabase e)
    · refine .quiet hquiet fun hwrites haccepts => ?_
      rcases hne with hne | hmode
      · exact hne haccepts
      · exact absurd ((hwrites : env.mode = .node).symm.trans hmode) (by simp)
    · exact .validatorAdded hnone hmode hmid hcheck hinsert
  | validatorRemoved owner operatorIds publicKey =>
    rcases tx.processValidatorRemoved_cases owner publicKey with
      ⟨hsame, hne⟩ | ⟨hnone, pubkey, validator, hpubkey, hvalidator, hdelete⟩
    · refine .quiet ?_ fun _ haccepts => hne haccepts
      simp only [processLog, hsame]
      exact tx.quiet_refl
    · simp only [processLog, hdelete]
      exact .validatorRemoved hnone hpubkey hvalidator
  | clusterLiquidated owner operatorIds => exact .liquidated
  | clusterReactivated owner operatorIds => exact .reactivated
  | feeRecipientAddressUpdated owner recipient => exact .feeRecipient
  | validatorExited owner operatorIds publicKey hasTimestamp =>
    exact .quiet tx.quiet_refl fun hwrites => hwrites.elim
  | unknown => exact .quiet tx.quiet_refl fun hwrites => hwrites.elim

end Tx

end Anchor
