import Mathlib
import Anchor.Eth.Replays

/-!
# Committed blocks and restarts

The database as it goes from block to block.  What is compared between the state in
memory and the tables is compared after every log of a block, as if the block ended
there; what a log keeps is then kept by blocks and by whole runs.
-/

namespace Anchor

open Ssz

inductive ChainEvent where
  | block (logs : List ContractLog) (blockNumber : ℕ)
  | restart

variable {C : Type} [DecidableEq C]

/-- The tables of the first version of the schema after the migration to the current one: the
highest operator id is not known, and no addition is marked as skipped. -/
def Sql.upgradeV1 (sql : Sql C) : Sql C :=
  { sql with maxOperatorIdSeen := none, skippedOperatorAdds := Table.empty }

namespace NetworkDatabase

def beginTx (db : NetworkDatabase C) : Tx C := ⟨db.sql, []⟩

variable (env : EventEnv C)

def commit (db : NetworkDatabase C) (tx : Tx C) (blockNumber : ℕ) : NetworkDatabase C :=
  ⟨{ tx.sql with blockNumber },
    (db.state.publish env.toDatabaseEnv (tx.updates ++ [.setLastProcessedBlock blockNumber])).getD
      db.state⟩

theorem processBlockLogs_eq (db : NetworkDatabase C) (logs : List ContractLog) (blockNumber : ℕ) :
    db.processBlockLogs env logs blockNumber =
      (Tx.afterLogs env db.state db.beginTx logs).map (db.commit env · blockNumber) := by
  unfold processBlockLogs beginTx
  split <;> rename_i h <;> rw [h] <;> rfl

def opened (sql : Sql C) : NetworkDatabase C := ⟨sql, .loadState env.toDatabaseEnv sql⟩

def new : NetworkDatabase C := opened env Sql.new

/-- A block that fails changes nothing.  The state can always be rebuilt. -/
def step (db : NetworkDatabase C) : ChainEvent → NetworkDatabase C
  | .block logs blockNumber =>
    match db.processBlockLogs env logs blockNumber with
    | .ok db' => db'
    | .error _ => db
  | .restart =>
    match Database.NetworkState.newWithState env.toDatabaseEnv db.sql with
    | some state => ⟨db.sql, state⟩
    | none => db

/-- A database that was created, or adopted from the first version of the schema. -/
inductive Initial : NetworkDatabase C → Prop where
  | new : Initial (new env)
  | adopted {sql : Sql C} (h : sql.WellFormed env.toDatabaseEnv) :
      Initial (opened env sql.upgradeV1)

def Reachable (db : NetworkDatabase C) : Prop :=
  ∃ start events, Initial env start ∧ Machine.run (step env) start events = db

structure Sound (db : NetworkDatabase C) : Prop where
  wellFormed : db.sql.WellFormed env.toDatabaseEnv
  mirrors : Mirrors env.sha256 db.sql db.state

end NetworkDatabase

/-- A condition on every log of a block, with the transaction in which it comes. -/
def Tx.EachLog (env : EventEnv C) (published : Database.NetworkState C)
    (P : Tx C → ContractLog → Prop) : Tx C → List ContractLog → Prop
  | _, [] => True
  | tx, log :: logs =>
    P tx log ∧
      match tx.afterLog env published log with
      | .ok tx' => EachLog env published P tx' logs
      | .error _ => True

instance Tx.EachLog.decidable (env : EventEnv C) (published : Database.NetworkState C)
    (P : Tx C → ContractLog → Prop) [∀ tx log, Decidable (P tx log)] :
    ∀ (tx : Tx C) (logs : List ContractLog), Decidable (Tx.EachLog env published P tx logs)
  | _, [] => inferInstanceAs (Decidable True)
  | tx, log :: logs =>
    have : Decidable (match tx.afterLog env published log with
        | .ok tx' => Tx.EachLog env published P tx' logs
        | .error _ => True) :=
      match tx.afterLog env published log with
      | .ok tx' => Tx.EachLog.decidable env published P tx' logs
      | .error _ => inferInstanceAs (Decidable True)
    inferInstanceAs (Decidable (P tx log ∧ _))

def NetworkDatabase.Meets (env : EventEnv C)
    (P : Database.NetworkState C → Tx C → ContractLog → Prop) (db : NetworkDatabase C) :
    ChainEvent → Prop
  | .block logs _ => Tx.EachLog env db.state (P db.state) db.beginTx logs
  | .restart => True

instance (env : EventEnv C) (P : Database.NetworkState C → Tx C → ContractLog → Prop)
    [∀ published tx log, Decidable (P published tx log)] (db : NetworkDatabase C) :
    (e : ChainEvent) → Decidable (db.Meets env P e)
  | .block logs _ =>
    inferInstanceAs (Decidable (Tx.EachLog env db.state (P db.state) db.beginTx logs))
  | .restart => inferInstanceAs (Decidable True)

variable {env : EventEnv C} {published mem : Database.NetworkState C} {tx tx' : Tx C}
  {db : NetworkDatabase C}

/-! ## Blocks -/

namespace NetworkDatabase

theorem Sound.consistent (h : db.Sound env) : db.beginTx.Consistent env db.state db.state :=
  ⟨h.wellFormed, rfl, h.mirrors, fun _ hid => hid⟩

theorem sameCore_commit (h : tx.Consistent env db.state mem) (blockNumber : ℕ) :
    tx.sql.SameCore (db.commit env tx blockNumber).sql ∧
      mem.SameCore (db.commit env tx blockNumber).state := by
  refine ⟨⟨rfl, rfl, rfl, rfl, rfl, fun _ => rfl⟩, ?_⟩
  rw [commit, Database.NetworkState.publish_concat h.publish]
  exact ⟨rfl, rfl, rfl, rfl, rfl⟩

theorem sound_commit (h : tx.Consistent env db.state mem) (blockNumber : ℕ) :
    (db.commit env tx blockNumber).Sound env := by
  obtain ⟨hsql, hmem⟩ := sameCore_commit h blockNumber
  exact ⟨h.wellFormed.congr hsql h.wellFormed.nonces, h.mirrors.sameCore hsql hmem⟩

theorem sound_rebuilt (hsql : db.sql.WellFormed env.toDatabaseEnv)
    (h : Rebuilt env.toDatabaseEnv db.sql db.state) : db.Sound env :=
  ⟨hsql, h.mirrors⟩

theorem step_restart (h : db.Sound env) :
    db.step env .restart = ⟨db.sql, .loadState env.toDatabaseEnv db.sql⟩ := by
  rw [step, Database.NetworkState.newWithState_eq h.wellFormed]

end NetworkDatabase

variable {P : Tx C → ContractLog → Prop}

theorem Tx.Consistent.afterLogs (hkeccak : Function.Injective env.keccak256)
    {A : Sql C → Database.NetworkState C → Prop}
    (hlog : ∀ {tx tx' : Tx C} {mem mem' log}, tx.Consistent env published mem →
      tx'.Consistent env published mem' → Replays env published tx mem log tx'.sql mem' →
      P tx log → A tx.sql mem → A tx'.sql mem')
    {logs : List ContractLog} (h : tx.Consistent env published mem) (hA : A tx.sql mem)
    (hP : Tx.EachLog env published P tx logs)
    (hlogs : Tx.afterLogs env published tx logs = .ok tx') :
    ∃ mem', tx'.Consistent env published mem' ∧ A tx'.sql mem' := by
  induction logs generalizing tx mem with
  | nil =>
    cases hlogs
    exact ⟨mem, h, hA⟩
  | cons log logs ih =>
    simp only [Tx.afterLogs] at hlogs
    split at hlogs
    · cases hlogs
    · rename_i mid hmid
      obtain ⟨mem', h', hreplays⟩ := h.afterLog hkeccak hmid
      simp only [Tx.EachLog, hmid] at hP
      exact ih h' (hlog h h' hreplays hP.1 hA) hP.2 hlogs

theorem Tx.eachLog_of_forall (hP : ∀ tx log, P tx log)
    (tx : Tx C) (logs : List ContractLog) : Tx.EachLog env published P tx logs := by
  induction logs generalizing tx with
  | nil => trivial
  | cons log logs ih =>
    refine ⟨hP tx log, ?_⟩
    split
    · exact ih _
    · trivial

theorem NetworkDatabase.Sound.afterLogs (hkeccak : Function.Injective env.keccak256)
    (h : db.Sound env) {logs : List ContractLog}
    (hlogs : Tx.afterLogs env db.state db.beginTx logs = .ok tx) :
    ∃ mem, tx.Consistent env db.state mem := by
  obtain ⟨mem, hmem, -⟩ := h.consistent.afterLogs hkeccak (A := fun _ _ => True)
    (P := fun _ _ => True) (fun _ _ _ _ _ => trivial) trivial
    (Tx.eachLog_of_forall (fun _ _ => trivial) _ _) hlogs
  exact ⟨mem, hmem⟩

/-! ## Runs -/

/-- A comparison of the state in memory with the tables, and the condition under which a log keeps
it. -/
structure Agreement (env : EventEnv C) (A : Sql C → Database.NetworkState C → Prop)
    (P : Database.NetworkState C → Tx C → ContractLog → Prop) : Prop where
  congr : ∀ {sql sql' mem mem'}, sql.SameCore sql' →
    Database.NetworkState.SameCore mem mem' → (A sql' mem' ↔ A sql mem)
  rebuilt : ∀ {sql state}, sql.WellFormed env.toDatabaseEnv →
    Rebuilt env.toDatabaseEnv sql state → A sql state
  log : ∀ {published} {tx : Tx C} {mem log sql' mem'}, tx.Consistent env published mem →
    Mirrors env.sha256 sql' mem' → Replays env published tx mem log sql' mem' →
    A tx.sql mem → (A sql' mem' ↔ P published tx log)

namespace NetworkDatabase

variable {A : Sql C → Database.NetworkState C → Prop}
  {P : Database.NetworkState C → Tx C → ContractLog → Prop} {Q : NetworkDatabase C → Prop}

theorem sound_opened {sql : Sql C} (h : sql.WellFormed env.toDatabaseEnv) :
    (opened env sql).Sound env :=
  sound_rebuilt h (Database.NetworkState.rebuilt_loadState h)

theorem Initial.sound (h : Initial env db) : db.Sound env := by
  cases h with
  | new => exact sound_opened Sql.wellFormed_new
  | adopted h => exact sound_opened (h.congr ⟨rfl, rfl, rfl, rfl, rfl, fun _ => rfl⟩ h.nonces)

theorem Reachable.new (events : List ChainEvent) :
    (Machine.run (step env) (NetworkDatabase.new env) events).Reachable env :=
  ⟨_, events, .new, rfl⟩

variable (hkeccak : Function.Injective env.keccak256)
include hkeccak

theorem sound_and_agrees_step
    (hagree : Agreement env A P) {e : ChainEvent} (hmeets : db.Meets env P e)
    (h : db.Sound env ∧ A db.sql db.state) :
    (db.step env e).Sound env ∧ A (db.step env e).sql (db.step env e).state := by
  obtain ⟨hsound, hA⟩ := h
  cases e with
  | restart =>
    rw [step_restart hsound]
    have hrebuilt := Database.NetworkState.rebuilt_loadState hsound.wellFormed
    exact ⟨⟨hsound.wellFormed, hrebuilt.mirrors⟩, hagree.rebuilt hsound.wellFormed hrebuilt⟩
  | block logs blockNumber =>
    rw [step, processBlockLogs_eq]
    cases hlogs : Tx.afterLogs env db.state db.beginTx logs with
    | error e => exact ⟨hsound, hA⟩
    | ok tx =>
      obtain ⟨mem, hmem, hA'⟩ := hsound.consistent.afterLogs hkeccak
        (fun h h' hreplays hP hA => (hagree.log h h'.mirrors hreplays hA).mpr hP) hA hmeets
        hlogs
      obtain ⟨hsql, hstate⟩ := sameCore_commit hmem blockNumber
      exact ⟨sound_commit hmem blockNumber, (hagree.congr hsql hstate).mpr hA'⟩

theorem Reachable.sound (h : db.Reachable env) : db.Sound env := by
  obtain ⟨start, events, hstart, rfl⟩ := h
  have htrivial : Agreement env (fun _ _ => True) fun _ _ _ => True :=
    ⟨fun _ _ => Iff.rfl, fun _ _ => trivial, fun _ _ _ _ => Iff.rfl⟩
  have hmeets : ∀ (e : ChainEvent) (db : NetworkDatabase C),
      db.Meets env (fun _ _ _ => True) e := by
    intro e db
    cases e with
    | restart => trivial
    | block logs blockNumber => exact Tx.eachLog_of_forall (fun _ _ => trivial) _ _
  exact (Machine.invariant (I := fun db => db.Sound env ∧ True) ⟨hstart.sound, trivial⟩
    (fun db e hP h => sound_and_agrees_step hkeccak htrivial hP h)
    (Machine.steps_of_forall (fun e _ db => hmeets e db) _)).1

theorem sound_run (events : List ChainEvent) :
    (Machine.run (step env) (new env) events).Sound env :=
  (Reachable.new events).sound hkeccak

theorem agrees_run (hagree : Agreement env A P)
    (hQ : ∀ {db}, db.Sound env → (Q db ↔ A db.sql db.state)) {events : List ChainEvent}
    (hmeets : Machine.Steps (step env) (Meets env P) (new env) events) :
    Q (Machine.run (step env) (new env) events) := by
  have hnew : A (new env).sql (new env).state := hagree.rebuilt Sql.wellFormed_new
    (Database.NetworkState.rebuilt_loadState Sql.wellFormed_new)
  exact (hQ (sound_run hkeccak events)).mpr
    (Machine.invariant (I := fun db => db.Sound env ∧ A db.sql db.state) ⟨Initial.new.sound, hnew⟩
      (fun db e hP h => sound_and_agrees_step hkeccak hagree hP h) hmeets).2

theorem agrees_commit_iff
    (hagree : Agreement env A P) (hQ : ∀ {db}, db.Sound env → (Q db ↔ A db.sql db.state))
    {logs : List ContractLog} {tx tx' : Tx C} {log : ContractLog} {m n : ℕ}
    (hdb : db.Reachable env) (hlogs : Tx.afterLogs env db.state db.beginTx logs = .ok tx)
    (hlog : tx.afterLog env db.state log = .ok tx') (h : Q (db.commit env tx m)) :
    Q (db.commit env tx' n) ↔ P db.state tx log := by
  obtain ⟨mem, hmem⟩ := (hdb.sound hkeccak).afterLogs hkeccak hlogs
  obtain ⟨mem', hmem', hreplays⟩ := hmem.afterLog hkeccak hlog
  obtain ⟨hsql, hstate⟩ := sameCore_commit hmem m
  obtain ⟨hsql', hstate'⟩ := sameCore_commit hmem' n
  rw [hQ (sound_commit hmem m), hagree.congr hsql hstate] at h
  rw [hQ (sound_commit hmem' n), hagree.congr hsql' hstate']
  exact hagree.log hmem hmem'.mirrors hreplays h

end NetworkDatabase

end Anchor
