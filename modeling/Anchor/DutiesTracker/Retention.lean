import Mathlib
import Anchor.DutiesTracker.Tracker
import Anchor.Validator.DutyCount

/-!
# Duties that are forgotten too early

The validator asks about duties as long as messages for their slot are acceptable.  Prunes
follow the clock only: a membership goes with its period and an exit an epoch after its slot,
while messages of both are acceptable for some slots more.
-/

namespace Anchor

/-! ## Histories -/

/-- What happens to the tracker.  Prunes come with the slot that was read from the clock. -/
inductive TrackerEvent where
  | fetched (period : ℕ) (index : UInt64) (hasDuty : Bool)
  | pruneMemberships (currentSlot : ℕ)
  | addExit (slot : ℕ) (pubkey : PublicKeyBytes) (index : UInt64) (isOwn : Bool)
  | pruneExits (currentSlot : ℕ)
deriving DecidableEq

def TrackerEvent.isPrune : TrackerEvent → Bool
  | .pruneMemberships _ | .pruneExits _ => true
  | .fetched .. | .addExit .. => false

namespace DutiesTracker

def new : DutiesTracker := ⟨.new, .new⟩

variable (chain : Chain)

def periodOf (slot : ℕ) : ℕ := chain.epochOf slot / chain.epochsPerSyncCommitteePeriod

def step (d : DutiesTracker) : TrackerEvent → DutiesTracker
  | .fetched period index hasDuty =>
    { d with syncDuties := d.syncDuties.insert period index hasDuty }
  | .pruneMemberships currentSlot =>
    { d with syncDuties := d.syncDuties.prune (periodOf chain currentSlot) }
  | .addExit slot pubkey index isOwn =>
    { d with
      voluntaryExitTracker :=
        (d.voluntaryExitTracker.addDutyForSlot slot pubkey index isOwn).1 }
  | .pruneExits currentSlot =>
    { d with
      voluntaryExitTracker := d.voluntaryExitTracker.prune currentSlot chain.slotsPerEpoch }

def run (es : List TrackerEvent) : DutiesTracker := Machine.run (step chain) new es

def unpruned (es : List TrackerEvent) : DutiesTracker := run chain (es.filter (!·.isPrune))

theorem run_concat (es : List TrackerEvent) (e : TrackerEvent) :
    run chain (es ++ [e]) = (run chain es).step chain e :=
  Machine.run_concat _ es e

theorem unpruned_concat (es : List TrackerEvent) (e : TrackerEvent) :
    unpruned chain (es ++ [e]) =
      if e.isPrune then unpruned chain es else (unpruned chain es).step chain e := by
  unfold unpruned
  rw [List.filter_append]
  cases h : e.isPrune
  · simp [h, run_concat]
  · simp [h]

end DutiesTracker

/-! ### Polls as events -/

namespace DutiesTracker

/-- What a poll reads: the clock, the validators of the network, and the answers of the beacon
nodes to requests about an epoch and some validators. -/
structure Poll where
  now : Option ℕ
  indices : List UInt64
  response : ℕ → List UInt64 → Option (List UInt64)

/-- A poll, or something else that happens between polls. -/
inductive Input where
  | poll (p : Poll)
  | event (e : TrackerEvent)

variable (chain : Chain) (altairForkEpoch : Option ℕ) (d : DutiesTracker)

def poll (p : Poll) : DutiesTracker :=
  match d.syncDuties.pollSyncCommitteeDuties chain altairForkEpoch p.response p.indices p.now with
  | .ok syncDuties => { d with syncDuties }
  | .error _ => d

def handle : Input → DutiesTracker
  | .poll p => d.poll chain altairForkEpoch p
  | .event e => d.step chain e

/-- For every validator whose membership is missing, whether the answer names it. -/
def fetchedFor (p : Poll) (period : ℕ) : List TrackerEvent :=
  let missing := d.syncDuties.getMissingIndicesForPeriod period p.indices
  match p.response (chain.epochsPerSyncCommitteePeriod * period) missing with
  | none => []
  | some duties => missing.map fun index => .fetched period index (duties.contains index)

/-- The memberships of the current period and, in its second half, of the next one, and the
prune. -/
def pollEvents (p : Poll) : List TrackerEvent :=
  match p.now with
  | none => []
  | some currentSlot =>
    let currentEpoch := chain.epochOf currentSlot
    if altairForkEpoch.all (currentEpoch < ·) || chain.epochsPerSyncCommitteePeriod = 0 then []
    else
      let current := d.fetchedFor chain p (periodOf chain currentSlot)
      let next :=
        if chain.epochsPerSyncCommitteePeriod / 2 ≤
            currentEpoch % chain.epochsPerSyncCommitteePeriod then
          (Machine.run (step chain) d current).fetchedFor chain p (periodOf chain currentSlot + 1)
        else []
      current ++ next ++ [.pruneMemberships currentSlot]

def inputEvents : Input → List TrackerEvent
  | .poll p => d.pollEvents chain altairForkEpoch p
  | .event e => [e]

def historyOf : DutiesTracker → List Input → List TrackerEvent
  | _, [] => []
  | d, i :: is =>
    d.inputEvents chain altairForkEpoch i ++ historyOf (d.handle chain altairForkEpoch i) is

theorem run_fetched (duties : List UInt64) (period : ℕ) (missing : List UInt64) :
    Machine.run (step chain) d
        (missing.map fun index => .fetched period index (duties.contains index)) =
      { d with
        syncDuties := missing.foldl (fun s index => s.insert period index (duties.contains index))
          d.syncDuties } := by
  induction missing generalizing d with
  | nil => rfl
  | cons index missing ih =>
    rw [List.map_cons, Machine.run_cons, ih]
    rfl

theorem run_fetchedFor (p : Poll) (period : ℕ) :
    Machine.run (step chain) d (d.fetchedFor chain p period) =
      { d with
        syncDuties :=
          d.syncDuties.pollMissingDutiesForPeriod chain p.response p.indices period } := by
  unfold fetchedFor SyncCommitteePerPeriod.pollMissingDutiesForPeriod
  dsimp only
  split_ifs with hmissing
  · rw [hmissing]
    split <;> rfl
  cases p.response (chain.epochsPerSyncCommitteePeriod * period)
      (d.syncDuties.getMissingIndicesForPeriod period p.indices) with
  | none => rfl
  | some duties => exact run_fetched chain d duties period _

theorem poll_eq_run (p : Poll) :
    d.poll chain altairForkEpoch p =
      Machine.run (step chain) d (d.pollEvents chain altairForkEpoch p) := by
  unfold poll pollEvents SyncCommitteePerPeriod.pollSyncCommitteeDuties
  cases p.now with
  | none => rfl
  | some currentSlot =>
    dsimp only
    by_cases hfork : altairForkEpoch.all (chain.epochOf currentSlot < ·) = true
    · simp only [hfork, if_true, Bool.true_or, Machine.run_nil]
    by_cases hzero : chain.epochsPerSyncCommitteePeriod = 0
    · simp [hfork, hzero]
    simp only [hfork, hzero, if_false, decide_false, Bool.or_false, Bool.false_eq_true]
    rw [Machine.run_concat, Machine.run_append, run_fetchedFor]
    split_ifs
    · rw [run_fetchedFor]
      rfl
    · rfl

/-- Whatever is polled and whatever happens in between, the tracker is the one that the fetched
memberships, the prunes and the other events lead to. -/
theorem polls_eq_run (d : DutiesTracker) (inputs : List Input) :
    Machine.run (handle chain altairForkEpoch) d inputs =
      Machine.run (step chain) d (historyOf chain altairForkEpoch d inputs) := by
  induction inputs generalizing d with
  | nil => rfl
  | cons input inputs ih =>
    rw [Machine.run_cons, ih, historyOf, Machine.run_append]
    congr 1
    cases input with
    | poll p => exact poll_eq_run chain altairForkEpoch d p
    | event e => rfl

end DutiesTracker

/-! ## What is forgotten -/

namespace DutiesTracker

variable (chain : Chain)

/-- Since a membership was fetched, a prune was made in a later period. -/
def MembershipForgotten (es : List TrackerEvent) (period : ℕ) (index : UInt64) : Prop :=
  ∃ before currentSlot after, es = before ++ .pruneMemberships currentSlot :: after ∧
    period < periodOf chain currentSlot ∧ ∀ hasDuty, .fetched period index hasDuty ∉ after

/-- Since an exit was announced, a prune was made more than an epoch after its slot. -/
def ExitForgotten (es : List TrackerEvent) (slot : ℕ) (pubkey : PublicKeyBytes) : Prop :=
  ∃ before currentSlot after, es = before ++ .pruneExits currentSlot :: after ∧
    slot + chain.slotsPerEpoch < currentSlot ∧
    ∃ index isOwn, .addExit slot pubkey index isOwn ∈ before

variable {chain} {es : List TrackerEvent}

theorem concat_eq_append_cons {e prune : TrackerEvent} {before after : List TrackerEvent}
    (h : es ++ [e] = before ++ prune :: after) :
    (after = [] ∧ before = es ∧ e = prune) ∨
      ∃ init, after = init ++ [e] ∧ es = before ++ prune :: init := by
  rcases List.eq_nil_or_concat' after with rfl | ⟨init, last, rfl⟩
  · obtain ⟨hes, hlast⟩ := List.append_inj' h rfl
    exact Or.inl ⟨rfl, hes.symm, List.singleton_inj.mp hlast⟩
  · rw [← List.cons_append, ← List.append_assoc] at h
    obtain ⟨hes, hlast⟩ := List.append_inj' h rfl
    rw [List.singleton_inj] at hlast
    exact Or.inr ⟨init, by rw [hlast], hes⟩

theorem membershipForgotten_concat {e : TrackerEvent} {period : ℕ} {index : UInt64} :
    MembershipForgotten chain (es ++ [e]) period index ↔
      (∃ currentSlot, e = .pruneMemberships currentSlot ∧ period < periodOf chain currentSlot) ∨
      (MembershipForgotten chain es period index ∧
        ∀ hasDuty, e ≠ .fetched period index hasDuty) := by
  constructor
  · rintro ⟨before, currentSlot, after, heq, hlt, hafter⟩
    rcases concat_eq_append_cons heq with ⟨-, -, he⟩ | ⟨init, rfl, hes⟩
    · exact Or.inl ⟨currentSlot, he, hlt⟩
    · refine Or.inr ⟨⟨before, currentSlot, init, hes, hlt, ?_⟩, ?_⟩
      · exact fun hasDuty hmem => hafter hasDuty (List.mem_append_left _ hmem)
      · rintro hasDuty rfl
        exact hafter hasDuty (by simp)
  · rintro (⟨currentSlot, rfl, hlt⟩ | ⟨⟨before, currentSlot, after, rfl, hlt, hafter⟩, hne⟩)
    · exact ⟨es, currentSlot, [], rfl, hlt, by simp⟩
    · refine ⟨before, currentSlot, after ++ [e], by simp, hlt, ?_⟩
      intro hasDuty hmem
      rcases List.mem_append.mp hmem with hmem | hmem
      · exact hafter hasDuty hmem
      · exact hne hasDuty (List.mem_singleton.mp hmem).symm

theorem exitForgotten_concat {e : TrackerEvent} {slot : ℕ} {pubkey : PublicKeyBytes} :
    ExitForgotten chain (es ++ [e]) slot pubkey ↔
      ExitForgotten chain es slot pubkey ∨
      (∃ currentSlot, e = .pruneExits currentSlot ∧ slot + chain.slotsPerEpoch < currentSlot ∧
        ∃ index isOwn, .addExit slot pubkey index isOwn ∈ es) := by
  constructor
  · rintro ⟨before, currentSlot, after, heq, hlt, hadd⟩
    rcases concat_eq_append_cons heq with ⟨-, rfl, he⟩ | ⟨init, -, hes⟩
    · exact Or.inr ⟨currentSlot, he, hlt, hadd⟩
    · exact Or.inl ⟨before, currentSlot, init, hes, hlt, hadd⟩
  · rintro (⟨before, currentSlot, after, rfl, hlt, hadd⟩ | ⟨currentSlot, rfl, hlt, hadd⟩)
    · exact ⟨before, currentSlot, after ++ [e], by simp, hlt, hadd⟩
    · exact ⟨es, currentSlot, [], rfl, hlt, hadd⟩

theorem isValidatorInSyncCommittee_run (chain : Chain) (es : List TrackerEvent) (period : ℕ)
    (index : UInt64) :
    (run chain es).syncDuties.isValidatorInSyncCommittee period index = true ↔
      (unpruned chain es).syncDuties.isValidatorInSyncCommittee period index = true ∧
        ¬ MembershipForgotten chain es period index := by
  induction es using List.reverseRecOn with
  | nil => simp [run, unpruned, new]
  | append_singleton es e ih =>
    rw [run_concat, unpruned_concat, membershipForgotten_concat]
    cases e with
    | fetched p i hasDuty =>
      simp only [TrackerEvent.isPrune, Bool.false_eq_true, if_false, step,
        SyncCommitteePerPeriod.isValidatorInSyncCommittee_insert]
      by_cases h : period = p ∧ index = i
      · simp [h]
      · simp only [if_neg h, ih]
        have hne : ∀ b, TrackerEvent.fetched p i hasDuty ≠ .fetched period index b := by
          rintro b heq
          cases heq
          exact h ⟨rfl, rfl⟩
        simp [hne]
    | pruneMemberships currentSlot =>
      simp only [TrackerEvent.isPrune, if_true, step,
        SyncCommitteePerPeriod.isValidatorInSyncCommittee_prune]
      by_cases h : periodOf chain currentSlot ≤ period
      · rw [if_pos h, ih]
        simp [not_lt.mpr h]
      · rw [if_neg h]
        simp [not_le.mp h]
    | addExit slot pubkey i isOwn =>
      simpa [TrackerEvent.isPrune, step] using ih
    | pruneExits currentSlot =>
      simpa [TrackerEvent.isPrune, step] using ih

theorem getDutyCount_unpruned_eq_zero (chain : Chain) (es : List TrackerEvent) (slot : ℕ)
    (pubkey : PublicKeyBytes) :
    (unpruned chain es).voluntaryExitTracker.getDutyCount slot pubkey = 0 ↔
      ¬ ∃ index isOwn, .addExit slot pubkey index isOwn ∈ es := by
  induction es using List.reverseRecOn with
  | nil => simp [unpruned, run, new]
  | append_singleton es e ih =>
    rw [unpruned_concat]
    cases e with
    | addExit s key index isOwn =>
      simp only [TrackerEvent.isPrune, Bool.false_eq_true, if_false, step,
        VoluntaryExitTracker.getDutyCount_addDutyForSlot]
      by_cases h : slot = s ∧ pubkey = key
      · obtain ⟨rfl, rfl⟩ := h
        rw [if_pos ⟨rfl, rfl⟩]
        refine iff_of_false (by omega) (not_not.mpr ⟨index, isOwn, by simp⟩)
      · rw [if_neg h, Nat.add_zero, ih]
        have hne : ∀ i own,
            TrackerEvent.addExit slot pubkey i own ≠ .addExit s key index isOwn := by
          rintro i own heq
          cases heq
          exact h ⟨rfl, rfl⟩
        simp [hne]
    | fetched p i hasDuty => simpa [TrackerEvent.isPrune, step] using ih
    | pruneMemberships currentSlot => simpa [TrackerEvent.isPrune] using ih
    | pruneExits currentSlot => simpa [TrackerEvent.isPrune] using ih

theorem getDutyCount_run (chain : Chain) (es : List TrackerEvent) (slot : ℕ)
    (pubkey : PublicKeyBytes) :
    (run chain es).voluntaryExitTracker.getDutyCount slot pubkey ≤
        (unpruned chain es).voluntaryExitTracker.getDutyCount slot pubkey ∧
      ((run chain es).voluntaryExitTracker.getDutyCount slot pubkey =
          (unpruned chain es).voluntaryExitTracker.getDutyCount slot pubkey ↔
        ¬ ExitForgotten chain es slot pubkey) := by
  induction es using List.reverseRecOn with
  | nil =>
    refine ⟨le_refl _, ⟨fun _ => ?_, fun _ => rfl⟩⟩
    rintro ⟨before, currentSlot, after, heq, -⟩
    simp at heq
  | append_singleton es e ih =>
    rw [run_concat, unpruned_concat, exitForgotten_concat]
    cases e with
    | addExit s key index isOwn =>
      simp only [TrackerEvent.isPrune, Bool.false_eq_true, if_false, step,
        VoluntaryExitTracker.getDutyCount_addDutyForSlot, Nat.add_right_cancel_iff,
        Nat.add_le_add_iff_right, reduceCtorEq, false_and, exists_false, or_false]
      exact ih
    | fetched p i hasDuty => simpa [TrackerEvent.isPrune, step] using ih
    | pruneMemberships currentSlot => simpa [TrackerEvent.isPrune, step] using ih
    | pruneExits currentSlot =>
      have hzero := getDutyCount_unpruned_eq_zero chain es slot pubkey
      simp only [TrackerEvent.isPrune, if_true, step, VoluntaryExitTracker.getDutyCount_prune]
      by_cases h : slot + chain.slotsPerEpoch < currentSlot
      · rw [if_pos h]
        refine ⟨Nat.zero_le _, eq_comm.trans (hzero.trans (not_congr ?_))⟩
        constructor
        · exact fun hadd => Or.inr ⟨currentSlot, rfl, h, hadd⟩
        · rintro (⟨before, c, after, rfl, -, index, isOwn, hadd⟩ | ⟨-, -, -, hadd⟩)
          · exact ⟨index, isOwn, List.mem_append_left _ hadd⟩
          · exact hadd
      · rw [if_neg h]
        refine ⟨ih.1, ih.2.trans (not_congr ?_)⟩
        refine ⟨Or.inl, ?_⟩
        rintro (hforgotten | ⟨c, heq, hlt, -⟩)
        · exact hforgotten
        · cases heq
          exact absurd hlt h

end DutiesTracker

/-! ## The answers of the validator -/

namespace DutyContext

variable {K : Type} (ctx : DutyContext K)

def knowing (d : DutiesTracker) : DutyContext K := { ctx with duties := d.provider ctx.duties }

/-- The facts about a slot that the validator asks for were fetched and not forgotten. -/
def Retained (es : List TrackerEvent) (msgId : MessageId) (slot : ℕ) : Prop :=
  match ctx.role with
  | .syncCommittee =>
    ∀ period index, ctx.chain.syncCommitteePeriod (ctx.chain.epochOf slot) = .ok period →
      ctx.singleValidatorIndex = .ok index →
      (DutiesTracker.unpruned ctx.chain es).syncDuties.isValidatorInSyncCommittee period index →
      ¬ DutiesTracker.MembershipForgotten ctx.chain es period index
  | .committee | .aggregatorCommittee =>
    ∀ period, ctx.chain.syncCommitteePeriod (ctx.chain.epochOf slot) = .ok period →
      ctx.validatorIndices.length < ctx.chain.slotsPerEpoch / 2 →
      ∀ index ∈ ctx.validatorIndices,
      (DutiesTracker.unpruned ctx.chain es).syncDuties.isValidatorInSyncCommittee period index →
      ∃ index ∈ ctx.validatorIndices,
        (DutiesTracker.unpruned ctx.chain es).syncDuties.isValidatorInSyncCommittee period
          index ∧ ¬ DutiesTracker.MembershipForgotten ctx.chain es period index
  | .voluntaryExit =>
    ∀ pubkey, validatorPublicKey msgId = .ok pubkey →
      ¬ DutiesTracker.ExitForgotten ctx.chain es slot pubkey
  | _ => True

variable {ctx} {es : List TrackerEvent} {slot : ℕ}

theorem validateBeaconDuty_knowing_iff (hrole : ctx.role = .syncCommittee) (msgId : MessageId)
    (randaoMsg : Bool) :
    (ctx.knowing (DutiesTracker.run ctx.chain es)).validateBeaconDuty msgId slot randaoMsg =
        (ctx.knowing (DutiesTracker.unpruned ctx.chain es)).validateBeaconDuty msgId slot
          randaoMsg ↔
      ctx.Retained es msgId slot := by
  have hvalidate : ∀ d : DutiesTracker,
      (ctx.knowing d).validateBeaconDuty msgId slot randaoMsg =
        ctx.chain.syncCommitteePeriod (ctx.chain.epochOf slot) >>= fun period =>
          ctx.singleValidatorIndex >>= fun index =>
            Checks.require (d.syncDuties.isValidatorInSyncCommittee period index) .noDuty := by
    intro d
    simp only [validateBeaconDuty, knowing, hrole]
    rfl
  rw [hvalidate, hvalidate]
  simp only [Retained, hrole]
  cases ctx.chain.syncCommitteePeriod (ctx.chain.epochOf slot) with
  | error e => exact iff_of_true rfl (by simp)
  | ok period =>
    cases ctx.singleValidatorIndex with
    | error e => exact iff_of_true rfl (by simp)
    | ok index =>
      have hrun := DutiesTracker.isValidatorInSyncCommittee_run ctx.chain es period index
      change Checks.require _ _ = Checks.require _ _ ↔ _
      rw [Checks.require_eq_require_iff, hrun]
      simp

theorem validateBeaconDuty_knowing (hrole : ctx.role ≠ .syncCommittee) (d : DutiesTracker)
    (msgId : MessageId) (slot : ℕ) (randaoMsg : Bool) :
    (ctx.knowing d).validateBeaconDuty msgId slot randaoMsg =
      ctx.validateBeaconDuty msgId slot randaoMsg := by
  cases hcase : ctx.role <;> simp only [validateBeaconDuty, knowing, hcase] <;>
    first | rfl | exact absurd hcase hrole

theorem any_isValidatorInSyncCommittee_run {chain : Chain} {period : ℕ} {indices : List UInt64} :
    indices.any ((DutiesTracker.run chain es).syncDuties.isValidatorInSyncCommittee period) =
        indices.any
          ((DutiesTracker.unpruned chain es).syncDuties.isValidatorInSyncCommittee period) ↔
      ∀ index ∈ indices,
        (DutiesTracker.unpruned chain es).syncDuties.isValidatorInSyncCommittee period index →
        ∃ index ∈ indices,
          (DutiesTracker.unpruned chain es).syncDuties.isValidatorInSyncCommittee period index ∧
            ¬ DutiesTracker.MembershipForgotten chain es period index := by
  rw [Bool.eq_iff_iff, List.any_eq_true, List.any_eq_true]
  simp only [DutiesTracker.isValidatorInSyncCommittee_run chain es period]
  constructor
  · exact fun h index hindex hmember => h.mpr ⟨index, hindex, hmember⟩
  · refine fun h => ⟨?_, ?_⟩
    · rintro ⟨index, hindex, hmember, -⟩
      exact ⟨index, hindex, hmember⟩
    · rintro ⟨index, hindex, hmember⟩
      exact h index hindex hmember

theorem dutyLimit_knowing_iff_of_committee
    (hrole : ctx.role = .committee ∨ ctx.role = .aggregatorCommittee) (msgId : MessageId) :
    (ctx.knowing (DutiesTracker.run ctx.chain es)).dutyLimit msgId slot =
        (ctx.knowing (DutiesTracker.unpruned ctx.chain es)).dutyLimit msgId slot ↔
      ctx.Retained es msgId slot := by
  have hlimit : ∀ d : DutiesTracker, (ctx.knowing d).dutyLimit msgId slot =
      (ctx.knowing d).anyInSyncCommittee slot >>= fun inSyncCommittee =>
        .ok (some (if inSyncCommittee then ctx.chain.slotsPerEpoch
          else min ctx.chain.slotsPerEpoch (2 * ctx.validatorIndices.length))) := by
    intro d
    rcases hrole with hrole | hrole <;> simp only [dutyLimit, knowing, hrole] <;> rfl
  have hretained : ctx.Retained es msgId slot ↔
      ∀ period, ctx.chain.syncCommitteePeriod (ctx.chain.epochOf slot) = .ok period →
        ctx.validatorIndices.length < ctx.chain.slotsPerEpoch / 2 →
        ctx.validatorIndices.any ((DutiesTracker.run
            ctx.chain es).syncDuties.isValidatorInSyncCommittee period) =
          ctx.validatorIndices.any ((DutiesTracker.unpruned
            ctx.chain es).syncDuties.isValidatorInSyncCommittee period) := by
    simp only [any_isValidatorInSyncCommittee_run]
    rcases hrole with hrole | hrole <;> simp only [Retained, hrole]
  rw [hlimit, hlimit, hretained]
  by_cases hlength : ctx.validatorIndices.length < ctx.chain.slotsPerEpoch / 2
  · have hany : ∀ d : DutiesTracker, (ctx.knowing d).anyInSyncCommittee slot =
        ctx.chain.syncCommitteePeriod (ctx.chain.epochOf slot) >>= fun period =>
          .ok (ctx.validatorIndices.any (d.syncDuties.isValidatorInSyncCommittee period)) :=
      fun d => if_pos hlength
    rw [hany, hany]
    cases ctx.chain.syncCommitteePeriod (ctx.chain.epochOf slot) with
    | error e => exact iff_of_true rfl (by simp)
    | ok period =>
      change (Except.ok _ : Except ValidationFailure _) = Except.ok _ ↔ _
      simp only [Except.ok.injEq, Option.some.injEq, hlength, forall_eq', true_implies]
      cases ctx.validatorIndices.any
          ((DutiesTracker.run ctx.chain es).syncDuties.isValidatorInSyncCommittee period) <;>
        cases ctx.validatorIndices.any
          ((DutiesTracker.unpruned ctx.chain es).syncDuties.isValidatorInSyncCommittee period) <;>
        simp <;> omega
  · have hany : ∀ d : DutiesTracker, (ctx.knowing d).anyInSyncCommittee slot = .ok false :=
      fun d => if_neg hlength
    rw [hany, hany]
    exact iff_of_true rfl fun _ _ h => absurd h hlength

theorem dutyLimit_knowing_iff_of_exit (hrole : ctx.role = .voluntaryExit) (msgId : MessageId) :
    (ctx.knowing (DutiesTracker.run ctx.chain es)).dutyLimit msgId slot =
        (ctx.knowing (DutiesTracker.unpruned ctx.chain es)).dutyLimit msgId slot ↔
      ctx.Retained es msgId slot := by
  have hlimit : ∀ d : DutiesTracker, (ctx.knowing d).dutyLimit msgId slot =
      validatorPublicKey msgId >>= fun pubkey =>
        .ok (some (d.voluntaryExitTracker.getDutyCount slot pubkey)) := by
    intro d
    simp only [dutyLimit, knowing, hrole]
    rfl
  rw [hlimit, hlimit]
  simp only [Retained, hrole]
  cases validatorPublicKey msgId with
  | error e => exact iff_of_true rfl (by simp)
  | ok pubkey =>
    change (Except.ok _ : Except ValidationFailure _) = Except.ok _ ↔ _
    simp only [Except.ok.injEq, Option.some.injEq, forall_eq']
    exact (DutiesTracker.getDutyCount_run ctx.chain es slot pubkey).2

theorem dutyLimit_knowing (hsync : ctx.role ≠ .committee) (hagg : ctx.role ≠ .aggregatorCommittee)
    (hexit : ctx.role ≠ .voluntaryExit) (d : DutiesTracker) (msgId : MessageId) (slot : ℕ) :
    (ctx.knowing d).dutyLimit msgId slot = ctx.dutyLimit msgId slot := by
  cases hcase : ctx.role <;> simp only [dutyLimit, knowing, hcase] <;> contradiction

/-- The validator answers as if nothing had been pruned exactly if what it asks for is retained. -/
theorem duty_answers_kept_iff_retained (ctx : DutyContext K) (es : List TrackerEvent)
    (msgId : MessageId) (slot : ℕ) (randaoMsg : Bool) :
    ((ctx.knowing (DutiesTracker.run ctx.chain es)).validateBeaconDuty msgId slot randaoMsg =
        (ctx.knowing (DutiesTracker.unpruned ctx.chain es)).validateBeaconDuty msgId slot
          randaoMsg ∧
      (ctx.knowing (DutiesTracker.run ctx.chain es)).dutyLimit msgId slot =
        (ctx.knowing (DutiesTracker.unpruned ctx.chain es)).dutyLimit msgId slot) ↔
      ctx.Retained es msgId slot := by
  by_cases hsync : ctx.role = .syncCommittee
  · rw [validateBeaconDuty_knowing_iff hsync, and_iff_left]
    rw [dutyLimit_knowing, dutyLimit_knowing] <;> simp [hsync]
  rw [validateBeaconDuty_knowing hsync, validateBeaconDuty_knowing hsync, and_iff_right rfl]
  by_cases hcommittee : ctx.role = .committee ∨ ctx.role = .aggregatorCommittee
  · exact dutyLimit_knowing_iff_of_committee hcommittee msgId
  by_cases hexit : ctx.role = .voluntaryExit
  · exact dutyLimit_knowing_iff_of_exit hexit msgId
  obtain ⟨hcommittee, hagg⟩ := not_or.mp hcommittee
  rw [dutyLimit_knowing hcommittee hagg hexit, dutyLimit_knowing hcommittee hagg hexit]
  refine iff_of_true rfl ?_
  unfold Retained
  split <;> first | contradiction | trivial

end DutyContext

namespace Sample

def trackerContext (role : Role) (time : ℕ) : DutyContext OperatorId :=
  { dutyContext time with role, validatorIndices := [7] }

/-- A poll in the second half of a period asks about two periods, and the next one about nothing
more. -/
def twoPolls : List DutiesTracker.Input :=
  [.poll ⟨some 1024, [7, 8], fun _ _ => some [7]⟩, .poll ⟨some 1025, [7, 8], fun _ _ => none⟩]

theorem polls_eq_run_twoPolls :
    Machine.run (DutiesTracker.handle chain (some 0)) .new twoPolls =
      DutiesTracker.run chain [.fetched 0 7 true, .fetched 0 8 false, .fetched 1 7 true,
        .fetched 1 8 false, .pruneMemberships 1024, .pruneMemberships 1025] := by
  have hhistory : DutiesTracker.historyOf chain (some 0) .new twoPolls =
      [.fetched 0 7 true, .fetched 0 8 false, .fetched 1 7 true, .fetched 1 8 false,
        .pruneMemberships 1024, .pruneMemberships 1025] := by
    decide +kernel
  rw [DutiesTracker.polls_eq_run, hhistory]
  rfl

/-- Two slots into a period, the memberships of the last one are gone, and ten slots after an
exit, so is the exit; messages for both are acceptable. -/
theorem duties_forgotten_in_window :
    ((trackerContext .syncCommittee (2049 * 12000000000)).validateSlotTime 2047 = .ok () ∧
      ((trackerContext .syncCommittee (2049 * 12000000000)).knowing (DutiesTracker.run chain
        [.fetched 0 7 true, .pruneMemberships 2048])).validateBeaconDuty
          (validatorId .syncCommittee) 2047 false = .error .noDuty ∧
      ((trackerContext .syncCommittee (2049 * 12000000000)).knowing (DutiesTracker.unpruned chain
        [.fetched 0 7 true, .pruneMemberships 2048])).validateBeaconDuty
          (validatorId .syncCommittee) 2047 false = .ok ()) ∧
    (trackerContext .voluntaryExit (110 * 12000000000)).validateSlotTime 100 = .ok () ∧
      ((trackerContext .voluntaryExit (110 * 12000000000)).knowing (DutiesTracker.run chain
        [.addExit 100 ⟨List.replicate 48 0, rfl⟩ 7 false, .pruneExits 109])).dutyLimit
          (validatorId .voluntaryExit) 100 = .ok (some 0) ∧
      ((trackerContext .voluntaryExit (110 * 12000000000)).knowing (DutiesTracker.unpruned chain
        [.addExit 100 ⟨List.replicate 48 0, rfl⟩ 7 false, .pruneExits 109])).dutyLimit
          (validatorId .voluntaryExit) 100 = .ok (some 1) := by
  decide +kernel

end Sample

end Anchor
