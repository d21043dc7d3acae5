import Mathlib
import Anchor.Library.Machine
import Anchor.Validator.Duty

/-!
# What the node remembers of duties

Memberships in sync committees are fetched from a beacon node and kept by period; voluntary
exits are announced by the contract and kept by slot.  Both are pruned as time goes on.
-/

namespace Anchor

/-! ## Sync committees -/

inductive DutiesTrackerError where
  | unableToReadSlotClock
  | arith
deriving DecidableEq

structure SyncCommitteePerPeriod where
  committeeMembership : ℕ → UInt64 → Option Bool

namespace SyncCommitteePerPeriod

variable (d : SyncCommitteePerPeriod)

def new : SyncCommitteePerPeriod := ⟨fun _ _ => none⟩

def getMissingIndicesForPeriod (committeePeriod : ℕ) (validatorIndices : List UInt64) :
    List UInt64 :=
  validatorIndices.filter fun index => (d.committeeMembership committeePeriod index).isNone

def insert (committeePeriod : ℕ) (validatorIndex : UInt64) (hasDuty : Bool) :
    SyncCommitteePerPeriod :=
  ⟨Function.update d.committeeMembership committeePeriod
    (Function.update (d.committeeMembership committeePeriod) validatorIndex (some hasDuty))⟩

def prune (currentSyncCommitteePeriod : ℕ) : SyncCommitteePerPeriod :=
  ⟨fun period index =>
    if currentSyncCommitteePeriod ≤ period then d.committeeMembership period index else none⟩

def isValidatorInSyncCommittee (committeePeriod : ℕ) (validatorIndex : UInt64) : Bool :=
  (d.committeeMembership committeePeriod validatorIndex).getD false

/-- `poll_missing_sync_committee_duties_for_period`: what is missing is asked for, by the first
epoch of the period.  The answer lists the validators that have a duty, unless the request fails. -/
def pollMissingDutiesForPeriod (chain : Chain) (response : ℕ → List UInt64 → Option (List UInt64))
    (validatorIndices : List UInt64) (period : ℕ) : SyncCommitteePerPeriod :=
  let missing := d.getMissingIndicesForPeriod period validatorIndices
  if missing = [] then d
  else
    match response (chain.epochsPerSyncCommitteePeriod * period) missing with
    | none => d
    | some duties =>
      missing.foldl (fun d index => d.insert period index (duties.contains index)) d

/-- `poll_sync_committee_duties`: the next period is polled in the second half of a period. -/
def pollSyncCommitteeDuties (chain : Chain) (altairForkEpoch : Option ℕ)
    (response : ℕ → List UInt64 → Option (List UInt64)) (validatorIndices : List UInt64)
    (now : Option ℕ) : Except DutiesTrackerError SyncCommitteePerPeriod :=
  match now with
  | none => .error .unableToReadSlotClock
  | some currentSlot =>
    let currentEpoch := chain.epochOf currentSlot
    if altairForkEpoch.all (currentEpoch < ·) then .ok d
    else if chain.epochsPerSyncCommitteePeriod = 0 then .error .arith
    else
      let period := currentEpoch / chain.epochsPerSyncCommitteePeriod
      let d := d.pollMissingDutiesForPeriod chain response validatorIndices period
      let d :=
        if chain.epochsPerSyncCommitteePeriod / 2 ≤
            currentEpoch % chain.epochsPerSyncCommitteePeriod then
          d.pollMissingDutiesForPeriod chain response validatorIndices (period + 1)
        else d
      .ok (d.prune period)

@[simp] theorem isValidatorInSyncCommittee_new (period : ℕ) (index : UInt64) :
    new.isValidatorInSyncCommittee period index = false := rfl

theorem isValidatorInSyncCommittee_insert (period p : ℕ) (index i : UInt64) (hasDuty : Bool) :
    (d.insert period index hasDuty).isValidatorInSyncCommittee p i =
      if p = period ∧ i = index then hasDuty else d.isValidatorInSyncCommittee p i := by
  unfold isValidatorInSyncCommittee insert
  by_cases hp : p = period
  · subst hp
    by_cases hi : i = index
    · simp [hi]
    · simp [hi]
  · simp [hp]

theorem isValidatorInSyncCommittee_prune (current p : ℕ) (i : UInt64) :
    (d.prune current).isValidatorInSyncCommittee p i =
      if current ≤ p then d.isValidatorInSyncCommittee p i else false := by
  unfold isValidatorInSyncCommittee prune
  by_cases h : current ≤ p <;> simp [h]

end SyncCommitteePerPeriod

/-! ## Voluntary exits -/

structure ExitDuty where
  validatorPubkey : PublicKeyBytes
  validatorIndex : UInt64
  targetSlot : ℕ
deriving DecidableEq

/-- An exit that waits to be processed.  No code looks at `returned`, which says whether
`getReadyExits` has returned the exit. -/
structure ScheduledExit where
  duty : ExitDuty
  returned : Bool
deriving DecidableEq

structure VoluntaryExitTracker where
  scheduledExits : ℕ → Option (List ScheduledExit)
  allDutiesBySlot : ℕ → Option (PublicKeyBytes → Option ℕ)

namespace VoluntaryExitTracker

variable (t : VoluntaryExitTracker)

def new : VoluntaryExitTracker := ⟨fun _ => none, fun _ => none⟩

/-- The first half of `add_duty_for_slot`. -/
def countDuty (slot : ℕ) (pubkey : PublicKeyBytes) : VoluntaryExitTracker :=
  let slotMap := (t.allDutiesBySlot slot).getD fun _ => none
  { t with
    allDutiesBySlot := Function.update t.allDutiesBySlot slot
      (some (Function.update slotMap pubkey (some ((slotMap pubkey).getD 0 + 1)))) }

def exitsAt (slot : ℕ) : List ScheduledExit := (t.scheduledExits slot).getD []

/-- The second half of `add_duty_for_slot`. -/
def schedule (duty : ExitDuty) : VoluntaryExitTracker :=
  { t with
    scheduledExits := Function.update t.scheduledExits duty.targetSlot
      (some (t.exitsAt duty.targetSlot ++ [⟨duty, false⟩])) }

/-- Only the exits of own validators are scheduled. -/
def addDutyForSlot (slot : ℕ) (pubkey : PublicKeyBytes) (validatorIndex : UInt64)
    (isOwnValidator : Bool) : VoluntaryExitTracker × Bool :=
  let t := t.countDuty slot pubkey
  if isOwnValidator then (t.schedule ⟨pubkey, validatorIndex, slot⟩, true) else (t, false)

def getDutyCount (slot : ℕ) (pubkey : PublicKeyBytes) : ℕ :=
  ((t.allDutiesBySlot slot).bind (· pubkey)).getD 0

def prune (currentSlot lookback : ℕ) : VoluntaryExitTracker where
  scheduledExits slot := if currentSlot - lookback ≤ slot then t.scheduledExits slot else none
  allDutiesBySlot slot := if currentSlot - lookback ≤ slot then t.allDutiesBySlot slot else none

@[simp] theorem getDutyCount_new (slot : ℕ) (pubkey : PublicKeyBytes) :
    new.getDutyCount slot pubkey = 0 := rfl

theorem getDutyCount_addDutyForSlot (slot s : ℕ) (pubkey key : PublicKeyBytes) (index : UInt64)
    (isOwn : Bool) :
    (t.addDutyForSlot slot pubkey index isOwn).1.getDutyCount s key =
      t.getDutyCount s key + if s = slot ∧ key = pubkey then 1 else 0 := by
  have hcount : (t.countDuty slot pubkey).getDutyCount s key =
      t.getDutyCount s key + if s = slot ∧ key = pubkey then 1 else 0 := by
    unfold getDutyCount countDuty
    by_cases hs : s = slot
    · subst hs
      by_cases hkey : key = pubkey
      · subst hkey
        cases t.allDutiesBySlot s <;> simp
      · cases t.allDutiesBySlot s <;> simp [hkey]
    · simp [hs]
  cases isOwn <;> exact hcount

theorem getDutyCount_prune (currentSlot lookback s : ℕ) (key : PublicKeyBytes) :
    (t.prune currentSlot lookback).getDutyCount s key =
      if s + lookback < currentSlot then 0 else t.getDutyCount s key := by
  unfold getDutyCount prune
  by_cases h : s + lookback < currentSlot
  · rw [if_pos h]
    simp [show ¬ currentSlot ≤ s + lookback by omega]
  · rw [if_neg h]
    simp [show currentSlot ≤ s + lookback by omega]

end VoluntaryExitTracker

/-! ## Both -/

structure DutiesTracker where
  syncDuties : SyncCommitteePerPeriod
  voluntaryExitTracker : VoluntaryExitTracker

/-- The answers of the tracker; those about proposers and the payload timeliness committee are
taken from elsewhere. -/
def DutiesTracker.provider (d : DutiesTracker) (others : DutiesProvider) : DutiesProvider :=
  { others with
    isValidatorInSyncCommittee := d.syncDuties.isValidatorInSyncCommittee
    getVoluntaryExitDutyCount := d.voluntaryExitTracker.getDutyCount }

end Anchor
