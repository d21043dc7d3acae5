import Mathlib
import Anchor.Validator.ConsensusMessage
import Anchor.Validator.DutyState

/-!
# Duties, slots and their limits

The rules of the validator that look at the beacon chain: whether a role exists
in a fork, whether the validator has the duty, whether a message arrives in the
window of its slot, and how many duties an operator may have in an epoch.  Times
are in nanoseconds since the Unix epoch.
-/

namespace Anchor

open Ssz

/-! ## The chain -/

/-- A clock of slots of equal length.  The start of a slot beyond `lastSlot` is not
representable. -/
structure SlotClock where
  genesisSlot : ℕ
  genesisTime : ℕ
  slotDuration : ℕ
  lastSlot : ℕ
  slotDuration_pos : 0 < slotDuration

namespace SlotClock

variable (clock : SlotClock)

def startOf (slot : ℕ) : Option ℕ :=
  if clock.genesisSlot ≤ slot ∧ slot ≤ clock.lastSlot then
    some (clock.genesisTime + (slot - clock.genesisSlot) * clock.slotDuration)
  else none

def slotOf (time : ℕ) : Option ℕ :=
  if clock.genesisTime ≤ time then
    some (clock.genesisSlot + (time - clock.genesisTime) / clock.slotDuration)
  else none

end SlotClock

structure ChainSpec where
  minSeedLookahead : ℕ
  gloasForkEpoch : Option ℕ
  forkNameAtEpoch : ℕ → ForkName

inductive DutyAssignment where
  | assigned
  | notAssigned
  | unknown
deriving DecidableEq

structure DutiesProvider where
  isValidatorInSyncCommittee : ℕ → UInt64 → Bool
  isEpochKnownForProposers : ℕ → Bool
  isValidatorProposerAtSlot : ℕ → UInt64 → Bool
  getVoluntaryExitDutyCount : ℕ → PublicKeyBytes → ℕ
  proposerAssignmentAtSlot : ℕ → PublicKeyBytes → DutyAssignment
  localProposerAssignmentAtSlot : ℕ → PublicKeyBytes → Bool
  ptcAssignmentAtSlot : ℕ → UInt64 → DutyAssignment

structure Chain where
  slotsPerEpoch : ℕ
  epochsPerSyncCommitteePeriod : ℕ
  syncCommitteeSize : ℕ
  slotClock : SlotClock
  forkSchedule : ForkSchedule
  spec : ChainSpec
  isSignature : Bytes → Bool
  slotsPerEpoch_pos : 0 < slotsPerEpoch

namespace Chain

variable (chain : Chain)

def epochOf (slot : ℕ) : ℕ := slot / chain.slotsPerEpoch

def syncCommitteePeriod (epoch : ℕ) : Except ValidationFailure ℕ :=
  if chain.epochsPerSyncCommitteePeriod = 0 then .error .syncCommitteePeriodCalculationFailure
  else .ok (epoch / chain.epochsPerSyncCommitteePeriod)

def lateSlotAllowance : ℕ := 2

def storedSlotCount (role : Role) : ℕ :=
  match role with
  | .proposerPreferences =>
    (1 + chain.spec.minSeedLookahead) * chain.slotsPerEpoch + 2 * chain.slotsPerEpoch
  | .committee | .aggregator | .proposer | .syncCommittee | .validatorRegistration
  | .voluntaryExit | .ptcAttester | .aggregatorCommittee =>
    2 * chain.slotsPerEpoch + lateSlotAllowance + 1

theorem storedSlotCount_pos (role : Role) : 0 < chain.storedSlotCount role := by
  have := chain.slotsPerEpoch_pos
  unfold storedSlotCount lateSlotAllowance
  cases role <;> simp only <;> omega

instance (role : Role) : NeZero (chain.storedSlotCount role) :=
  ⟨(chain.storedSlotCount_pos role).ne'⟩

end Chain

structure DutyContext (K : Type) extends ValidationContext K where
  chain : Chain
  role : Role
  validatorIndices : List UInt64
  receivedAt : ℕ
  currentSlot : Option ℕ
  duties : DutiesProvider

namespace DutyContext

variable {K : Type} (ctx : DutyContext K)

/-! ## Roles and forks -/

def validateRoleForFork (slot : ℕ) : Except ValidationFailure Unit :=
  let epoch := ctx.chain.epochOf slot
  let activeFork := ctx.chain.forkSchedule.activeFork epoch
  let currentFork := ctx.chain.spec.forkNameAtEpoch epoch
  match ctx.role with
  | .aggregatorCommittee =>
    if activeFork < .boole then .error (.roleNotActiveBeforeFork ctx.role activeFork .boole)
    else .ok ()
  | .aggregator | .syncCommittee =>
    if activeFork ≥ .boole then .error (.roleNotActiveAfterFork ctx.role activeFork .boole)
    else .ok ()
  | .validatorRegistration =>
    if currentFork.gloasEnabled then
      .error (.roleNotActiveAfterEthFork ctx.role currentFork .gloas)
    else .ok ()
  | .ptcAttester | .proposerPreferences =>
    if ¬ currentFork.gloasEnabled then
      .error (.roleNotActiveBeforeEthFork ctx.role currentFork .gloas)
    else .ok ()
  | .committee | .proposer | .voluntaryExit => .ok ()

/-! ## Assignments -/

def singleValidatorIndex : Except ValidationFailure UInt64 :=
  match ctx.validatorIndices with
  | [] => .error .noShareMetadata
  | index :: _ => .ok index

def validatorPublicKey (msgId : MessageId) : Except ValidationFailure PublicKeyBytes :=
  match msgId.dutyExecutor with
  | some (.validator publicKey) => .ok publicKey
  | _ => .error .unknownValidator

/-- A missing duty is tolerated for a RANDAO message in the first slot of an epoch
that the node has not fetched the proposers of. -/
def toleratesMissingProposer (slot : ℕ) (randaoMsg : Bool) : Except ValidationFailure Bool :=
  if randaoMsg ∧ ctx.chain.epochOf slot * ctx.chain.slotsPerEpoch = slot then
    match ctx.currentSlot with
    | none => .error .unexpectedFailure
    | some now =>
      .ok (decide (now ≤ slot) && ! ctx.duties.isEpochKnownForProposers (ctx.chain.epochOf slot))
  else .ok false

def validateProposerDuty (slot : ℕ) (randaoMsg : Bool) : Except ValidationFailure Unit := do
  if ← ctx.toleratesMissingProposer slot randaoMsg then .ok ()
  else
    let validatorIndex ← ctx.singleValidatorIndex
    Checks.require (ctx.duties.isValidatorProposerAtSlot slot validatorIndex) .noDuty

def validateBeaconDuty (msgId : MessageId) (slot : ℕ) (randaoMsg : Bool) :
    Except ValidationFailure Unit :=
  match ctx.role with
  | .proposer => ctx.validateProposerDuty slot randaoMsg
  | .proposerPreferences => do
      let publicKey ← validatorPublicKey msgId
      Checks.require (ctx.duties.proposerAssignmentAtSlot slot publicKey ≠ .notAssigned ∨
        ctx.duties.localProposerAssignmentAtSlot slot publicKey) .noDuty
  | .ptcAttester =>
    match ctx.validatorIndices with
    | [] => .ok ()
    | index :: _ =>
      Checks.require (ctx.duties.ptcAssignmentAtSlot slot index ≠ .notAssigned) .noDuty
  | .syncCommittee => do
      let period ← ctx.chain.syncCommitteePeriod (ctx.chain.epochOf slot)
      let validatorIndex ← ctx.singleValidatorIndex
      Checks.require (ctx.duties.isValidatorInSyncCommittee period validatorIndex) .noDuty
  | .committee | .aggregator | .validatorRegistration | .voluntaryExit | .aggregatorCommittee =>
    .ok ()

/-! ## Slot times -/

def clockErrorTolerance : ℕ := 50000000

def earlyMessageMargin : ℕ := 1000000000

def lateMessageMargin : ℕ := 3000000000

def earliestSlot (slot : ℕ) : ℕ :=
  if ctx.role = .proposerPreferences then
    (ctx.chain.epochOf slot - ctx.chain.spec.minSeedLookahead) * ctx.chain.slotsPerEpoch
  else slot

def messageEarliness (slot : ℕ) : Except ValidationFailure ℕ :=
  match ctx.chain.slotClock.startOf (ctx.earliestSlot slot) with
  | none => .error (.slotStartTimeNotFound (ctx.earliestSlot slot))
  | some slotStart => .ok (slotStart - ctx.receivedAt)

def ttl : ℕ :=
  match ctx.role with
  | .proposer | .syncCommittee | .ptcAttester => 1 + Chain.lateSlotAllowance
  | .committee | .aggregator | .validatorRegistration | .voluntaryExit | .aggregatorCommittee =>
    ctx.chain.slotsPerEpoch + Chain.lateSlotAllowance
  | .proposerPreferences => Chain.lateSlotAllowance

def messageLateness (slot : ℕ) : Except ValidationFailure ℕ :=
  match ctx.chain.slotClock.startOf (slot + ctx.ttl) with
  | none => .error (.slotStartTimeNotFound slot)
  | some deadline => .ok (ctx.receivedAt - (deadline + lateMessageMargin))

def validateSlotTime (slot : ℕ) : Except ValidationFailure Unit := do
  let earliness ← ctx.messageEarliness slot
  Checks.require (earliness ≤ clockErrorTolerance + earlyMessageMargin)
    (.earlySlotMessage earliness)
  let lateness ← ctx.messageLateness slot
  Checks.require (lateness ≤ clockErrorTolerance) (.lateSlotMessage lateness)

/-! ## The number of duties -/

def anyInSyncCommittee (slot : ℕ) : Except ValidationFailure Bool :=
  if ctx.validatorIndices.length < ctx.chain.slotsPerEpoch / 2 then do
    let period ← ctx.chain.syncCommitteePeriod (ctx.chain.epochOf slot)
    return ctx.validatorIndices.any (ctx.duties.isValidatorInSyncCommittee period)
  else .ok false

def dutyLimit (msgId : MessageId) (slot : ℕ) : Except ValidationFailure (Option ℕ) :=
  match ctx.role with
  | .voluntaryExit => do
      let publicKey ← validatorPublicKey msgId
      return some (ctx.duties.getVoluntaryExitDutyCount slot publicKey)
  | .aggregator | .validatorRegistration | .ptcAttester => .ok (some 2)
  | .committee | .aggregatorCommittee => do
      let inSyncCommittee ← ctx.anyInSyncCommittee slot
      return some (if inSyncCommittee then ctx.chain.slotsPerEpoch
        else min ctx.chain.slotsPerEpoch (2 * ctx.validatorIndices.length))
  | .proposer | .syncCommittee => .ok none
  | .proposerPreferences => .ok (some ctx.chain.slotsPerEpoch)

/-- The limit applies to the first message of a duty, which is not counted yet. -/
def checkDutyCount (msgId : MessageId) (slot : ℕ) (firstMessage : Bool) (dutyCount : ℕ) :
    Except ValidationFailure Unit := do
  match ← ctx.dutyLimit msgId slot with
  | none => .ok ()
  | some limit =>
    Checks.require (firstMessage → dutyCount < limit)
      (.excessiveDutyCount dutyCount limit ctx.role)

def validateDutyCount {n : ℕ} (msgId : MessageId) (slot : ℕ) (o : OperatorState n) :
    Except ValidationFailure Unit :=
  ctx.checkDutyCount msgId slot (o.isFirstMessageForDuty slot)
    (o.getDutyCount (ctx.chain.epochOf slot) ctx.chain.slotsPerEpoch)

end DutyContext

end Anchor
