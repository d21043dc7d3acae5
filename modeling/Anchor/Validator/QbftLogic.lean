import Mathlib
import Anchor.Validator.Duty
import Anchor.Validator.Observed

/-!
# Consensus messages and the duty state

The rules on consensus messages that depend on what was accepted before: one
message of each type in a round, no step back to an earlier round or slot, no
second proposal with other data, and no decided message with signers seen
before.  The checks create empty entries for the signers they look up, and the
accepted message is recorded for all its signers at the end.
-/

namespace Anchor

open Ssz

namespace DutyContext

variable {K : Type} (ctx : DutyContext K)

/-! ## Leaders and rounds -/

/-- The leader of a round; the sum is a machine word. -/
def roundRobinProposer (height round : UInt64) : Except ValidationFailure OperatorId :=
  let committee := ctx.committeeMembers.toList.insertionSort (· ≤ ·)
  let epoch := ctx.chain.epochOf height.toNat
  let ethEpoch := if ctx.chain.forkSchedule.activeFork epoch ≥ .boole then epoch else 0
  let index := (height.toNat % committee.length + round.toNat - firstRound.toNat + ethEpoch) %
    2 ^ 64 % committee.length
  match committee[index]? with
  | none => .error .nonExistentCommitteeID
  | some leader => .ok leader

def nanosPerSec : ℕ := 1000000000

def quickTimeoutThreshold : ℕ := 8

def quickTimeout : ℕ := 2

def slowTimeout : ℕ := 120

/-- The round that the clock suggests: eight rounds of two seconds, then rounds of
two minutes. -/
def currentEstimatedRound (sinceSlotStart : ℕ) : ℕ :=
  let currentQuickRound := firstRound.toNat + sinceSlotStart / nanosPerSec / quickTimeout
  if currentQuickRound ≤ quickTimeoutThreshold then currentQuickRound
  else
    let sinceFirstSlowRound := sinceSlotStart - quickTimeout * quickTimeoutThreshold * nanosPerSec
    quickTimeoutThreshold + firstRound.toNat + sinceFirstSlowRound / nanosPerSec / slowTimeout

def maxAllowedRoundsFuture : ℕ := 3

def validateRoundInAllowedSpread (m : QbftMessage) : Except ValidationFailure Unit :=
  match ctx.chain.slotClock.startOf m.height.toNat with
  | none => .error (.slotStartTimeNotFound m.height.toNat)
  | some slotStart =>
    let sinceSlotStart := ctx.receivedAt - slotStart
    let highestAllowed := currentEstimatedRound sinceSlotStart + maxAllowedRoundsFuture
    if highestAllowed ≥ 2 ^ 64 then .error .roundOverflow
    else if m.round < firstRound ∨ m.round.toNat > highestAllowed then
      .error (.estimatedRoundNotInAllowedSpread m.round firstRound.toNat highestAllowed
        sinceSlotStart ctx.role)
    else .ok ()

/-! ## The rules against the duty state -/

/-- The rules for one signer that already has an entry for the slot. -/
def validateSignerState (signed : SignedSSVMessage) (m : QbftMessage) (st : SignerState) :
    Except ValidationFailure Unit :=
  let signers := signed.operatorIds.toList
  if signers.length = 1 then
    if m.round < st.round then .error (.roundAlreadyAdvanced m.round st.round)
    else if m.round = st.round then
      if ¬ signed.fullData.toList.isEmpty ∧ st.proposalHash.any (· ≠ m.root) then
        .error .differentProposalData
      else st.messageCounts.validateConsensusMessageLimits signers.length m.qbftMessageType
    else .ok ()
  else if signers.length > 1 ∧ st.hasSeenSigners ctx.crypto.hashData signers then
    .error .decidedWithSameSigners
  else .ok ()

def validateSigner (signed : SignedSSVMessage) (m : QbftMessage) (st : Option SignerState) :
    Except ValidationFailure Unit :=
  match st with
  | none => .ok ()
  | some st => ctx.validateSignerState signed m st

def validateLeader (signed : SignedSSVMessage) (m : QbftMessage) : Except ValidationFailure Unit :=
  if m.qbftMessageType = .proposal then
    match signed.operatorIds.toList with
    | [] => .error .noSigners
    | signer :: _ => do
        let leader ← ctx.roundRobinProposer m.height m.round
        Checks.require (signer = leader) (.signerNotLeader signer leader)
  else .ok ()

def validateSpread (signed : SignedSSVMessage) (m : QbftMessage) : Except ValidationFailure Unit :=
  if signed.operatorIds.toList.length = 1 then ctx.validateRoundInAllowedSpread m else .ok ()

def validateAdvance (m : QbftMessage) (maxSlot : ℕ) : Except ValidationFailure Unit :=
  Checks.require (maxSlot ≤ m.height.toNat) (.slotAlreadyAdvanced m.height.toNat maxSlot)

section Stateful

variable {n : ℕ} (signed : SignedSSVMessage) (m : QbftMessage)

open DutyState in
def validateQbftLogic : Checks.Stateful (DutyState n) ValidationFailure Unit := do
  ctx.validateLeader signed m
  signed.operatorIds.toList.forM fun signer => do
    let operatorState ← getOrCreateOperator signer
    ctx.validateSigner signed m (operatorState.getSignerState m.height.toNat)
  ctx.validateSpread signed m

open DutyState in
/-- The signers of a committee role need not advance slot by slot. -/
def validateSlotAdvance : Checks.Stateful (DutyState n) ValidationFailure Unit :=
  if ctx.role.isCommitteeRole then pure ()
  else
    signed.operatorIds.toList.forM fun signer => do
      let operatorState ← getOrCreateOperator signer
      validateAdvance m operatorState.maxSlot

open DutyState in
def validateQbftMessageByDutyLogic : Checks.Stateful (DutyState n) ValidationFailure Unit := do
  ctx.validateSlotAdvance signed m
  ctx.validateBeaconDuty signed.ssvMessage.msgId m.height.toNat false
  ctx.validateSlotTime m.height.toNat
  signed.operatorIds.toList.forM fun signer => do
    let operatorState ← getOrCreateOperator signer
    ctx.validateDutyCount signed.ssvMessage.msgId m.height.toNat operatorState

omit m

def checkConsensusMessage : Checks.Stateful (DutyState n) ValidationFailure QbftMessage := do
  match QbftMessage.fromSszBytes signed.ssvMessage.data.toList with
  | none => throw .undecodableMessageData
  | some m =>
    ctx.validateRoleForFork m.height.toNat
    ctx.validateConsensusMessageSemantics signed m
    ctx.validateQbftLogic signed m
    ctx.validateQbftMessageByDutyLogic signed m
    ctx.verifyMessageSignatures signed
    return m

/-- An accepted message is recorded for all its signers. -/
def validateConsensusMessage [NeZero n] :
    Checks.Stateful (DutyState n) ValidationFailure QbftMessage := do
  let m ← ctx.checkConsensusMessage signed
  modify (DutyState.updateForConsensusMessage ctx.crypto.hashData signed m)
  return m

end Stateful

end DutyContext

end Anchor
