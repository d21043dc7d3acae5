import Mathlib
import Anchor.Validator.Duty

/-!
# Partial signature packets and the duty state

The rules on a packet of partial signatures: its signer, its kind and its
validators, one counted packet of each phase for a slot, and bounds on the number
of signatures that depend on the role.
-/

namespace Anchor

open Ssz

namespace DutyContext

variable {K : Type} (ctx : DutyContext K)

/-! ## Semantics -/

def partialSignatureTypeMatchesRole (kind : PartialSignatureKind) : Role → Bool
  | .committee => kind = .postConsensus
  | .ptcAttester => kind = .ptcAttester
  | .proposerPreferences => kind = .proposerPreferences ∨ kind = .requestAuth
  | .aggregator => kind = .postConsensus ∨ kind = .selectionProofPartialSig
  | .proposer => kind = .postConsensus ∨ kind = .randaoPartialSig
  | .syncCommittee => kind = .postConsensus ∨ kind = .contributionProofs
  | .validatorRegistration => kind = .validatorRegistration
  | .voluntaryExit => kind = .voluntaryExit
  | .aggregatorCommittee => kind = .postConsensus ∨ kind = .aggregatorCommitteePartialSig

def isRequestAuthBatchRoleKind (role : Role) (kind : PartialSignatureKind) : Bool :=
  role = .proposerPreferences ∧ kind = .requestAuth

def isGloasProposerPost (m : PartialSignatureMessages) : Bool :=
  ctx.role = .proposer ∧ m.kind = .postConsensus ∧
    (ctx.chain.spec.forkNameAtEpoch (ctx.chain.epochOf m.slot.toNat)).gloasEnabled

/-- The packets of several signatures for one validator name that validator only. -/
def namesOneValidator (m : PartialSignatureMessages) : Bool :=
  match m.messages.toList with
  | [] => true
  | first :: rest => rest.all fun x => x.validatorIndex = first.validatorIndex

/-- Committee roles and nodes without the index of the validator take any index. -/
def knowsValidators (m : PartialSignatureMessages) : Bool :=
  ctx.role.isCommitteeRole || ctx.validatorIndices.isEmpty ||
    m.messages.toList.all fun x => ctx.validatorIndices.contains x.validatorIndex

def packetSigner (m : PartialSignatureMessages) : Except ValidationFailure OperatorId :=
  match m.validate with
  | .error .empty => .error .noPartialSignatureMessages
  | .error .inconsistentSigners => .error .inconsistentSigners
  | .error .zeroSigner => .error .zeroSigner
  | .ok signer => .ok signer

def validatePartialSignatureMessageSemantics (signed : SignedSSVMessage)
    (m : PartialSignatureMessages) : Except ValidationFailure OperatorId :=
  match signed.operatorIds.toList with
  | [signer] => do
      Checks.require signed.fullData.toList.isEmpty .fullDataNotInConsensusMessage
      Checks.require (partialSignatureTypeMatchesRole m.kind ctx.role)
        .partialSignatureTypeRoleMismatch
      let innerSigner ← packetSigner m
      Checks.require (innerSigner = signer) .inconsistentSigners
      Checks.require (isRequestAuthBatchRoleKind ctx.role m.kind ∨ ctx.isGloasProposerPost m →
        namesOneValidator m) .inconsistentValidatorIndices
      Checks.require (ctx.knowsValidators m) .validatorIndexMismatch
      return signer
  | _ => .error .partialSigOneSigner

/-- Registrations are ignored after the Gloas epoch. -/
def validateRegistration : Except ValidationFailure Unit :=
  match ctx.chain.spec.gloasForkEpoch, ctx.currentSlot with
  | some gloasEpoch, some currentSlot =>
    if ctx.role = .validatorRegistration ∧ ctx.chain.epochOf currentSlot > gloasEpoch then
      .error .validatorRegistrationRetired
    else .ok ()
  | _, _ => .ok ()

/-! ## The number of signatures -/

def syncCommitteeSubnetCount : ℕ := 4

def maxSignaturesInSyncCommittee : ℕ := 13

def maxMessageCount (m : PartialSignatureMessages) : ℕ :=
  let validatorCount := ctx.validatorIndices.length
  match ctx.role with
  | .committee => min (2 * validatorCount) (validatorCount + ctx.chain.syncCommitteeSize)
  | .syncCommittee => maxSignaturesInSyncCommittee
  | .aggregatorCommittee =>
    min (5 * validatorCount)
      (validatorCount + syncCommitteeSubnetCount * ctx.chain.syncCommitteeSize)
  | .proposerPreferences =>
    if isRequestAuthBatchRoleKind ctx.role m.kind then maxRequestAuthDistinctRoots else 1
  | .proposer => if ctx.isGloasProposerPost m then 2 else 1
  | .aggregator | .validatorRegistration | .voluntaryExit | .ptcAttester => 1

def maxOccurrences : Option ℕ :=
  match ctx.role with
  | .committee => some 2
  | .aggregatorCommittee => some 5
  | _ => none

def firstExcess (limit : ℕ) : List UInt64 → List UInt64 → Option UInt64
  | _, [] => none
  | before, index :: rest =>
    if before.count index + 1 > limit then some index
    else firstExcess limit (index :: before) rest

def validateOccurrences (m : PartialSignatureMessages) : Except ValidationFailure Unit :=
  match ctx.maxOccurrences with
  | none => .ok ()
  | some limit =>
    match firstExcess limit [] (m.messages.toList.map PartialSignatureMessage.validatorIndex) with
    | none => .ok ()
    | some index => .error (.tooManyValidatorIndexOccurrences index (limit + 1) limit)

def validateMessageCount (m : PartialSignatureMessages) : Except ValidationFailure Unit := do
  let messageCount := m.messages.toList.length
  Checks.require (messageCount ≤ ctx.maxMessageCount m)
    (.tooManyPartialSignatureMessages messageCount (ctx.maxMessageCount m))
  ctx.validateOccurrences m

/-! ## The rules against the duty state -/

def validateMonotonicSlot (m : PartialSignatureMessages) (maxSlot : ℕ) :
    Except ValidationFailure Unit :=
  Checks.require (¬ (ctx.role.monotonicSlotRole ∧ maxSlot ≠ 0 ∧ maxSlot > m.slot.toNat))
    (.slotAlreadyAdvanced m.slot.toNat maxSlot)

def validateCounts (m : PartialSignatureMessages) (st : Option SignerState) :
    Except ValidationFailure Unit :=
  match st with
  | none => .ok ()
  | some st => st.messageCounts.validatePartialSignatureMessage m.kind

def verifySingleSigner (signed : SignedSSVMessage) (signer : OperatorId) :
    Except ValidationFailure Unit :=
  match ctx.operatorPubKeys signer, signed.signatures.toList with
  | none, _ => .error (.operatorNotFound signer)
  | some _, [] => .error .noSignatures
  | some key, signature :: _ => ctx.verifyMessageSignature signed key signature

section Stateful

variable {n : ℕ} (signed : SignedSSVMessage) (m : PartialSignatureMessages)

def validateOperator (o : OperatorState n) : Except ValidationFailure Unit := do
  ctx.validateMonotonicSlot m o.maxSlot
  ctx.validateBeaconDuty signed.ssvMessage.msgId m.slot.toNat (m.kind = .randaoPartialSig)
  validateCounts m (o.getSignerState m.slot.toNat)
  ctx.validateSlotTime m.slot.toNat
  ctx.validateDutyCount signed.ssvMessage.msgId m.slot.toNat o
  ctx.validateMessageCount m

open DutyState in
def validatePartialSigMessagesByDutyLogic (signer : OperatorId) :
    Checks.Stateful (DutyState n) ValidationFailure Unit := do
  let operatorState ← getOrCreateOperator signer
  ctx.validateOperator signed m operatorState

omit m

def checkPartialSignatureMessage :
    Checks.Stateful (DutyState n) ValidationFailure (PartialSignatureMessages × OperatorId) := do
  match PartialSignatureMessages.fromSszBytes ctx.chain.isSignature
      signed.ssvMessage.data.toList with
  | none => throw .undecodableMessageData
  | some m =>
    ctx.validateRoleForFork m.slot.toNat
    let signer ← ctx.validatePartialSignatureMessageSemantics signed m
    ctx.validateRegistration
    ctx.validatePartialSigMessagesByDutyLogic signed m signer
    ctx.verifySingleSigner signed signer
    return (m, signer)

/-- An accepted packet is recorded, unless its signing roots exceed their budget. -/
def validatePartialSignatureMessage [NeZero n] :
    Checks.Stateful (DutyState n) ValidationFailure PartialSignatureMessages := do
  let (m, signer) ← ctx.checkPartialSignatureMessage signed
  DutyState.updateForPartialSignature m signer
  return m

end Stateful

end DutyContext

end Anchor
