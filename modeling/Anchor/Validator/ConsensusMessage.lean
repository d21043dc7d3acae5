import Mathlib
import Anchor.Library.Checks
import Anchor.Qbft.Types
import Anchor.Validator.Failure

/-!
# Validation of consensus messages

The stateless checks of the message validator on a consensus message: its
structure, its signers, its semantics, and the signatures of the message and of
its justifications.  The justifications of a justification are checked as well,
but no further.  The checks against the clock and against the duty state only
reject more; they follow in the modules on duties.
-/

namespace Anchor

open Ssz

structure Crypto (K : Type) where
  hashData : Bytes → Hash256
  verify : K → Bytes → Bytes → Bool

structure ValidationContext (K : Type) where
  crypto : Crypto K
  committeeMembers : IndexSet OperatorId
  operatorPubKeys : OperatorId → Option K

def validateStructureAndRole (m : SignedSSVMessage) : Except ValidationFailure Role :=
  match m.validate with
  | .error e => .error (.ofSignedSSVMessageError e)
  | .ok () =>
    match m.ssvMessage.msgId.role with
    | none => .error .invalidRole
    | some role => .ok role

namespace ValidationContext

variable {K : Type} (ctx : ValidationContext K)

def verifyMessageSignature (m : SignedSSVMessage) (key : K) (signature : VariableList UInt8 256) :
    Except ValidationFailure Unit :=
  if ctx.crypto.verify key m.ssvMessage.asSszBytes signature.toList then .ok ()
  else .error .signatureVerificationFailed

def lookupKey (operatorId : OperatorId) : Except ValidationFailure K :=
  match ctx.operatorPubKeys operatorId with
  | none => .error (.operatorNotFound operatorId)
  | some key => .ok key

def verifyMessageSignatures (m : SignedSSVMessage) : Except ValidationFailure Unit :=
  match Checks.mapAll ctx.lookupKey m.operatorIds.toList with
  | .error e => .error e
  | .ok keys =>
    if m.signatures.toList.length ≠ keys.length then .error .signatureCountMismatch
    else
      Checks.forEach (fun p => ctx.verifyMessageSignature m p.2 p.1)
        (m.signatures.toList.zip keys)

/-- Check a list of justifications: each decodes and is signed, and `inner` accepts
the consensus message it carries. -/
def validateJustificationList {n : ℕ} (inner : Bytes → Except ValidationFailure Unit)
    (justifications : ByteLists n 13) : Except ValidationFailure Unit :=
  Checks.forEach (fun bytes =>
    match SignedSSVMessage.fromSszBytes bytes.toList with
    | none => .error .malformedJustifications
    | some signedMessage =>
      match ctx.verifyMessageSignatures signedMessage with
      | .error e => .error e
      | .ok () => inner signedMessage.ssvMessage.data.toList) justifications.toList

def validateJustificationsWith (inner : Bytes → Except ValidationFailure Unit) (m : QbftMessage) :
    Except ValidationFailure Unit :=
  if ¬ m.prepareJustification.toList.isEmpty ∧ m.qbftMessageType ≠ .proposal then
    .error .unexpectedPrepareJustifications
  else if ¬ m.roundChangeJustification.toList.isEmpty ∧ m.qbftMessageType ≠ .proposal ∧
      m.qbftMessageType ≠ .roundChange then
    .error .unexpectedRoundChangeJustifications
  else
    match ctx.validateJustificationList inner m.prepareJustification with
    | .error e => .error e
    | .ok () => ctx.validateJustificationList inner m.roundChangeJustification

/-- `validate_justifications` without a look at the inner justifications. -/
def validateInnerJustifications : QbftMessage → Except ValidationFailure Unit :=
  ctx.validateJustificationsWith fun _ => .ok ()

/-- `validate_justifications` with a look at the inner justifications. -/
def validateJustifications : QbftMessage → Except ValidationFailure Unit :=
  ctx.validateJustificationsWith fun data =>
    match QbftMessage.fromSszBytes data with
    | none => .error .malformedJustifications
    | some m => ctx.validateInnerJustifications m

def validateSignersAndFullData (signed : SignedSSVMessage) (m : QbftMessage) :
    Except ValidationFailure Unit :=
  let signers := signed.operatorIds.toList.length
  let requiredQuorum := quorumSize ctx.committeeMembers.len
  if signers > 1 ∧ m.qbftMessageType ≠ .commit then
    .error (.nonDecidedWithMultipleSigners signers 1)
  else if signers > 1 ∧ signers < requiredQuorum then
    .error (.decidedNotEnoughSigners signers requiredQuorum)
  else if ¬ signed.fullData.toList.isEmpty ∧
      (m.qbftMessageType = .prepare ∨ m.qbftMessageType = .commit ∧ signers = 1) then
    .error .prepareOrCommitWithFullData
  else if ¬ signed.fullData.toList.isEmpty ∧
      ctx.crypto.hashData signed.fullData.toList ≠ m.root then
    .error .invalidHash
  else .ok ()

/-- The rules on the round and on the identifier.  The caller has rejected
messages without a role. -/
def validateRoundAndIdentifier (signed : SignedSSVMessage) (m : QbftMessage) :
    Except ValidationFailure Unit :=
  if m.round = 0 then .error .zeroRound
  else
    match signed.ssvMessage.msgId.role.bind Role.maxRound with
    | none => .error .unexpectedConsensusMessage
    | some maxRound =>
      if m.round > maxRound then .error .roundTooHigh
      else if m.identifier ≠ signed.ssvMessage.msgId.toVariableList then
        .error (.mismatchedIdentifier m.identifier.toList signed.ssvMessage.msgId.toList)
      else .ok ()

def validateConsensusMessageSemantics (signed : SignedSSVMessage) (m : QbftMessage) :
    Except ValidationFailure Unit :=
  match ctx.validateSignersAndFullData signed m with
  | .error e => .error e
  | .ok () =>
    match validateRoundAndIdentifier signed m with
    | .error e => .error e
    | .ok () => ctx.validateJustifications m

def validateConsensusMessage (signed : SignedSSVMessage) :
    Except ValidationFailure QbftMessage :=
  match QbftMessage.fromSszBytes signed.ssvMessage.data.toList with
  | none => .error .undecodableMessageData
  | some m =>
    match ctx.validateConsensusMessageSemantics signed m with
    | .error e => .error e
    | .ok () =>
      match ctx.verifyMessageSignatures signed with
      | .error e => .error e
      | .ok () => .ok m

def validateSsvMessage (signed : SignedSSVMessage) : Except ValidationFailure QbftMessage :=
  match validateStructureAndRole signed with
  | .error e => .error e
  | .ok _ =>
    if signed.operatorIds.toList.any fun signer => ! ctx.committeeMembers.contains signer then
      .error .signerNotInCommittee
    else ctx.validateConsensusMessage signed

/-- A message as the receiver hands it to an instance: it passed the validator
as a consensus message. -/
structure Validated (w : WrappedQbftMessage) : Prop where
  msgType_eq : w.signedMessage.ssvMessage.msgType = .ssvConsensusMsgType
  validate_eq : ctx.validateSsvMessage w.signedMessage = .ok w.qbftMessage

instance (w : WrappedQbftMessage) : Decidable (ctx.Validated w) :=
  decidable_of_iff (w.signedMessage.ssvMessage.msgType = .ssvConsensusMsgType ∧
    ctx.validateSsvMessage w.signedMessage = .ok w.qbftMessage)
    ⟨fun h => ⟨h.1, h.2⟩, fun h => ⟨h.msgType_eq, h.validate_eq⟩⟩

variable {ctx}

/-! ## What a validated message satisfies -/

theorem validateStructureAndRole_eq_ok {m : SignedSSVMessage} {role : Role}
    (h : validateStructureAndRole m = .ok role) :
    m.WellFormed ∧ m.ssvMessage.msgId.role = some role := by
  unfold validateStructureAndRole at h
  split at h
  · cases h
  · rename_i hvalidate
    split at h
    · cases h
    · rename_i role' hrole
      cases h
      exact ⟨SignedSSVMessage.wellFormed_of_validate hvalidate, hrole⟩

variable {signed : SignedSSVMessage} {m : QbftMessage}

theorem validateSignersAndFullData_eq_ok
    (h : ctx.validateSignersAndFullData signed m = .ok ()) :
    (1 < signed.operatorIds.toList.length → m.qbftMessageType = .commit) ∧
      (signed.fullData.toList ≠ [] → ctx.crypto.hashData signed.fullData.toList = m.root) := by
  unfold validateSignersAndFullData at h
  simp only at h
  split_ifs at h with hmulti hquorum hdata hhash
  constructor
  · intro hlen
    by_contra hne
    exact hmulti ⟨hlen, hne⟩
  · intro hne
    by_contra hroot
    exact hhash ⟨by simpa using hne, hroot⟩

theorem fullData_eq_nil_of_vote
    (h : ctx.validateSignersAndFullData signed m = .ok ())
    (hvote : m.qbftMessageType = .prepare ∨
      m.qbftMessageType = .commit ∧ signed.operatorIds.toList.length = 1) :
    signed.fullData.toList = [] := by
  unfold validateSignersAndFullData at h
  simp only at h
  split_ifs at h with hmulti hquorum hdata hhash
  by_contra hne
  exact hdata ⟨by simpa using hne, hvote⟩

theorem validateRoundAndIdentifier_eq_ok
    (h : validateRoundAndIdentifier signed m = .ok ()) :
    0 < m.round.toNat ∧ m.identifier = signed.ssvMessage.msgId.toVariableList := by
  unfold validateRoundAndIdentifier at h
  split at h
  · cases h
  · rename_i hround
    split at h
    · cases h
    · split_ifs at h with hmax hid
      refine ⟨?_, not_not.mp hid⟩
      rw [Nat.pos_iff_ne_zero]
      intro hzero
      exact hround (UInt64.toNat_inj.mp (by simpa using hzero))

variable {inner : Bytes → Except ValidationFailure Unit}

theorem validateJustificationList_eq_ok {n : ℕ}
    {justifications : ByteLists n 13}
    (h : ctx.validateJustificationList inner justifications = .ok ()) :
    ∀ bytes ∈ justifications.toList, ∃ signed,
      SignedSSVMessage.fromSszBytes bytes.toList = some signed ∧
        ctx.verifyMessageSignatures signed = .ok () ∧
          inner signed.ssvMessage.data.toList = .ok () := by
  intro bytes hbytes
  have hcheck := Checks.forEach_eq_ok_iff.mp h bytes hbytes
  split at hcheck
  · cases hcheck
  · rename_i signed hsigned
    split at hcheck
    · cases hcheck
    · rename_i hverify
      exact ⟨signed, hsigned, hverify, hcheck⟩

theorem validateJustificationsWith_eq_ok (h : ctx.validateJustificationsWith inner m = .ok ()) :
    (m.qbftMessageType ≠ .proposal → m.prepareJustification.toList = []) ∧
      (m.qbftMessageType ≠ .proposal → m.qbftMessageType ≠ .roundChange →
        m.roundChangeJustification.toList = []) ∧
      ctx.validateJustificationList inner m.prepareJustification = .ok () ∧
      ctx.validateJustificationList inner m.roundChangeJustification = .ok () := by
  unfold validateJustificationsWith at h
  split_ifs at h with hprepare hroundChange
  split at h
  · cases h
  · rename_i hlist
    refine ⟨?_, ?_, hlist, h⟩
    · intro htype
      by_contra hne
      exact hprepare ⟨by simpa using hne, htype⟩
    · intro htype htype'
      by_contra hne
      exact hroundChange ⟨by simpa using hne, htype, htype'⟩

theorem validateConsensusMessage_eq_ok
    (h : ctx.validateConsensusMessage signed = .ok m) :
    QbftMessage.fromSszBytes signed.ssvMessage.data.toList = some m ∧
      ctx.validateSignersAndFullData signed m = .ok () ∧
      validateRoundAndIdentifier signed m = .ok () ∧
      ctx.validateJustifications m = .ok () ∧ ctx.verifyMessageSignatures signed = .ok () := by
  unfold validateConsensusMessage at h
  split at h
  · cases h
  · rename_i m' hdecode
    split at h
    · cases h
    · rename_i hsemantics
      split at h
      · cases h
      · rename_i hverify
        cases h
        unfold validateConsensusMessageSemantics at hsemantics
        split at hsemantics
        · cases hsemantics
        · rename_i hsigners
          split at hsemantics
          · cases hsemantics
          · rename_i hround
            exact ⟨hdecode, hsigners, hround, hsemantics, hverify⟩

theorem validateSsvMessage_eq_ok
    (h : ctx.validateSsvMessage signed = .ok m) :
    signed.WellFormed ∧ (∀ s ∈ signed.operatorIds.toList, s ∈ ctx.committeeMembers.toList) ∧
      ctx.validateConsensusMessage signed = .ok m := by
  unfold validateSsvMessage at h
  split at h
  · cases h
  · rename_i role hrole
    split at h
    · cases h
    · rename_i hcommittee
      exact ⟨(validateStructureAndRole_eq_ok hrole).1, by simpa using hcommittee, h⟩

end ValidationContext

end Anchor
