import Mathlib
import Anchor.Qbft.Encoding
import Anchor.Validator.ConsensusMessage

/-!
# Messages that pass the validator

What a holder of signing keys can get past the validator: the converse of the
facts about validated messages, for messages with one signer.
-/

namespace Anchor

open Ssz

/-- The signing keys of the committee: signatures have the size of RSA signatures
and verify under the public keys of the context. -/
structure Signing {K : Type} (ctx : ValidationContext K) where
  sign : OperatorId → Bytes → VariableList UInt8 256
  length_sign : ∀ i bs, (sign i bs).toList.length = rsaSignatureSize
  verify_sign : ∀ i ∈ ctx.committeeMembers.toList, ∃ key, ctx.operatorPubKeys i = some key ∧
    ∀ bs, ctx.crypto.verify key bs (sign i bs).toList = true

namespace Signing

variable {K : Type} {ctx : ValidationContext K} (S : Signing ctx)

def signed (msgId : MessageId) (i : OperatorId) (msg : QbftMessage)
    (fullData : VariableList UInt8 ssvMessageFullDataLen) : SignedSSVMessage :=
  ⟨⟨[S.sign i (SSVMessage.consensus msgId msg).asSszBytes], by simp⟩,
    ⟨[i], SignedSSVMessage.length_singleton_le i⟩, SSVMessage.consensus msgId msg, fullData⟩

section Signed

variable {msgId : MessageId} {i : OperatorId} {msg : QbftMessage}
  {fullData : VariableList UInt8 ssvMessageFullDataLen}

@[simp] theorem operatorIds_signed : (S.signed msgId i msg fullData).operatorIds.toList = [i] := rfl

@[simp] theorem fullData_signed : (S.signed msgId i msg fullData).fullData = fullData := rfl

@[simp] theorem ssvMessage_signed :
    (S.signed msgId i msg fullData).ssvMessage = SSVMessage.consensus msgId msg := rfl

@[simp] theorem withoutFullData_signed : (S.signed msgId i msg fullData).withoutFullData =
    S.signed msgId i msg VariableList.empty := rfl

theorem length_signed : (S.signed msgId i msg fullData).asSszBytes.length =
    352 + msg.asSszBytes.length + fullData.toList.length := by
  have hsigs : (ByteLists.encode (S.signed msgId i msg fullData).signatures).length =
      4 + rsaSignatureSize := by
    refine (SignedSSVMessage.length_encode_of_single rfl).trans ?_
    rw [S.length_sign]
  have hsize : rsaSignatureSize = 256 := rfl
  have hdata : (SSVMessage.consensus msgId msg).data.toList.length = msg.asSszBytes.length := rfl
  rw [SignedSSVMessage.length_asSszBytes, hsigs, operatorIds_signed, ssvMessage_signed, hdata,
    fullData_signed, List.length_singleton]
  omega

theorem validate_signed (hi : i.val ≠ 0) : (S.signed msgId i msg fullData).validate = .ok () := by
  have hsize : SignedSSVMessage.firstWrongSize 0
      (S.signed msgId i msg fullData).signatures.toList = none := by
    simp [signed, SignedSSVMessage.firstWrongSize, S.length_sign]
  have hlength : (S.signed msgId i msg fullData).signatures.toList.length = 1 := rfl
  have hne : (S.signed msgId i msg fullData).signatures.toList ≠ [] :=
    List.ne_nil_of_length_pos (by omega)
  simp [SignedSSVMessage.validate, hsize, hlength, hne, hi, SSVMessage.validate_consensus]

theorem verify_signed (hi : i ∈ ctx.committeeMembers.toList) :
    ctx.verifyMessageSignatures (S.signed msgId i msg fullData) = .ok () := by
  obtain ⟨key, hkey, hverify⟩ := S.verify_sign i hi
  have hkeys : Checks.mapAll ctx.lookupKey [i] = .ok [key] := by
    simp [Checks.mapAll, ValidationContext.lookupKey, hkey]
  unfold ValidationContext.verifyMessageSignatures
  rw [operatorIds_signed, hkeys]
  simp [signed, Checks.forEach, ValidationContext.verifyMessageSignature, hverify]

end Signed

end Signing

namespace ValidationContext

variable {K : Type} {ctx : ValidationContext K}

variable {inner : Bytes → Except ValidationFailure Unit}

theorem validateJustificationList_of_forall {n : ℕ}
    {justifications : ByteLists n 13}
    (h : ∀ bytes ∈ justifications.toList, ∃ m : SignedSSVMessage, bytes.toList = m.asSszBytes ∧
      ctx.verifyMessageSignatures m = .ok () ∧ inner m.ssvMessage.data.toList = .ok ()) :
    ctx.validateJustificationList inner justifications = .ok () := by
  apply Checks.forEach_eq_ok_iff.mpr
  intro bytes hbytes
  obtain ⟨m, hm, hverify, hinner⟩ := h bytes hbytes
  rw [hm, SignedSSVMessage.fromSszBytes_asSszBytes]
  simp only [hverify, hinner]

theorem validateJustificationsWith_of_list
    {m : QbftMessage}
    (hprepare : m.qbftMessageType ≠ .proposal → m.prepareJustification.toList = [])
    (hroundChange : m.qbftMessageType ≠ .proposal → m.qbftMessageType ≠ .roundChange →
      m.roundChangeJustification.toList = [])
    (hlist : ctx.validateJustificationList inner m.prepareJustification = .ok ())
    (hlist' : ctx.validateJustificationList inner m.roundChangeJustification = .ok ()) :
    ctx.validateJustificationsWith inner m = .ok () := by
  unfold validateJustificationsWith
  rw [if_neg, if_neg, hlist]
  · exact hlist'
  · rintro ⟨hne, htype, htype'⟩
    exact hne (by simp [hroundChange htype htype'])
  · rintro ⟨hne, htype⟩
    exact hne (by simp [hprepare htype])

theorem validateJustificationsWith_of_plain
    {m : QbftMessage} (hprepare : m.prepareJustification.toList = [])
    (hroundChange : m.roundChangeJustification.toList = []) :
    ctx.validateJustificationsWith inner m = .ok () := by
  apply validateJustificationsWith_of_list (fun _ => hprepare) (fun _ _ => hroundChange)
  · rw [validateJustificationList, hprepare]
    rfl
  · rw [validateJustificationList, hroundChange]
    rfl

theorem validated_signed (S : Signing ctx) {msgId : MessageId} {i : OperatorId}
    {msg : QbftMessage} {fullData : VariableList UInt8 ssvMessageFullDataLen} {role : Role}
    (hi : i ∈ ctx.committeeMembers.toList) (hzero : i.val ≠ 0) (hrole : msgId.role = some role)
    (hsigners : ctx.validateSignersAndFullData (S.signed msgId i msg fullData) msg = .ok ())
    (hround : validateRoundAndIdentifier (S.signed msgId i msg fullData) msg = .ok ())
    (hjust : ctx.validateJustifications msg = .ok ()) :
    ctx.Validated ⟨S.signed msgId i msg fullData, msg⟩ := by
  have hmember : ctx.committeeMembers.contains i = true := (IndexSet.contains_iff _ _).mpr hi
  refine ⟨rfl, ?_⟩
  have hstructure : validateStructureAndRole (S.signed msgId i msg fullData) = .ok role := by
    have hrole' : (SSVMessage.consensus msgId msg).msgId.role = some role := hrole
    simp only [validateStructureAndRole, S.validate_signed hzero, Signing.ssvMessage_signed, hrole']
  have hconsensus : ctx.validateConsensusMessage (S.signed msgId i msg fullData) = .ok msg := by
    simp only [validateConsensusMessage, Signing.ssvMessage_signed,
      SSVMessage.fromSszBytes_data_consensus, validateConsensusMessageSemantics, hsigners, hround,
      hjust, S.verify_signed hi]
  simp only [validateSsvMessage, hstructure, Signing.operatorIds_signed, List.any_cons,
    List.any_nil, hmember, Bool.not_true, Bool.or_false, Bool.false_eq_true, if_false, hconsensus]

end ValidationContext

end Anchor
