import Mathlib
import Anchor.Library.SszCanonical
import Anchor.SsvTypes.Message

/-!
# Partial signature packets

A packet carries the partial signatures of one operator for one slot, all of one
kind.  The decoder of a BLS signature is a parameter of the packet's decoder.
-/

namespace Anchor

open Ssz

inductive PartialSignatureKind where
  | postConsensus
  | randaoPartialSig
  | selectionProofPartialSig
  | contributionProofs
  | validatorRegistration
  | voluntaryExit
  | aggregatorCommitteePartialSig
  | ptcAttester
  | proposerPreferences
  | requestAuth
deriving DecidableEq

namespace PartialSignatureKind

def toU64 : PartialSignatureKind → UInt64
  | postConsensus => 0
  | randaoPartialSig => 1
  | selectionProofPartialSig => 2
  | contributionProofs => 3
  | validatorRegistration => 4
  | voluntaryExit => 5
  | aggregatorCommitteePartialSig => 6
  | ptcAttester => 7
  | proposerPreferences => 8
  | requestAuth => 9

def ofU64 (n : UInt64) : Option PartialSignatureKind :=
  if n = 0 then some postConsensus
  else if n = 1 then some randaoPartialSig
  else if n = 2 then some selectionProofPartialSig
  else if n = 3 then some contributionProofs
  else if n = 4 then some validatorRegistration
  else if n = 5 then some voluntaryExit
  else if n = 6 then some aggregatorCommitteePartialSig
  else if n = 7 then some ptcAttester
  else if n = 8 then some proposerPreferences
  else if n = 9 then some requestAuth
  else none

@[simp] theorem ofU64_toU64 (kind : PartialSignatureKind) : ofU64 kind.toU64 = some kind := by
  cases kind <;> rfl

end PartialSignatureKind

structure PartialSignatureMessage where
  partialSignature : FixedBytes 96
  signingRoot : Hash256
  signer : OperatorId
  validatorIndex : UInt64
deriving DecidableEq

namespace PartialSignatureMessage

def parts (m : PartialSignatureMessage) : List Part :=
  [.fixed m.partialSignature.toList, .fixed m.signingRoot.toList, .fixed (encodeU64 m.signer.val),
    .fixed (encodeU64 m.validatorIndex)]

def shape : Shape := [some 96, some 32, some 8, some 8]

def asSszBytes (m : PartialSignatureMessage) : Bytes := assemble m.parts

def ofFields (isSignature : Bytes → Bool) : List Bytes → Option PartialSignatureMessage
  | [signature, signingRoot, signer, validatorIndex] => do
      let signature ← if isSignature signature then FixedBytes.new? signature else none
      let signingRoot ← FixedBytes.new? signingRoot
      let signer ← decodeU64 signer
      let validatorIndex ← decodeU64 validatorIndex
      return ⟨signature, signingRoot, ⟨signer⟩, validatorIndex⟩
  | _ => none

def fromSszBytes (isSignature : Bytes → Bool) (bs : Bytes) : Option PartialSignatureMessage :=
  (slices shape bs).bind (ofFields isSignature)

theorem map_width_parts (m : PartialSignatureMessage) : m.parts.map Part.width = shape := by
  simp [parts, shape, Part.width, m.partialSignature.length_eq, m.signingRoot.length_eq]

theorem length_asSszBytes (m : PartialSignatureMessage) : m.asSszBytes.length = 144 := by
  rw [asSszBytes, length_assemble]
  simp [parts, headLength, body, m.partialSignature.length_eq, m.signingRoot.length_eq]

theorem fromSszBytes_asSszBytes {isSignature : Bytes → Bool} {m : PartialSignatureMessage}
    (h : isSignature m.partialSignature.toList = true) :
    fromSszBytes isSignature m.asSszBytes = some m := by
  have hslices : slices shape m.asSszBytes = some (m.parts.map Part.bytes) := by
    rw [← m.map_width_parts]
    apply slices_assemble
    rw [← length_assemble, ← asSszBytes, length_asSszBytes]
    decide
  rw [fromSszBytes, hslices, Option.bind_some]
  simp only [parts, List.map_cons, List.map_nil, Part.bytes, ofFields, h, if_true,
    FixedBytes.new?_toList, decodeU64_encodeU64, Option.bind_eq_bind, Option.bind_some]
  rfl

end PartialSignatureMessage

abbrev partialSignatureMessagesLen : ℕ := 3 * 1000 + 512 * 4

structure PartialSignatureMessages where
  kind : PartialSignatureKind
  slot : UInt64
  messages : VariableList PartialSignatureMessage partialSignatureMessagesLen
deriving DecidableEq

inductive PartialSignatureMessagesError where
  | empty
  | inconsistentSigners
  | zeroSigner
deriving DecidableEq

namespace PartialSignatureMessages

def validate (m : PartialSignatureMessages) : Except PartialSignatureMessagesError OperatorId :=
  match m.messages.toList with
  | [] => .error .empty
  | first :: rest =>
    if first.signer = ⟨0⟩ then .error .zeroSigner
    else if rest.any fun m => m.signer ≠ first.signer then .error .inconsistentSigners
    else .ok first.signer

def parts (m : PartialSignatureMessages) : List Part :=
  [.fixed (encodeU64 m.kind.toU64), .fixed (encodeU64 m.slot),
    .dynamic (m.messages.toList.flatMap PartialSignatureMessage.asSszBytes)]

def shape : Shape := [some 8, some 8, none]

def asSszBytes (m : PartialSignatureMessages) : Bytes := assemble m.parts

def decodeMessages (isSignature : Bytes → Bool) (bs : Bytes) :
    Option (VariableList PartialSignatureMessage partialSignatureMessagesLen) :=
  if bs.length / 144 ≤ partialSignatureMessagesLen then
    ((chunks 144 bs.length bs).mapM (PartialSignatureMessage.fromSszBytes isSignature)).bind
      VariableList.new?
  else none

def ofFields (isSignature : Bytes → Bool) : List Bytes → Option PartialSignatureMessages
  | [kind, slot, messages] => do
      let kind ← (decodeU64 kind).bind PartialSignatureKind.ofU64
      let slot ← decodeU64 slot
      let messages ← decodeMessages isSignature messages
      return ⟨kind, slot, messages⟩
  | _ => none

def fromSszBytes (isSignature : Bytes → Bool) (bs : Bytes) : Option PartialSignatureMessages :=
  (slices shape bs).bind (ofFields isSignature)

theorem length_asSszBytes (m : PartialSignatureMessages) :
    m.asSszBytes.length = 20 + 144 * m.messages.toList.length := by
  have hlen := length_flatMap PartialSignatureMessage.length_asSszBytes m.messages.toList
  rw [asSszBytes, length_assemble]
  simp only [parts, headLength, body, length_encodeU64, List.append_nil, hlen]

theorem decodeMessages_flatMap {isSignature : Bytes → Bool} (m : PartialSignatureMessages)
    (h : ∀ x ∈ m.messages.toList, isSignature x.partialSignature.toList = true) :
    decodeMessages isSignature (m.messages.toList.flatMap PartialSignatureMessage.asSszBytes) =
      some m.messages := by
  have hlen := length_flatMap PartialSignatureMessage.length_asSszBytes m.messages.toList
  have hmax : m.messages.toList.length ≤ partialSignatureMessagesLen := m.messages.length_le
  rw [decodeMessages, if_pos (by omega),
    chunks_flatMap (by decide) PartialSignatureMessage.length_asSszBytes _ (by omega),
    mapM_map_of_forall fun x hx => PartialSignatureMessage.fromSszBytes_asSszBytes (h x hx),
    Option.bind_some, VariableList.new?_toList]

theorem fromSszBytes_asSszBytes {isSignature : Bytes → Bool} (m : PartialSignatureMessages)
    (h : ∀ x ∈ m.messages.toList, isSignature x.partialSignature.toList = true) :
    fromSszBytes isSignature m.asSszBytes = some m := by
  have hlen := m.length_asSszBytes
  have hmax : m.messages.toList.length ≤ 5048 := m.messages.length_le
  have hslices : slices shape m.asSszBytes = some (m.parts.map Part.bytes) := by
    rw [show shape = m.parts.map Part.width from rfl]
    apply slices_assemble
    rw [asSszBytes, length_assemble] at hlen
    omega
  rw [fromSszBytes, hslices, Option.bind_some]
  simp only [parts, List.map_cons, List.map_nil, Part.bytes, ofFields, decodeU64_encodeU64,
    Option.bind_some, PartialSignatureKind.ofU64_toU64, decodeMessages_flatMap m h,
    Option.bind_eq_bind]
  rfl

theorem ne_nil_of_validate {m : PartialSignatureMessages} {signer : OperatorId}
    (h : m.validate = .ok signer) : m.messages.toList ≠ [] := by
  intro hnil
  simp [validate, hnil] at h

end PartialSignatureMessages

theorem SSVMessage.exists_new_partialSignatureMessages (msgId : MessageId)
    (m : PartialSignatureMessages) : ∃ message : SSVMessage,
      message.data.toList = m.asSszBytes ∧
        new .ssvPartialSignatureMsgType msgId m.asSszBytes = .ok message := by
  have hlen := m.length_asSszBytes
  have hmax : m.messages.toList.length ≤ 5048 := m.messages.length_le
  have hfit : m.asSszBytes.length ≤ 726 * 1000 + 932 := by omega
  have hnonempty : m.asSszBytes ≠ [] := List.ne_nil_of_length_pos (by omega)
  have hbound : ¬ m.asSszBytes.length > maxPartialSignatureMsgsSize := by
    rw [maxPartialSignatureMsgsSize]
    omega
  refine ⟨⟨.ssvPartialSignatureMsgType, msgId, ⟨m.asSszBytes, hfit⟩⟩, rfl, ?_⟩
  simp [new, VariableList.new?, hfit, validate, hnonempty, hbound]

theorem Sample.length_zeroSignature : (List.replicate 96 (0 : UInt8)).length = 96 :=
  List.length_replicate

end Anchor
