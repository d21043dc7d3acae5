import Mathlib
import Anchor.Fork.Schedule
import Anchor.SsvTypes.PartialSig

/-!
# Requests for signatures

What a request for signatures says, how long the manager of the collectors keeps
what belongs to a slot, and the packet that carries partial signatures.
-/

namespace Anchor

open Ssz

def signatureCollectorRetainSlots : ℕ := 1

def cutoffAt (now : ℕ) : ℕ := now - signatureCollectorRetainSlots

/-- A slot is stale when the clock can be read and is past it. -/
def isStaleSlot (now : Option ℕ) (slot : ℕ) : Bool := now.any fun now => slot < cutoffAt now

theorem isStaleSlot_some {now slot : ℕ} :
    isStaleSlot (some now) slot = true ↔ slot < cutoffAt now := by
  simp [isStaleSlot]

theorem cutoffAt_mono {now now' : ℕ} (h : now ≤ now') : cutoffAt now ≤ cutoffAt now' :=
  Nat.sub_le_sub_right h _

structure SignatureMetadata where
  kind : PartialSignatureKind
  role : Role
  threshold : ℕ
  slot : ℕ
  committeeId : CommitteeId
deriving DecidableEq

/-- The data a validator's share signs; there is no share when the node only observes. -/
structure ValidatorSigningData (Key : Type) where
  root : Hash256
  index : UInt64
  validatorPubkey : PublicKeyBytes
  share : Option Key

/-- Signing with a share, and the signature in place of one that cannot be made. -/
structure Signer (Key : Type) where
  sign : Key → Hash256 → FixedBytes 96
  empty : FixedBytes 96

namespace ValidatorSigningData

variable {Key : Type} (signer : Signer Key)

def partialSignatureMessage (data : ValidatorSigningData Key) (signingRoot : Hash256)
    (operatorId : OperatorId) : PartialSignatureMessage :=
  ⟨data.share.elim signer.empty fun share => signer.sign share signingRoot, signingRoot, operatorId,
    data.index⟩

end ValidatorSigningData

inductive CreateMessageError where
  | tooManySignatures (count max : ℕ)
  | ssvMessage (error : SSVMessageError)

def createMessage (domainTypeForSlot : ℕ → DomainType) (metadata : SignatureMetadata)
    (signatures : List PartialSignatureMessage) (dutyExecutor : DutyExecutor) :
    Except CreateMessageError SSVMessage :=
  match VariableList.new? signatures with
  | none => .error (.tooManySignatures signatures.length partialSignatureMessagesLen)
  | some messages =>
    let packet : PartialSignatureMessages := ⟨metadata.kind, .ofNat metadata.slot, messages⟩
    match SSVMessage.new .ssvPartialSignatureMsgType
      (MessageId.new (domainTypeForSlot metadata.slot) metadata.role dutyExecutor)
      packet.asSszBytes with
    | .error e => .error (.ssvMessage e)
    | .ok message => .ok message

theorem createMessage_eq_ok {domainTypeForSlot : ℕ → DomainType} {metadata : SignatureMetadata}
    {signatures : List PartialSignatureMessage} {dutyExecutor : DutyExecutor}
    {message : SSVMessage}
    (h : createMessage domainTypeForSlot metadata signatures dutyExecutor = .ok message) :
    message.msgId =
        MessageId.new (domainTypeForSlot metadata.slot) metadata.role dutyExecutor ∧
    ∃ packet : PartialSignatureMessages, packet.kind = metadata.kind ∧
      packet.slot = .ofNat metadata.slot ∧ packet.messages.toList = signatures ∧
      PartialSignatureMessages.fromSszBytes (fun _ => true) message.data.toList = some packet := by
  unfold createMessage at h
  split at h
  · cases h
  rename_i messages hmessages
  dsimp only at h
  split at h
  · cases h
  rename_i hnew
  cases h
  obtain ⟨-, hid, hdata⟩ := SSVMessage.eq_of_new hnew
  refine ⟨hid, ⟨metadata.kind, .ofNat metadata.slot, messages⟩, rfl, rfl,
    VariableList.toList_of_new? hmessages, ?_⟩
  rw [hdata]
  exact PartialSignatureMessages.fromSszBytes_asSszBytes _ fun _ _ => rfl

/-- A receiver reads from the message what the sender has signed, and for which duty. -/
theorem createMessage_read (domainTypeForSlot : ℕ → DomainType) (metadata : SignatureMetadata)
    (signatures : List PartialSignatureMessage) (dutyExecutor : DutyExecutor)
    (isSignature : Bytes → Bool) (hcount : signatures.length ≤ partialSignatureMessagesLen)
    (hsignatures : ∀ m ∈ signatures, isSignature m.partialSignature.toList = true)
    (hexecutor : metadata.role.isCommitteeRole = true ↔
      ∃ committeeId, dutyExecutor = .committee committeeId) :
    ∃ message, createMessage domainTypeForSlot metadata signatures dutyExecutor = .ok message ∧
      SSVMessage.fromSszBytes message.asSszBytes = some message ∧
      message.msgType = .ssvPartialSignatureMsgType ∧
      message.msgId.domain = domainTypeForSlot metadata.slot ∧
      message.msgId.role = some metadata.role ∧
      message.msgId.dutyExecutor = some dutyExecutor ∧
      PartialSignatureMessages.fromSszBytes isSignature message.data.toList =
        some ⟨metadata.kind, .ofNat metadata.slot, ⟨signatures, hcount⟩⟩ := by
  let packet : PartialSignatureMessages :=
    ⟨metadata.kind, .ofNat metadata.slot, ⟨signatures, hcount⟩⟩
  obtain ⟨message, hdata, hnew⟩ := SSVMessage.exists_new_partialSignatureMessages
    (MessageId.new (domainTypeForSlot metadata.slot) metadata.role dutyExecutor) packet
  obtain ⟨htype, hid, -⟩ := SSVMessage.eq_of_new hnew
  have hlist : VariableList.new? signatures = some packet.messages :=
    VariableList.new?_toList packet.messages
  refine ⟨message, ?_, SSVMessage.fromSszBytes_asSszBytes message, htype, ?_, ?_, ?_, ?_⟩
  · simp only [createMessage, hlist]
    rw [hnew]
  · rw [hid, MessageId.domain_new]
  · rw [hid, MessageId.role_new]
  · rw [hid, MessageId.dutyExecutor_new hexecutor]
  · rw [hdata]
    exact packet.fromSszBytes_asSszBytes hsignatures

theorem createMessage_read_one : ∃ message,
    createMessage (fun _ => ⟨[0, 0, 3, 1], rfl⟩) ⟨.postConsensus, .proposer, 3, 0, Hash256.default⟩
      [⟨⟨List.replicate 96 0, Sample.length_zeroSignature⟩, Hash256.default, ⟨1⟩, 0⟩]
      (.validator ⟨List.replicate 48 0, Sample.length_zeroKey⟩) = .ok message ∧
    message.msgId.role = some .proposer := by
  obtain ⟨message, hmessage, -, -, -, hrole, -⟩ := createMessage_read
    (fun _ => ⟨[0, 0, 3, 1], rfl⟩) ⟨.postConsensus, .proposer, 3, 0, Hash256.default⟩ [_]
    (.validator _) (fun _ => true) (by simp [partialSignatureMessagesLen]) (fun _ _ => rfl)
    (by simp [Role.isCommitteeRole])
  exact ⟨message, hmessage, hrole⟩

end Anchor
