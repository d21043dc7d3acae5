import Mathlib
import Anchor.Qbft.Instance
import Anchor.SsvTypes.PartialSig

/-!
# Justifications on the wire

An outgoing message carries its justifications as encoded signed messages
without their full data.  Encoding succeeds exactly when every message and the
list are within their bounds, and the receiver then decodes the same messages.
-/

namespace Anchor

open Ssz

namespace SignedSSVMessage

@[simp] theorem operatorIds_withoutFullData (m : SignedSSVMessage) :
    m.withoutFullData.operatorIds = m.operatorIds := rfl

@[simp] theorem signatures_withoutFullData (m : SignedSSVMessage) :
    m.withoutFullData.signatures = m.signatures := rfl

@[simp] theorem ssvMessage_withoutFullData (m : SignedSSVMessage) :
    m.withoutFullData.ssvMessage = m.ssvMessage := rfl

theorem length_encode_of_single {m : SignedSSVMessage} {sig : VariableList UInt8 256}
    (h : m.signatures.toList = [sig]) :
    (ByteLists.encode m.signatures).length = 4 + sig.toList.length := by
  rw [ByteLists.encode, length_encodeList, h]
  simp

end SignedSSVMessage

namespace Qbft

variable {F D : Type}

@[simp] theorem clearFullData_eq (m : SignedSSVMessage) :
    clearFullData m = .ok m.withoutFullData := by
  have hnil : (VariableList.new? [] : Option (VariableList UInt8 ssvMessageFullDataLen)) =
      some VariableList.empty := by
    simp [VariableList.new?, VariableList.empty]
  simp [clearFullData, SignedSSVMessage.setFullData, hnil, SignedSSVMessage.withoutFullData]

theorem mapAll_clearFullData (ms : List SignedSSVMessage) :
    Checks.mapAll clearFullData ms = .ok (ms.map SignedSSVMessage.withoutFullData) :=
  Checks.mapAll_of_forall fun m _ => clearFullData_eq m

/-- The messages are within the bounds of a justification list. -/
def Fits (n : ℕ) (messages : List SignedSSVMessage) : Prop :=
  (∀ m ∈ messages, m.withoutFullData.asSszBytes.length ≤ n) ∧ messages.length ≤ 13

def Encodes {n : ℕ} (messages : List SignedSSVMessage) (list : ByteLists n 13) : Prop :=
  list.toList.map VariableList.toList = messages.map fun m => m.withoutFullData.asSszBytes

variable {n : ℕ} {messages : List SignedSSVMessage}

theorem Encodes.length_eq {list : ByteLists n 13}
    (h : Encodes messages list) : list.toList.length = messages.length := by
  have hlength := congrArg List.length h
  simpa using hlength

theorem eq_empty_of_encodes_nil {list : ByteLists n 13} (h : Encodes [] list) :
    list = VariableList.empty := by
  apply VariableList.ext
  exact List.length_eq_zero_iff.mp h.length_eq

theorem tryDecode_of_encodes {list : ByteLists n 13}
    (h : Encodes messages list) (err : QbftError) :
    tryDecodeSignedSsvMessages list err =
      .ok (messages.map SignedSSVMessage.withoutFullData) := by
  have hmap : list.toList.mapM (fun bytes => SignedSSVMessage.fromSszBytes bytes.toList) =
      (list.toList.map VariableList.toList).mapM SignedSSVMessage.fromSszBytes := by
    rw [List.mapM_map]
    rfl
  have hround : (messages.map fun m => m.withoutFullData.asSszBytes).mapM
      SignedSSVMessage.fromSszBytes = some (messages.map SignedSSVMessage.withoutFullData) := by
    have := mapM_map_of_leftInverse SignedSSVMessage.fromSszBytes_asSszBytes
      (messages.map SignedSSVMessage.withoutFullData)
    rwa [List.map_map] at this
  rw [tryDecodeSignedSsvMessages, hmap, h, hround]

theorem tryEncodeSignedSsvMessage_eq_ok {innerErrorFn : ℕ → ℕ → QbftError}
    {m : SignedSSVMessage} {bytes : VariableList UInt8 n}
    (h : tryEncodeSignedSsvMessage n innerErrorFn m = .ok bytes) :
    bytes.toList = m.withoutFullData.asSszBytes := by
  unfold tryEncodeSignedSsvMessage at h
  split at h
  · cases h
  · rename_i b hb
    cases h
    exact VariableList.toList_of_new? hb

theorem tryEncodeSignedSsvMessage_of_le (innerErrorFn : ℕ → ℕ → QbftError)
    {m : SignedSSVMessage} (h : m.withoutFullData.asSszBytes.length ≤ n) :
    tryEncodeSignedSsvMessage n innerErrorFn m = .ok ⟨m.withoutFullData.asSszBytes, h⟩ := by
  simp [tryEncodeSignedSsvMessage, VariableList.new?, h]

theorem tryEncode_eq_ok {list : ByteLists n 13}
    {innerErrorFn outerErrorFn : ℕ → ℕ → QbftError}
    (h : tryEncodeSignedSsvMessages n messages innerErrorFn outerErrorFn = .ok list) :
    Encodes messages list := by
  unfold tryEncodeSignedSsvMessages at h
  split at h
  · cases h
  · rename_i encoded hencoded
    split at h
    · cases h
    · rename_i l hl
      cases h
      rw [Encodes, VariableList.toList_of_new? hl]
      exact Checks.map_of_mapAll (fun m b hb => tryEncodeSignedSsvMessage_eq_ok hb) hencoded

theorem Encodes.fits {list : ByteLists n 13}
    (h : Encodes messages list) : Fits n messages := by
  refine ⟨fun m hm => ?_, h.length_eq ▸ list.length_le⟩
  have hmem : m.withoutFullData.asSszBytes ∈ list.toList.map VariableList.toList := by
    rw [h]
    exact List.mem_map_of_mem hm
  obtain ⟨b, -, hb⟩ := List.mem_map.mp hmem
  exact hb ▸ b.length_le

theorem exists_tryEncode (h : Fits n messages)
    (innerErrorFn outerErrorFn : ℕ → ℕ → QbftError) :
    ∃ list : ByteLists n 13,
      tryEncodeSignedSsvMessages n messages innerErrorFn outerErrorFn = .ok list := by
  have hmap : Checks.mapAll (tryEncodeSignedSsvMessage n innerErrorFn) messages =
      .ok (messages.map fun m => if hm : m.withoutFullData.asSszBytes.length ≤ n then
        ⟨m.withoutFullData.asSszBytes, hm⟩ else VariableList.empty) := by
    apply Checks.mapAll_of_forall
    intro m hm
    rw [dif_pos (h.1 m hm)]
    exact tryEncodeSignedSsvMessage_of_le innerErrorFn (h.1 m hm)
  have hlength : messages.length ≤ 13 := h.2
  simp [tryEncodeSignedSsvMessages, hmap, VariableList.new?, hlength]

/-- The end of `new_unsigned_message` as the source has it: the message goes through
`SSVMessage::new`, and there is no value where the `expect` on its result panics. -/
def tryUnsignedMessage (q : Qbft F D) (msgType : QbftMessageType) (data : MessageData)
    (roundChanges : ByteLists roundChangeJustificationLength 13)
    (prepares : ByteLists prepareJustificationLength 13) : Option UnsignedWrappedQbftMessage :=
  let qbftMessage := (q.unsignedMessage msgType data roundChanges prepares).qbftMessage
  match SSVMessage.new .ssvConsensusMsgType q.identifier qbftMessage.asSszBytes with
  | .error _ => none
  | .ok ssvMessage => some ⟨⟨ssvMessage, data.fullData⟩, qbftMessage⟩

variable [QbftData D]

variable {roundChanges prepares : List SignedSSVMessage}

theorem newUnsignedMessage_eq_ok {q : Qbft F D} {msgType : QbftMessageType} {dataHash : Hash256}
    {u : UnsignedWrappedQbftMessage}
    (h : q.newUnsignedMessage msgType dataHash roundChanges prepares = .ok u) :
    ∃ (l : ByteLists roundChangeJustificationLength 13)
      (l' : ByteLists prepareJustificationLength 13),
      Encodes roundChanges l ∧ Encodes prepares l' ∧
        u = q.unsignedMessage msgType (q.getMessageData msgType dataHash) l l' := by
  simp only [newUnsignedMessage, mapAll_clearFullData] at h
  split at h
  · cases h
  · rename_i l hl
    split at h
    · cases h
    · rename_i l' hl'
      cases h
      have he := tryEncode_eq_ok hl
      have he' := tryEncode_eq_ok hl'
      rw [Encodes, List.map_map] at he he'
      exact ⟨l, l', he, he', rfl⟩

theorem exists_newUnsignedMessage (q : Qbft F D) (msgType : QbftMessageType) (dataHash : Hash256)
    (hrc : Fits roundChangeJustificationLength roundChanges)
    (hp : Fits prepareJustificationLength prepares) :
    ∃ u, q.newUnsignedMessage msgType dataHash roundChanges prepares = .ok u := by
  have hfits : ∀ {n : ℕ} {ms : List SignedSSVMessage}, Fits n ms →
      Fits n (ms.map SignedSSVMessage.withoutFullData) := by
    intro n ms h
    refine ⟨?_, by simpa using h.2⟩
    intro m hm
    obtain ⟨m', hm', rfl⟩ := List.mem_map.mp hm
    exact h.1 m' hm'
  obtain ⟨l, hl⟩ := exists_tryEncode (hfits hrc) .roundChangeJustificationTooBig
    .roundChangeJustificationListTooBig
  obtain ⟨l', hl'⟩ := exists_tryEncode (hfits hp) .prepareJustificationTooBig
    .prepareJustificationListTooBig
  simp [newUnsignedMessage, mapAll_clearFullData, hl, hl']

theorem newUnsignedMessage_nil (q : Qbft F D) (msgType : QbftMessageType) (dataHash : Hash256) :
    q.newUnsignedMessage msgType dataHash [] [] =
      .ok (q.unsignedMessage msgType (q.getMessageData msgType dataHash)
        VariableList.empty VariableList.empty) := by
  have hfits : ∀ n, Fits n [] := fun n => ⟨by simp, by simp⟩
  obtain ⟨u, hu⟩ := q.exists_newUnsignedMessage msgType dataHash (hfits _) (hfits _)
  obtain ⟨l, l', hl, hl', rfl⟩ := newUnsignedMessage_eq_ok hu
  rw [hu, eq_empty_of_encodes_nil hl, eq_empty_of_encodes_nil hl']

end Qbft

/-- Whatever is put into an `SSVMessage` fits: consensus messages with justifications of any
number and length within the bounds of their lists, as `new_unsigned_message` builds them, and
packets of partial signatures. -/
theorem ssvMessage_data_fits :
    (∀ (m : QbftMessage) (msgId : MessageId), m.asSszBytes.length ≤ ssvMessageDataLen ∧
      SSVMessage.new .ssvConsensusMsgType msgId m.asSszBytes = .ok (.consensus msgId m)) ∧
    (∀ (F D : Type) (q : Qbft F D) (msgType : QbftMessageType) (data : MessageData)
      (roundChanges : ByteLists roundChangeJustificationLength 13)
      (prepares : ByteLists prepareJustificationLength 13),
      q.tryUnsignedMessage msgType data roundChanges prepares =
        some (q.unsignedMessage msgType data roundChanges prepares)) ∧
    ∀ (p : PartialSignatureMessages) (msgId : MessageId),
      p.asSszBytes.length ≤ ssvMessageDataLen ∧ ∃ m : SSVMessage,
        SSVMessage.new .ssvPartialSignatureMsgType msgId p.asSszBytes = .ok m ∧
          m.data.toList = p.asSszBytes := by
  refine ⟨fun m msgId => ⟨?_, SSVMessage.new_asSszBytes msgId m⟩, ?_, fun p msgId => ?_⟩
  · exact m.length_asSszBytes_le.trans (by decide)
  · intro F D q msgType data roundChanges prepares
    simp only [Qbft.tryUnsignedMessage, SSVMessage.new_asSszBytes]
    rfl
  · obtain ⟨m, hdata, hnew⟩ := SSVMessage.exists_new_partialSignatureMessages msgId p
    exact ⟨hdata ▸ m.data.length_le, m, hnew, hdata⟩

end Anchor
