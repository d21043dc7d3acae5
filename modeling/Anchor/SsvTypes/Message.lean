import Mathlib
import Anchor.Library.SszCanonical
import Anchor.SsvTypes.Basic

/-!
# Consensus messages and their wire format

A `SignedSSVMessage` carries an `SSVMessage`, whose data is an encoded
`QbftMessage`; the justifications of a `QbftMessage` are again encoded signed
messages.  Every message of these types reads back from its encoding: the bounds
in the types keep all offsets below four bytes.
-/

namespace Anchor

open Ssz

/-! ## QBFT messages -/

inductive QbftMessageType where
  | proposal
  | prepare
  | commit
  | roundChange
deriving DecidableEq

namespace QbftMessageType

def toU64 : QbftMessageType → UInt64
  | proposal => 0
  | prepare => 1
  | commit => 2
  | roundChange => 3

def ofU64 (n : UInt64) : Option QbftMessageType :=
  if n = 0 then some proposal
  else if n = 1 then some prepare
  else if n = 2 then some commit
  else if n = 3 then some roundChange
  else none

@[simp] theorem ofU64_toU64 (t : QbftMessageType) : ofU64 t.toU64 = some t := by
  cases t <;> rfl

theorem toU64_of_ofU64 {n : UInt64} {t : QbftMessageType} (h : ofU64 n = some t) :
    t.toU64 = n := by
  unfold ofU64 at h
  split_ifs at h with h0 h1 h2 h3 <;> cases h <;> simp_all [toU64]

end QbftMessageType

abbrev roundChangeJustificationLength : ℕ := 5 * 10000 + (1000 + 852)

abbrev prepareJustificationLength : ℕ := 3 * 1000 + 700

@[ext] structure QbftMessage where
  qbftMessageType : QbftMessageType
  height : UInt64
  round : UInt64
  identifier : VariableList UInt8 56
  root : Hash256
  dataRound : UInt64
  roundChangeJustification : ByteLists roundChangeJustificationLength 13
  prepareJustification : ByteLists prepareJustificationLength 13
deriving DecidableEq

namespace QbftMessage

def parts (m : QbftMessage) : List Part :=
  [.fixed (encodeU64 m.qbftMessageType.toU64), .fixed (encodeU64 m.height),
    .fixed (encodeU64 m.round), .dynamic m.identifier.toList, .fixed m.root.toList,
    .fixed (encodeU64 m.dataRound), .dynamic (ByteLists.encode m.roundChangeJustification),
    .dynamic (ByteLists.encode m.prepareJustification)]

def shape : Shape := [some 8, some 8, some 8, none, some 32, some 8, none, none]

def asSszBytes (m : QbftMessage) : Bytes := assemble m.parts

def ofFields : List Bytes → Option QbftMessage
  | [ty, height, round, identifier, root, dataRound, roundChanges, prepares] => do
      let ty ← (decodeU64 ty).bind QbftMessageType.ofU64
      let height ← decodeU64 height
      let round ← decodeU64 round
      let identifier ← VariableList.new? identifier
      let root ← FixedBytes.new? root
      let dataRound ← decodeU64 dataRound
      let roundChanges ← ByteLists.decode roundChanges
      let prepares ← ByteLists.decode prepares
      return ⟨ty, height, round, identifier, root, dataRound, roundChanges, prepares⟩
  | _ => none

def fromSszBytes (bs : Bytes) : Option QbftMessage := (slices shape bs).bind ofFields

theorem map_width_parts (m : QbftMessage) : m.parts.map Part.width = shape := by
  simp [parts, shape, Part.width, m.root.length_eq]

theorem length_asSszBytes (m : QbftMessage) :
    m.asSszBytes.length = 76 + m.identifier.toList.length +
      (ByteLists.encode m.roundChangeJustification).length +
        (ByteLists.encode m.prepareJustification).length := by
  rw [asSszBytes, length_assemble]
  simp only [parts, headLength, body, length_encodeU64, m.root.length_eq, List.length_append,
    List.length_nil]
  omega

theorem length_encode_roundChangeJustification_le (m : QbftMessage) :
    (ByteLists.encode m.roundChangeJustification).length ≤ 674128 :=
  ByteLists.length_encode_le m.roundChangeJustification

theorem length_encode_prepareJustification_le (m : QbftMessage) :
    (ByteLists.encode m.prepareJustification).length ≤ 48152 :=
  ByteLists.length_encode_le m.prepareJustification

theorem length_asSszBytes_le (m : QbftMessage) : m.asSszBytes.length ≤ 722412 := by
  have hid := m.identifier.length_le
  have hrc := m.length_encode_roundChangeJustification_le
  have hpj := m.length_encode_prepareJustification_le
  rw [length_asSszBytes]
  omega

@[simp] theorem fromSszBytes_asSszBytes (m : QbftMessage) :
    fromSszBytes m.asSszBytes = some m := by
  have hlen := m.length_asSszBytes_le
  have hrc := m.length_encode_roundChangeJustification_le
  have hpj := m.length_encode_prepareJustification_le
  have hslices : slices shape m.asSszBytes = some (m.parts.map Part.bytes) := by
    rw [← m.map_width_parts]
    apply slices_assemble
    rw [asSszBytes, length_assemble] at hlen
    omega
  rw [fromSszBytes, hslices, Option.bind_some]
  simp only [parts, List.map_cons, List.map_nil, Part.bytes, ofFields, decodeU64_encodeU64,
    Option.bind_some, QbftMessageType.ofU64_toU64, VariableList.new?_toList,
    FixedBytes.new?_toList, ByteLists.decode_encode (show (ByteLists.encode
      m.roundChangeJustification).length < 256 ^ 4 by omega),
    ByteLists.decode_encode (show (ByteLists.encode
      m.prepareJustification).length < 256 ^ 4 by omega), Option.bind_eq_bind]
  rfl

theorem asSszBytes_of_fromSszBytes {bs : Bytes} {m : QbftMessage}
    (h : fromSszBytes bs = some m) : m.asSszBytes = bs := by
  obtain ⟨fields, hslices, hfields⟩ := Option.bind_eq_some_iff.mp h
  unfold ofFields at hfields
  split at hfields
  · rename_i ty height round identifier root dataRound roundChanges prepares
    simp only [Option.bind_eq_bind, Option.bind_eq_some_iff, Option.pure_def,
      Option.some.injEq] at hfields
    obtain ⟨t, ⟨n, hn, ht⟩, hh, hheight, r, hround, i, hid, ro, hroot, dr, hdata, rcs, hrcs, ps,
      hps, rfl⟩ := hfields
    have hty : encodeU64 t.toU64 = ty := by
      rw [QbftMessageType.toU64_of_ofU64 ht]
      exact encodeU64_of_decodeU64 hn
    rw [← assemble_of_slices hslices]
    simp only [asSszBytes, parts, shape, List.zipWith, partOf, hty,
      encodeU64_of_decodeU64 hheight, encodeU64_of_decodeU64 hround,
      VariableList.toList_of_new? hid, FixedBytes.toList_of_new? hroot,
      encodeU64_of_decodeU64 hdata, ByteLists.encode_of_decode hrcs,
      ByteLists.encode_of_decode hps]
  · cases hfields

end QbftMessage

/-! ## SSV messages -/

inductive MsgType where
  | ssvConsensusMsgType
  | ssvPartialSignatureMsgType
deriving DecidableEq

namespace MsgType

def toU64 : MsgType → UInt64
  | ssvConsensusMsgType => 0
  | ssvPartialSignatureMsgType => 1

def ofU64 (n : UInt64) : Option MsgType :=
  if n = 0 then some ssvConsensusMsgType
  else if n = 1 then some ssvPartialSignatureMsgType
  else none

@[simp] theorem ofU64_toU64 (t : MsgType) : ofU64 t.toU64 = some t := by
  cases t <;> rfl

end MsgType

abbrev ssvMessageDataLen : ℕ := 726 * 1000 + 932

def maxConsensusMsgSize : ℕ :=
  8 + 8 + 8 + (56 + 4) + 32 + 8 + (maxSignatures * (roundChangeJustificationLength + 4) + 4) +
    (maxSignatures * (prepareJustificationLength + 4) + 4)

def maxPartialSignatureMsgsSize : ℕ := 8 + 8 + 5048 * (96 + 32 + 8 + 8) + 4

inductive SSVMessageError where
  | emptyData
  | ssvDataTooBig (provided max : ℕ)
deriving DecidableEq

@[ext] structure SSVMessage where
  msgType : MsgType
  msgId : MessageId
  data : VariableList UInt8 ssvMessageDataLen
deriving DecidableEq

namespace SSVMessage

def validate (m : SSVMessage) : Except SSVMessageError Unit :=
  if m.data.toList.isEmpty then .error .emptyData
  else
    match m.msgType with
    | .ssvConsensusMsgType =>
      if m.data.toList.length > maxConsensusMsgSize then
        .error (.ssvDataTooBig m.data.toList.length maxConsensusMsgSize)
      else .ok ()
    | .ssvPartialSignatureMsgType =>
      if m.data.toList.length > maxPartialSignatureMsgsSize then
        .error (.ssvDataTooBig m.data.toList.length maxPartialSignatureMsgsSize)
      else .ok ()

def new (msgType : MsgType) (msgId : MessageId) (data : Bytes) :
    Except SSVMessageError SSVMessage :=
  match VariableList.new? data with
  | none => .error (.ssvDataTooBig data.length ssvMessageDataLen)
  | some data =>
    let m : SSVMessage := ⟨msgType, msgId, data⟩
    match m.validate with
    | .error e => .error e
    | .ok () => .ok m

theorem eq_of_new {msgType : MsgType} {msgId : MessageId} {data : Bytes}
    {m : SSVMessage} (h : new msgType msgId data = .ok m) :
    m.msgType = msgType ∧ m.msgId = msgId ∧ m.data.toList = data := by
  unfold new at h
  split at h
  · cases h
  rename_i hdata
  dsimp only at h
  split at h
  · cases h
  cases h
  exact ⟨rfl, rfl, VariableList.toList_of_new? hdata⟩

def parts (m : SSVMessage) : List Part :=
  [.fixed (encodeU64 m.msgType.toU64), .fixed m.msgId.toList, .dynamic m.data.toList]

def shape : Shape := [some 8, some 56, none]

def asSszBytes (m : SSVMessage) : Bytes := assemble m.parts

def ofFields : List Bytes → Option SSVMessage
  | [msgType, msgId, data] => do
      let msgType ← (decodeU64 msgType).bind MsgType.ofU64
      let msgId ← FixedBytes.new? msgId
      let data ← VariableList.new? data
      return ⟨msgType, msgId, data⟩
  | _ => none

def fromSszBytes (bs : Bytes) : Option SSVMessage := (slices shape bs).bind ofFields

theorem map_width_parts (m : SSVMessage) : m.parts.map Part.width = shape := by
  simp [parts, shape, Part.width, m.msgId.length_eq]

theorem length_asSszBytes (m : SSVMessage) : m.asSszBytes.length = 68 + m.data.toList.length := by
  rw [asSszBytes, length_assemble]
  simp only [parts, headLength, body, length_encodeU64, m.msgId.length_eq, List.length_append,
    List.length_nil]
  omega

@[simp] theorem fromSszBytes_asSszBytes (m : SSVMessage) :
    fromSszBytes m.asSszBytes = some m := by
  have hlen := m.length_asSszBytes
  have hdata : m.data.toList.length ≤ 726932 := m.data.length_le
  have hslices : slices shape m.asSszBytes = some (m.parts.map Part.bytes) := by
    rw [← m.map_width_parts]
    apply slices_assemble
    rw [asSszBytes, length_assemble] at hlen
    omega
  rw [fromSszBytes, hslices, Option.bind_some]
  simp only [parts, List.map_cons, List.map_nil, Part.bytes, ofFields, decodeU64_encodeU64,
    Option.bind_some, MsgType.ofU64_toU64, VariableList.new?_toList, FixedBytes.new?_toList,
    Option.bind_eq_bind]
  rfl

def consensus (msgId : MessageId) (m : QbftMessage) : SSVMessage :=
  ⟨.ssvConsensusMsgType, msgId, ⟨m.asSszBytes, m.length_asSszBytes_le.trans (by decide)⟩⟩

theorem validate_consensus (msgId : MessageId) (m : QbftMessage) :
    (consensus msgId m).validate = .ok () := by
  have hnonempty : m.asSszBytes.isEmpty = false := by
    rw [List.isEmpty_eq_false_iff]
    apply List.ne_nil_of_length_pos
    have := m.length_asSszBytes
    omega
  have hbound : ¬ m.asSszBytes.length > maxConsensusMsgSize :=
    not_lt.mpr (m.length_asSszBytes_le.trans (by decide))
  simp [validate, consensus, hnonempty, hbound]

theorem new_asSszBytes (msgId : MessageId) (m : QbftMessage) :
    new .ssvConsensusMsgType msgId m.asSszBytes = .ok (consensus msgId m) := by
  have hfit : m.asSszBytes.length ≤ ssvMessageDataLen :=
    m.length_asSszBytes_le.trans (by decide)
  have hvalid : SSVMessage.validate ⟨.ssvConsensusMsgType, msgId, ⟨m.asSszBytes, hfit⟩⟩ = .ok () :=
    validate_consensus msgId m
  simp only [new, VariableList.new?, dif_pos hfit, hvalid]
  rfl

@[simp] theorem fromSszBytes_data_consensus (msgId : MessageId) (m : QbftMessage) :
    QbftMessage.fromSszBytes (consensus msgId m).data.toList = some m :=
  QbftMessage.fromSszBytes_asSszBytes m

end SSVMessage

/-! ## Signed messages -/

inductive SignedSSVMessageError where
  | tooManySignatures (provided max : ℕ)
  | wrongRSASignatureSize (index length sigLength : ℕ)
  | tooManyOperatorIDs (provided max : ℕ)
  | fullDataTooLong (provided max : ℕ)
  | noSigners
  | signersAndSignaturesWithDifferentLength
  | zeroSigner
  | noSignatures
  | duplicatedSigner
  | ssvMessageError (e : SSVMessageError)
deriving DecidableEq

abbrev ssvMessageFullDataLen : ℕ := 8 * 1000000 + (388 * 1000 + 836)

abbrev SignatureList := ByteLists 256 13

@[ext] structure SignedSSVMessage where
  signatures : SignatureList
  operatorIds : VariableList OperatorId 13
  ssvMessage : SSVMessage
  fullData : VariableList UInt8 ssvMessageFullDataLen
deriving DecidableEq

namespace SignedSSVMessage

theorem length_singleton_le (i : OperatorId) : [i].length ≤ 13 := by
  simp

def withoutFullData (m : SignedSSVMessage) : SignedSSVMessage :=
  { m with fullData := VariableList.empty }

def setFullData (m : SignedSSVMessage) (data : Bytes) :
    Except SignedSSVMessageError SignedSSVMessage :=
  match VariableList.new? data with
  | none => .error (.fullDataTooLong data.length ssvMessageFullDataLen)
  | some data => .ok { m with fullData := data }

def firstWrongSize : ℕ → List (VariableList UInt8 256) → Option (ℕ × ℕ)
  | _, [] => none
  | i, sig :: sigs =>
    if sig.toList.length = rsaSignatureSize then firstWrongSize (i + 1) sigs
    else some (i, sig.toList.length)

def validate (m : SignedSSVMessage) : Except SignedSSVMessageError Unit :=
  match firstWrongSize 0 m.signatures.toList with
  | some (index, length) => .error (.wrongRSASignatureSize index length rsaSignatureSize)
  | none =>
    if m.operatorIds.toList.isEmpty then .error .noSigners
    else if m.signatures.toList.isEmpty then .error .noSignatures
    else if m.operatorIds.toList.any (fun id => id.val = 0) then .error .zeroSigner
    else if ¬ m.operatorIds.toList.Nodup then .error .duplicatedSigner
    else if m.operatorIds.toList.length ≠ m.signatures.toList.length then
      .error .signersAndSignaturesWithDifferentLength
    else
      match m.ssvMessage.validate with
      | .error e => .error (.ssvMessageError e)
      | .ok () => .ok ()

theorem firstWrongSize_eq_none {i : ℕ} {sigs : List (VariableList UInt8 256)}
    (h : firstWrongSize i sigs = none) : ∀ sig ∈ sigs, sig.toList.length = rsaSignatureSize := by
  induction sigs generalizing i with
  | nil => simp
  | cons sig sigs ih =>
    simp only [firstWrongSize] at h
    split at h
    · rename_i hsig
      intro sig' hmem
      rcases List.mem_cons.mp hmem with rfl | hmem
      · exact hsig
      · exact ih h sig' hmem
    · cases h

structure WellFormed (m : SignedSSVMessage) : Prop where
  signature_size : ∀ sig ∈ m.signatures.toList, sig.toList.length = rsaSignatureSize
  operatorIds_ne_nil : m.operatorIds.toList ≠ []
  operatorIds_ne_zero : ∀ id ∈ m.operatorIds.toList, id.val ≠ 0
  nodup : m.operatorIds.toList.Nodup
  length_signatures : m.signatures.toList.length = m.operatorIds.toList.length

theorem wellFormed_of_validate {m : SignedSSVMessage} {u : Unit} (h : m.validate = .ok u) :
    m.WellFormed := by
  unfold validate at h
  split at h
  · cases h
  · rename_i hsize
    split_ifs at h with hsigners hsigs hzero hdup hlen
    refine ⟨firstWrongSize_eq_none hsize, ?_, ?_, hdup, (not_not.mp hlen).symm⟩
    · intro hnil
      exact hsigners (by simp [hnil])
    · intro id hid heq
      exact hzero (List.any_eq_true.mpr ⟨id, hid, by simpa using heq⟩)

def new (signatures : List (VariableList UInt8 256)) (operatorIds : List OperatorId)
    (ssvMessage : SSVMessage) (fullData : Bytes) :
    Except SignedSSVMessageError SignedSSVMessage :=
  match VariableList.new? signatures with
  | none => .error (.tooManySignatures signatures.length 13)
  | some sigs =>
    match VariableList.new? operatorIds with
    | none => .error (.tooManyOperatorIDs operatorIds.length 13)
    | some ids =>
      match VariableList.new? fullData with
      | none => .error (.fullDataTooLong fullData.length ssvMessageFullDataLen)
      | some data =>
        let m : SignedSSVMessage := ⟨sigs, ids, ssvMessage, data⟩
        match m.validate with
        | .error e => .error e
        | .ok () => .ok m

def extend (m other : SignedSSVMessage) : Except SignedSSVMessageError SignedSSVMessage :=
  if other.operatorIds.toList.length ≠ other.signatures.toList.length then
    .error .signersAndSignaturesWithDifferentLength
  else
    match VariableList.new? (m.signatures.toList ++ other.signatures.toList) with
    | none => .error (.tooManySignatures (maxSignatures + 1) maxSignatures)
    | some sigs =>
      match VariableList.new? (m.operatorIds.toList ++ other.operatorIds.toList) with
      | none => .error (.tooManyOperatorIDs (maxSignatures + 1) maxSignatures)
      | some ids => .ok { m with signatures := sigs, operatorIds := ids }

def aggregate (m : SignedSSVMessage) (others : List SignedSSVMessage) :
    Except SignedSSVMessageError SignedSSVMessage := do
  let all ← others.foldlM extend m
  let sigPairs := (all.signatures.toList.zip all.operatorIds.toList).insertionSort
    (fun a b => a.2 ≤ b.2)
  match VariableList.new? (sigPairs.map Prod.fst) with
  | none => .error (.tooManySignatures sigPairs.length 13)
  | some sigs =>
    match VariableList.new? (sigPairs.map Prod.snd) with
    | none => .error (.tooManyOperatorIDs sigPairs.length 13)
    | some ids => .ok { all with signatures := sigs, operatorIds := ids }

def parts (m : SignedSSVMessage) : List Part :=
  [.dynamic (ByteLists.encode m.signatures),
    .dynamic ((m.operatorIds.toList.map OperatorId.val).flatMap encodeU64),
    .dynamic m.ssvMessage.asSszBytes, .dynamic m.fullData.toList]

def shape : Shape := [none, none, none, none]

def asSszBytes (m : SignedSSVMessage) : Bytes := assemble m.parts

def ofFields : List Bytes → Option SignedSSVMessage
  | [signatures, operatorIds, ssvMessage, fullData] => do
      let signatures ← ByteLists.decode signatures
      let operatorIds ← decodeU64s 13 operatorIds
      let operatorIds ← VariableList.new? (operatorIds.map OperatorId.mk)
      let ssvMessage ← SSVMessage.fromSszBytes ssvMessage
      let fullData ← VariableList.new? fullData
      return ⟨signatures, operatorIds, ssvMessage, fullData⟩
  | _ => none

def fromSszBytes (bs : Bytes) : Option SignedSSVMessage := (slices shape bs).bind ofFields

theorem length_asSszBytes (m : SignedSSVMessage) :
    m.asSszBytes.length = 84 + (ByteLists.encode m.signatures).length +
      8 * m.operatorIds.toList.length + m.ssvMessage.data.toList.length +
        m.fullData.toList.length := by
  rw [asSszBytes, length_assemble]
  simp only [parts, headLength, body, length_flatMap_encodeU64, List.length_map,
    SSVMessage.length_asSszBytes, List.length_append, List.length_nil]
  omega

@[simp] theorem fromSszBytes_asSszBytes (m : SignedSSVMessage) :
    fromSszBytes m.asSszBytes = some m := by
  have hlen := m.length_asSszBytes
  have hsig := ByteLists.length_encode_le m.signatures
  have hids := m.operatorIds.length_le
  have hdata : m.ssvMessage.data.toList.length ≤ 726932 := m.ssvMessage.data.length_le
  have hfull : m.fullData.toList.length ≤ 8388836 := m.fullData.length_le
  have hslices : slices shape m.asSszBytes = some (m.parts.map Part.bytes) := by
    rw [show shape = m.parts.map Part.width from rfl]
    apply slices_assemble
    rw [asSszBytes, length_assemble] at hlen
    omega
  have hmk : (m.operatorIds.toList.map OperatorId.val).map OperatorId.mk =
      m.operatorIds.toList := by
    rw [List.map_map]
    exact List.map_id _
  rw [fromSszBytes, hslices, Option.bind_some]
  simp only [parts, List.map_cons, List.map_nil, Part.bytes, ofFields,
    ByteLists.decode_encode (show (ByteLists.encode m.signatures).length < 256 ^ 4 by omega),
    decodeU64s_flatMap (show (m.operatorIds.toList.map OperatorId.val).length ≤ 13 by
      simpa using hids), hmk,
    Option.bind_some, VariableList.new?_toList, SSVMessage.fromSszBytes_asSszBytes,
    Option.bind_eq_bind]
  rfl

end SignedSSVMessage

end Anchor
