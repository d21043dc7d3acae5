import Mathlib
import Anchor.Qbft.Transition
import Anchor.Validator.ConsensusMessage

/-!
# Runs of one instance

An instance receives messages that passed the validator and its own messages,
signed, and its rounds end at any time.  This module fixes what a run is, and
proves what every received message and every stored datum satisfies in it.
-/

namespace Anchor

open Ssz

/-- What an instance may rely on in every message it is handed. -/
structure WrappedQbftMessage.Sound (w : WrappedQbftMessage) : Prop where
  wellFormed : w.signedMessage.WellFormed
  decoded : QbftMessage.fromSszBytes w.signedMessage.ssvMessage.data.toList = some w.qbftMessage
  round_pos : 0 < w.qbftMessage.round.toNat
  commit_of_multi : 1 < w.signedMessage.operatorIds.toList.length →
    w.qbftMessage.qbftMessageType = .commit
  prepareJustification_eq : w.qbftMessage.qbftMessageType ≠ .proposal →
    w.qbftMessage.prepareJustification.toList = []
  roundChangeJustification_eq : w.qbftMessage.qbftMessageType = .prepare ∨
    w.qbftMessage.qbftMessageType = .commit → w.qbftMessage.roundChangeJustification.toList = []

/-- The root is the digest of the full data, if there is any. -/
def WrappedQbftMessage.Hashed (hashData : Bytes → Hash256) (w : WrappedQbftMessage) : Prop :=
  w.signedMessage.fullData.toList ≠ [] →
    hashData w.signedMessage.fullData.toList = w.qbftMessage.root

section Validated

variable {K : Type} {ctx : ValidationContext K} {w : WrappedQbftMessage}

theorem ValidationContext.Validated.sound (h : ctx.Validated w) : w.Sound := by
  obtain ⟨hwf, -, hconsensus⟩ := validateSsvMessage_eq_ok h.validate_eq
  obtain ⟨hdecode, hsigners, hround, hjust, -⟩ := validateConsensusMessage_eq_ok hconsensus
  obtain ⟨hmulti, -⟩ := validateSignersAndFullData_eq_ok hsigners
  obtain ⟨hprepare, hroundChange, -, -⟩ := validateJustificationsWith_eq_ok hjust
  refine ⟨hwf, hdecode, (validateRoundAndIdentifier_eq_ok hround).1, hmulti, hprepare, ?_⟩
  rintro (htype | htype) <;> exact hroundChange (by simp [htype]) (by simp [htype])

theorem ValidationContext.Validated.hashed (h : ctx.Validated w) :
    w.Hashed ctx.crypto.hashData := by
  obtain ⟨-, -, hconsensus⟩ := validateSsvMessage_eq_ok h.validate_eq
  obtain ⟨-, hsigners, -⟩ := validateConsensusMessage_eq_ok hconsensus
  exact (validateSignersAndFullData_eq_ok hsigners).2

end Validated

/-! ## Messages of its own -/

/-- What an instance guarantees for the messages it sends. -/
structure UnsignedWrappedQbftMessage.Sound (identifier : MessageId) (height : UInt64)
    (u : UnsignedWrappedQbftMessage) : Prop where
  ssvMessage_eq : u.unsignedMessage.ssvMessage = SSVMessage.consensus identifier u.qbftMessage
  identifier_eq : u.qbftMessage.identifier = identifier.toVariableList
  height_eq : u.qbftMessage.height = height
  round_pos : 0 < u.qbftMessage.round.toNat
  prepareJustification_eq : u.qbftMessage.qbftMessageType ≠ .proposal →
    u.qbftMessage.prepareJustification.toList = []
  roundChangeJustification_eq : u.qbftMessage.qbftMessageType = .prepare ∨
    u.qbftMessage.qbftMessageType = .commit → u.qbftMessage.roundChangeJustification.toList = []

def UnsignedWrappedQbftMessage.Hashed (hashData : Bytes → Hash256)
    (u : UnsignedWrappedQbftMessage) : Prop :=
  u.unsignedMessage.fullData ≠ [] → hashData u.unsignedMessage.fullData = u.qbftMessage.root

/-- `sign_and_send`: the signed message that is published and handed back to its sender. -/
def UnsignedWrappedQbftMessage.sign (u : UnsignedWrappedQbftMessage) (operatorId : OperatorId)
    (signature : VariableList UInt8 256) : Except SignedSSVMessageError WrappedQbftMessage :=
  match SignedSSVMessage.new [signature] [operatorId] u.unsignedMessage.ssvMessage
      u.unsignedMessage.fullData with
  | .error e => .error e
  | .ok signed => .ok ⟨signed, u.qbftMessage⟩

theorem SignedSSVMessage.new_eq_ok {signatures : List (VariableList UInt8 256)}
    {operatorIds : List OperatorId} {ssvMessage : SSVMessage} {fullData : Bytes}
    {m : SignedSSVMessage}
    (h : SignedSSVMessage.new signatures operatorIds ssvMessage fullData = .ok m) :
    m.validate = .ok () ∧ m.signatures.toList = signatures ∧ m.operatorIds.toList = operatorIds ∧
      m.ssvMessage = ssvMessage ∧ m.fullData.toList = fullData := by
  unfold SignedSSVMessage.new at h
  split at h
  · cases h
  · rename_i sigs hsigs
    split at h
    · cases h
    · rename_i ids hids
      split at h
      · cases h
      · rename_i data hdata
        dsimp only at h
        split at h
        · cases h
        · rename_i hvalidate
          cases h
          exact ⟨hvalidate, VariableList.toList_of_new? hsigs, VariableList.toList_of_new? hids,
            rfl, VariableList.toList_of_new? hdata⟩

variable {u : UnsignedWrappedQbftMessage} {operatorId : OperatorId}
  {signature : VariableList UInt8 256} {w : WrappedQbftMessage}

theorem UnsignedWrappedQbftMessage.sign_eq_ok
    (h : u.sign operatorId signature = .ok w) :
    w.signedMessage.validate = .ok () ∧ w.signedMessage.signatures.toList = [signature] ∧
      w.signedMessage.operatorIds.toList = [operatorId] ∧
      w.signedMessage.ssvMessage = u.unsignedMessage.ssvMessage ∧
      w.signedMessage.fullData.toList = u.unsignedMessage.fullData ∧
      w.qbftMessage = u.qbftMessage := by
  unfold UnsignedWrappedQbftMessage.sign at h
  split at h
  · cases h
  · rename_i signed hsigned
    cases h
    obtain ⟨hvalidate, hsigs, hids, hssv, hdata⟩ := SignedSSVMessage.new_eq_ok hsigned
    exact ⟨hvalidate, hsigs, hids, hssv, hdata, rfl⟩

theorem UnsignedWrappedQbftMessage.Sound.sign {identifier : MessageId} {height : UInt64}
    (hu : u.Sound identifier height)
    (h : u.sign operatorId signature = .ok w) : w.Sound := by
  obtain ⟨hvalidate, hsigs, hids, hssv, hdata, hmsg⟩ := UnsignedWrappedQbftMessage.sign_eq_ok h
  refine ⟨SignedSSVMessage.wellFormed_of_validate hvalidate, ?_, ?_, ?_, ?_, ?_⟩
  · rw [hssv, hu.ssvMessage_eq, hmsg, SSVMessage.fromSszBytes_data_consensus]
  · exact hmsg ▸ hu.round_pos
  · intro hmulti
    simp [hids] at hmulti
  · exact hmsg ▸ hu.prepareJustification_eq
  · exact hmsg ▸ hu.roundChangeJustification_eq

theorem UnsignedWrappedQbftMessage.Hashed.sign {hashData : Bytes → Hash256} (hu : u.Hashed hashData)
    (h : u.sign operatorId signature = .ok w) : w.Hashed hashData := by
  obtain ⟨-, -, -, -, hdata, hmsg⟩ := UnsignedWrappedQbftMessage.sign_eq_ok h
  rw [WrappedQbftMessage.Hashed, hdata, hmsg]
  exact hu

namespace Qbft

variable {F D : Type}

def Loopback (q : Qbft F D) (w : WrappedQbftMessage) : Prop :=
  ∃ u ∈ q.sent, ∃ signature, u.sign q.config.operatorId signature = .ok w

def Admissible {K : Type} (ctx : ValidationContext K) (q : Qbft F D) : Event → Prop
  | .receive w => ctx.Validated w ∨ q.Loopback w
  | .endRound => True

variable [LeaderFunction F] [QbftData D]

inductive Reachable {K : Type} (ctx : ValidationContext K) : Qbft F D → Prop where
  | new (config : Config F) (startData : D) (dataValidator : D → D → Bool)
      (identifier : MessageId) : Reachable ctx (Qbft.new config startData dataValidator identifier)
  | step {q : Qbft F D} {e : Event} (hq : Reachable ctx q) (he : q.Admissible ctx e) :
      Reachable ctx (q.apply e)

theorem Transition.static {q q' : Qbft F D} {e : Event} (h : Transition q e q') :
    q'.config = q.config ∧ q'.identifier = q.identifier ∧
      q'.instanceHeight = q.instanceHeight ∧ q'.startData = q.startData ∧
      q'.validStartData = q.validStartData ∧ q'.dataValidator = q.dataValidator := by
  cases h <;> exact ⟨rfl, rfl, rfl, rfl, rfl, rfl⟩

/-! ## The data map and the sent messages -/

/-- Data is valid or the start data, and what was sent is sound. -/
structure Grounded (q : Qbft F D) : Prop where
  instanceHeight_eq : q.instanceHeight = q.config.instanceHeight
  validStartData_eq : q.validStartData = ⟨QbftData.hash q.startData, q.startData⟩
  data_valid : ∀ {h : Hash256} {d : D}, q.data h = some d →
    d = q.startData ∨ q.dataValidator d q.startData = true
  sent_sound : ∀ u ∈ q.sent, u.Sound q.identifier q.instanceHeight

/-- Data is stored under its hash, and what was sent carries data under its hash. -/
structure HashedData (hashData : Bytes → Hash256) (q : Qbft F D) : Prop where
  hash_data : ∀ {h : Hash256} {d : D}, q.data h = some d → QbftData.hash d = h
  sent_hashed : ∀ u ∈ q.sent, u.Hashed hashData

section Messages

variable {hashData : Bytes → Hash256} {q : Qbft F D}

theorem toU64_pos (r : Round) : 0 < r.toU64.toNat := by
  rw [Round.toNat_toU64]
  exact r.pos

omit [LeaderFunction F] [QbftData D] in
theorem sound_unsignedMessage {msgType : QbftMessageType} {data : MessageData}
    {l : ByteLists roundChangeJustificationLength 13}
    {l' : ByteLists prepareJustificationLength 13} (hround : 0 < data.round.toNat)
    (hprepare : msgType ≠ .proposal → l'.toList = [])
    (hroundChange : msgType = .prepare ∨ msgType = .commit → l.toList = []) :
    (q.unsignedMessage msgType data l l').Sound q.identifier q.instanceHeight :=
  ⟨rfl, rfl, rfl, hround, hprepare, hroundChange⟩

omit [LeaderFunction F] [QbftData D] in
theorem sound_vote (t : QbftMessageType) (r : Round) (v : Hash256) :
    ∀ u ∈ [q.unsignedMessage t ⟨0, r.toU64, v, []⟩ VariableList.empty VariableList.empty],
      u.Sound q.identifier q.instanceHeight := by
  intro u hu
  rw [List.mem_singleton.mp hu]
  exact sound_unsignedMessage (toU64_pos r) (by simp) (by simp)

omit [LeaderFunction F] [QbftData D] in
theorem hashed_vote (t : QbftMessageType) (r : Round) (v : Hash256) :
    ∀ u ∈ [q.unsignedMessage t ⟨0, r.toU64, v, []⟩ VariableList.empty VariableList.empty],
      u.Hashed hashData := by
  intro u hu
  rw [List.mem_singleton.mp hu]
  exact fun hne => absurd rfl hne

variable {out : List UnsignedWrappedQbftMessage}

theorem ProposalOut.sound {data : Hash256 → Option D}
    (h : ProposalOut q data out) : ∀ u ∈ out, u.Sound q.identifier q.instanceHeight := by
  cases h with
  | waiting => simp
  | failed hd hleader => simp
  | sent hd hleader hl =>
    intro u hu
    rw [List.mem_singleton.mp hu]
    exact sound_unsignedMessage (q := q) (toU64_pos _) (by simp) (by simp)

omit [LeaderFunction F] in
theorem RoundChangeOut.sound {b b' : Bool}
    (h : RoundChangeOut q b b' out) : ∀ u ∈ out, u.Sound q.identifier q.instanceHeight := by
  cases h with
  | failed hfits => simp
  | sent hl =>
    intro u hu
    rw [List.mem_singleton.mp hu]
    refine sound_unsignedMessage (q := q) ?_ (by simp) (by simp)
    simp only [getMessageData]
    split <;> exact toU64_pos _

omit [LeaderFunction F] in
theorem hashData_fullData (hlaw : QbftData.Lawful D hashData)
    (hdata : ∀ {h : Hash256} {d : D}, q.data h = some d → QbftData.hash d = h) {v : Hash256}
    (hne : ((q.data v).map QbftData.asSszBytes).getD [] ≠ []) :
    hashData (((q.data v).map QbftData.asSszBytes).getD []) = v := by
  cases hd : q.data v with
  | none => simp [hd] at hne
  | some d => simpa [hlaw.hash_eq] using hdata hd

omit [LeaderFunction F] in
theorem RoundChangeOut.hashed (hlaw : QbftData.Lawful D hashData) {b b' : Bool}
    (h : RoundChangeOut q b b' out)
    (hdata : ∀ {v : Hash256} {x : D}, q.data v = some x → QbftData.hash x = v) :
    ∀ u ∈ out, u.Hashed hashData := by
  cases h with
  | failed hfits => simp
  | sent hl =>
    intro u hu
    rw [List.mem_singleton.mp hu]
    change (q.getMessageData .roundChange Hash256.default).fullData ≠ [] →
      hashData (q.getMessageData .roundChange Hash256.default).fullData =
        (q.getMessageData .roundChange Hash256.default).root
    simp only [getMessageData]
    split
    · exact hashData_fullData hlaw hdata
    · simp

omit [LeaderFunction F] in
theorem hash_of_fullData (hlaw : QbftData.Lawful D hashData) {w : WrappedQbftMessage}
    (hw : w.Hashed hashData) {d : D}
    (hd : QbftData.fromSszBytes w.signedMessage.fullData.toList = some d) :
    QbftData.hash d = w.qbftMessage.root := by
  rw [hlaw.hash_of_fromSszBytes hd]
  exact hw (hlaw.ne_nil_of_fromSszBytes hd)

end Messages

section Grounded

variable {hashData : Bytes → Hash256} {q q' : Qbft F D} {e : Event}

omit [LeaderFunction F] [QbftData D] in
theorem data_insertData_cases {h v : Hash256} {d x : D} (hx : (q.insertData h d).data v = some x) :
    v = h ∧ x = d ∨ q.data v = some x := by
  by_cases heq : v = h
  · subst heq
    rw [data_insertData_self] at hx
    exact Or.inl ⟨rfl, (Option.some.inj hx).symm⟩
  · rw [data_insertData_ne _ _ _ heq] at hx
    exact Or.inr hx

variable {data : Hash256 → Option D} {out : List UnsignedWrappedQbftMessage} {v : Hash256}

theorem ProposalOut.data_cases
    (h : ProposalOut q data out) {x : D} (hx : data v = some x) :
    q.data v = some x ∨ q.Proposable v x := by
  cases h with
  | waiting => exact Or.inl hx
  | failed hd hleader =>
    rcases data_insertData_cases hx with ⟨rfl, rfl⟩ | hx
    · exact Or.inr hd
    · exact Or.inl hx
  | sent hd hleader hl =>
    rcases data_insertData_cases hx with ⟨rfl, rfl⟩ | hx
    · exact Or.inr hd
    · exact Or.inl hx

/-- Where new data comes from: a received message, the start data, or a stored
round change. -/
theorem Transition.data_cases (h : Transition q e q') {x : D}
    (hx : q'.data v = some x) :
    q.data v = some x ∨
      (∃ w, e = .receive w ∧ w.qbftMessage.root = v ∧
        QbftData.fromSszBytes w.signedMessage.fullData.toList = some x ∧
        q.dataValidator x q.startData = true) ∨
      (v = q.validStartData.hash ∧ x = q.validStartData.data) ∨
      (QbftData.hash x = v ∧ q.dataValidator x q.startData = true) := by
  cases h with
  | @proposalRepeated w s r d hw hsender =>
    rcases data_insertData_cases hx with ⟨rfl, rfl⟩ | hx
    · exact Or.inr (Or.inl ⟨w, rfl, rfl, hw.data_eq, hw.valid⟩)
    · exact Or.inl hx
  | @proposalStored w s r d c hw hadd hflag hround =>
    rcases data_insertData_cases hx with ⟨rfl, rfl⟩ | hx
    · exact Or.inr (Or.inl ⟨w, rfl, rfl, hw.data_eq, hw.valid⟩)
    · exact Or.inl hx
  | @proposalAccepted w s r d c hw hadd hflag =>
    rcases data_insertData_cases hx with ⟨rfl, rfl⟩ | hx
    · exact Or.inr (Or.inl ⟨w, rfl, rfl, hw.data_eq, hw.valid⟩)
    · exact Or.inl hx
  | @decided w d hw =>
    rcases data_insertData_cases hx with ⟨rfl, rfl⟩ | hx
    · exact Or.inr (Or.inl ⟨w, rfl, rfl, hw.data_eq, hw.valid⟩)
    · exact Or.inl hx
  | roundChangeQuorum hw hadd hbefore hquorum hout hstart =>
    rcases hout.data_cases hx with hx | hstart | ⟨m, -, -, -, -, hhash, hvalid⟩
    · exact Or.inl hx
    · exact Or.inr (Or.inr (Or.inl hstart))
    · exact Or.inr (Or.inr (Or.inr ⟨hhash, hvalid⟩))
  | _ => exact Or.inl hx

theorem Transition.exists_sent (h : Transition q e q') :
    ∃ out, q'.sent = q.sent ++ out ∧ ∀ u ∈ out, u.Sound q.identifier q.instanceHeight := by
  cases h with
  | proposalAccepted hw hadd hflag => exact ⟨_, rfl, sound_vote _ _ _⟩
  | prepared hw hadd hflag hquorum hstate => exact ⟨_, rfl, sound_vote _ _ _⟩
  | roundChangeQuorum hw hadd hbefore hquorum hout hstart => exact ⟨_, rfl, hout.sound⟩
  | roundChangePartial hw hadd hnone hlowest hout => exact ⟨_, rfl, hout.sound⟩
  | timeout hnext hmax hout => exact ⟨_, rfl, hout.sound⟩
  | _ => exact ⟨[], (List.append_nil _).symm, by simp⟩

theorem Grounded.transition (hq : q.Grounded) (h : Transition q e q') : q'.Grounded := by
  obtain ⟨hconfig, hid, hheight, hstart, hvalidStart, hvalidator⟩ := h.static
  refine ⟨?_, ?_, fun {v x} hx => ?_, ?_⟩
  · rw [hheight, hconfig]
    exact hq.instanceHeight_eq
  · rw [hvalidStart, hstart]
    exact hq.validStartData_eq
  · rw [hstart, hvalidator]
    rcases h.data_cases hx with hx | ⟨w, -, -, -, hvalid⟩ | ⟨-, rfl⟩ | ⟨-, hvalid⟩
    · exact hq.data_valid hx
    · exact Or.inr hvalid
    · exact Or.inl (by rw [hq.validStartData_eq])
    · exact Or.inr hvalid
  · obtain ⟨out, hsent, hsound⟩ := h.exists_sent
    rw [hsent, hid, hheight]
    intro u hu
    rcases List.mem_append.mp hu with hu | hu
    · exact hq.sent_sound u hu
    · exact hsound u hu

variable {config : Config F} {startData : D} {dataValidator : D → D → Bool} {identifier : MessageId}

omit [LeaderFunction F] in
theorem data_initial {x : D}
    (hx : (initial config startData dataValidator identifier).data v = some x) :
    v = QbftData.hash startData ∧ x = startData := by
  by_cases heq : v = QbftData.hash startData
  · subst heq
    simp only [initial, Function.update_self, Option.some.injEq] at hx
    exact ⟨rfl, hx.symm⟩
  · simp [initial, heq] at hx

omit [LeaderFunction F] in
theorem proposable_initial {x : D}
    (h : (initial config startData dataValidator identifier).Proposable v x) :
    v = QbftData.hash startData ∧ x = startData := by
  rcases h with h | ⟨m, hm, -⟩
  · exact h
  · cases hm

theorem ProposalOut.data_initial
    (h : ProposalOut (initial config startData dataValidator identifier) data out)
    {x : D} (hx : data v = some x) : v = QbftData.hash startData ∧ x = startData := by
  rcases h.data_cases hx with hx | hx
  · exact Qbft.data_initial hx
  · exact proposable_initial hx

theorem ProposalOut.grounded
    (h : ProposalOut (initial config startData dataValidator identifier) data out) :
    Grounded { initial config startData dataValidator identifier with data := data, sent := out } :=
  ⟨rfl, rfl, fun hx => Or.inl (h.data_initial hx).2, h.sound⟩

theorem ProposalOut.hashed (hlaw : QbftData.Lawful D hashData) (h : ProposalOut q data out)
    (hdata : ∀ {v : Hash256} {x : D}, data v = some x → QbftData.hash x = v) :
    ∀ u ∈ out, u.Hashed hashData := by
  cases h with
  | waiting => simp
  | failed hd hleader => simp
  | sent hd hleader hl =>
    intro u hu
    rw [List.mem_singleton.mp hu]
    exact hashData_fullData (q := q.insertData _ _) hlaw hdata

theorem HashedData.transition (hlaw : QbftData.Lawful D hashData) (hground : q.Grounded)
    (hq : q.HashedData hashData) (hhashed : ∀ w, e = .receive w → w.Hashed hashData)
    (h : Transition q e q') : q'.HashedData hashData := by
  have hdata : ∀ {v : Hash256} {x : D}, q'.data v = some x → QbftData.hash x = v := by
    intro v x hx
    rcases h.data_cases hx with hx | ⟨w, he, rfl, hw, -⟩ | ⟨rfl, rfl⟩ | ⟨hhash, -⟩
    · exact hq.hash_data hx
    · exact hash_of_fullData hlaw (hhashed w he) hw
    · rw [hground.validStartData_eq]
    · exact hhash
  have hout : ∃ out, q'.sent = q.sent ++ out ∧ ∀ u ∈ out, u.Hashed hashData := by
    cases h with
    | proposalAccepted hw hadd hflag => exact ⟨_, rfl, hashed_vote _ _ _⟩
    | prepared hw hadd hflag hquorum hstate => exact ⟨_, rfl, hashed_vote _ _ _⟩
    | roundChangeQuorum hw hadd hbefore hquorum hout hstart =>
      exact ⟨_, rfl, hout.hashed hlaw hdata⟩
    | roundChangePartial hw hadd hnone hlowest hout => exact ⟨_, rfl, hout.hashed hlaw hq.hash_data⟩
    | timeout hnext hmax hout => exact ⟨_, rfl, hout.hashed hlaw hq.hash_data⟩
    | _ => exact ⟨[], (List.append_nil _).symm, by simp⟩
  refine ⟨hdata, ?_⟩
  obtain ⟨out, hsent, hnew⟩ := hout
  rw [hsent]
  intro u hu
  rcases List.mem_append.mp hu with hu | hu
  · exact hq.sent_hashed u hu
  · exact hnew u hu

end Grounded

/-! ## Induction over runs -/

section Induction

variable {K : Type} {ctx : ValidationContext K} {q : Qbft F D}

theorem exists_new (config : Config F) (startData : D) (dataValidator : D → D → Bool)
    (identifier : MessageId) :
    ∃ data out, ProposalOut (initial config startData dataValidator identifier) data out ∧
      Qbft.new config startData dataValidator identifier =
        { initial config startData dataValidator identifier with data := data, sent := out } := by
  obtain ⟨data, out, hout, heq⟩ := exists_startRound
    (q := initial config startData dataValidator identifier) (by simp [initial])
  exact ⟨data, out, hout, heq⟩

omit [LeaderFunction F] in
theorem Admissible.sound (hq : q.Grounded) {w : WrappedQbftMessage}
    (h : q.Admissible ctx (.receive w)) : w.Sound := by
  rcases h with hvalid | ⟨u, hu, signature, hsign⟩
  · exact hvalid.sound
  · exact (hq.sent_sound u hu).sign hsign

theorem Admissible.transition (hq : q.Grounded) {e : Event} (h : q.Admissible ctx e) :
    Transition q e (q.apply e) := by
  cases e with
  | receive w => exact transition_receive (h.sound hq).commit_of_multi
  | endRound => exact transition_endRound q

theorem Reachable.grounded (h : Reachable ctx q) : q.Grounded := by
  induction h with
  | new config startData dataValidator identifier =>
    obtain ⟨data, out, hout, heq⟩ := exists_new config startData dataValidator identifier
    rw [heq]
    exact hout.grounded
  | step hq he ih => exact ih.transition (he.transition ih)

/-- An invariant of runs: it holds of a new instance, and every transition on a
sound message keeps it. -/
theorem Reachable.invariant {P : Qbft F D → Prop}
    (hnew : ∀ (config : Config F) (startData : D) (dataValidator : D → D → Bool)
      (identifier : MessageId) (data : Hash256 → Option D) (out : List UnsignedWrappedQbftMessage),
      ProposalOut (initial config startData dataValidator identifier) data out →
        P { initial config startData dataValidator identifier with data := data, sent := out })
    (hstep : ∀ (q : Qbft F D) (e : Event) (q' : Qbft F D), Reachable ctx q →
      (∀ w, e = .receive w → w.Sound) → Transition q e q' → P q → P q')
    (h : Reachable ctx q) : P q := by
  induction h with
  | new config startData dataValidator identifier =>
    obtain ⟨data, out, hout, heq⟩ := exists_new config startData dataValidator identifier
    rw [heq]
    exact hnew config startData dataValidator identifier data out hout
  | @step q e hq he ih =>
    refine hstep q e _ hq ?_ (he.transition hq.grounded) ih
    rintro w rfl
    exact he.sound hq.grounded

omit [LeaderFunction F] in
theorem Admissible.hashed (hq : q.HashedData ctx.crypto.hashData) {w : WrappedQbftMessage}
    (h : q.Admissible ctx (.receive w)) : w.Hashed ctx.crypto.hashData := by
  rcases h with hvalid | ⟨u, hu, signature, hsign⟩
  · exact hvalid.hashed
  · exact (hq.sent_hashed u hu).sign hsign

theorem Reachable.hashedData (hlaw : QbftData.Lawful D ctx.crypto.hashData)
    (h : Reachable ctx q) : q.HashedData ctx.crypto.hashData := by
  induction h with
  | new config startData dataValidator identifier =>
    obtain ⟨data, out, hout, heq⟩ := exists_new config startData dataValidator identifier
    rw [heq]
    have hdata : ∀ {v : Hash256} {x : D}, data v = some x → QbftData.hash x = v := by
      intro v x hx
      obtain ⟨rfl, rfl⟩ := hout.data_initial hx
      rfl
    exact ⟨hdata, hout.hashed hlaw hdata⟩
  | @step q e hq he ih =>
    refine ih.transition hlaw hq.grounded ?_ (he.transition hq.grounded)
    rintro w rfl
    exact he.hashed ih

inductive ReachableIf (ctx : ValidationContext K) (C : Qbft F D → Event → Prop) :
    Qbft F D → Prop where
  | new (config : Config F) (startData : D) (dataValidator : D → D → Bool)
      (identifier : MessageId) :
      ReachableIf ctx C (Qbft.new config startData dataValidator identifier)
  | step {q : Qbft F D} {e : Event} (hq : ReachableIf ctx C q) (he : q.Admissible ctx e)
      (hC : C q e) : ReachableIf ctx C (q.apply e)

theorem ReachableIf.reachable {C : Qbft F D → Event → Prop} (h : ReachableIf ctx C q) :
    Reachable ctx q := by
  induction h with
  | new config startData dataValidator identifier => exact Reachable.new _ _ _ _
  | step hq he hC ih => exact ih.step he

end Induction

end Qbft

end Anchor
