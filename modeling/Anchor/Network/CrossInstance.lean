import Mathlib
import Anchor.Network.Simulation
import Anchor.Qbft.Progress
import Anchor.Validator.Signing

/-!
# Justifications signed for another instance

The validator compares the identifier of a message with the one it is sent under,
and an instance checks heights, rounds and roots.  Nobody looks at the identifiers
of nested messages, so what was signed for one instance justifies in every other
instance of the same height.
-/

namespace Anchor

open Ssz

/-- A consensus message without a prepared round and without justifications. -/
def plainMessage (identifier : MessageId) (t : QbftMessageType) (height round : UInt64)
    (root : Hash256) : QbftMessage where
  qbftMessageType := t
  height := height
  round := round
  identifier := identifier.toVariableList
  root := root
  dataRound := 0
  roundChangeJustification := VariableList.empty
  prepareJustification := VariableList.empty

theorem exists_ne_identifier (identifier : MessageId) :
    ∃ other : MessageId, other ≠ identifier := by
  refine ⟨⟨identifier.toList.map (· + 1), by simp [identifier.length_eq]⟩, fun heq => ?_⟩
  have hmap : identifier.toList.map (· + 1) = identifier.toList := congrArg FixedBytes.toList heq
  obtain ⟨x, xs, hx⟩ : ∃ x xs, identifier.toList = x :: xs :=
    List.exists_cons_of_length_pos (by simp [identifier.length_eq])
  rw [hx, List.map_cons, List.cons.injEq, add_eq_left] at hmap
  exact absurd hmap.1 (by decide)

theorem length_plainMessage (identifier : MessageId) (t : QbftMessageType) (height round : UInt64)
    (root : Hash256) : (plainMessage identifier t height round root).asSszBytes.length = 132 := by
  rw [QbftMessage.length_asSszBytes]
  simp [plainMessage, MessageId.toVariableList, identifier.length_eq, ByteLists.encode,
    length_encodeList]

def SignedSSVMessage.BoundTo (m : SignedSSVMessage) (identifier : MessageId) : Prop :=
  m.ssvMessage.msgId = identifier ∧
    ∀ msg, QbftMessage.fromSszBytes m.ssvMessage.data.toList = some msg →
      msg.identifier = identifier.toVariableList

theorem decodedMessages_of_encodes {n : ℕ} {messages : List SignedSSVMessage} {l : ByteLists n 13}
    (h : Qbft.Encodes messages l) :
    decodedMessages l = messages.map SignedSSVMessage.withoutFullData := by
  have hl : decodedMessages l =
      (l.toList.map VariableList.toList).filterMap SignedSSVMessage.fromSszBytes := by
    rw [List.filterMap_map]
    rfl
  rw [hl, h, List.filterMap_map, ← List.filterMap_eq_map]
  congr 1
  funext m
  exact SignedSSVMessage.fromSszBytes_asSszBytes _

namespace QbftMessage

def countedPrepares (m : QbftMessage) : List SignedSSVMessage :=
  if m.dataRound = 0 then [] else decodedMessages m.roundChangeJustification

def counted (m : QbftMessage) : List SignedSSVMessage :=
  match m.qbftMessageType with
  | .roundChange => m.countedPrepares
  | .proposal =>
    let roundChanges := (decodedMessages m.roundChangeJustification).filterMap fun rc =>
      QbftMessage.fromSszBytes rc.ssvMessage.data.toList
    decodedMessages m.roundChangeJustification ++
      roundChanges.flatMap countedPrepares ++
      if roundChanges.all fun rc => rc.dataRound = 0 then []
      else decodedMessages m.prepareJustification
  | .prepare | .commit => []

/-- A message that needs a justification: a prepared round change, or a proposal
after the first round. -/
def Justified (m : QbftMessage) : Prop :=
  m.qbftMessageType = .roundChange ∧ m.dataRound ≠ 0 ∨
    m.qbftMessageType = .proposal ∧ 1 < m.round

theorem decodedMessages_subset_counted {m : QbftMessage} (h : m.Justified) :
    decodedMessages m.roundChangeJustification ⊆ m.counted := by
  rcases h with ⟨htype, hprepared⟩ | ⟨htype, -⟩
  · simp [counted, htype, countedPrepares, hprepared]
  · rw [counted, htype, List.append_assoc]
    exact List.subset_append_left _ _

end QbftMessage

namespace Signing

variable {K : Type} {ctx : ValidationContext K} (S : Signing ctx)

def signedByAll (identifier : MessageId) (members : List OperatorId) (msg : QbftMessage) :
    List SignedSSVMessage :=
  members.map fun i => S.signed identifier i msg VariableList.empty

variable {S} {identifier : MessageId} {members : List OperatorId} {t : QbftMessageType}
  {height round : UInt64} {root : Hash256}

theorem map_withoutFullData_signedByAll (msg : QbftMessage) :
    (S.signedByAll identifier members msg).map SignedSSVMessage.withoutFullData =
      S.signedByAll identifier members msg := by
  rw [signedByAll, List.map_map]
  rfl

theorem boundTo_of_mem_signedByAll {m : SignedSSVMessage}
    (hm : m ∈ S.signedByAll identifier members (plainMessage identifier t height round root)) :
    m.BoundTo identifier := by
  obtain ⟨i, -, rfl⟩ := List.mem_map.mp hm
  refine ⟨rfl, fun msg hmsg => ?_⟩
  rw [ssvMessage_signed, SSVMessage.fromSszBytes_data_consensus] at hmsg
  cases hmsg
  rfl

theorem fits_signedByAll {n : ℕ} (hn : 484 ≤ n) (hlength : members.length ≤ 13) :
    Qbft.Fits n
      (S.signedByAll identifier members (plainMessage identifier t height round root)) := by
  refine ⟨fun m hm => ?_, by simpa [signedByAll] using hlength⟩
  obtain ⟨i, -, rfl⟩ := List.mem_map.mp hm
  rw [withoutFullData_signed, length_signed, length_plainMessage, VariableList.toList_empty,
    List.length_nil]
  exact hn

def rejustified (S : Signing ctx) (w : WrappedQbftMessage) (s : OperatorId)
    (l : ByteLists roundChangeJustificationLength 13) : WrappedQbftMessage :=
  let msg : QbftMessage := { w.qbftMessage with
    roundChangeJustification := l
    prepareJustification := VariableList.empty }
  ⟨S.signed w.signedMessage.ssvMessage.msgId s msg w.signedMessage.fullData, msg⟩

theorem validated_rejustified {w : WrappedQbftMessage} {s : OperatorId}
    {l : ByteLists roundChangeJustificationLength 13} (h : ctx.Validated w)
    (hids : w.signedMessage.operatorIds.toList = [s])
    (htype : w.qbftMessage.qbftMessageType = .proposal ∨
      w.qbftMessage.qbftMessageType = .roundChange)
    (hmembers : ∀ i ∈ members, i ∈ ctx.committeeMembers.toList)
    (hl : Qbft.Encodes (S.signedByAll identifier members
      (plainMessage identifier t height round root)) l) :
    ctx.Validated (S.rejustified w s l) := by
  obtain ⟨hwf, hcommittee, hconsensus⟩ := ValidationContext.validateSsvMessage_eq_ok h.validate_eq
  obtain ⟨-, hsigners, hround, -⟩ := ValidationContext.validateConsensusMessage_eq_ok hconsensus
  have hs : s ∈ w.signedMessage.operatorIds.toList := by simp [hids]
  obtain ⟨role, hrole⟩ : ∃ role, w.signedMessage.ssvMessage.msgId.role = some role := by
    cases hrole : w.signedMessage.ssvMessage.msgId.role with
    | some role => exact ⟨role, rfl⟩
    | none =>
      simp only [ValidationContext.validateRoundAndIdentifier, hrole, Option.bind_none] at hround
      split at hround <;> cases hround
  refine ValidationContext.validated_signed S (hcommittee s hs) (hwf.operatorIds_ne_zero s hs)
    hrole ?_ hround ?_
  · rw [← hsigners]
    simp only [ValidationContext.validateSignersAndFullData, hids, operatorIds_signed,
      fullData_signed]
    rfl
  · apply ValidationContext.validateJustificationsWith_of_list
    · exact fun _ => rfl
    · intro hne hne'
      exact absurd htype (not_or.mpr ⟨hne, hne'⟩)
    · rfl
    · apply ValidationContext.validateJustificationList_of_forall
      intro bytes hbytes
      have hmem : bytes.toList ∈ l.toList.map VariableList.toList := List.mem_map_of_mem hbytes
      rw [hl] at hmem
      obtain ⟨m, hm, heq⟩ := List.mem_map.mp hmem
      obtain ⟨i, hi, rfl⟩ := List.mem_map.mp hm
      refine ⟨_, heq.symm, ?_, ?_⟩
      · rw [withoutFullData_signed]
        exact S.verify_signed (hmembers i hi)
      · rw [withoutFullData_signed, ssvMessage_signed, SSVMessage.fromSszBytes_data_consensus]
        exact ValidationContext.validateJustificationsWith_of_plain rfl rfl

end Signing

namespace Qbft

variable {F D : Type}

section Votes

variable {K : Type} {ctx : ValidationContext K} {S : Signing ctx} {q : Qbft F D}
  {identifier : MessageId} {i : OperatorId}

theorem hasQuorum_signedByAll (msg : QbftMessage) :
    q.hasQuorum (S.signedByAll identifier q.config.committeeMembers.toList msg) = true := by
  rw [hasQuorum_iff]
  have hsub : q.config.committee ⊆
      q.uniqueOperators (S.signedByAll identifier q.config.committeeMembers.toList msg) := by
    intro i hi
    rw [Config.committee, List.mem_toFinset] at hi
    exact mem_uniqueOperators.mpr ⟨⟨_, List.mem_map_of_mem hi, by simp⟩, hi⟩
  calc q.config.quorumSize = 2 * q.config.f + 1 := q.config.quorumSize_eq
    _ ≤ q.config.committee.card := by
      rw [q.config.card_committee]
      omega
    _ ≤ _ := Finset.card_le_card hsub

theorem prepareFor_signed (hi : i ∈ q.config.committeeMembers.toList) (r : Round) (v : Hash256) :
    q.PrepareFor r v (S.signed identifier i
      (plainMessage identifier .prepare q.instanceHeight r.toU64 v) VariableList.empty) :=
  ⟨⟨i, rfl, hi⟩, rfl, _, SSVMessage.fromSszBytes_data_consensus _ _, rfl, rfl, rfl, rfl⟩

theorem roundChangeFor_signed (hi : i ∈ q.config.committeeMembers.toList) (msg : QbftMessage) :
    q.RoundChangeFor msg (S.signed identifier i
      (plainMessage identifier .roundChange q.instanceHeight msg.round Hash256.default)
        VariableList.empty)
      (plainMessage identifier .roundChange q.instanceHeight msg.round Hash256.default) :=
  ⟨⟨i, rfl, hi⟩, rfl, SSVMessage.fromSszBytes_data_consensus _ _, rfl, rfl, rfl,
    checkRoundChange_iff.mpr fun h => absurd h (by simp [plainMessage]),
    fun h => absurd h (by simp [plainMessage])⟩

end Votes

variable [LeaderFunction F] [QbftData D] {q : Qbft F D} {w : WrappedQbftMessage}

/-- The instance accepts the message: it is stored, and was not before. -/
def Accepts (q : Qbft F D) (w : WrappedQbftMessage) : Prop :=
  ∃ r, w ∉ (q.container w.qbftMessage.qbftMessageType).getMessagesForRound r ∧
    w ∈ ((q.apply (.receive w)).container w.qbftMessage.qbftMessageType).getMessagesForRound r

theorem Accepts.isRoundChange (h : q.Accepts w)
    (ht : Transition q (.receive w) (q.apply (.receive w)))
    (htype : w.qbftMessage.qbftMessageType = .roundChange) :
    ∃ s r, q.IsRoundChange w s r ∧ s ∉ q.roundChangeContainer.senders r := by
  obtain ⟨r, hbefore, hafter⟩ := h
  rw [htype] at hbefore hafter
  have hnew : ∀ {s : OperatorId} {r' : Round} {c : MessageContainer} {b : Bool},
      q.roundChangeContainer.addMessage r' s w = (c, b) → w ∈ c.getMessagesForRound r →
        s ∉ q.roundChangeContainer.senders r' := by
    intro s r' c b hadd hmem
    cases b with
    | true => exact MessageContainer.notMem_senders_of_addMessage hadd
    | false =>
      rw [MessageContainer.addMessage_false hadd] at hmem
      exact absurd hmem hbefore
  generalize q.apply (.receive w) = q' at *
  cases ht with
  | roundChangeStored hw hadd hold => exact ⟨_, _, hw, hnew hadd hafter⟩
  | roundChangeQuorum hw hadd hbefore' hquorum hout hstart => exact ⟨_, _, hw, hnew hadd hafter⟩
  | roundChangePartial hw hadd hnone hlowest hout => exact ⟨_, _, hw, hnew hadd hafter⟩
  | _ => exact absurd hafter hbefore

theorem Accepts.isProposal (h : q.Accepts w) (ht : Transition q (.receive w) (q.apply (.receive w)))
    (htype : w.qbftMessage.qbftMessageType = .proposal) :
    ∃ s r d, q.IsProposal w s r d ∧ s ∉ q.proposeContainer.senders r ∧
      w.signedMessage.fullData.toList ≠ [] := by
  obtain ⟨r, hbefore, hafter⟩ := h
  rw [htype] at hbefore hafter
  have hdata : ∀ {s : OperatorId} {r' : Round}, q.FromSigner w s r' →
      w.signedMessage.fullData.toList ≠ [] := by
    intro s r' hfrom hnil
    have hsame : q.apply (.receive w) = q := by
      rw [apply, hfrom.receive_eq (hfrom.validateMessage_eq (Or.inl hnil))]
      simp only [dispatch, htype]
    rw [hsame] at hafter
    exact hbefore hafter
  generalize q.apply (.receive w) = q' at *
  cases ht with
  | proposalStored hw hadd hflag hround =>
    exact ⟨_, _, _, hw, MessageContainer.notMem_senders_of_addMessage hadd, hdata hw.fromSigner⟩
  | proposalAccepted hw hadd hflag =>
    exact ⟨_, _, _, hw, MessageContainer.notMem_senders_of_addMessage hadd, hdata hw.fromSigner⟩
  | _ => exact absurd hafter hbefore

omit [QbftData D] in
theorem ContainersOk.notMem_of_notMem_senders (hc : q.ContainersOk) {t : QbftMessageType}
    {r : Round} {s : OperatorId} (hs : s ∉ (q.container t).senders r) (hw : w.signer = s) :
    w ∉ (q.container t).getMessagesForRound r := by
  intro hmem
  rw [(hc.wellFormed t).senders_eq, List.mem_toFinset] at hs
  exact hs (hw ▸ List.mem_map_of_mem hmem)

section Foreign

variable {K : Type} {ctx : ValidationContext K} {S : Signing ctx} {s : OperatorId} {r : Round}
  {l : ByteLists roundChangeJustificationLength 13} {identifier : MessageId}

omit [LeaderFunction F] [QbftData D] in
theorem FromSigner.rejustified (h : q.FromSigner w s r) : q.FromSigner (S.rejustified w s l) s r :=
  ⟨rfl, h.mem_committee, h.height_eq, h.round_eq, h.currentRound_le, h.eq_currentRound⟩

omit [LeaderFunction F] [QbftData D] in
theorem IsRoundChange.rejustified (h : q.IsRoundChange w s r)
    (hl : Encodes (S.signedByAll identifier q.config.committeeMembers.toList
      (plainMessage identifier .prepare q.instanceHeight w.qbftMessage.dataRound
        w.qbftMessage.root)) l) : q.IsRoundChange (S.rejustified w s l) s r := by
  refine ⟨h.fromSigner.rejustified, h.type_eq, h.state_lt,
    checkRoundChange_iff.mpr fun hprepared => ?_⟩
  have hdecode := decodeAll_of_encodes hl
  rw [Signing.map_withoutFullData_signedByAll] at hdecode
  refine ⟨(checkRoundChange_iff.mp h.checked hprepared).1, _, hdecode, hasQuorum_signedByAll _, ?_⟩
  intro m hm
  obtain ⟨i, hi, rfl⟩ := List.mem_map.mp hm
  have hpos : 0 < w.qbftMessage.dataRound.toNat := hprepared
  have hprepare : q.PrepareFor (Round.ofU64 w.qbftMessage.dataRound hpos) w.qbftMessage.root
      (S.signed identifier i _ _) := prepareFor_signed hi _ _
  rwa [Round.toU64_ofU64] at hprepare

theorem IsProposal.rejustified {d : D} (h : q.IsProposal w s r d)
    (hl : Encodes (S.signedByAll identifier q.config.committeeMembers.toList
      (plainMessage identifier .roundChange q.instanceHeight w.qbftMessage.round
        Hash256.default)) l) : q.IsProposal (S.rejustified w s l) s r d := by
  refine ⟨h.fromSigner.rejustified, h.type_eq, h.leader, fun _ => ?_, h.data_eq, h.valid,
    h.awaiting⟩
  have hmap : Checks.mapAll (q.validateRoundChangeJustification (S.rejustified w s l).qbftMessage)
      (S.signedByAll identifier q.config.committeeMembers.toList
        (plainMessage identifier .roundChange q.instanceHeight w.qbftMessage.round
          Hash256.default)) =
      .ok ((S.signedByAll identifier q.config.committeeMembers.toList
        (plainMessage identifier .roundChange q.instanceHeight w.qbftMessage.round
          Hash256.default)).map fun _ => plainMessage identifier .roundChange q.instanceHeight
            w.qbftMessage.round Hash256.default) := by
    apply Checks.mapAll_of_forall
    intro m hm
    obtain ⟨i, hi, rfl⟩ := List.mem_map.mp hm
    exact validateRoundChangeJustification_iff.mpr (roundChangeFor_signed hi _)
  have hdecode := decodeAll_of_encodes hl
  rw [Signing.map_withoutFullData_signedByAll] at hdecode
  refine validateProposalJustifications_iff.mpr
    ⟨_, _, hdecode, hasQuorum_signedByAll _, hmap, fun best hbest => ?_⟩
  obtain ⟨hmem, hprepared⟩ := Pick.mem_of_pick hbest
  obtain ⟨-, -, rfl⟩ := List.mem_map.mp hmem
  simp [plainMessage] at hprepared

/-- The instance has an accepted message counted that was signed elsewhere: any
accepted message can be justified anew by messages for another identifier. -/
theorem exists_foreign (S : Signing ctx) (hq : Reachable ctx q)
    (hmembers : ∀ i ∈ q.config.committeeMembers.toList, i ∈ ctx.committeeMembers.toList)
    (hvalid : ctx.Validated w) (haccepts : q.Accepts w) (hjustified : w.qbftMessage.Justified)
    (identifier : MessageId) :
    ∃ w', ctx.Validated w' ∧ q.Accepts w' ∧ w'.qbftMessage.Justified ∧
      q.hasQuorum (decodedMessages w'.qbftMessage.roundChangeJustification) = true ∧
      ∀ m ∈ decodedMessages w'.qbftMessage.roundChangeJustification, m.BoundTo identifier := by
  have ht : Transition q (.receive w) (q.apply (.receive w)) :=
    transition_receive hvalid.sound.commit_of_multi
  have hlength : q.config.committeeMembers.toList.length ≤ 13 := by
    have hcard := q.config.card_committee_le
    rwa [Config.committee, IndexSet.card_toFinset] at hcard
  have hexists : ∀ t round root, ∃ l : ByteLists roundChangeJustificationLength 13,
      Encodes (S.signedByAll identifier q.config.committeeMembers.toList
        (plainMessage identifier t q.instanceHeight round root)) l := by
    intro t round root
    obtain ⟨l, hl⟩ := exists_tryEncode
      (Signing.fits_signedByAll (n := roundChangeJustificationLength) (by decide) hlength)
      .roundChangeJustificationTooBig .roundChangeJustificationListTooBig
    exact ⟨l, tryEncode_eq_ok hl⟩
  have hcounted : ∀ {t round root} {l : ByteLists roundChangeJustificationLength 13},
      Encodes (S.signedByAll identifier q.config.committeeMembers.toList
        (plainMessage identifier t q.instanceHeight round root)) l →
      q.hasQuorum (decodedMessages l) = true ∧
        ∀ m ∈ decodedMessages l, m.BoundTo identifier := by
    intro t round root l hl
    rw [decodedMessages_of_encodes hl, Signing.map_withoutFullData_signedByAll]
    exact ⟨hasQuorum_signedByAll _, fun m hm => Signing.boundTo_of_mem_signedByAll hm⟩
  rcases hjustified with ⟨htype, hprepared⟩ | ⟨htype, hround⟩
  · obtain ⟨s, r, hw, hnew⟩ := haccepts.isRoundChange ht htype
    obtain ⟨l, hl⟩ := hexists .prepare w.qbftMessage.dataRound w.qbftMessage.root
    refine ⟨S.rejustified w s l, Signing.validated_rejustified hvalid hw.fromSigner.operatorIds_eq
      (Or.inr htype) hmembers hl, ⟨r, ?_, ?_⟩, Or.inl ⟨htype, hprepared⟩, hcounted hl⟩
    · exact hq.containersOk.notMem_of_notMem_senders (t := w.qbftMessage.qbftMessageType)
        (s := s) (by rw [htype]; exact hnew) rfl
    · have hmem := (hw.rejustified hl).mem_apply hnew
      rw [(hw.rejustified hl).type_eq]
      exact hmem
  · obtain ⟨s, r, d, hw, hnew, hne⟩ := haccepts.isProposal ht htype
    obtain ⟨l, hl⟩ := hexists .roundChange w.qbftMessage.round Hash256.default
    refine ⟨S.rejustified w s l, Signing.validated_rejustified hvalid hw.fromSigner.operatorIds_eq
      (Or.inl htype) hmembers hl, ⟨r, ?_, ?_⟩, Or.inr ⟨htype, hround⟩, hcounted hl⟩
    · exact hq.containersOk.notMem_of_notMem_senders (t := w.qbftMessage.qbftMessageType)
        (s := s) (by rw [htype]; exact hnew) rfl
    · have hmem := (hw.rejustified hl).mem_apply hne hnew
      rw [(hw.rejustified hl).type_eq]
      exact hmem

/-- All messages counted in what a reachable instance accepts are signed for this
instance only if it accepts nothing that needs a justification. -/
theorem counted_boundTo_iff (S : Signing ctx) (hq : Reachable ctx q)
    (hmembers : ∀ i ∈ q.config.committeeMembers.toList, i ∈ ctx.committeeMembers.toList) :
    (∀ w, ctx.Validated w → q.Accepts w → w.qbftMessage.Justified →
        ∀ m ∈ w.qbftMessage.counted, m.BoundTo q.identifier) ↔
      ∀ w, ctx.Validated w → q.Accepts w → ¬ w.qbftMessage.Justified := by
  constructor
  · intro hall w hvalid haccepts hjustified
    obtain ⟨identifier, hne⟩ := exists_ne_identifier q.identifier
    obtain ⟨w', hvalid', haccepts', hjustified', hquorum, hbound⟩ :=
      exists_foreign S hq hmembers hvalid haccepts hjustified identifier
    obtain ⟨m, hm⟩ : ∃ m, m ∈ decodedMessages w'.qbftMessage.roundChangeJustification := by
      have hcard := hasQuorum_iff.mp hquorum
      have hpos : 0 < q.config.quorumSize := by
        rw [q.config.quorumSize_eq]
        exact Nat.succ_pos _
      obtain ⟨i, hi⟩ := Finset.card_pos.mp (hpos.trans_le hcard)
      obtain ⟨⟨m, hm, -⟩, -⟩ := mem_uniqueOperators.mp hi
      exact ⟨m, hm⟩
    have hhere := hall w' hvalid' haccepts' hjustified' m
      (QbftMessage.decodedMessages_subset_counted hjustified' hm)
    exact hne ((hbound m hm).1.symm.trans hhere.1)
  · intro hnone w hvalid haccepts hjustified
    exact absurd hjustified (hnone w hvalid haccepts)

end Foreign

end Qbft

namespace Sample

def elsewhere : MessageId := ⟨[0, 0, 0, 0, 1] ++ List.replicate 51 0, by simp⟩

def worldElsewhere : World DefaultLeaderFunction Vote :=
  ⟨fun i => if h : i ∈ members.toList then
      Qbft.new (config i h) ⟨i.val⟩ (fun _ _ => true) elsewhere
    else instanceOf ⟨1⟩ first_mem⟩

def roundChangeElsewhere (i : OperatorId) : SignedSSVMessage :=
  keys.signed elsewhere i (plainMessage elsewhere .roundChange 0 2 Hash256.default)
    VariableList.empty

theorem length_roundChangeElsewhere (i : OperatorId) :
    (roundChangeElsewhere i).asSszBytes.length ≤ roundChangeJustificationLength := by
  rw [roundChangeElsewhere, Signing.length_signed, length_plainMessage, VariableList.toList_empty,
    List.length_nil]
  decide

def foreignMessage : QbftMessage :=
  { plainMessage identifier .proposal 0 2 (QbftData.hash (⟨7⟩ : Vote)) with
    roundChangeJustification := ⟨[⟨1⟩, ⟨3⟩, ⟨4⟩].map fun i =>
      ⟨(roundChangeElsewhere i).asSszBytes, length_roundChangeElsewhere i⟩, by simp⟩ }

def foreign : WrappedQbftMessage :=
  ⟨keys.signed identifier ⟨2⟩ foreignMessage ⟨encodeU64 7, by decide⟩, foreignMessage⟩

theorem validated_foreign : ctx.Validated foreign := by decide +kernel

theorem accepts_foreign : (instanceOf ⟨1⟩ (by decide)).Accepts foreign :=
  ⟨second, by decide +kernel, by decide +kernel⟩

theorem justified_foreign : foreign.qbftMessage.Justified := Or.inr ⟨rfl, by decide⟩

theorem counted_boundTo_instanceOf : ¬ ∀ w, ctx.Validated w →
    (instanceOf ⟨1⟩ (by decide)).Accepts w → w.qbftMessage.Justified →
      ∀ m ∈ w.qbftMessage.counted, m.BoundTo (instanceOf ⟨1⟩ (by decide)).identifier := by
  have hmembers : ∀ i ∈ (instanceOf ⟨1⟩ (by decide)).config.committeeMembers.toList,
      i ∈ ctx.committeeMembers.toList := by
    decide +kernel
  rw [Qbft.counted_boundTo_iff keys (reachable_instanceOf (by decide)) hmembers]
  exact fun hnone => hnone foreign validated_foreign accepts_foreign justified_foreign

/-- Operators 1, 3 and 4 time out in the other instance, and operator 1 accepts a
proposal that their round changes justify here. -/
theorem counted_elsewhere :
    (∀ i ∈ [(⟨1⟩ : OperatorId), ⟨3⟩, ⟨4⟩], ∃ u ∈ ((worldElsewhere i).apply .endRound).sent,
        u.unsignedMessage.ssvMessage = (roundChangeElsewhere i).ssvMessage) ∧
      ctx.Validated foreign ∧ (instanceOf ⟨1⟩ (by decide)).Accepts foreign ∧
      foreign.qbftMessage.Justified ∧
      foreign.qbftMessage.counted = [⟨1⟩, ⟨3⟩, ⟨4⟩].map roundChangeElsewhere ∧
      ∀ m ∈ foreign.qbftMessage.counted, ¬ m.BoundTo identifier := by
  have hcounted : foreign.qbftMessage.counted = [⟨1⟩, ⟨3⟩, ⟨4⟩].map roundChangeElsewhere := by
    decide +kernel
  refine ⟨by decide +kernel, validated_foreign, accepts_foreign, justified_foreign, hcounted,
    fun m hm hbound => ?_⟩
  rw [hcounted] at hm
  obtain ⟨i, -, rfl⟩ := List.mem_map.mp hm
  exact absurd (show elsewhere = identifier from hbound.1) (by decide)

end Sample

end Anchor
