import Mathlib
import Anchor.Network.Simulation
import Anchor.Qbft.Progress
import Anchor.Qbft.Proposal
import Anchor.Validator.Signing

/-!
# Whether a leader sends its proposal

A round change may be larger on the wire than what fits into the justification of
a proposal, since the validator and the instances look at what its justifications
decode to and not at their size.  The prepares, in contrast, always fit: they carry
no justifications of their own.
-/

namespace Anchor

open Ssz

/-- The prepares among the justifications carry no justifications themselves. -/
def QbftMessage.PlainPrepares (m : QbftMessage) : Prop :=
  ∀ bytes ∈ m.roundChangeJustification.toList, ∀ s p,
    SignedSSVMessage.fromSszBytes bytes.toList = some s →
    QbftMessage.fromSszBytes s.ssvMessage.data.toList = some p → p.qbftMessageType = .prepare →
      p.roundChangeJustification.toList = [] ∧ p.prepareJustification.toList = []

theorem ValidationContext.Validated.plainPrepares {K : Type} {ctx : ValidationContext K}
    {w : WrappedQbftMessage} (h : ctx.Validated w) : w.qbftMessage.PlainPrepares := by
  obtain ⟨-, -, hconsensus⟩ := validateSsvMessage_eq_ok h.validate_eq
  obtain ⟨-, -, -, hjust, -⟩ := validateConsensusMessage_eq_ok hconsensus
  obtain ⟨-, -, -, hlist⟩ := validateJustificationsWith_eq_ok hjust
  intro bytes hbytes s p hs hp htype
  obtain ⟨s', hs', -, hinner⟩ := validateJustificationList_eq_ok hlist bytes hbytes
  cases hs.symm.trans hs'
  simp only [hp] at hinner
  obtain ⟨hprepare, hroundChange, -, -⟩ := validateJustificationsWith_eq_ok hinner
  exact ⟨hroundChange (by simp [htype]) (by simp [htype]), hprepare (by simp [htype])⟩

namespace Qbft

variable {K F D : Type} [LeaderFunction F] [QbftData D]

structure NestedOk (q : Qbft F D) : Prop where
  sent : ∀ u ∈ q.sent, u.qbftMessage.PlainPrepares
  stored : ∀ r, ∀ m ∈ q.roundChangeContainer.getMessagesForRound r, m.qbftMessage.PlainPrepares

section Nested

variable {ctx : ValidationContext K} {q q' : Qbft F D} {e : Event}

omit [QbftData D] in
theorem plainPrepares_of_encodes {msg : QbftMessage} {t : QbftMessageType}
    {ms : List SignedSSVMessage} (hl : Encodes ms msg.roundChangeJustification)
    (hms : ∀ s ∈ ms, ∃ m : WrappedQbftMessage, m.signedMessage = s ∧ ∃ r, q.Stored t r m) :
    msg.PlainPrepares := by
  intro bytes hbytes s p hs hp htype
  have hmem : bytes.toList ∈ msg.roundChangeJustification.toList.map VariableList.toList :=
    List.mem_map_of_mem hbytes
  rw [hl] at hmem
  obtain ⟨s', hs', heq⟩ := List.mem_map.mp hmem
  obtain ⟨m, rfl, r, hstored⟩ := hms s' hs'
  rw [← heq, SignedSSVMessage.fromSszBytes_asSszBytes] at hs
  cases hs
  cases hp.symm.trans hstored.sound.decoded
  exact ⟨hstored.sound.roundChangeJustification_eq (Or.inl htype),
    hstored.sound.prepareJustification_eq (by simp [htype])⟩

omit [LeaderFunction F] [QbftData D] in
theorem mem_getRoundChangeJustifications {s : SignedSSVMessage}
    (h : s ∈ q.getRoundChangeJustifications) :
    ∃ m ∈ q.roundChangeContainer.getMessagesForRound q.currentRound, m.signedMessage = s := by
  unfold getRoundChangeJustifications at h
  dsimp only at h
  split_ifs at h
  · cases h
  · exact List.mem_map.mp h
  · cases h
  · cases h

omit [LeaderFunction F] [QbftData D] in
theorem mem_getRoundChangePrepareJustifications {s : SignedSSVMessage}
    (h : s ∈ q.getRoundChangePrepareJustifications) :
    ∃ r, ∃ m ∈ q.prepareContainer.getMessagesForRound r, m.signedMessage = s := by
  unfold getRoundChangePrepareJustifications at h
  split at h
  · rename_i v r _ _
    dsimp only at h
    split_ifs at h
    · obtain ⟨m, hm, rfl⟩ := List.mem_map.mp h
      exact ⟨r, m, (List.mem_filter.mp hm).1, rfl⟩
    · cases h
  · cases h

variable {out : List UnsignedWrappedQbftMessage}

theorem RoundChangeOut.plainPrepares {b b' : Bool}
    (h : RoundChangeOut q b b' out) (hc : q'.ContainersOk)
    (hsame : q'.prepareContainer = q.prepareContainer) :
    ∀ u ∈ out, u.qbftMessage.PlainPrepares := by
  cases h with
  | failed hfits => simp
  | sent hl =>
    intro u hu
    obtain rfl := List.mem_singleton.mp hu
    refine plainPrepares_of_encodes (q := q') (t := .prepare) hl fun s hs => ?_
    obtain ⟨r, m, hm, rfl⟩ := mem_getRoundChangePrepareJustifications hs
    rw [← hsame] at hm
    exact ⟨m, rfl, r, hc.stored .prepare r m hm⟩

theorem ProposalOut.plainPrepares {data : Hash256 → Option D} (h : ProposalOut q data out)
    (hc : q'.ContainersOk)
    (hsame : q'.roundChangeContainer = q.roundChangeContainer) :
    ∀ u ∈ out, u.qbftMessage.PlainPrepares := by
  cases h with
  | waiting => simp
  | failed hd hleader => simp
  | sent hd hleader hl =>
    intro u hu
    obtain rfl := List.mem_singleton.mp hu
    refine plainPrepares_of_encodes (q := q') (t := .roundChange) hl fun s hs => ?_
    obtain ⟨m, hm, rfl⟩ := mem_getRoundChangeJustifications hs
    have hm' : m ∈ q'.roundChangeContainer.getMessagesForRound q.currentRound := by
      rw [hsame]
      exact hm
    exact ⟨m, rfl, q.currentRound, hc.stored .roundChange _ m hm'⟩

theorem Transition.plainPrepares (h : Transition q e q') (hc' : q'.ContainersOk)
    (hq : ∀ u ∈ q.sent, u.qbftMessage.PlainPrepares) :
    ∀ u ∈ q'.sent, u.qbftMessage.PlainPrepares := by
  have happend : ∀ {out : List UnsignedWrappedQbftMessage},
      (∀ u ∈ out, u.qbftMessage.PlainPrepares) →
        ∀ u ∈ q.sent ++ out, u.qbftMessage.PlainPrepares := by
    intro out hout u hu
    rcases List.mem_append.mp hu with hu | hu
    · exact hq u hu
    · exact hout u hu
  have hvote : ∀ {msgType : QbftMessageType} {data : MessageData},
      ∀ u ∈ [q.unsignedMessage msgType data VariableList.empty VariableList.empty],
        u.qbftMessage.PlainPrepares := by
    intro msgType data u hu bytes hbytes
    rw [List.mem_singleton.mp hu] at hbytes
    cases hbytes
  cases h with
  | proposalAccepted hw hadd hflag => exact happend hvote
  | prepared hw hadd hflag hquorum hstate => exact happend hvote
  | roundChangeQuorum hw hadd hbefore hquorum hout hstart =>
    exact happend (hout.plainPrepares hc' rfl)
  | roundChangePartial hw hadd hnone hlowest hout => exact happend (hout.plainPrepares hc' rfl)
  | timeout hnext hmax hout => exact happend (hout.plainPrepares hc' rfl)
  | _ => exact hq

theorem NestedOk.transition (hq : q.NestedOk) (hc' : q'.ContainersOk) (h : Transition q e q')
    (hw : ∀ w, e = .receive w → w.qbftMessage.PlainPrepares) : q'.NestedOk := by
  refine ⟨h.plainPrepares hc' hq.sent, fun r m hm => ?_⟩
  rcases h.container_cases .roundChange with heq | ⟨w, s, r', b, he, -, -, -, -, hadd⟩
  · have hsame : q'.roundChangeContainer = q.roundChangeContainer := heq
    exact hq.stored r m (hsame ▸ hm)
  · rcases MessageContainer.mem_getMessagesForRound_of_addMessage hadd hm with hm | ⟨-, rfl⟩
    · exact hq.stored r m hm
    · exact hw m he

omit [LeaderFunction F] [QbftData D] in
theorem Admissible.plainPrepares (hq : ∀ u ∈ q.sent, u.qbftMessage.PlainPrepares)
    {w : WrappedQbftMessage} (h : q.Admissible ctx (.receive w)) : w.qbftMessage.PlainPrepares := by
  rcases h with hvalid | ⟨u, hu, signature, hsign⟩
  · exact hvalid.plainPrepares
  · obtain ⟨-, -, -, -, -, hmsg⟩ := UnsignedWrappedQbftMessage.sign_eq_ok hsign
    rw [hmsg]
    exact hq u hu

theorem Reachable.nestedOk (h : Reachable ctx q) : q.NestedOk := by
  induction h with
  | new config startData dataValidator identifier =>
    have hnew : Reachable ctx (Qbft.new config startData dataValidator identifier) :=
      Reachable.new _ _ _ _
    have hc := hnew.containersOk
    obtain ⟨data, out, hout, heq⟩ := exists_new config startData dataValidator identifier
    rw [heq] at hc ⊢
    exact ⟨hout.plainPrepares hc rfl, fun r m hm => by cases hm⟩
  | @step q e hq he ih =>
    refine ih.transition (hq.step he).containersOk (he.transition hq.grounded) ?_
    rintro w rfl
    exact he.plainPrepares ih.sent

end Nested

/-! ## Sending the proposal -/

section Fitting

variable {ctx : ValidationContext K} {q : Qbft F D} {ps : List SignedSSVMessage}
  {v : Option Hash256} {w : WrappedQbftMessage} {r : Round}

omit [LeaderFunction F] [QbftData D] in
theorem PrepareFor.length_le {x : Hash256} {s : SignedSSVMessage} (h : q.PrepareFor r x s)
    (hplain : ∀ p, QbftMessage.fromSszBytes s.ssvMessage.data.toList = some p →
      p.qbftMessageType = .prepare →
        p.roundChangeJustification.toList = [] ∧ p.prepareJustification.toList = []) :
    s.withoutFullData.asSszBytes.length ≤ 484 := by
  obtain ⟨⟨i, hids, -⟩, hsigs, p, hp, htype, -⟩ := h
  obtain ⟨hrc, hprepare⟩ := hplain p hp htype
  exact length_single_le hsigs (by simp [hids]) (length_data_le hp hrc hprepare)

omit [QbftData D] in
theorem HoldsQuorum.fits_choice (h : q.HoldsQuorum) (hchoice : Choice q ps v)
    (hplain : ∀ m ∈ q.roundChanges, m.qbftMessage.PlainPrepares) :
    Fits prepareJustificationLength ps := by
  cases hchoice with
  | own hr hv => exact h.containers.fits_prepareJustifications (by decide)
  | unprepared hnone hbest => exact fits_nil _
  | @highest best ps hnone hbest hps =>
    obtain ⟨hmem, hpos⟩ := pos_of_highestPrepared hbest
    obtain ⟨ps', hps', hquorum⟩ := (h.stored hmem).prepareQuorum hpos
    cases hps.symm.trans hps'
    refine ⟨fun s hs => ?_, (length_of_decodeAll hps).trans_le (VariableList.length_le _)⟩
    obtain ⟨bytes, hbytes, hdecode⟩ := exists_bytes_of_decodeAll hps hs
    have hle := (hquorum.prepares s hs).length_le fun p hp htype =>
      hplain best hmem bytes hbytes s p hdecode hp htype
    exact hle.trans (by decide)

omit [QbftData D] in
theorem HoldsQuorum.fits_roundChanges_iff (h : q.HoldsQuorum) :
    Fits roundChangeJustificationLength q.getRoundChangeJustifications ↔
      ∀ m ∈ q.roundChanges, m.signedMessage.withoutFullData.asSszBytes.length ≤
        roundChangeJustificationLength := by
  rw [h.getRoundChangeJustifications_eq]
  constructor
  · intro hfits m hm
    exact hfits.1 m.signedMessage (List.mem_map_of_mem hm)
  · intro hall
    refine ⟨fun s hs => ?_, ?_⟩
    · obtain ⟨m, hm, rfl⟩ := List.mem_map.mp hs
      exact hall m hm
    · have hlength := h.containers.length_filter_le .roundChange q.currentRound fun _ => true
      rw [List.filter_true] at hlength
      rw [List.length_map]
      exact hlength

theorem ReachesQuorum.sent_of_not_fits (hquorum : q.ReachesQuorum (.receive w) r)
    (hq : Reachable ctx q) (he : q.Admissible ctx (.receive w)) (hr : Round.default < r)
    {m : WrappedQbftMessage} (hm : m ∈ q.roundChangeContainer.getMessagesForRound r ++ [w])
    (hlong : roundChangeJustificationLength < m.signedMessage.withoutFullData.asSszBytes.length) :
    (q.apply (.receive w)).sent = q.sent := by
  obtain ⟨w', c, hw', -, hmsgs, hhold, heq⟩ := hquorum.holdsQuorum hq he hr
  cases hw'
  rw [heq]
  by_cases hleader : q.checkLeader q.config.operatorId r = true
  swap
  · rw [startRound_of_not_leader rfl hleader]
    rfl
  obtain ⟨ps, v, -, hps⟩ := hhold.exists_choice
  rcases startRound_of_leader (q := q.atQuorum c r) rfl hleader with ⟨hwait, -⟩ | ⟨x, d, hstart⟩
  · rw [hwait]
    rfl
  rcases sendProposal_of_choice x d hps with ⟨hrc, -⟩ | ⟨-, hout⟩
  · rw [← hmsgs] at hm
    exact absurd (hhold.fits_roundChanges_iff.mp hrc m hm) (not_le.mpr hlong)
  · rw [hstart, hout]
    rfl

theorem ReachesQuorum.exists_sent_of_fits (hquorum : q.ReachesQuorum (.receive w) r)
    (hq : Reachable ctx q) (he : q.Admissible ctx (.receive w)) (hr : Round.default < r)
    (hleader : q.checkLeader q.config.operatorId r = true)
    (hdata : ∀ m, lastHighestPrepared (q.roundChangeContainer.getMessagesForRound r ++ [w]) =
      some m → q.CarriesData m)
    (hfits : ∀ m ∈ q.roundChangeContainer.getMessagesForRound r ++ [w],
      m.signedMessage.withoutFullData.asSszBytes.length ≤ roundChangeJustificationLength) :
    ∃ u, (q.apply (.receive w)).sent = q.sent ++ [u] ∧
      u.qbftMessage.qbftMessageType = .proposal ∧ u.qbftMessage.round = r.toU64 := by
  obtain ⟨w', c, hw', -, hmsgs, hhold, heq⟩ := hquorum.holdsQuorum hq he hr
  cases hw'
  have hrcs : (q.atQuorum c r).roundChanges =
      q.roundChangeContainer.getMessagesForRound r ++ [w] := hmsgs
  have hplain : ∀ m ∈ (q.atQuorum c r).roundChanges, m.qbftMessage.PlainPrepares := by
    rw [hrcs]
    intro m hm
    rcases List.mem_append.mp hm with hm | hm
    · exact hq.nestedOk.stored r m hm
    · rw [List.mem_singleton.mp hm]
      exact he.plainPrepares hq.nestedOk.sent
  obtain ⟨ps, v, hchoice, hps⟩ := hhold.exists_choice
  rcases startRound_of_leader (q := q.atQuorum c r) rfl hleader with
    ⟨-, m, hm, hmissing⟩ | ⟨x, d, hstart⟩
  · rw [hrcs] at hm
    exact absurd (hdata m hm) hmissing
  rw [heq, hstart]
  rcases sendProposal_of_choice x d hps with ⟨-, -, l, l', hl, hl', hout⟩ | ⟨hnot, -⟩
  · rw [hout]
    exact ⟨_, rfl, rfl, rfl⟩
  · rw [← hrcs, ← hhold.fits_roundChanges_iff] at hfits
    exact absurd ⟨hfits, hhold.fits_choice hchoice hplain⟩ hnot

/-- In every reachable state, a leader that reaches a quorum, and has the highest
prepared value if there is one, sends its proposal exactly if all round changes it
holds fit into it. -/
theorem proposal_sent_iff_fits (hq : Reachable ctx q) (he : q.Admissible ctx (.receive w))
    (hr : Round.default < r) (hleader : q.checkLeader q.config.operatorId r = true)
    (hquorum : q.ReachesQuorum (.receive w) r)
    (hdata : ∀ m, lastHighestPrepared (q.roundChangeContainer.getMessagesForRound r ++ [w]) =
      some m → q.CarriesData m) :
    (∃ u, (q.apply (.receive w)).sent = q.sent ++ [u] ∧
      u.qbftMessage.qbftMessageType = .proposal ∧ u.qbftMessage.round = r.toU64) ↔
    ∀ m ∈ q.roundChangeContainer.getMessagesForRound r ++ [w],
      m.signedMessage.withoutFullData.asSszBytes.length ≤ roundChangeJustificationLength := by
  constructor
  · rintro ⟨u, hsent, -⟩ m hm
    by_contra hlong
    rw [hquorum.sent_of_not_fits hq he hr hm (not_le.mp hlong)] at hsent
    exact absurd hsent (by simp)
  · exact hquorum.exists_sent_of_fits hq he hr hleader hdata

end Fitting

end Qbft

namespace Sample

/-- Operator 2 proposes for the second round once three others left the first. -/
theorem proposal_sent_secondRound : ∃ q : Qbft DefaultLeaderFunction Vote,
    Qbft.Reachable ctx q ∧ q.ReachesQuorum (.receive (secondRound ⟨4⟩)) second ∧
      ∃ u, (q.apply (.receive (secondRound ⟨4⟩))).sent = q.sent ++ [u] ∧
        u.qbftMessage.qbftMessageType = .proposal ∧ u.qbftMessage.round = second.toU64 := by
  obtain ⟨q, hq, hleader, hquorum, hnone, hfits⟩ := Qbft.exists_reachable (Q := fun q =>
      q.checkLeader q.config.operatorId second = true ∧
      q.ReachesQuorum (.receive (secondRound ⟨4⟩)) second ∧
      Qbft.lastHighestPrepared
        (q.roundChangeContainer.getMessagesForRound second ++ [secondRound ⟨4⟩]) = none ∧
      ∀ m ∈ q.roundChangeContainer.getMessagesForRound second ++ [secondRound ⟨4⟩],
        m.signedMessage.withoutFullData.asSszBytes.length ≤ roundChangeJustificationLength)
    (reachable_instanceOf (show (⟨2⟩ : OperatorId) ∈ members.toList by decide))
    (show ∃ q' ∈ Qbft.simulate ctx sign _
      [.deliver (secondRound ⟨1⟩), .deliver (secondRound ⟨3⟩)], _ by decide +kernel)
  have hadmissible : q.Admissible ctx (.receive (secondRound ⟨4⟩)) := Or.inl (by decide +kernel)
  refine ⟨q, hq, hquorum, (Qbft.proposal_sent_iff_fits hq hadmissible (by decide) hleader hquorum
    fun m hm => ?_).mpr hfits⟩
  rw [hnone] at hm
  cases hm

def padding : VariableList UInt8 ssvMessageFullDataLen :=
  ⟨List.replicate 51000 0, by rw [List.length_replicate]; decide⟩

theorem length_padding : padding.toList.length = 51000 := List.length_replicate

def padded : SignedSSVMessage :=
  keys.signed identifier ⟨4⟩ (message .prepare 1 Hash256.default) padding

theorem length_message (t : QbftMessageType) (round : UInt64) (root : Hash256) :
    (message t round root).asSszBytes.length = 132 := by
  have hid : (message t round root).identifier.toList.length = 56 := rfl
  rw [QbftMessage.length_asSszBytes, hid]
  rfl

theorem length_padded : padded.asSszBytes.length = 51484 := by
  rw [padded, Signing.length_signed, length_message, length_padding]

def stuffedMessage : QbftMessage :=
  { message .roundChange 2 Hash256.default with
    roundChangeJustification :=
      ⟨[⟨padded.asSszBytes, by rw [length_padded]; decide⟩], by simp⟩ }

def stuffed : WrappedQbftMessage := signed ⟨4⟩ stuffedMessage

theorem length_stuffed : roundChangeJustificationLength <
    stuffed.signedMessage.withoutFullData.asSszBytes.length := by
  have hlist : (ByteLists.encode stuffedMessage.roundChangeJustification).length = 4 + 51484 := by
    rw [ByteLists.encode, length_encodeList, ← length_padded]
    simp [stuffedMessage]
  have hlength := stuffedMessage.length_asSszBytes
  have hsigned : stuffed.signedMessage.withoutFullData =
      keys.signed identifier ⟨4⟩ stuffedMessage VariableList.empty := rfl
  have hbound : roundChangeJustificationLength = 51852 := rfl
  have hid : stuffedMessage.identifier.toList.length = 56 := rfl
  rw [hsigned, Signing.length_signed, hlength, hlist, hid]
  omega

theorem justifications_stuffed : stuffedMessage.justifications = [padded] := by
  have hdecode := SignedSSVMessage.fromSszBytes_asSszBytes padded
  simp [QbftMessage.justifications, decodedMessages, stuffedMessage, message, hdecode]

theorem validateJustifications_stuffed : ctx.validateJustifications stuffedMessage = .ok () := by
  refine ValidationContext.validateJustificationsWith_of_list (fun _ => rfl)
    (fun _ h => absurd rfl h) rfl ?_
  apply ValidationContext.validateJustificationList_of_forall
  intro bytes hbytes
  rw [List.mem_singleton.mp hbytes]
  refine ⟨padded, rfl, keys.verify_signed (by decide), ?_⟩
  rw [padded, Signing.ssvMessage_signed, SSVMessage.fromSszBytes_data_consensus]
  exact ValidationContext.validateJustificationsWith_of_plain rfl rfl

theorem validated_stuffed : ctx.Validated stuffed := by
  refine ValidationContext.validated_signed keys (i := ⟨4⟩) (by decide) (by decide)
    (show identifier.role = some .committee by decide) ?_ ?_ validateJustifications_stuffed
  · simp [ValidationContext.validateSignersAndFullData, VariableList.empty]
  · rfl

theorem decode_stuffed : QbftMessage.fromSszBytes stuffed.signedMessage.ssvMessage.data.toList =
    some stuffedMessage :=
  SSVMessage.fromSszBytes_data_consensus _ _

theorem decode_padded : QbftMessage.fromSszBytes padded.ssvMessage.data.toList =
    some (message .prepare 1 Hash256.default) :=
  SSVMessage.fromSszBytes_data_consensus _ _

theorem mem_nested_stuffed {m : SignedSSVMessage} (hm : m ∈ stuffed.signedMessage.nested 2) :
    m = stuffed.signedMessage ∨ m = padded := by
  rw [SignedSSVMessage.nested_of_single decode_stuffed justifications_stuffed decode_padded
    rfl] at hm
  rcases List.mem_cons.mp hm with hm | hm
  · exact Or.inl hm
  · exact Or.inr (List.mem_singleton.mp hm)

theorem allowed_stuffed (τ : World DefaultLeaderFunction Vote) :
    network3.Allowed network3.Bound τ ⟨2⟩ (.receive stuffed) := by
  refine ⟨by decide, Or.inl ⟨⟨validated_stuffed, rfl, fun m hm _ _ s hs hhonest => ?_⟩,
    fun m hm => ?_⟩⟩
  · have hsigner : m.operatorIds.toList = [⟨4⟩] := by
      rcases mem_nested_stuffed hm with rfl | rfl <;> rfl
    rw [hsigner, List.mem_singleton] at hs
    rw [hs] at hhonest
    exact absurd hhonest (by decide)
  · rcases mem_nested_stuffed hm with rfl | rfl
    · rw [Network.belongs, decode_stuffed]
      exact decide_eq_true ⟨rfl, rfl, rfl⟩
    · rw [Network.belongs, decode_padded]
      exact decide_eq_true ⟨rfl, rfl, rfl⟩

open Network.Action in
def leavingScript : List Network.Action :=
  [timeout ⟨1⟩, timeout ⟨3⟩, relay ⟨2⟩ ⟨1⟩ 1, relay ⟨2⟩ ⟨3⟩ 0]

/-- The round change of operator 4 completes the quorum of operator 2, which leads
the second round, but no proposal is sent. -/
theorem proposal_withheld_stuffed : network3.Started world ∧
    ∃ es τ, network3.Run network3.Bound world es τ ∧
      network3.Allowed network3.Bound τ ⟨2⟩ (.receive stuffed) ∧
      (τ ⟨2⟩).checkLeader (τ ⟨2⟩).config.operatorId second = true ∧
      (τ ⟨2⟩).ReachesQuorum (.receive stuffed) second ∧
      (∀ m ∈ (τ ⟨2⟩).roundChangeContainer.getMessagesForRound second ++ [stuffed],
        m.qbftMessage.dataRound = 0) ∧
      ((τ ⟨2⟩).apply (.receive stuffed)).sent = (τ ⟨2⟩).sent := by
  refine ⟨started_network3, ?_⟩
  obtain ⟨es, τ, hrun, hmembers, hheight, hround, hstate, hleader, hlength, hsize, hsenders,
      hunprepared⟩ := Network.exists_run (N := network3) (P := network3.Bound)
    (fun τ => (τ ⟨2⟩).config.committeeMembers.toList = members.toList ∧
      (τ ⟨2⟩).instanceHeight = 0 ∧ (τ ⟨2⟩).currentRound ≤ second ∧
      (τ ⟨2⟩).state.toU8 < InstanceState.complete.toU8 ∧
      (τ ⟨2⟩).checkLeader (τ ⟨2⟩).config.operatorId second = true ∧
      ((τ ⟨2⟩).roundChangeContainer.getMessagesForRound second).length = 2 ∧
      (τ ⟨2⟩).roundChangeContainer.quorumSize = 3 ∧
      ⟨4⟩ ∉ (τ ⟨2⟩).roundChangeContainer.senders second ∧
      ∀ m ∈ (τ ⟨2⟩).roundChangeContainer.getMessagesForRound second, m.qbftMessage.dataRound = 0)
    (show ∃ r ∈ network3.simulate network3.Bound sign world leavingScript, _ by decide +kernel)
  have hallowed := allowed_stuffed τ
  have hreach := (hrun.node started_network3.node ⟨2⟩ (by decide)).reachable
  have hpos : 0 < (τ ⟨2⟩).roundChangeContainer.quorumSize := by
    rw [hsize]
    decide
  have hrc : (τ ⟨2⟩).IsRoundChange stuffed ⟨4⟩ second := by
    refine ⟨⟨rfl, ?_, hheight.symm, rfl, hround, fun h => ?_⟩, rfl, hstate, ?_⟩
    · rw [hmembers]
      decide
    · rcases h with h | h <;> cases h
    · exact Qbft.checkRoundChange_iff.mpr fun h => absurd h (by decide)
  have hbefore : (τ ⟨2⟩).roundChangeContainer.hasQuorumDisregardingRoot second = false := by
    by_contra htrue
    have hle := (MessageContainer.hasQuorumDisregardingRoot_iff hpos).mp (by simpa using htrue)
    rw [hsize, hlength] at hle
    omega
  obtain ⟨c, b, hadd⟩ :
      ∃ c b, (τ ⟨2⟩).roundChangeContainer.addMessage second ⟨4⟩ stuffed = (c, b) :=
    ⟨_, _, rfl⟩
  have hb : b = true := by
    cases b with
    | true => rfl
    | false => exact absurd (MessageContainer.mem_senders_of_addMessage_false hadd) hsenders
  subst hb
  have hquorum : (τ ⟨2⟩).ReachesQuorum (.receive stuffed) second := by
    apply hrc.reachesQuorum hbefore
    have hsize' := MessageContainer.quorumSize_of_addMessage hadd
    rw [hadd, MessageContainer.hasQuorumDisregardingRoot_iff (hsize'.symm ▸ hpos),
      MessageContainer.getMessagesForRound_of_addMessage hadd, hsize', hsize, List.length_append,
      hlength, List.length_singleton]
  refine ⟨es, τ, hrun, hallowed, hleader, hquorum, ?_, ?_⟩
  · intro m hm
    rcases List.mem_append.mp hm with hm | hm
    · exact hunprepared m hm
    · rw [List.mem_singleton.mp hm]
      rfl
  · exact hquorum.sent_of_not_fits hreach hallowed.admissible (by decide)
      (List.mem_append_right _ (List.mem_singleton.mpr rfl)) length_stuffed

end Sample

end Anchor
