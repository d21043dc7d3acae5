import Mathlib
import Anchor.Qbft.Run

/-!
# What the containers hold

The checks on justifications only look at the committee and the height, so two
instances of one committee and height agree on them.  Every message in a
container passed the checks of its type for the round it is stored under.
-/

namespace Anchor

open Ssz

namespace Qbft

variable {F D : Type}

/-! ## Instances of one committee -/

structure SameCommittee (q p : Qbft F D) : Prop where
  committee_eq : p.config.committee = q.config.committee
  height_eq : p.instanceHeight = q.instanceHeight

section SameCommittee

variable {q p : Qbft F D}

variable (h : SameCommittee q p)
include h

theorem SameCommittee.mem_iff (a : OperatorId) :
    a ∈ p.config.committeeMembers.toList ↔ a ∈ q.config.committeeMembers.toList := by
  have heq := h.committee_eq
  rw [Config.committee, Config.committee] at heq
  rw [← List.mem_toFinset, heq, List.mem_toFinset]

theorem SameCommittee.quorumSize_eq :
    p.config.quorumSize = q.config.quorumSize := by
  have hcard : p.config.committee.card = q.config.committee.card := by rw [h.committee_eq]
  rw [Config.card_committee, Config.card_committee] at hcard
  rw [Config.quorumSize_eq, Config.quorumSize_eq]
  omega

theorem SameCommittee.checkCommittee_eq (a : OperatorId) :
    p.checkCommittee a = q.checkCommittee a := by
  rw [Bool.eq_iff_iff]
  simp [checkCommittee, h.mem_iff]

theorem SameCommittee.hasQuorum_eq (msgs : List SignedSSVMessage) :
    p.hasQuorum msgs = q.hasQuorum msgs := by
  have hunique : p.uniqueOperators msgs = q.uniqueOperators msgs := by
    simp only [uniqueOperators, h.checkCommittee_eq]
  rw [hasQuorum, hasQuorum, hunique, h.quorumSize_eq]

theorem SameCommittee.isValidPrepareJustification_eq (r : Round)
    (root : Hash256) (m : SignedSSVMessage) :
    p.isValidPrepareJustificationForRoundAndRoot r root m =
      q.isValidPrepareJustificationForRoundAndRoot r root m := by
  simp only [isValidPrepareJustificationForRoundAndRoot, h.checkCommittee_eq, h.height_eq]

theorem SameCommittee.checkRoundChange_eq (m : QbftMessage) :
    p.checkRoundChange m = q.checkRoundChange m := by
  have hvalid : p.isValidPrepareJustificationForRoundAndRoot =
      q.isValidPrepareJustificationForRoundAndRoot := by
    funext r root msg
    exact h.isValidPrepareJustification_eq r root msg
  simp only [checkRoundChange, h.hasQuorum_eq, hvalid]

theorem SameCommittee.validateRoundChangeJustification_eq (m : QbftMessage)
    (rc : SignedSSVMessage) :
    p.validateRoundChangeJustification m rc = q.validateRoundChangeJustification m rc := by
  have hvalid : p.isValidPrepareJustificationForRoundAndRoot =
      q.isValidPrepareJustificationForRoundAndRoot := by
    funext r root msg
    exact h.isValidPrepareJustification_eq r root msg
  simp only [validateRoundChangeJustification, h.checkCommittee_eq, h.hasQuorum_eq, h.height_eq,
    hvalid]

theorem SameCommittee.validateRoundChangeJustifications_eq
    (m : QbftMessage) (best : Option QbftMessage) (rcs : List SignedSSVMessage) :
    p.validateRoundChangeJustifications m best rcs =
      q.validateRoundChangeJustifications m best rcs := by
  induction rcs generalizing best with
  | nil => rfl
  | cons rc rcs ih =>
    simp only [validateRoundChangeJustifications, h.validateRoundChangeJustification_eq, ih]

theorem SameCommittee.validateProposalJustifications_eq (m : QbftMessage) :
    p.validateProposalJustifications m = q.validateProposalJustifications m := by
  have hvalid : p.isValidPrepareJustificationForRoundAndRoot =
      q.isValidPrepareJustificationForRoundAndRoot := by
    funext r root msg
    exact h.isValidPrepareJustification_eq r root msg
  simp only [validateProposalJustifications, h.hasQuorum_eq, hvalid,
    h.validateRoundChangeJustifications_eq]

end SameCommittee

/-! ## Stored messages -/

def container (q : Qbft F D) : QbftMessageType → MessageContainer
  | .proposal => q.proposeContainer
  | .prepare => q.prepareContainer
  | .commit => q.commitContainer
  | .roundChange => q.roundChangeContainer

variable [LeaderFunction F] [QbftData D]

/-- The checks that a message passed before it was stored, by type. -/
def Checked (q : Qbft F D) (w : WrappedQbftMessage) (s : OperatorId) (r : Round) :
    QbftMessageType → Prop
  | .proposal => q.checkLeader s r = true ∧
      (Round.default < r → q.validateProposalJustifications w.qbftMessage = .ok ())
  | .roundChange => q.checkRoundChange w.qbftMessage = .ok ()
  | .prepare | .commit => True

/-- A message as it is found in the container of type `t` under round `r`. -/
structure Stored (q : Qbft F D) (t : QbftMessageType) (r : Round)
    (m : WrappedQbftMessage) : Prop where
  sound : m.Sound
  type_eq : m.qbftMessage.qbftMessageType = t
  round_eq : m.qbftMessage.round = r.toU64
  height_eq : m.qbftMessage.height = q.instanceHeight
  operatorIds_eq : m.signedMessage.operatorIds.toList = [m.signer]
  mem_committee : m.signer ∈ q.config.committeeMembers.toList
  checked : q.Checked m m.signer r t

section Transition

variable {q q' : Qbft F D} {e : Event}

theorem Transition.sameCommittee (h : Transition q e q') : SameCommittee q q' := by
  obtain ⟨hconfig, -, hheight, -⟩ := h.static
  exact ⟨by rw [hconfig], hheight⟩

omit [QbftData D] in
theorem checked_iff_of_eq (hconfig : q'.config = q.config)
    (hheight : q'.instanceHeight = q.instanceHeight) (w : WrappedQbftMessage) (s : OperatorId)
    (r : Round) (t : QbftMessageType) : q'.Checked w s r t ↔ q.Checked w s r t := by
  have hsame : SameCommittee q q' := ⟨by rw [hconfig], hheight⟩
  have hleader : q'.checkLeader s r = q.checkLeader s r := by
    simp only [checkLeader, hconfig, hheight]
  cases t with
  | proposal => simp only [Checked, hleader, hsame.validateProposalJustifications_eq]
  | prepare => rfl
  | commit => rfl
  | roundChange => simp only [Checked, hsame.checkRoundChange_eq]

theorem Transition.currentRound_le (h : Transition q e q') : q.currentRound ≤ q'.currentRound := by
  cases h with
  | proposalAccepted hw hadd hflag => exact hw.fromSigner.currentRound_le
  | roundChangeQuorum hw hadd hbefore hquorum hout hstart => exact hw.fromSigner.currentRound_le
  | roundChangePartial hw hadd hnone hlowest hout =>
    exact (MessageContainer.exists_of_lowestPartialQuorumAboveRound hlowest).1.le
  | timeout hnext hmax hout =>
    rw [Round.le_def, Round.get_of_next hnext]
    exact Nat.le_succ _
  | _ => exact le_rfl

/-- A container changes by at most one message, the one just received. -/
theorem Transition.container_cases (h : Transition q e q') (t : QbftMessageType) :
    q'.container t = q.container t ∨
      ∃ w s r b, e = .receive w ∧ q.FromSigner w s r ∧ w.qbftMessage.qbftMessageType = t ∧
        q.Checked w s r t ∧ (t ≠ .roundChange → r ≤ q'.currentRound) ∧
        (q.container t).addMessage r s w = (q'.container t, b) := by
  cases h with
  | @proposalStored w s r d c hw hadd hflag hround =>
    cases t with
    | proposal =>
      exact Or.inr ⟨w, s, r, true, rfl, hw.fromSigner, hw.type_eq, ⟨hw.leader, hw.justified⟩,
        fun _ => hround.le, hadd⟩
    | _ => exact Or.inl rfl
  | @proposalAccepted w s r d c hw hadd hflag =>
    cases t with
    | proposal =>
      exact Or.inr ⟨w, s, r, true, rfl, hw.fromSigner, hw.type_eq, ⟨hw.leader, hw.justified⟩,
        fun _ => le_rfl, hadd⟩
    | _ => exact Or.inl rfl
  | @prepareStored w s c hw hadd =>
    cases t with
    | prepare =>
      exact Or.inr ⟨w, s, _, true, rfl, hw.fromSigner, hw.type_eq, trivial,
        fun _ => le_rfl, hadd⟩
    | _ => exact Or.inl rfl
  | @prepared w s c v hw hadd hflag hquorum hstate =>
    cases t with
    | prepare =>
      exact Or.inr ⟨w, s, _, true, rfl, hw.fromSigner, hw.type_eq, trivial,
        fun _ => le_rfl, hadd⟩
    | _ => exact Or.inl rfl
  | @commitStored w s c hw hadd hflag hroot =>
    cases t with
    | commit =>
      exact Or.inr ⟨w, s, _, true, rfl, hw.fromSigner, hw.type_eq, trivial,
        fun _ => le_rfl, hadd⟩
    | _ => exact Or.inl rfl
  | @committed w s c v a hw hadd hflag hroot hquorum hstate haggregate =>
    cases t with
    | commit =>
      exact Or.inr ⟨w, s, _, true, rfl, hw.fromSigner, hw.type_eq, trivial,
        fun _ => le_rfl, hadd⟩
    | _ => exact Or.inl rfl
  | @roundChangeStored w s r c b hw hadd hold =>
    cases t with
    | roundChange =>
      exact Or.inr ⟨w, s, r, b, rfl, hw.fromSigner, hw.type_eq, hw.checked, by simp, hadd⟩
    | _ => exact Or.inl rfl
  | @roundChangeQuorum w s r c data out hw hadd hbefore hquorum hout hstart =>
    cases t with
    | roundChange =>
      exact Or.inr ⟨w, s, r, true, rfl, hw.fromSigner, hw.type_eq, hw.checked, by simp, hadd⟩
    | _ => exact Or.inl rfl
  | @roundChangePartial w s r r' c b accepted out hw hadd hnone hlowest hout =>
    cases t with
    | roundChange =>
      exact Or.inr ⟨w, s, r, b, rfl, hw.fromSigner, hw.type_eq, hw.checked, by simp, hadd⟩
    | _ => exact Or.inl rfl
  | _ => exact Or.inl (by cases t <;> rfl)

end Transition

/-- The containers are well formed and hold only checked messages; proposals,
prepares and commits are stored for no round above the current one. -/
structure ContainersOk (q : Qbft F D) : Prop where
  quorumSize_eq : ∀ t, (q.container t).quorumSize = q.config.quorumSize
  wellFormed : ∀ t, (q.container t).WellFormed
  stored : ∀ t r m, m ∈ (q.container t).getMessagesForRound r → q.Stored t r m
  round_le : ∀ t r m, t ≠ .roundChange → m ∈ (q.container t).getMessagesForRound r →
    r ≤ q.currentRound

section Invariant

variable {K : Type} {ctx : ValidationContext K} {q q' : Qbft F D}
  {e : Event}

omit [QbftData D] in
theorem ContainersOk.congr (hq : q.ContainersOk) (hconfig : q'.config = q.config)
    (hheight : q'.instanceHeight = q.instanceHeight)
    (hcontainer : ∀ t, q'.container t = q.container t)
    (hround : q'.currentRound = q.currentRound) : q'.ContainersOk := by
  refine ⟨fun t => ?_, fun t => ?_, fun t r m hm => ?_, fun t r m ht hm => ?_⟩
  · rw [hcontainer, hconfig]
    exact hq.quorumSize_eq t
  · rw [hcontainer]
    exact hq.wellFormed t
  · rw [hcontainer] at hm
    obtain ⟨hs, ht, hr, hh, hids, hmem, hcheck⟩ := hq.stored t r m hm
    exact ⟨hs, ht, hr, hheight ▸ hh, hids, hconfig ▸ hmem,
      (checked_iff_of_eq hconfig hheight _ _ _ _).mpr hcheck⟩
  · rw [hcontainer] at hm
    rw [hround]
    exact hq.round_le t r m ht hm

theorem ContainersOk.transition (hq : q.ContainersOk)
    (hsound : ∀ w, e = .receive w → w.Sound) (h : Transition q e q') :
    q'.ContainersOk := by
  obtain ⟨hconfig, -, hheight, -⟩ := h.static
  refine ⟨fun t => ?_, fun t => ?_, fun t r m hm => ?_, fun t r m ht hm => ?_⟩
  · rw [hconfig]
    rcases h.container_cases t with heq | ⟨w, s, r, b, -, -, -, -, -, hadd⟩
    · rw [heq]
      exact hq.quorumSize_eq t
    · rw [MessageContainer.quorumSize_of_addMessage hadd]
      exact hq.quorumSize_eq t
  · rcases h.container_cases t with heq | ⟨w, s, r, b, -, hfrom, -, -, -, hadd⟩
    · rw [heq]
      exact hq.wellFormed t
    · exact (hq.wellFormed t).addMessage hadd hfrom.operatorIds_eq
  · have hold : m ∈ (q.container t).getMessagesForRound r → q'.Stored t r m := by
      intro hm
      obtain ⟨hs, ht, hr, hh, hids, hmem, hchecked⟩ := hq.stored t r m hm
      exact ⟨hs, ht, hr, hheight ▸ hh, hids, hconfig ▸ hmem,
        (checked_iff_of_eq hconfig hheight _ _ _ _).mpr hchecked⟩
    rcases h.container_cases t with heq | ⟨w, s, r', b, he, hfrom, htype, hchecked, -, hadd⟩
    · exact hold (heq ▸ hm)
    · rcases MessageContainer.mem_getMessagesForRound_of_addMessage hadd hm with hm | ⟨rfl, rfl⟩
      · exact hold hm
      · have hsigner := hfrom.signer_eq
        refine ⟨hsound m he, htype, hfrom.round_eq, hheight ▸ hfrom.height_eq, ?_, ?_, ?_⟩
        · rw [hsigner]
          exact hfrom.operatorIds_eq
        · rw [hsigner, hconfig]
          exact hfrom.mem_committee
        · rw [hsigner]
          exact (checked_iff_of_eq hconfig hheight _ _ _ _).mpr hchecked
  · have hmono := h.currentRound_le
    rcases h.container_cases t with heq | ⟨w, s, r', b, -, -, -, -, hle, hadd⟩
    · exact (hq.round_le t r m ht (heq ▸ hm)).trans hmono
    · rcases MessageContainer.mem_getMessagesForRound_of_addMessage hadd hm with hm | ⟨rfl, -⟩
      · exact (hq.round_le t r m ht hm).trans hmono
      · exact hle ht

theorem containersOk_initial (config : Config F) (startData : D) (dataValidator : D → D → Bool)
    (identifier : MessageId) (data : Hash256 → Option D) (out : List UnsignedWrappedQbftMessage) :
    ContainersOk { initial config startData dataValidator identifier with
      data := data, sent := out } := by
  have hcontainer : ∀ t, container { initial config startData dataValidator identifier with
      data := data, sent := out } t = MessageContainer.new config.quorumSize := by
    intro t
    cases t <;> rfl
  refine ⟨fun t => ?_, fun t => ?_, fun t r m hm => ?_, fun t r m _ hm => ?_⟩
  · rw [hcontainer]
    rfl
  · rw [hcontainer]
    exact MessageContainer.wellFormed_new _
  · rw [hcontainer] at hm
    cases hm
  · rw [hcontainer] at hm
    cases hm

theorem Reachable.containersOk (h : Reachable ctx q) : q.ContainersOk := by
  refine h.invariant ?_ ?_
  · intro config startData dataValidator identifier data out _
    exact containersOk_initial config startData dataValidator identifier data out
  · intro q e q' _ hsound ht hq
    exact hq.transition hsound ht

end Invariant

end Qbft

end Anchor
