import Mathlib
import Anchor.Qbft.RoundStart

/-!
# Messages that are handled

The converse of the transitions: a message of a committee member for an
acceptable round reaches the handler of its type.
-/

namespace Anchor

open Ssz

namespace Qbft

variable {F D : Type} {q : Qbft F D} {w : WrappedQbftMessage} {s : OperatorId} {r : Round}

theorem FromSigner.checkRound_eq (h : q.FromSigner w s r) : q.checkRound w = .ok () := by
  have hpast : ¬ w.qbftMessage.round < q.currentRound.toU64 := by
    rw [h.round_eq, toU64_lt_iff]
    exact not_lt.mpr h.currentRound_le
  unfold checkRound
  dsimp only
  rw [if_neg (fun hboth => hpast hboth.1)]
  split
  · rename_i hfuture
    rw [h.round_eq, gt_iff_lt, toU64_lt_iff] at hfuture
    have hne : ¬ (w.qbftMessage.qbftMessageType = .prepare ∨
        w.qbftMessage.qbftMessageType = .commit) := by
      intro hvote
      rw [h.eq_currentRound hvote] at hfuture
      exact lt_irrefl _ hfuture
    cases ht : w.qbftMessage.qbftMessageType with
    | proposal => rfl
    | roundChange => rfl
    | prepare => exact absurd (Or.inl ht) hne
    | commit => exact absurd (Or.inr ht) hne
  · rfl

variable [QbftData D]

theorem FromSigner.validateMessage_eq (h : q.FromSigner w s r)
    (hdata : w.signedMessage.fullData.toList = [] ∨
      w.qbftMessage.qbftMessageType = .roundChange) :
    q.validateMessage w = .ok (.hashOnly w.qbftMessage.root, s) := by
  have hmember : q.checkCommittee s = true := (IndexSet.contains_iff _ _).mpr h.mem_committee
  have hskip : w.signedMessage.fullData.toList.isEmpty = true ∨
      w.qbftMessage.qbftMessageType = .roundChange := by
    simpa using hdata
  unfold validateMessage
  simp only [h.checkRound_eq, h.height_eq, ne_eq, not_true_eq_false, if_false, h.operatorIds_eq,
    List.any_cons, List.any_nil, hmember, Bool.not_true, Bool.or_false, Bool.false_eq_true,
    List.length_singleton, gt_iff_lt, lt_self_iff_false, List.head?_cons]
  rw [if_pos hskip]

theorem FromSigner.validateMessage_of_data (h : q.FromSigner w s r) {d : D}
    (hne : w.signedMessage.fullData.toList ≠ [])
    (htype : w.qbftMessage.qbftMessageType ≠ .roundChange)
    (hd : QbftData.fromSszBytes w.signedMessage.fullData.toList = some d)
    (hvalid : q.dataValidator d q.startData = true) :
    q.validateMessage w = .ok (.complete ⟨w.qbftMessage.root, d⟩, s) := by
  have hmember : q.checkCommittee s = true := (IndexSet.contains_iff _ _).mpr h.mem_committee
  have hskip : ¬ (w.signedMessage.fullData.toList.isEmpty = true ∨
      w.qbftMessage.qbftMessageType = .roundChange) := by
    simp [hne, htype]
  unfold validateMessage
  simp only [h.checkRound_eq, h.height_eq, ne_eq, not_true_eq_false, if_false, h.operatorIds_eq,
    List.any_cons, List.any_nil, hmember, Bool.not_true, Bool.or_false, Bool.false_eq_true,
    List.length_singleton, gt_iff_lt, lt_self_iff_false, List.head?_cons]
  rw [if_neg hskip]
  simp only [hd, hvalid, if_true]

variable [LeaderFunction F]

theorem FromSigner.receive_eq (h : q.FromSigner w s r) {content : MessageContent D}
    (hvalidate : q.validateMessage w = .ok (content, s)) :
    q.receive w = ((q.dispatch content s r w).1,
      (q.dispatch content s r w).2.mapError .error) := by
  have hpos : 0 < w.qbftMessage.round.toNat := by
    rw [h.round_eq]
    exact toU64_pos r
  have hr : Round.ofU64 w.qbftMessage.round hpos = r := by
    simp only [h.round_eq, Round.ofU64_toU64]
  unfold receive
  simp only [hvalidate, dif_pos hpos, hr]

theorem IsRoundChange.receive_eq (h : q.IsRoundChange w s r) :
    q.receive w = ((q.receivedRoundChange s r w).1,
      (q.receivedRoundChange s r w).2.mapError .error) := by
  rw [h.fromSigner.receive_eq (h.fromSigner.validateMessage_eq (Or.inr h.type_eq))]
  simp only [dispatch, h.type_eq]

theorem IsVote.receive_commit_eq (h : q.IsVote .commit w s)
    (hdata : w.signedMessage.fullData.toList = []) :
    q.receive w = ((q.receivedCommit s q.currentRound w).1,
      (q.receivedCommit s q.currentRound w).2.mapError .error) := by
  rw [h.fromSigner.receive_eq (h.fromSigner.validateMessage_eq (Or.inl hdata))]
  simp only [dispatch, h.type_eq, h.fromSigner.operatorIds_eq, List.length_singleton, if_true]

/-! ## Round changes -/

theorem IsRoundChange.reachesQuorum (h : q.IsRoundChange w s r)
    (hbefore : q.roundChangeContainer.hasQuorumDisregardingRoot r = false)
    (hafter : (q.roundChangeContainer.addMessage r s w).1.hasQuorumDisregardingRoot r = true) :
    q.ReachesQuorum (.receive w) r := by
  refine ⟨hbefore, ?_⟩
  have hstate : ¬ q.state.toU8 ≥ InstanceState.complete.toU8 := not_le.mpr h.state_lt
  have happly : q.apply (.receive w) = (q.receivedRoundChange s r w).1 := by
    rw [apply, h.receive_eq]
  rw [happly, receivedRoundChange, if_neg hstate]
  simp only [h.checked, hbefore, Bool.false_eq_true, if_false, hafter, if_true]
  obtain ⟨data, out, -, heq⟩ := exists_startRound (q := { q with
    roundChangeContainer := (q.roundChangeContainer.addMessage r s w).1
    state := .roundChangeConsensus
    currentRound := r }) (by simp)
  rw [setRound, heq]
  exact hafter

/-! ## Messages that are stored -/

theorem IsRoundChange.mem_apply (h : q.IsRoundChange w s r)
    (hnew : s ∉ q.roundChangeContainer.senders r) :
    w ∈ (q.apply (.receive w)).roundChangeContainer.getMessagesForRound r := by
  obtain ⟨c, hadd⟩ := MessageContainer.exists_addMessage w hnew
  have hmem : w ∈ c.getMessagesForRound r := by
    rw [MessageContainer.getMessagesForRound_of_addMessage hadd]
    simp
  have hstate : ¬ q.state.toU8 ≥ InstanceState.complete.toU8 := not_le.mpr h.state_lt
  rw [apply, h.receive_eq, receivedRoundChange, if_neg hstate]
  simp only [h.checked, hadd]
  split
  · exact hmem
  split
  · obtain ⟨data, out, -, heq⟩ := exists_startRound (q := { q with
      roundChangeContainer := c
      state := .roundChangeConsensus
      currentRound := r }) (by simp)
    rw [setRound, heq]
    exact hmem
  split
  · exact hmem
  split
  · rename_i r' hr' hlt
    obtain ⟨b, out, -, heq⟩ := exists_sendRoundChange { q with
      roundChangeContainer := c
      state := .sentRoundChange
      currentRound := r'
      proposalAcceptedForCurrentRound := false }
    rw [heq]
    exact hmem
  · exact hmem

theorem IsProposal.mem_apply {d : D} (h : q.IsProposal w s r d)
    (hne : w.signedMessage.fullData.toList ≠ []) (hnew : s ∉ q.proposeContainer.senders r) :
    w ∈ (q.apply (.receive w)).proposeContainer.getMessagesForRound r := by
  obtain ⟨c, hadd⟩ := MessageContainer.exists_addMessage w hnew
  have hmem : w ∈ c.getMessagesForRound r := by
    rw [MessageContainer.getMessagesForRound_of_addMessage hadd]
    simp
  have hvalidate := h.fromSigner.validateMessage_of_data hne (by simp [h.type_eq]) h.data_eq h.valid
  have hstate : ¬ (r = q.currentRound ∧ q.state ≠ .awaitingProposal) :=
    fun hboth => hboth.2 (h.awaiting hboth.1)
  have hjust : (if r > Round.default then q.validateProposalJustifications w.qbftMessage
      else .ok ()) = .ok () := by
    split
    · rename_i hr
      exact h.justified hr
    · rfl
  rw [apply, h.fromSigner.receive_eq hvalidate]
  simp only [dispatch, h.type_eq]
  rw [receivedPropose, if_neg hstate, if_neg (by simp [h.leader]), hjust]
  have hadd' : (q.insertData w.qbftMessage.root d).proposeContainer.addMessage r s w =
    (c, true) := hadd
  simp only [hadd']
  split
  · exact hmem
  · rw [sendPrepare_of_some (d := d) (by simp [insertData])]
    exact hmem

end Qbft

end Anchor
