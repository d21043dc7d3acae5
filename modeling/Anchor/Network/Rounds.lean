import Mathlib
import Anchor.Library.Locking
import Anchor.Network.Genuine
import Anchor.Network.Simulation

/-!
# Rounds of a committee

The faulty operators of a committee cannot move the honest ones to a round that
no honest operator has reached by a timeout of its own.
-/

namespace Anchor

open Ssz

namespace Qbft

variable {F D : Type} [LeaderFunction F] [QbftData D]

/-- The ways to a later round: a justified proposal, round changes of more than
`f` operators for that round or later ones, or a timeout. -/
theorem Transition.round_cases {q q' : Qbft F D} {e : Event}
    (h : Transition q e q') (hc' : q'.ContainersOk) :
    q'.currentRound = q.currentRound ∨
      (∃ w s d, e = .receive w ∧ q.IsProposal w s q'.currentRound d ∧
        q.currentRound < q'.currentRound) ∨
      (∃ A ⊆ q'.config.committee, q'.config.f + 1 ≤ A.card ∧ ∀ a ∈ A, ∃ r, q'.currentRound ≤ r ∧
        ∃ m ∈ q'.roundChangeContainer.getMessagesForRound r, m.signer = a) ∨
      (e = .endRound ∧ q.currentRound < q'.currentRound) := by
  cases h with
  | @proposalAccepted w s r d c hw hadd hflag =>
    rcases hw.fromSigner.currentRound_le.eq_or_lt with heq | hlt
    · exact Or.inl heq.symm
    · exact Or.inr (Or.inl ⟨w, s, d, rfl, hw, hlt⟩)
  | @roundChangeQuorum w s r c data out hw hadd hbefore hquorum hout hstart =>
    refine Or.inr (Or.inr (Or.inl ⟨c.signersWhere r fun _ => true,
      hc'.signersWhere_subset .roundChange r _, ?_, ?_⟩))
    · have hsize : c.quorumSize = q.config.quorumSize := hc'.quorumSize_eq .roundChange
      have hcard := (hc'.wellFormed .roundChange).card_signersWhere r fun _ => true
      rw [List.filter_true] at hcard
      rw [MessageContainer.hasQuorumDisregardingRoot_iff (by
        rw [hsize, Config.quorumSize_eq]
        exact Nat.succ_pos _), hsize, Config.quorumSize_eq] at hquorum
      change q.config.f + 1 ≤ _
      have hcard' : (c.signersWhere r fun _ => true).card =
        (c.getMessagesForRound r).length := hcard
      omega
    · intro a ha
      obtain ⟨m, hm, -, hsigner⟩ := MessageContainer.mem_signersWhere.mp ha
      exact ⟨r, le_rfl, m, hm, hsigner⟩
  | @roundChangePartial w s r r' c b accepted out hw hadd hnone hlowest hout =>
    obtain ⟨-, A, hcard, hA⟩ := MessageContainer.exists_of_lowestPartialQuorumAboveRound hlowest
    have hmem : ∀ a ∈ A, ∃ r'', r' ≤ r'' ∧ ∃ m ∈ c.getMessagesForRound r'', m.signer = a := by
      intro a ha
      obtain ⟨r'', hle, hsender⟩ := hA a ha
      have hsenders : c.senders r'' = _ := (hc'.wellFormed .roundChange).senders_eq r''
      rw [hsenders, List.mem_toFinset] at hsender
      exact ⟨r'', hle, List.mem_map.mp hsender⟩
    refine Or.inr (Or.inr (Or.inl ⟨A, fun a ha => ?_, hcard, hmem⟩))
    obtain ⟨r'', -, m, hm, rfl⟩ := hmem a ha
    rw [Config.committee, List.mem_toFinset]
    exact (hc'.stored .roundChange r'' m hm).mem_committee
  | timeout hnext hmax hout =>
    refine Or.inr (Or.inr (Or.inr ⟨rfl, ?_⟩))
    rw [Round.lt_def, Round.get_of_next hnext]
    exact Nat.lt_succ_self _
  | _ => exact Or.inl rfl

end Qbft

namespace Network

variable {K F D : Type} [LeaderFunction F] [QbftData D]

/-- In the run with these events an honest operator reached a round of at least
`r` by ending a round of its own. -/
def TimedOutTo (N : Network K) (σ : World F D) (es : List (OperatorId × Qbft.Event)) (r : Round) :
    Prop :=
  ∃ es₁ j es₂ ρ, es = es₁ ++ (j, Qbft.Event.endRound) :: es₂ ∧ N.Run N.Bound σ es₁ ρ ∧
    j ∈ N.honest ∧ (ρ j).currentRound < (ρ j).endRound.currentRound ∧
      r ≤ (ρ j).endRound.currentRound

section Rounds

variable {N : Network K} {P : WrappedQbftMessage → Prop} {σ τ υ : World F D} {i : OperatorId}
  {e : Qbft.Event} {es es' : List (OperatorId × Qbft.Event)}

variable {r : Round}

theorem TimedOutTo.snoc (h : N.TimedOutTo σ es r) (x : OperatorId × Qbft.Event) :
    N.TimedOutTo σ (es ++ [x]) r := by
  obtain ⟨es₁, j, es₂, ρ, rfl, hrest⟩ := h
  exact ⟨es₁, j, es₂ ++ [x], ρ, by simp, hrest⟩

theorem exists_honest {A : Finset OperatorId} (hA : A ⊆ N.committee) (hcard : N.f + 1 ≤ A.card) :
    ∃ a ∈ A, a ∈ N.honest := by
  have hfaulty : (N.committee ∩ (N.committee \ N.honest)).card ≤ N.f := by
    rw [Finset.inter_eq_right.mpr Finset.sdiff_subset]
    exact N.card_byzantine_le
  obtain ⟨a, ha, hnot⟩ := Locking.exists_correct_mem hfaulty hA hcard
  refine ⟨a, ha, ?_⟩
  by_contra h
  exact hnot (Finset.mem_sdiff.mpr ⟨hA ha, h⟩)

theorem SentBySigners.round_le (hnode : ∀ i ∈ N.honest, N.Node i (σ i)) {m : SignedSSVMessage}
    (h : N.SentBySigners σ m)
    {s : OperatorId} (hs : s ∈ m.operatorIds.toList) (hhonest : s ∈ N.honest) {msg : QbftMessage}
    (hdecode : QbftMessage.fromSszBytes m.ssvMessage.data.toList = some msg)
    (hround : msg.round = r.toU64) : r ≤ (σ s).currentRound := by
  obtain ⟨u, hu, rfl⟩ := h.exists_sent hnode hs hhonest hdecode
  have hle := ((hnode s hhonest).reachable.sentOk).round_le u hu
  rwa [hround, Qbft.toU64_le_iff] at hle

/-- The round changes in a proposal that an honest operator accepts for a round it
has not reached are genuine. -/
theorem Allowed.proposal_genuine (hnode : ∀ i ∈ N.honest, N.Node i (σ i)) {w : WrappedQbftMessage}
    (he : N.Allowed N.Bound σ i (.receive w)) (hround : w.qbftMessage.round = r.toU64)
    (hlt : (σ i).currentRound < r) :
    ∀ rc ∈ decodedMessages w.qbftMessage.roundChangeJustification, N.SentBySigners σ rc := by
  intro rc hrc
  rcases he.2 with ⟨hw, hbound⟩ | ⟨u, hu, signature, hsign⟩
  · exact hw.justification_genuine hbound hrc
  · obtain ⟨-, -, -, -, -, hmsg⟩ := UnsignedWrappedQbftMessage.sign_eq_ok hsign
    have hle := ((hnode i he.1).reachable.sentOk).round_le u hu
    rw [← hmsg, hround, Qbft.toU64_le_iff] at hle
    exact absurd hlt (not_lt.mpr hle)

theorem Started.currentRound_eq (h : N.Started σ) (hi : i ∈ N.honest) :
    (σ i).currentRound = Round.default := by
  obtain ⟨config, startData, dataValidator, -, -, -, hround, heq⟩ := h i hi
  obtain ⟨data, out, -, hnew⟩ := Qbft.exists_new config startData dataValidator N.identifier
  rw [heq, hnew]
  exact hround

/-- A step to a later round that is no timeout is to a round that some honest
operator had reached. -/
theorem Allowed.round_cases (hnode : ∀ i ∈ N.honest, N.Node i (σ i)) (hgenuine : N.Genuine σ)
    (he : N.Allowed N.Bound σ i e) :
    (∃ a ∈ N.honest, (step σ i e i).currentRound ≤ (σ a).currentRound) ∨
      e = .endRound ∧ (σ i).currentRound < (step σ i e i).currentRound := by
  have hi := he.mem_honest
  have hn := hnode i hi
  have hn' := hn.apply he.admissible
  have ht := hn.transition he.admissible
  rw [step_self]
  rcases ht.round_cases (hn'.reachable.containersOk) with
    hsame | ⟨w, s, d, rfl, hw, hlt⟩ | ⟨A, hA, hcard, hstored⟩ | htimeout
  · exact Or.inl ⟨i, hi, hsame.le⟩
  · have hdefault : Round.default < ((σ i).apply (.receive w)).currentRound :=
      (Round.default_le _).trans_lt hlt
    obtain ⟨Q, hQ, hquorum, hrcs⟩ := Qbft.exists_roundChange_of_justified (hw.justified hdefault)
    rw [hn.quorumSize_eq] at hquorum
    obtain ⟨a, ha, hhonest⟩ := exists_honest (hn.committee_eq ▸ hQ) (show N.f + 1 ≤ Q.card by omega)
    obtain ⟨rc, m, hrc, hsigner, hfor⟩ := hrcs a ha
    have hsent := he.proposal_genuine hnode hw.fromSigner.round_eq hlt rc hrc
    exact Or.inl ⟨a, hhonest, hsent.round_le hnode hsigner hhonest hfor.decoded
      (hfor.round_eq.trans hw.fromSigner.round_eq)⟩
  · rw [hn'.f_eq] at hcard
    obtain ⟨a, ha, hhonest⟩ := exists_honest (hn'.committee_eq ▸ hA) hcard
    obtain ⟨r, hle, m, hm, rfl⟩ := hstored a ha
    have hms := (hn'.reachable.containersOk).stored .roundChange r m hm
    rw [← step_self (i := i)] at hm
    have hsent := hgenuine.stored_step hnode he hi (t := .roundChange) hm
    refine Or.inl ⟨m.signer, hhonest, hle.trans ?_⟩
    exact hsent.round_le hnode (by simp [hms.operatorIds_eq]) hhonest hms.sound.decoded
      hms.round_eq
  · exact Or.inr htimeout

theorem Run.timedOutTo (hstart : N.Started σ)
    (h : N.Run N.Bound σ es τ) {a : OperatorId} (ha : a ∈ N.honest)
    (hr : Round.default < r) (hle : r ≤ (τ a).currentRound) : N.TimedOutTo σ es r := by
  induction h generalizing a with
  | nil =>
    rw [hstart.currentRound_eq ha] at hle
    exact absurd hr (not_lt.mpr hle)
  | @snoc es τ i e hrun he ih =>
    by_cases hai : a = i
    · subst hai
      rcases he.round_cases (hrun.node hstart.node) (hrun.genuine hstart) with
        ⟨b, hb, hb'⟩ | ⟨rfl, hlt⟩
      · exact (ih hb (hle.trans hb')).snoc _
      · rw [step_self] at hle hlt
        exact ⟨es, a, [], τ, rfl, hrun, ha, hlt, hle⟩
    · rw [step_of_ne hai] at hle
      exact (ih ha hle).snoc _

theorem Run.rounds_mono (hnode : ∀ i ∈ N.honest, N.Node i (σ i)) (h : N.Run P σ es τ)
    (hi : i ∈ N.honest) :
    (σ i).currentRound ≤ (τ i).currentRound ∧
      ∀ r, (σ i).lastPreparedRound = some r → ∃ r', (τ i).lastPreparedRound = some r' ∧ r ≤ r' := by
  induction h with
  | nil => exact ⟨le_rfl, fun r hr => ⟨r, hr, le_rfl⟩⟩
  | @snoc es τ j e hrun he ih =>
    by_cases hij : i = j
    · subst hij
      have hn := hrun.node hnode i hi
      have ht := hn.transition he.admissible
      rw [step_self]
      refine ⟨ih.1.trans ht.currentRound_le, fun r hr => ?_⟩
      obtain ⟨r', hr', hle⟩ := ih.2 r hr
      rcases ht.lastPrepared_cases with ⟨hsame, -⟩ | ⟨-, hnew, -⟩
      · exact ⟨r', hsame.trans hr', hle⟩
      · exact ⟨_, hnew, hle.trans ((hn.reachable.preparedOk).round_le r' hr')⟩
    · rw [step_of_ne hij]
      exact ih

/-- The faulty members cannot push rounds: in every run the current and the last
prepared round of an honest instance only grow, the latter never exceeds the
former, and if an instance is in a round after the first, an honest instance has
reached that round or a later one by a timeout of its own. -/
theorem rounds_driven_by_timeouts (hstart : N.Started σ) (hrun : N.Run N.Bound σ es τ)
    (hrun' : N.Run N.Bound τ es' υ)
    (hi : i ∈ N.honest) :
    (τ i).currentRound ≤ (υ i).currentRound ∧
      (∀ r, (τ i).lastPreparedRound = some r → r ≤ (τ i).currentRound ∧
        ∃ r', (υ i).lastPreparedRound = some r' ∧ r ≤ r') ∧
      (Round.default < (υ i).currentRound →
        N.TimedOutTo σ (es ++ es') (υ i).currentRound) := by
  have hnode := hrun.node hstart.node
  obtain ⟨hround, hprepared⟩ := hrun'.rounds_mono hnode hi
  refine ⟨hround, fun r hr => ⟨?_, hprepared r hr⟩, fun hr => ?_⟩
  · exact ((hnode i hi).reachable.preparedOk).round_le r hr
  · exact (hrun.append hrun').timedOutTo hstart hi hr le_rfl

end Rounds

end Network

namespace Sample

open Network.Action in
def preparingScript : List Network.Action :=
  [relay ⟨1⟩ ⟨1⟩ 0, relay ⟨2⟩ ⟨1⟩ 0, relay ⟨3⟩ ⟨1⟩ 0,
    relay ⟨1⟩ ⟨1⟩ 1, relay ⟨1⟩ ⟨2⟩ 0, relay ⟨1⟩ ⟨3⟩ 0, timeout ⟨1⟩]

theorem rounds_preparingScript : ∃ es τ, network3.Run network3.Bound world es τ ∧
    (τ ⟨1⟩).currentRound.get = 2 ∧ (τ ⟨1⟩).lastPreparedRound = some Round.default ∧
    network3.TimedOutTo world es (τ ⟨1⟩).currentRound := by
  obtain ⟨es, τ, hrun, hround, hprepared⟩ := Network.exists_run (N := network3)
    (P := network3.Bound)
    (fun τ => (τ ⟨1⟩).currentRound.get = 2 ∧ (τ ⟨1⟩).lastPreparedRound = some Round.default)
    (show ∃ r ∈ network3.simulate network3.Bound sign world preparingScript, _ by decide +kernel)
  have hlater : Round.default < (τ ⟨1⟩).currentRound := by
    rw [Round.lt_def, hround]
    decide
  exact ⟨es, τ, hrun, hround, hprepared,
    (Network.rounds_driven_by_timeouts started_network3 Network.Run.nil hrun
      (by decide)).2.2 hlater⟩

end Sample

end Anchor
