import Mathlib
import Anchor.Network.Rounds

/-!
# Non-equivocation

An honest operator sends at most one message of each type in a round.  For votes
and round changes this holds of every instance by itself; a second proposal for
the first round is ruled out because no round change quorum can form for it.
-/

namespace Anchor

open Ssz

theorem length_filter_le_one {α : Type*} {R : α → α → Prop} {p : α → Bool} {l : List α}
    (h : l.Pairwise R) (hp : ∀ a b, R a b → p a = true → p b = true → False) :
    (l.filter p).length ≤ 1 := by
  have hfilter := h.filter p
  have hmem : ∀ a ∈ l.filter p, p a = true := fun a ha => (List.mem_filter.mp ha).2
  match hl : l.filter p with
  | [] => simp
  | [a] => simp
  | a :: b :: rest =>
    rw [hl] at hfilter hmem
    exact (hp a b (List.rel_of_pairwise_cons hfilter (by simp)) (hmem a (by simp))
      (hmem b (by simp))).elim

namespace Network

variable {K F D : Type} [LeaderFunction F] [QbftData D] {N : Network K} {σ τ : World F D}
  {i : OperatorId} {es : List (OperatorId × Qbft.Event)}

/-- No round change quorum forms for the first round: honest operators send round
changes for later rounds only. -/
theorem Genuine.no_roundChangeQuorum (hnode : ∀ i ∈ N.honest, N.Node i (σ i)) (h : N.Genuine σ)
    (hi : i ∈ N.honest) :
    (σ i).roundChangeContainer.hasQuorumDisregardingRoot Round.default = false := by
  rw [Bool.eq_false_iff]
  intro hquorum
  have hn := hnode i hi
  have hc := hn.reachable.containersOk
  have hsize : (σ i).roundChangeContainer.quorumSize = 2 * N.f + 1 :=
    (hc.quorumSize_eq .roundChange).trans hn.quorumSize_eq
  rw [MessageContainer.hasQuorumDisregardingRoot_iff (by omega), hsize] at hquorum
  have hcard := (hc.wellFormed .roundChange).card_signersWhere Round.default fun _ => true
  rw [List.filter_true] at hcard
  have hsub := hc.signersWhere_subset .roundChange Round.default fun _ => true
  rw [hn.committee_eq] at hsub
  obtain ⟨a, ha, hhonest⟩ := exists_honest hsub (by
    rw [hcard]
    exact le_trans (by omega) hquorum)
  obtain ⟨m, hm, -, rfl⟩ := MessageContainer.mem_signersWhere.mp ha
  have hms := hc.stored .roundChange Round.default m hm
  obtain ⟨u, hu, heq⟩ := h.exists_sent hnode hi hm hhonest
  have hgt := ((hnode _ hhonest).reachable.sentOk).roundChange_gt u hu
    (by rw [heq, hms.type_eq])
  rw [heq, hms.round_eq, (hnode _ hhonest).round_eq] at hgt
  exact absurd hgt (UInt64.lt_irrefl _)

/-- In every run an honest instance sends at most one message of each type in a
round.  Its prepare is for a proposal by the leader of the round, its commit for
the value it prepared, and it votes for no round that it has left. -/
theorem no_equivocation (hstart : N.Started σ)
    (hrun : N.Run (fun _ => True) σ es τ) (hi : i ∈ N.honest) :
    (∀ (t : QbftMessageType) (r : Round), ((τ i).sent.filter fun u =>
      u.qbftMessage.qbftMessageType = t ∧ u.qbftMessage.round = r.toU64).length ≤ 1) ∧
    (∀ (r : Round) (v : Hash256), (τ i).Sent .prepare r v →
      ∃ m ∈ (τ i).proposeContainer.getMessagesForRound r, m.qbftMessage.root = v ∧
        m.qbftMessage.qbftMessageType = .proposal ∧ m.qbftMessage.round = r.toU64 ∧
        m.signedMessage.operatorIds.toList = [m.signer] ∧
        (τ i).checkLeader m.signer r = true) ∧
    (∀ (r : Round) (v : Hash256), (τ i).Sent .commit r v → (τ i).Sent .prepare r v) ∧
    (τ i).sent.Pairwise fun a b => a.qbftMessage.qbftMessageType = .roundChange →
      b.qbftMessage.qbftMessageType = .prepare ∨ b.qbftMessage.qbftMessageType = .commit →
        ¬ b.qbftMessage.round < a.qbftMessage.round := by
  have hnode := hrun.node hstart.node
  have hn := hnode i hi
  have hok := hn.reachable.sentOk
  have hproposals := (hn.reachable.proposalsOk).unique (by
    rw [hn.round_eq]
    exact (hrun.genuine hstart).no_roundChangeQuorum hnode hi)
  refine ⟨fun t r => ?_, fun r v hs => ?_, fun r v hs => (hok.committed r v hs).1, ?_⟩
  · refine length_filter_le_one (hok.ordered.and hproposals) ?_
    rintro a b ⟨⟨hdistinct, -⟩, hproposal⟩ ha hb
    obtain ⟨hta, hra⟩ := of_decide_eq_true ha
    obtain ⟨htb, hrb⟩ := of_decide_eq_true hb
    by_cases ht : t = .proposal
    · exact hproposal (hta.trans ht) (htb.trans ht) (hra.trans hrb.symm)
    · exact hdistinct (hta.trans htb.symm) (hta ▸ ht) (hra.trans hrb.symm)
  · obtain ⟨m, hm, hroot⟩ := hok.proposal r v hs
    have hms := (hn.reachable.containersOk).stored .proposal r m hm
    exact ⟨m, hm, hroot, hms.type_eq, hms.round_eq, hms.operatorIds_eq, hms.checked.1⟩
  · exact hok.ordered.imp fun h ha hb => UInt64.not_lt.mpr (h.2 ha hb)

end Network

namespace Sample

theorem no_equivocation_preparingScript : ∃ es τ,
    network3.Run (fun _ => True) world es τ ∧ (τ ⟨1⟩).sent.length = 4 ∧
    ∀ (t : QbftMessageType) (r : Round), ((τ ⟨1⟩).sent.filter fun u =>
      u.qbftMessage.qbftMessageType = t ∧ u.qbftMessage.round = r.toU64).length ≤ 1 := by
  obtain ⟨es, τ, hrun, hlength⟩ := Network.exists_run (N := network3) (P := fun _ => True)
    (fun τ => (τ ⟨1⟩).sent.length = 4)
    (show ∃ r ∈ network3.simulate (fun _ => True) sign world preparingScript, _ by decide +kernel)
  exact ⟨es, τ, hrun, hlength, (Network.no_equivocation started_network3 hrun (by decide)).1⟩

end Sample

end Anchor
