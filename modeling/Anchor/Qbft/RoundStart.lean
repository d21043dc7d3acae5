import Mathlib
import Anchor.Qbft.Sent

/-!
# Reaching a round change quorum

A round after the first is started by the round change that completes a quorum
for it.  This module says what that step is, and what the new leader holds when
it makes it.
-/

namespace Anchor

open Ssz

namespace Qbft

variable {F D : Type} [LeaderFunction F] [QbftData D]

def ReachesQuorum (q : Qbft F D) (e : Event) (r : Round) : Prop :=
  q.roundChangeContainer.hasQuorumDisregardingRoot r = false ∧
    (q.apply e).roundChangeContainer.hasQuorumDisregardingRoot r = true

instance (q : Qbft F D) (e : Event) (r : Round) : Decidable (q.ReachesQuorum e r) :=
  inferInstanceAs (Decidable (_ ∧ _))

section Step

variable {K : Type} {ctx : ValidationContext K} {q q' : Qbft F D} {e : Event} {r : Round}

theorem Transition.reachesQuorum (h : Transition q e q')
    (hbefore : q.roundChangeContainer.hasQuorumDisregardingRoot r = false)
    (hafter : q'.roundChangeContainer.hasQuorumDisregardingRoot r = true) :
    ∃ w s c, e = .receive w ∧ q.IsRoundChange w s r ∧
      q.roundChangeContainer.addMessage r s w = (c, true) ∧
      c.hasQuorumDisregardingRoot r = true ∧
      q' = startRound { q with
        roundChangeContainer := c, state := .roundChangeConsensus, currentRound := r } := by
  have hsame : ∀ {c c' : MessageContainer} {s : OperatorId} {w : WrappedQbftMessage} {b : Bool}
      {r' : Round}, c.addMessage r' s w = (c', b) → c.hasQuorumDisregardingRoot r = false →
        c'.hasQuorumDisregardingRoot r = true → r' = r := by
    intro c c' s w b r' hadd hbefore hafter
    by_contra hne
    rw [MessageContainer.hasQuorumDisregardingRoot_of_addMessage_ne hadd (Ne.symm hne),
      hbefore] at hafter
    cases hafter
  cases h with
  | @roundChangeStored w s r' c b hw hadd hold =>
    obtain rfl := hsame hadd hbefore hafter
    rcases hold with hold | hold
    · rw [hbefore] at hold
      cases hold
    · rw [show c.hasQuorumDisregardingRoot r' = true from hafter] at hold
      cases hold
  | @roundChangeQuorum w s r' c data out hw hadd hbefore' hquorum hout hstart =>
    obtain rfl := hsame hadd hbefore hafter
    exact ⟨w, s, c, rfl, hw, hadd, hquorum, hstart.symm⟩
  | @roundChangePartial w s r' r'' c b accepted out hw hadd hnone hlowest hout =>
    obtain rfl := hsame hadd hbefore hafter
    rw [show c.hasQuorumDisregardingRoot r' = true from hafter] at hnone
    cases hnone
  | _ =>
    rw [show q.roundChangeContainer.hasQuorumDisregardingRoot r = true from hafter] at hbefore
    cases hbefore

theorem ReachesQuorum.exists_startRound (h : q.ReachesQuorum e r) (hq : Reachable ctx q)
    (he : q.Admissible ctx e) :
    ∃ w s c, e = .receive w ∧ q.IsRoundChange w s r ∧
      q.roundChangeContainer.addMessage r s w = (c, true) ∧
      c.hasQuorumDisregardingRoot r = true ∧
      q.apply e = startRound { q with
        roundChangeContainer := c, state := .roundChangeConsensus, currentRound := r } :=
  (he.transition hq.grounded).reachesQuorum h.1 h.2

end Step

end Qbft

end Anchor
