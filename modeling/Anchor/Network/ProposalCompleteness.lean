import Mathlib
import Anchor.Network.Simulation
import Anchor.Qbft.Proposal

/-!
# Which proposals are accepted

A new leader proposes what it prepared itself, or else the value of the highest
prepared round change, and attaches all round changes it holds.  The receivers
want every prepared round change to have the proposed root, and the prepares to be
for the highest of their rounds.
-/

namespace Anchor

open Ssz

namespace Qbft

variable {K F D : Type} [LeaderFunction F] [QbftData D]

/-- The event delivers a round change that leaves the leader of round `r` with
round changes, and prepares of its own, that agree on a value. -/
def AlignedOn (q : Qbft F D) (e : Event) (r : Round) : Prop :=
  ∃ w, e = .receive w ∧ q.Aligned (q.roundChangeContainer.getMessagesForRound r ++ [w])

/-- Whenever the leader of a round after the first reaches a quorum, everything
it holds agrees. -/
def AlignedQuorums (q : Qbft F D) (e : Event) : Prop :=
  ∀ r, Round.default < r → q.checkLeader q.config.operatorId r = true → q.ReachesQuorum e r →
    q.AlignedOn e r

section Accepted

variable {ctx : ValidationContext K} {q p : Qbft F D} {e : Event} {r : Round}
  {u : UnsignedWrappedQbftMessage}

theorem reachesQuorum_of_proposal (hq : Reachable ctx q) (he : q.Admissible ctx e)
    (hsent : (q.apply e).sent = q.sent ++ [u]) (htype : u.qbftMessage.qbftMessageType = .proposal)
    (hround : u.qbftMessage.round = r.toU64) : q.ReachesQuorum e r := by
  rcases (he.transition hq.grounded).emission hq.containersOk with hsame | ⟨u', hu', hr, hemission⟩
  · rw [hsame] at hsent
    exact absurd hsent (by simp)
  · rw [hu'] at hsent
    obtain rfl := List.singleton_inj.mp (List.append_cancel_left hsent)
    obtain rfl := Round.toU64_injective (hround.symm.trans hr)
    cases hemission with
    | proposal _ hbefore hquorum _ => exact ⟨hbefore, hquorum⟩
    | prepare htype' _ _ => simp [htype] at htype'
    | commit htype' _ _ _ _ => simp [htype] at htype'
    | roundChange htype' _ _ _ _ => simp [htype] at htype'

theorem accepts_iff_alignedOn (hq : Reachable ctx q) (he : q.Admissible ctx e)
    (hr : Round.default < r) (hquorum : q.ReachesQuorum e r)
    (hsent : (q.apply e).sent = q.sent ++ [u]) (hp : SameCommittee q p) :
    p.validateProposalJustifications u.qbftMessage = .ok () ↔ q.AlignedOn e r := by
  obtain ⟨w, c, ps, v, x, rfl, hmsgs, hhold, hchoice, -, hround, hroot, hl, hl'⟩ :=
    hquorum.exists_choice_of_sent hq he hr hsent
  have hsame : SameCommittee (q.atQuorum c r) p := ⟨hp.committee_eq, hp.height_eq⟩
  have hrcs : (q.atQuorum c r).roundChanges =
      q.roundChangeContainer.getMessagesForRound r ++ [w] := hmsgs
  rw [hsame.validateProposalJustifications_eq, hhold.accepts_iff hchoice hround hroot hl hl', hrcs]
  constructor
  · intro haligned
    exact ⟨w, rfl, haligned.root_eq, haligned.own⟩
  · rintro ⟨w', hw', haligned⟩
    cases hw'
    exact ⟨haligned.root_eq, haligned.own⟩

/-- Along a run in which everything a leader holds agrees, all its proposals after
the first round are accepted. -/
theorem ReachableIf.accepts (h : ReachableIf ctx AlignedQuorums q)
    (hfirst : q.config.round = Round.default) (hu : u ∈ q.sent)
    (htype : u.qbftMessage.qbftMessageType = .proposal) (hround : u.qbftMessage.round = r.toU64)
    (hr : Round.default < r) (hp : SameCommittee q p) :
    p.validateProposalJustifications u.qbftMessage = .ok () := by
  induction h with
  | new config startData dataValidator identifier =>
    obtain ⟨data, out, hout, heq⟩ := exists_new config startData dataValidator identifier
    rw [heq] at hu hfirst
    rcases hout.cases_out with rfl | ⟨u', rfl, -, hround', -⟩
    · cases hu
    · rw [List.mem_singleton.mp hu] at hround
      obtain rfl := Round.toU64_injective (hround.symm.trans hround')
      exact absurd hr (by simp [initial, show config.round = Round.default from hfirst])
  | @step q e hq he haligned ih =>
    have ht := he.transition hq.reachable.grounded
    have hsame := ht.sameCommittee
    have hp' : SameCommittee q p := ⟨hp.committee_eq.trans hsame.committee_eq,
      hp.height_eq.trans hsame.height_eq⟩
    rcases ht.emission hq.reachable.containersOk with hold | ⟨u', hnew, -, -⟩
    · exact ih (ht.static.1 ▸ hfirst) (hold ▸ hu) hp'
    · rw [hnew] at hu
      rcases List.mem_append.mp hu with hu | hu
      · exact ih (ht.static.1 ▸ hfirst) hu hp'
      · obtain rfl := List.mem_singleton.mp hu
        have hquorum := reachesQuorum_of_proposal hq.reachable he hnew htype hround
        obtain ⟨-, -, -, -, -, -, -, -, -, hleader, -⟩ :=
          hquorum.exists_choice_of_sent hq.reachable he hr hnew
        exact (accepts_iff_alignedOn hq.reachable he hr hquorum hnew hp').mpr
          (haligned r hr hleader hquorum)

/-- Every proposal after the first round is accepted by the committee exactly if
the round changes and the prepares its leader held when it sent it agree; so in a
run in which they always do, all of them are accepted. -/
theorem proposal_accepted_iff_aligned (hq : Reachable ctx q) :
    (∀ e u r, q.Admissible ctx e → (q.apply e).sent = q.sent ++ [u] →
      u.qbftMessage.qbftMessageType = .proposal → u.qbftMessage.round = r.toU64 →
      Round.default < r → ∀ p, SameCommittee q p →
        (p.validateProposalJustifications u.qbftMessage = .ok () ↔ q.AlignedOn e r)) ∧
    (ReachableIf ctx AlignedQuorums q → q.config.round = Round.default → ∀ u ∈ q.sent,
      u.qbftMessage.qbftMessageType = .proposal → ∀ r, u.qbftMessage.round = r.toU64 →
      Round.default < r → ∀ p, SameCommittee q p →
        p.validateProposalJustifications u.qbftMessage = .ok ()) := by
  constructor
  · intro e u r he hsent htype hround hr p hp
    exact accepts_iff_alignedOn hq he hr (reachesQuorum_of_proposal hq he hsent htype hround)
      hsent hp
  · intro h hfirst u hu htype r hround hr p hp
    exact h.accepts hfirst hu htype hround hr hp

end Accepted

end Qbft

namespace Sample

/-- Operator 2 proposes for the second round once three others left the first. -/
theorem proposal_accepted_secondRound : ∃ (q : Qbft DefaultLeaderFunction Vote) (e : Qbft.Event)
    (u : UnsignedWrappedQbftMessage), Qbft.Reachable ctx q ∧ q.Admissible ctx e ∧
      (q.apply e).sent = q.sent ++ [u] ∧ u.qbftMessage.qbftMessageType = .proposal ∧
      q.AlignedOn e second := by
  obtain ⟨q, hq, u, hu, hsent, htype, hround, haccept⟩ := Qbft.exists_reachable (Q := fun q =>
      ∃ u ∈ (q.apply (.receive (secondRound ⟨4⟩))).sent,
        (q.apply (.receive (secondRound ⟨4⟩))).sent = q.sent ++ [u] ∧
        u.qbftMessage.qbftMessageType = .proposal ∧
        u.qbftMessage.round = second.toU64 ∧
        q.validateProposalJustifications u.qbftMessage = .ok ())
    (reachable_instanceOf (show (⟨2⟩ : OperatorId) ∈ members.toList by decide))
    (show ∃ q' ∈ Qbft.simulate ctx sign _
      [.deliver (secondRound ⟨1⟩), .deliver (secondRound ⟨3⟩)], _ by decide +kernel)
  have hadmissible : q.Admissible ctx (.receive (secondRound ⟨4⟩)) := Or.inl (by decide +kernel)
  exact ⟨q, _, u, hq, hadmissible, hsent, htype,
    ((Qbft.proposal_accepted_iff_aligned hq).1 _ u _ hadmissible hsent htype hround
      (by decide) q ⟨rfl, rfl⟩).mp haccept⟩

open Network.Action in
/-- Operator 1 prepares its own proposal in the first round and operator 2 its own
in the second; the leader of the third round gets round changes from both. -/
def twoLocksScript : List Network.Action :=
  [relay ⟨1⟩ ⟨1⟩ 0, relay ⟨2⟩ ⟨1⟩ 0, relay ⟨3⟩ ⟨1⟩ 0,
    relay ⟨1⟩ ⟨1⟩ 1, relay ⟨1⟩ ⟨2⟩ 0, relay ⟨1⟩ ⟨3⟩ 0,
    timeout ⟨2⟩, timeout ⟨3⟩, timeout ⟨4⟩,
    relay ⟨2⟩ ⟨2⟩ 1, relay ⟨2⟩ ⟨3⟩ 1, relay ⟨2⟩ ⟨4⟩ 0,
    relay ⟨3⟩ ⟨2⟩ 1, relay ⟨3⟩ ⟨3⟩ 1, relay ⟨3⟩ ⟨4⟩ 0,
    relay ⟨4⟩ ⟨2⟩ 1, relay ⟨4⟩ ⟨3⟩ 1, relay ⟨4⟩ ⟨4⟩ 0,
    relay ⟨2⟩ ⟨2⟩ 2, relay ⟨3⟩ ⟨2⟩ 2, relay ⟨4⟩ ⟨2⟩ 2,
    relay ⟨2⟩ ⟨2⟩ 3, relay ⟨2⟩ ⟨3⟩ 2, relay ⟨2⟩ ⟨4⟩ 1,
    timeout ⟨1⟩, timeout ⟨1⟩, timeout ⟨2⟩, timeout ⟨3⟩,
    relay ⟨3⟩ ⟨1⟩ 4, relay ⟨3⟩ ⟨2⟩ 5, relay ⟨3⟩ ⟨3⟩ 3]

theorem proposal_rejected_twoLocksScript : network4.Started world ∧
    ∃ es τ, network4.Run network4.Bound world es τ ∧ ∃ u ∈ (τ ⟨3⟩).sent,
      u.qbftMessage.qbftMessageType = .proposal ∧ u.qbftMessage.round = 3 ∧
      (τ ⟨1⟩).validateProposalJustifications u.qbftMessage =
        .error .roundChangeJustificationInvalidPrepareRoot := by
  refine ⟨started_network4, ?_⟩
  exact Network.exists_run (N := network4) (P := network4.Bound)
    (fun τ => ∃ u ∈ (τ ⟨3⟩).sent,
      u.qbftMessage.qbftMessageType = .proposal ∧ u.qbftMessage.round = 3 ∧
      (τ ⟨1⟩).validateProposalJustifications u.qbftMessage =
        .error .roundChangeJustificationInvalidPrepareRoot)
    (show ∃ r ∈ network4.simulate network4.Bound sign world twoLocksScript, _ by decide +kernel)

end Sample

end Anchor
