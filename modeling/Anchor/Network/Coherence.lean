import Mathlib
import Anchor.Network.Simulation
import Anchor.Qbft.Decision
import Anchor.Qbft.RoundStart

/-!
# Coherence of round and state

The flag for an accepted proposal, the state, the root and the containers of an
instance are updated by different handlers.  They agree as long as no round change
quorum arrives after a proposal was accepted: such a quorum sends the instance
back to waiting for a proposal but leaves the flag set.
-/

namespace Anchor

open Ssz

namespace Qbft

variable {K F D : Type} [LeaderFunction F] [QbftData D]

/-- The flag is set exactly while a proposal is being voted on, which is then the
stored proposal of the leader of the round. -/
structure Coherent (q : Qbft F D) : Prop where
  accepted_iff : q.proposalAcceptedForCurrentRound = true ↔
    ∃ v, q.state = .prepare v ∨ q.state = .commit v
  proposalRoot_eq : ∀ v, q.state = .prepare v ∨ q.state = .commit v → q.proposalRoot = some v
  stored : ∀ v, q.state = .prepare v ∨ q.state = .commit v →
    ∃ m ∈ q.proposeContainer.getMessagesForRound q.currentRound, m.qbftMessage.root = v ∧
      m.qbftMessage.qbftMessageType = .proposal ∧
      m.signedMessage.operatorIds.toList = [m.signer] ∧
      q.checkLeader m.signer q.currentRound = true

/-- A round change quorum is reached after a proposal was accepted. -/
def LateQuorum (q : Qbft F D) (e : Event) : Prop :=
  q.proposalAcceptedForCurrentRound = true ∧ ∃ r, q.ReachesQuorum e r

section Coherent

variable {ctx : ValidationContext K} {C : Qbft F D → Event → Prop} {q q' : Qbft F D} {e : Event}

omit [QbftData D] in
theorem Coherent.of_idle (hflag : q.proposalAcceptedForCurrentRound = false)
    (hstate : ∀ v, q.state ≠ .prepare v ∧ q.state ≠ .commit v) : q.Coherent := by
  have hnone : ∀ v, ¬ (q.state = .prepare v ∨ q.state = .commit v) := by
    rintro v (hv | hv)
    · exact (hstate v).1 hv
    · exact (hstate v).2 hv
  refine ⟨?_, fun v hv => absurd hv (hnone v), fun v hv => absurd hv (hnone v)⟩
  rw [hflag]
  constructor
  · intro h
    cases h
  · rintro ⟨v, hv⟩
    exact absurd hv (hnone v)

omit [QbftData D] in
theorem Coherent.of_eq (hq : q.Coherent) (hconfig : q'.config = q.config)
    (hheight : q'.instanceHeight = q.instanceHeight) (hround : q'.currentRound = q.currentRound)
    (hstate : q'.state = q.state)
    (hflag : q'.proposalAcceptedForCurrentRound = q.proposalAcceptedForCurrentRound)
    (hroot : q'.proposalRoot = q.proposalRoot)
    (hsub : ∀ r, (q.proposeContainer.getMessagesForRound r).Sublist
      (q'.proposeContainer.getMessagesForRound r)) : q'.Coherent := by
  refine ⟨?_, ?_, ?_⟩
  · rw [hflag, hstate]
    exact hq.accepted_iff
  · rw [hstate, hroot]
    exact hq.proposalRoot_eq
  · rw [hstate, hround]
    intro v hv
    obtain ⟨m, hm, hmroot, htype, hids, hleader⟩ := hq.stored v hv
    refine ⟨m, (hsub _).subset hm, hmroot, htype, hids, ?_⟩
    rw [checkLeader, hconfig, hheight]
    exact hleader

theorem Coherent.transition (hq : q.Coherent) (hc' : q'.ContainersOk) (h : Transition q e q')
    (hdone : q'.completed = none)
    (hlate : ∀ r, q.roundChangeContainer.hasQuorumDisregardingRoot r = false →
      q'.roundChangeContainer.hasQuorumDisregardingRoot r = true →
        q.proposalAcceptedForCurrentRound = false) : q'.Coherent := by
  have hsub := fun r => h.sublist .proposal r
  cases h with
  | ignored w => exact hq
  | proposalRepeated hw hsender => exact hq.of_eq rfl rfl rfl rfl rfl rfl hsub
  | proposalStored hw hadd hflag hround => exact hq.of_eq rfl rfl rfl rfl rfl rfl hsub
  | @proposalAccepted w s r d c hw hadd hflag =>
    have hmem : w ∈ c.getMessagesForRound r := by
      rw [MessageContainer.getMessagesForRound_of_addMessage hadd]
      simp
    have hstored := hc'.stored .proposal r w hmem
    refine ⟨by simp, ?_, ?_⟩
    · rintro v (hv | hv) <;> cases hv
      rfl
    · rintro v (hv | hv) <;> cases hv
      exact ⟨w, hmem, rfl, hw.type_eq, hstored.operatorIds_eq, hstored.checked.1⟩
  | prepareStored hw hadd => exact hq.of_eq rfl rfl rfl rfl rfl rfl hsub
  | @prepared w s c v hw hadd hflag hquorum hstate =>
    refine ⟨⟨fun _ => ⟨v, Or.inr rfl⟩, fun _ => hflag⟩, ?_, ?_⟩
    · rintro x (hx | hx) <;> cases hx
      exact hq.proposalRoot_eq v (Or.inl hstate)
    · rintro x (hx | hx) <;> cases hx
      exact hq.stored v (Or.inl hstate)
  | commitStored hw hadd hflag hroot => exact hq.of_eq rfl rfl rfl rfl rfl rfl hsub
  | committed hw hadd hflag hroot hquorum hstate haggregate => cases hdone
  | decided hw => cases hdone
  | roundChangeStored hw hadd hold => exact hq.of_eq rfl rfl rfl rfl rfl rfl hsub
  | roundChangeQuorum hw hadd hbefore hquorum hout hstart =>
    exact Coherent.of_idle (hlate _ hbefore hquorum) (by simp)
  | roundChangePartial hw hadd hnone hlowest hout => exact Coherent.of_idle rfl (by simp)
  | timedOut hlast => cases hdone
  | timeout hnext hmax hout =>
    -- The flag is only reset once the round change is sent, which never fails.
    cases hout with
    | failed hfits => exact absurd (hc'.fits_prepareJustifications (by decide)) hfits
    | sent hl => exact Coherent.of_idle rfl (by simp)

theorem ReachableIf.coherent (h : ReachableIf ctx (fun q e => ¬ q.LateQuorum e) q)
    (hdone : q.completed = none) : q.Coherent := by
  induction h with
  | new config startData dataValidator identifier =>
    obtain ⟨data, out, -, heq⟩ := exists_new config startData dataValidator identifier
    rw [heq]
    exact Coherent.of_idle rfl (by simp [initial])
  | @step q e hq he hlate ih =>
    have ht := he.transition hq.reachable.grounded
    refine (ih (ht.completed_mono hdone)).transition (hq.reachable.step he).containersOk ht
      hdone ?_
    intro r hbefore hafter
    by_contra hflag
    exact hlate ⟨by simpa using hflag, r, hbefore, hafter⟩

theorem LateQuorum.not_coherent (h : q.LateQuorum e) (hq : Reachable ctx q)
    (he : q.Admissible ctx e) : ¬ (q.apply e).Coherent := by
  obtain ⟨hflag, r, hr⟩ := h
  obtain ⟨w, s, c, rfl, -, -, -, heq⟩ := hr.exists_startRound hq he
  obtain ⟨data, out, -, hstart⟩ := exists_startRound (q := { q with
    roundChangeContainer := c, state := .roundChangeConsensus, currentRound := r }) (by simp)
  intro hcoherent
  rw [heq, hstart] at hcoherent
  obtain ⟨v, hv⟩ := hcoherent.accepted_iff.mp hflag
  rcases hv with hv | hv <;> cases hv

/-- Along a run without late round change quorums every state that has not
completed is coherent, and from there on a step keeps it so exactly if it is no
late quorum. -/
theorem coherent_iff_no_lateQuorum (h : ReachableIf ctx (fun q e => ¬ q.LateQuorum e) q)
    (hdone : q.completed = none) :
    q.Coherent ∧ ∀ e, q.Admissible ctx e → (q.apply e).completed = none →
      ((q.apply e).Coherent ↔ ¬ q.LateQuorum e) := by
  refine ⟨h.coherent hdone, fun e he hdone' => ⟨fun hcoherent hlate => ?_, fun hlate => ?_⟩⟩
  · exact hlate.not_coherent h.reachable he hcoherent
  · exact (h.step he hlate).coherent hdone'

end Coherent

end Qbft

namespace Sample

/-- The leader of the first round accepts its own proposal. -/
theorem coherent_iff_ownProposal : ∃ q : Qbft DefaultLeaderFunction Vote,
    Qbft.ReachableIf ctx (fun q e => ¬ q.LateQuorum e) q ∧ q.completed = none ∧
      q.proposalAcceptedForCurrentRound = true ∧ q.Coherent := by
  obtain ⟨w, hw, hdone, hflag⟩ : ∃ w ∈ (instanceOf ⟨1⟩ (by decide)).signedBy sign 0,
      ((instanceOf ⟨1⟩ (by decide)).apply (.receive w)).completed = none ∧
        ((instanceOf ⟨1⟩ (by decide)).apply (.receive w)).proposalAcceptedForCurrentRound =
          true := by
    decide +kernel
  have hnew : Qbft.ReachableIf ctx (fun q e => ¬ q.LateQuorum e) (instanceOf ⟨1⟩ (by decide)) :=
    Qbft.ReachableIf.new _ _ _ _
  have hidle : (instanceOf ⟨1⟩ (by decide)).proposalAcceptedForCurrentRound = false := by
    decide +kernel
  have hreach := hnew.step (e := .receive w) (Or.inr (Qbft.loopback_of_signedBy hw)) fun hlate => by
    rw [Qbft.LateQuorum, hidle] at hlate
    cases hlate.1
  exact ⟨_, hreach, hdone, hflag, (Qbft.coherent_iff_no_lateQuorum hreach hdone).1⟩

open Network.Action in
/-- The others time out, operator 2 proposes for the second round, and operator 1
accepts that proposal before it sees the round changes. -/
def lateQuorumScript : List Network.Action :=
  [timeout ⟨2⟩, timeout ⟨3⟩, timeout ⟨4⟩, relay ⟨2⟩ ⟨2⟩ 0, relay ⟨2⟩ ⟨3⟩ 0, relay ⟨2⟩ ⟨4⟩ 0,
    relay ⟨1⟩ ⟨2⟩ 1, relay ⟨1⟩ ⟨2⟩ 0, relay ⟨1⟩ ⟨3⟩ 0, relay ⟨1⟩ ⟨4⟩ 0]

theorem not_coherent_lateQuorumScript : network4.Started world ∧
    ∃ es τ, network4.Run network4.Bound world es τ ∧ (τ ⟨1⟩).completed = none ∧
      (τ ⟨1⟩).proposalAcceptedForCurrentRound = true ∧ (τ ⟨1⟩).state = .awaitingProposal ∧
      ¬ (τ ⟨1⟩).Coherent := by
  refine ⟨started_network4, ?_⟩
  obtain ⟨es, τ, hrun, hdone, hflag, hstate⟩ := Network.exists_run (N := network4)
    (P := network4.Bound)
    (fun τ => (τ ⟨1⟩).completed = none ∧ (τ ⟨1⟩).proposalAcceptedForCurrentRound = true ∧
      (τ ⟨1⟩).state = .awaitingProposal)
    (show ∃ r ∈ network4.simulate network4.Bound sign world lateQuorumScript, _ by decide +kernel)
  refine ⟨es, τ, hrun, hdone, hflag, hstate, fun hcoherent => ?_⟩
  obtain ⟨v, hv⟩ := hcoherent.accepted_iff.mp hflag
  rw [hstate] at hv
  rcases hv with hv | hv <;> cases hv

end Sample

end Anchor
