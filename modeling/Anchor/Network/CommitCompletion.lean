import Mathlib
import Anchor.Qbft.Commit
import Anchor.Network.Simulation

/-!
# Completing with the commits of a quorum

While an instance stays in its round, the first commit of each member for the
accepted root is counted.  It completes with the commit that makes a quorum if
the counted commits sign the same thing, and otherwise it stays as it is.
-/

namespace Anchor

open Ssz

structure WrappedQbftMessage.SingleVote (w : WrappedQbftMessage) : Prop where
  single : w.signedMessage.operatorIds.toList.length = 1
  type_eq : w.qbftMessage.qbftMessageType = .prepare ∨ w.qbftMessage.qbftMessageType = .commit

namespace Qbft

variable {F D : Type}

/-- A commit of a member for the root `v` in the current round. -/
structure Counts (q : Qbft F D) (v : Hash256) (w : WrappedQbftMessage) : Prop where
  type_eq : w.qbftMessage.qbftMessageType = .commit
  operatorIds_eq : w.signedMessage.operatorIds.toList = [w.signer]
  mem_committee : w.signer ∈ q.config.committeeMembers.toList
  height_eq : w.qbftMessage.height = q.instanceHeight
  round_eq : w.qbftMessage.round = q.currentRound.toU64
  root_eq : w.qbftMessage.root = v

instance (q : Qbft F D) (v : Hash256) (w : WrappedQbftMessage) : Decidable (q.Counts v w) :=
  decidable_of_iff (w.qbftMessage.qbftMessageType = .commit ∧
    w.signedMessage.operatorIds.toList = [w.signer] ∧
    w.signer ∈ q.config.committeeMembers.toList ∧ w.qbftMessage.height = q.instanceHeight ∧
    w.qbftMessage.round = q.currentRound.toU64 ∧ w.qbftMessage.root = v)
    ⟨fun ⟨h₁, h₂, h₃, h₄, h₅, h₆⟩ => ⟨h₁, h₂, h₃, h₄, h₅, h₆⟩,
      fun ⟨h₁, h₂, h₃, h₄, h₅, h₆⟩ => ⟨h₁, h₂, h₃, h₄, h₅, h₆⟩⟩

def tally (q : Qbft F D) (v : Hash256) (counted : List WrappedQbftMessage)
    (w : WrappedQbftMessage) : List WrappedQbftMessage :=
  if q.Counts v w ∧ w.signer ∉ counted.map WrappedQbftMessage.signer then counted ++ [w]
  else counted

section Tally

variable {q p : Qbft F D} {v : Hash256} {w : WrappedQbftMessage}
  {counted ws : List WrappedQbftMessage} {n : ℕ}

theorem length_le_tally : counted.length ≤ (q.tally v counted w).length := by
  unfold tally
  split_ifs <;> simp

theorem take_tally (h : n ≤ counted.length) :
    (q.tally v counted w).take n = counted.take n := by
  unfold tally
  split_ifs
  · exact List.take_append_of_le_length h
  · rfl

theorem tally_congr (hconfig : p.config = q.config) (hheight : p.instanceHeight = q.instanceHeight)
    (hround : p.currentRound = q.currentRound) :
    p.tally v counted w = q.tally v counted w := by
  have hiff : p.Counts v w ↔ q.Counts v w := by
    constructor <;> rintro ⟨h₁, h₂, h₃, h₄, h₅, h₆⟩
    · exact ⟨h₁, h₂, hconfig ▸ h₃, hheight ▸ h₄, hround ▸ h₅, h₆⟩
    · exact ⟨h₁, h₂, hconfig ▸ h₃, hheight ▸ h₄, hround ▸ h₅, h₆⟩
  simp only [tally, hiff]

theorem subset_tally : counted ⊆ q.tally v counted w := by
  unfold tally
  split_ifs
  · exact List.subset_append_left _ _
  · exact List.Subset.refl _

theorem subset_foldl_tally : counted ⊆ ws.foldl (q.tally v) counted := by
  induction ws generalizing counted with
  | nil => exact List.Subset.refl _
  | cons w ws ih => exact List.Subset.trans subset_tally ih

theorem signer_mem_foldl_tally (hw : w ∈ ws) (hcounts : q.Counts v w) :
    w.signer ∈ (ws.foldl (q.tally v) counted).map WrappedQbftMessage.signer := by
  induction ws generalizing counted with
  | nil => cases hw
  | cons w' ws ih =>
    rcases List.mem_cons.mp hw with rfl | hw
    · have hmem : w.signer ∈ (q.tally v counted w).map WrappedQbftMessage.signer := by
        unfold tally
        split_ifs with hnew
        · simp
        · by_contra hnot
          exact hnew ⟨hcounts, hnot⟩
      have hsub : q.tally v counted w ⊆ ws.foldl (q.tally v) (q.tally v counted w) :=
        subset_foldl_tally
      exact List.map_subset _ hsub hmem
    · exact ih hw

end Tally

variable [LeaderFunction F] [QbftData D]

section Step

variable {K : Type} {ctx : ValidationContext K} {q q' : Qbft F D} {v : Hash256}
  {w : WrappedQbftMessage} {counted : List WrappedQbftMessage}

theorem Reachable.voting (hlaw : QbftData.Lawful D ctx.crypto.hashData) (hq : Reachable ctx q)
    (hdone : q.completed = none) (hv : q.VotesOn v) : q.Voting v := by
  obtain ⟨haccepted, hroot⟩ := hq.votingOk.accepted v hv
  obtain ⟨d, bs, hd, hbs, hlength⟩ := hq.votingOk.data v hv
  refine ⟨hdone, hv, haccepted, hroot, ⟨d, hd, ?_⟩, fun m hm => ?_⟩
  · rwa [hlaw.asSszBytes_of_fromSszBytes hbs]
  · exact Option.some.inj ((hq.votingOk.root_eq m hm).symm.trans hroot)

omit [LeaderFunction F] in
theorem Voting.isVote (h : q.Voting v) (hw : q.Counts v w) : q.IsVote .commit w w.signer := by
  refine ⟨⟨hw.operatorIds_eq, hw.mem_committee, hw.height_eq, hw.round_eq, le_rfl, fun _ => rfl⟩,
    hw.type_eq, h.completed_eq, ?_⟩
  rcases h.state_eq with hs | hs <;> simp [hs, InstanceState.toU8]

theorem Voting.apply_counted (h : q.Voting v) (hq : Reachable ctx q)
    (hadmissible : q.Admissible ctx (.receive w)) (hw : q.Counts v w)
    (hnew : w.signer ∉ q.commits.map WrappedQbftMessage.signer) :
    (q.config.quorumSize ≤ (q.commits ++ [w]).length ∧ Uniform (q.commits ++ [w])) ∧
        (q.apply (.receive w)).completed = some (.success v) ∨
      ¬ (q.config.quorumSize ≤ (q.commits ++ [w]).length ∧ Uniform (q.commits ++ [w])) ∧
        ∃ c, q.apply (.receive w) = { q with commitContainer := c } ∧
          c.getMessagesForRound q.currentRound = q.commits ++ [w] := by
  have hvote := h.isVote hw
  have hsound := hadmissible.sound hq.grounded
  have hdata := hq.fullData_eq_nil hadmissible
    (Or.inr ⟨hw.type_eq, by rw [hw.operatorIds_eq, List.length_singleton]⟩)
  have happly : q.apply (.receive w) = (q.receivedCommit w.signer q.currentRound w).1 := by
    rw [apply, hvote.receive_commit_eq hdata]
  have hsenders : w.signer ∉ q.commitContainer.senders q.currentRound := by
    have hwf : q.commitContainer.WellFormed := hq.containersOk.wellFormed .commit
    rw [hwf.senders_eq, List.mem_toFinset]
    exact hnew
  obtain ⟨c, hadd⟩ := MessageContainer.exists_addMessage w hsenders
  rw [happly]
  by_cases hunif : q.config.quorumSize ≤ (q.commits ++ [w]).length ∧ Uniform (q.commits ++ [w])
  · exact Or.inl ⟨hunif, h.completed_of_uniform hq.containersOk hsound hvote hw.root_eq hadd
      hunif.1 hunif.2⟩
  · exact Or.inr ⟨hunif, c, h.receivedCommit_of_not_uniform hq.containersOk hsound hvote
      hw.root_eq hadd hunif, MessageContainer.getMessagesForRound_of_addMessage hadd⟩

/-- What the vote of a single signer can do: nothing, add a commit, or add a
prepare, which may move the instance on to its commit state. -/
theorem Transition.vote_cases (h : Transition q (.receive w) q') (hvote : w.SingleVote) :
    q' = q ∨ q.completed = none ∧ q'.currentRound = q.currentRound ∧
      ((∃ s c, q.IsVote .commit w s ∧
          q.commitContainer.addMessage q.currentRound s w = (c, true) ∧
          q.proposalRoot = some w.qbftMessage.root) ∨
        q'.completed = none ∧ (∀ x, q.VotesOn x → q'.VotesOn x) ∧
          q'.proposalAcceptedForCurrentRound = q.proposalAcceptedForCurrentRound ∧
          q'.proposalRoot = q.proposalRoot ∧ q'.data = q.data ∧ q'.commits = q.commits) := by
  have htype := hvote.type_eq
  cases h with
  | ignored => exact Or.inl rfl
  | prepareStored hw hadd =>
    have hdone := hw.completed_eq
    exact Or.inr ⟨hdone, rfl, Or.inr ⟨hdone, fun _ hx => hx, rfl, rfl, rfl, rfl⟩⟩
  | @prepared _ s c v hw hadd hflag hquorum hstate =>
    have hdone := hw.completed_eq
    refine Or.inr ⟨hdone, rfl, Or.inr ⟨hdone, fun x hx => Or.inr ?_, rfl, rfl, rfl, rfl⟩⟩
    rcases hx with hx | hx <;> rw [hstate] at hx <;> cases hx
    rfl
  | commitStored hw hadd hflag hroot =>
    exact Or.inr ⟨hw.completed_eq, rfl, Or.inl ⟨_, _, hw, hadd, hroot⟩⟩
  | committed hw hadd hflag hroot hquorum hstate haggregate =>
    exact Or.inr ⟨hw.completed_eq, rfl, Or.inl ⟨_, _, hw, hadd, hroot⟩⟩
  | decided hw =>
    obtain ⟨s, hs⟩ := List.length_eq_one_iff.mp hvote.single
    have hquorum := hw.quorum
    rw [hasQuorum_singleton_of_single hs] at hquorum
    cases hquorum
  | proposalRepeated hw => simp [hw.type_eq] at htype
  | proposalStored hw => simp [hw.type_eq] at htype
  | proposalAccepted hw => simp [hw.type_eq] at htype
  | roundChangeStored hw => simp [hw.type_eq] at htype
  | roundChangeQuorum hw => simp [hw.type_eq] at htype
  | roundChangePartial hw => simp [hw.type_eq] at htype

theorem Voting.transition_uncounted (h : q.Voting v) (hc : q.ContainersOk)
    (ht : Transition q (.receive w) q') (hvote : w.SingleVote)
    (hnot : ¬ (q.Counts v w ∧ w.signer ∉ q.commits.map WrappedQbftMessage.signer)) :
    q'.Voting v ∧ q'.commits = q.commits := by
  rcases ht.vote_cases hvote with rfl |
    ⟨-, -, ⟨s, c, hw, hadd, hroot⟩ | ⟨hdone, hvotes, hflag, hproposal, hdata, hcommits⟩⟩
  · exact ⟨h, rfl⟩
  · obtain rfl := hw.fromSigner.signer_eq
    refine absurd ⟨⟨hw.type_eq, hw.fromSigner.operatorIds_eq, hw.fromSigner.mem_committee,
      hw.fromSigner.height_eq, hw.fromSigner.round_eq, ?_⟩, ?_⟩ hnot
    · exact Option.some.inj (hroot.symm.trans h.proposalRoot_eq)
    · have hwf : q.commitContainer.WellFormed := hc.wellFormed .commit
      have hnew := MessageContainer.notMem_senders_of_addMessage hadd
      rwa [hwf.senders_eq, List.mem_toFinset] at hnew
  · refine ⟨⟨hdone, hvotes v h.state_eq, hflag ▸ h.accepted, hproposal ▸ h.proposalRoot_eq,
      hdata ▸ h.data, ?_⟩, hcommits⟩
    rw [hcommits]
    exact h.root_eq

/-- The instance has counted the given commits: it completed if the first quorum of
them signs the same thing. -/
def Tallied (q : Qbft F D) (v : Hash256) (counted : List WrappedQbftMessage) : Prop :=
  (q.Voting v ∧ q.commits = counted) ∧ (q.config.quorumSize ≤ counted.length →
      ¬ Uniform (counted.take q.config.quorumSize)) ∨
    q.completed = some (.success v) ∧ q.config.quorumSize ≤ counted.length ∧
      Uniform (counted.take q.config.quorumSize)

theorem Tallied.vote (hq : Reachable ctx q) (h : q.Tallied v counted)
    (hadmissible : q.Admissible ctx (.receive w)) (hvote : w.SingleVote) :
    (q.apply (.receive w)).Tallied v (q.tally v counted w) := by
  have ht := hadmissible.transition hq.grounded
  have hconfig := ht.static.1
  rw [Tallied, hconfig]
  rcases h with ⟨⟨hvoting, rfl⟩, hstuck⟩ | ⟨hdone, hle, hunif⟩
  swap
  · have heq : q.apply (.receive w) = q := by
      refine (ht.vote_cases hvote).resolve_right fun ⟨hnone, _⟩ => ?_
      rw [hdone] at hnone
      cases hnone
    rw [heq]
    refine Or.inr ⟨hdone, hle.trans length_le_tally, ?_⟩
    rwa [take_tally hle]
  by_cases hcounted : q.Counts v w ∧ w.signer ∉ q.commits.map WrappedQbftMessage.signer
  swap
  · obtain ⟨hvoting', hcommits⟩ :=
      hvoting.transition_uncounted hq.containersOk ht hvote hcounted
    rw [tally, if_neg hcounted]
    exact Or.inl ⟨⟨hvoting', hcommits⟩, hstuck⟩
  rw [tally, if_pos hcounted]
  have hlength : (q.commits ++ [w]).length = q.commits.length + 1 := by simp
  -- A quorum that was there before was not uniform, so the new commit makes it.
  have htake : ∀ {n : ℕ}, ¬ n ≤ q.commits.length → n ≤ (q.commits ++ [w]).length →
      (q.commits ++ [w]).take n = q.commits ++ [w] := by
    intro n hlt hle
    exact List.take_of_length_le (by omega)
  rcases hvoting.apply_counted hq hadmissible hcounted.1 hcounted.2 with
    ⟨⟨hle, hunif⟩, hdone⟩ | ⟨hnot, c, happly, hmsgs⟩
  · refine Or.inr ⟨hdone, hle, hunif.subset (List.take_subset _ _)⟩
  · refine Or.inl ⟨⟨?_, ?_⟩, fun hle hunif => ?_⟩
    · rw [happly]
      refine ⟨hvoting.completed_eq, hvoting.state_eq, hvoting.accepted, hvoting.proposalRoot_eq,
        hvoting.data, fun m hm => ?_⟩
      rw [commits, hmsgs] at hm
      rcases List.mem_append.mp hm with hm | hm
      · exact hvoting.root_eq m hm
      · rw [List.mem_singleton.mp hm]
        exact hcounted.1.root_eq
    · rw [happly, commits]
      exact hmsgs
    · by_cases hbefore : q.config.quorumSize ≤ q.commits.length
      · rw [List.take_append_of_le_length hbefore] at hunif
        exact hstuck hbefore hunif
      · rw [htake hbefore hle] at hunif
        exact hnot ⟨hle, hunif⟩

/-- In a reachable instance a quorum of commits that did not complete it is not
uniform. -/
theorem Reachable.tallied (hlaw : QbftData.Lawful D ctx.crypto.hashData) (h : Reachable ctx q)
    (hdone : q.completed = none) (hv : q.VotesOn v) : q.Tallied v q.commits := by
  induction h with
  | new config startData dataValidator identifier =>
    obtain ⟨data, out, -, heq⟩ := exists_new config startData dataValidator identifier
    rw [heq] at hv
    rcases hv with hv | hv <;> cases hv
  | @step q e hq he ih =>
    have hvoting := (hq.step he).voting hlaw hdone hv
    have ht := he.transition hq.grounded
    -- Commits are counted; other events keep the commits, or the instance stops voting.
    have hvote : ∀ {w : WrappedQbftMessage} {s : OperatorId}, e = .receive w →
        q.IsVote .commit w s → q.completed = none → q.VotesOn v →
        (q.apply e).Tallied v (q.apply e).commits := by
      rintro w s rfl hw hdone' hv'
      have hsingle : w.SingleVote :=
        ⟨by rw [hw.fromSigner.operatorIds_eq, List.length_singleton], Or.inr hw.type_eq⟩
      have htallied := (ih hdone' hv').vote hq he hsingle
      have hcommits : (q.apply (.receive w)).commits = q.tally v q.commits w := by
        rcases htallied with ⟨⟨-, hcommits⟩, -⟩ | ⟨hsuccess, -⟩
        · exact hcommits
        · rw [hdone] at hsuccess
          cases hsuccess
      rw [hcommits]
      exact htallied
    have hkeep : q.completed = none → q.VotesOn v → (q.apply e).config = q.config →
        (q.apply e).commits = q.commits → (q.apply e).Tallied v (q.apply e).commits := by
      intro hdone' hv' hconfig hcommits
      rcases ih hdone' hv' with ⟨-, hstuck⟩ | ⟨hsuccess, -⟩
      · refine Or.inl ⟨⟨hvoting, rfl⟩, ?_⟩
        rwa [hconfig, hcommits]
      · rw [hdone'] at hsuccess
        cases hsuccess
    generalize q.apply e = q' at *
    cases ht with
    | ignored => exact ih hdone hv
    | proposalRepeated hw hsender =>
      have hround := hq.containersOk.eq_currentRound_of_mem_senders hw.fromSigner hsender
      exact absurd hv (not_votesOn_of_eq (hw.awaiting hround) (by simp) v)
    | proposalStored hw hadd hflag hround =>
      exact absurd hv (not_votesOn_of_eq (hw.awaiting hround) (by simp) v)
    | proposalAccepted hw hadd hflag =>
      have hnil := hq.votingOk.commits_of_isProposal hq.containersOk hw hflag
      refine Or.inl ⟨⟨hvoting, rfl⟩, fun hle => ?_⟩
      rw [commits, hnil, Config.quorumSize_eq, List.length_nil] at hle
      omega
    | prepareStored hw hadd => exact hkeep hdone hv rfl rfl
    | @prepared w s c x hw hadd hflag hquorum hstate =>
      have hx : x = v := by
        rcases hv with hv | hv <;> cases hv
        rfl
      exact hkeep hdone (Or.inl (hx ▸ hstate)) rfl rfl
    | commitStored hw hadd hflag hroot => exact hvote rfl hw hdone hv
    | committed hw hadd hflag hroot hquorum hstate haggregate => cases hdone
    | decided hw => cases hdone
    | roundChangeStored hw hadd hold => exact hkeep hdone hv rfl rfl
    | roundChangeQuorum hw hadd hbefore hquorum hout hstart =>
      rcases hv with hv | hv <;> cases hv
    | roundChangePartial hw hadd hnone hlowest hout => rcases hv with hv | hv <;> cases hv
    | timedOut hlast => cases hdone
    | timeout hnext hmax hout => rcases hv with hv | hv <;> cases hv

end Step

/-! ## Deliveries in one round -/

/-- Votes of single signers are delivered to `q` one after the other. -/
inductive Votes {K : Type} (ctx : ValidationContext K) (q : Qbft F D) :
    List WrappedQbftMessage → Qbft F D → Prop where
  | nil : Votes ctx q [] q
  | snoc {ws : List WrappedQbftMessage} {p : Qbft F D} {w : WrappedQbftMessage}
      (hrun : Votes ctx q ws p) (hw : p.Admissible ctx (.receive w)) (hvote : w.SingleVote) :
      Votes ctx q (ws ++ [w]) (p.apply (.receive w))

/-- A commit for `v` as an operator of the same instance sends it in the round of `q`. -/
def ProducedCommit (q : Qbft F D) (v : Hash256) (i : OperatorId) (w : WrappedQbftMessage) : Prop :=
  ∃ p : Qbft F D, p.identifier = q.identifier ∧ p.instanceHeight = q.instanceHeight ∧
    p.currentRound = q.currentRound ∧ ∃ u, (p.sendCommit v).1.sent = p.sent ++ [u] ∧
      ∃ signature, u.sign i signature = .ok w

section Votes

variable {K : Type} {ctx : ValidationContext K} {q q' : Qbft F D} {v : Hash256}
  {ws : List WrappedQbftMessage} {i : OperatorId} {w : WrappedQbftMessage}

omit [LeaderFunction F] in
theorem ProducedCommit.signer_eq (h : q.ProducedCommit v i w) : w.signer = i := by
  obtain ⟨p, -, -, -, u, -, signature, hsign⟩ := h
  obtain ⟨-, -, hids, -⟩ := UnsignedWrappedQbftMessage.sign_eq_ok hsign
  rw [WrappedQbftMessage.signer, hids]
  rfl

omit [LeaderFunction F] in
theorem ProducedCommit.counts (h : q.ProducedCommit v i w) (hi : i ∈ q.config.committee) :
    q.Counts v w := by
  have hsigner := h.signer_eq
  obtain ⟨p, -, hheight, hround, u, hu, signature, hsign⟩ := h
  obtain ⟨-, -, hids, -, -, hmsg⟩ := UnsignedWrappedQbftMessage.sign_eq_ok hsign
  rw [sendCommit_eq] at hu
  obtain rfl := List.singleton_injective (List.append_cancel_left hu)
  refine ⟨?_, ?_, ?_, ?_, ?_, ?_⟩
  · rw [hmsg]
    rfl
  · rw [hsigner]
    exact hids
  · rw [hsigner]
    exact List.mem_toFinset.mp hi
  · rw [hmsg, ← hheight]
    rfl
  · rw [hmsg, ← hround]
    rfl
  · rw [hmsg]
    rfl

section

variable (h : Votes ctx q ws q') (hq : Reachable ctx q)
include h hq

theorem Votes.reachable : Reachable ctx q' := by
  induction h with
  | nil => exact hq
  | snoc hrun hw hvote ih => exact ih.step hw

theorem Votes.eq_of_completed (hdone : q.completed ≠ none) : q' = q := by
  induction h with
  | nil => rfl
  | @snoc ws p w hrun hw hvote ih =>
    have ht := hw.transition (hrun.reachable hq).grounded
    rw [ih] at ht ⊢
    exact (ht.vote_cases hvote).resolve_right fun ⟨hnone, _⟩ => hdone hnone

theorem Votes.currentRound_eq :
    q'.currentRound = q.currentRound := by
  induction h with
  | nil => rfl
  | @snoc ws p w hrun hw hvote ih =>
    have ht := hw.transition (hrun.reachable hq).grounded
    rcases ht.vote_cases hvote with heq | ⟨-, hround, -⟩
    · rw [heq, ih]
    · rw [hround, ih]

theorem Votes.static :
    q'.config = q.config ∧ q'.instanceHeight = q.instanceHeight := by
  induction h with
  | nil => exact ⟨rfl, rfl⟩
  | @snoc ws p w hrun hw hvote ih =>
    obtain ⟨hconfig, -, hheight, -⟩ := (hw.transition (hrun.reachable hq).grounded).static
    exact ⟨hconfig.trans ih.1, hheight.trans ih.2⟩

theorem Votes.tallied
    (hbefore : q.Tallied v q.commits) : q'.Tallied v (ws.foldl (q.tally v) q.commits) := by
  induction h with
  | nil => exact hbefore
  | @snoc ws p w hrun hw hvote ih =>
    obtain ⟨hconfig, hheight⟩ := hrun.static hq
    have hstep := ih.vote (hrun.reachable hq) hw hvote
    rw [tally_congr hconfig hheight (hrun.currentRound_eq hq)] at hstep
    rwa [List.foldl_append]

end

omit [LeaderFunction F] in
theorem quorumSize_le_length_tally {honest : Finset OperatorId}
    (hsub : honest ⊆ q.config.committee) (hquorum : q.config.quorumSize ≤ honest.card)
    (hdelivered : ∀ i ∈ honest, ∃ w ∈ q.commits ++ ws, q.ProducedCommit v i w) :
    q.config.quorumSize ≤ (ws.foldl (q.tally v) q.commits).length := by
  have hmem : honest ⊆
      ((ws.foldl (q.tally v) q.commits).map WrappedQbftMessage.signer).toFinset := by
    intro i hi
    obtain ⟨w, hw, hproduced⟩ := hdelivered i hi
    rw [List.mem_toFinset, ← hproduced.signer_eq]
    rcases List.mem_append.mp hw with hw | hw
    · exact List.mem_map_of_mem (subset_foldl_tally hw)
    · exact signer_mem_foldl_tally hw (hproduced.counts (hsub hi))
  calc q.config.quorumSize ≤ honest.card := hquorum
    _ ≤ _ := Finset.card_le_card hmem
    _ ≤ _ := List.toFinset_card_le _
    _ = (ws.foldl (q.tally v) q.commits).length := List.length_map _

/-- An instance that votes on `v` and is handed the commits of a quorum, between
votes of anybody, completes with `v` exactly if the first quorum of counted commits
signs the same thing. -/
theorem commits_complete_iff_uniform (hlaw : QbftData.Lawful D ctx.crypto.hashData)
    (hq : Reachable ctx q) (hv : q.VotesOn v) (hrun : Votes ctx q ws q')
    {honest : Finset OperatorId} (hsub : honest ⊆ q.config.committee)
    (hquorum : q.config.quorumSize ≤ honest.card)
    (hdelivered : ∀ i ∈ honest, ∃ w ∈ q.commits ++ ws, q.ProducedCommit v i w) :
    q'.completed = some (.success v) ↔
      q.completed = some (.success v) ∨
        q.completed = none ∧
          Uniform ((ws.foldl (q.tally v) q.commits).take q.config.quorumSize) := by
  by_cases hdone : q.completed = none
  swap
  · rw [hrun.eq_of_completed hq hdone]
    exact ⟨Or.inl, fun h => h.resolve_right fun h => hdone h.1⟩
  have hle := quorumSize_le_length_tally hsub hquorum hdelivered
  have htallied := hrun.tallied hq (hq.tallied hlaw hdone hv)
  rw [Tallied, (hrun.static hq).1] at htallied
  rw [hdone]
  simp only [reduceCtorEq, false_or, true_and]
  rcases htallied with ⟨⟨hvoting, -⟩, hstuck⟩ | ⟨hsuccess, -, hunif⟩
  · rw [hvoting.completed_eq]
    constructor
    · intro h
      cases h
    · intro hunif
      exact absurd hunif (hstuck hle)
  · exact ⟨fun _ => hunif, fun _ => hsuccess⟩

end Votes

end Qbft

namespace Sample

def firstCommit (operatorId : OperatorId) : WrappedQbftMessage :=
  signed operatorId (message .commit 1 (QbftData.hash (⟨1⟩ : Vote)))

theorem producedCommit_firstCommit {q : Qbft DefaultLeaderFunction Vote}
    (hid : q.identifier = identifier) (hheight : q.instanceHeight = 0)
    (hround : q.currentRound = Round.default) :
    ∀ i ∈ ({⟨2⟩, ⟨3⟩, ⟨4⟩} : Finset OperatorId),
      q.ProducedCommit (QbftData.hash (⟨1⟩ : Vote)) i (firstCommit i) := by
  intro i hi
  refine ⟨q, rfl, rfl, rfl, _, by rw [Qbft.sendCommit_eq]; rfl, sign i (SSVMessage.consensus
    identifier (message .commit 1 (QbftData.hash (⟨1⟩ : Vote)))).asSszBytes, ?_⟩
  have hmsg : q.unsignedMessage .commit
      ⟨0, q.currentRound.toU64, QbftData.hash (⟨1⟩ : Vote), []⟩ VariableList.empty
        VariableList.empty =
      ⟨⟨SSVMessage.consensus identifier (message .commit 1 (QbftData.hash (⟨1⟩ : Vote))), []⟩,
        message .commit 1 (QbftData.hash (⟨1⟩ : Vote))⟩ := by
    rw [Qbft.unsignedMessage, hid, hheight, hround]
    rfl
  rw [hmsg]
  revert i
  decide +kernel

theorem commits_complete_firstCommit : ∃ q q' : Qbft DefaultLeaderFunction Vote,
    Qbft.Reachable ctx q ∧ q.VotesOn (QbftData.hash (⟨1⟩ : Vote)) ∧ q.completed = none ∧
      Qbft.Votes ctx q [firstCommit ⟨2⟩, firstCommit ⟨3⟩, firstCommit ⟨4⟩] q' ∧
      q'.completed = some (.success (QbftData.hash (⟨1⟩ : Vote))) := by
  obtain ⟨w, hw, hstate, hround, hdone, hunif⟩ :
      ∃ w ∈ (instanceOf ⟨1⟩ (by decide)).signedBy sign 0,
        ((instanceOf ⟨1⟩ (by decide)).apply (.receive w)).state =
            .prepare (QbftData.hash (⟨1⟩ : Vote)) ∧
          ((instanceOf ⟨1⟩ (by decide)).apply (.receive w)).currentRound = Round.default ∧
          ((instanceOf ⟨1⟩ (by decide)).apply (.receive w)).completed = none ∧
          Uniform (([firstCommit ⟨2⟩, firstCommit ⟨3⟩, firstCommit ⟨4⟩].foldl
            (((instanceOf ⟨1⟩ (by decide)).apply (.receive w)).tally
              (QbftData.hash (⟨1⟩ : Vote)))
            ((instanceOf ⟨1⟩ (by decide)).apply (.receive w)).commits).take 3) := by
    decide +kernel
  have hnew := reachable_instanceOf (show (⟨1⟩ : OperatorId) ∈ members.toList by decide)
  have hadmissible : (instanceOf ⟨1⟩ (by decide)).Admissible ctx (.receive w) :=
    Or.inr (Qbft.loopback_of_signedBy hw)
  have hreach := hnew.step hadmissible
  obtain ⟨hconfig, hid, hheight, -⟩ := (hadmissible.transition hnew.grounded).static
  generalize (instanceOf ⟨1⟩ (by decide)).apply (.receive w) = q at *
  have hvalid : ∀ i ∈ ({⟨2⟩, ⟨3⟩, ⟨4⟩} : Finset OperatorId), ctx.Validated (firstCommit i) := by
    decide +kernel
  have hsingle : ∀ i, (firstCommit i).SingleVote := fun i => ⟨rfl, Or.inr rfl⟩
  have hrun := ((Qbft.Votes.nil.snoc (q := q) (Or.inl (hvalid ⟨2⟩ (by decide))) (hsingle _)).snoc
    (Or.inl (hvalid ⟨3⟩ (by decide))) (hsingle _)).snoc
    (Or.inl (hvalid ⟨4⟩ (by decide))) (hsingle _)
  have hsub : ({⟨2⟩, ⟨3⟩, ⟨4⟩} : Finset OperatorId) ⊆ q.config.committee := by
    rw [hconfig]
    decide
  have hdelivered : ∀ i ∈ ({⟨2⟩, ⟨3⟩, ⟨4⟩} : Finset OperatorId), ∃ w ∈ q.commits ++
      [firstCommit ⟨2⟩, firstCommit ⟨3⟩, firstCommit ⟨4⟩],
      q.ProducedCommit (QbftData.hash (⟨1⟩ : Vote)) i w := by
    intro i hi
    refine ⟨firstCommit i, List.mem_append_right _ ?_,
      producedCommit_firstCommit hid hheight hround i hi⟩
    simp only [Finset.mem_insert, Finset.mem_singleton] at hi
    rcases hi with rfl | rfl | rfl <;> simp
  refine ⟨q, _, hreach, Or.inl hstate, hdone, hrun, ?_⟩
  refine (Qbft.commits_complete_iff_uniform lawful_vote hreach (Or.inl hstate) hrun hsub ?_
    hdelivered).mpr (Or.inr ⟨hdone, ?_⟩)
  · rw [hconfig]
    decide
  · rw [hconfig]
    exact hunif

open Network.Action in
/-- Operators 1 to 3 prepare the proposal of operator 1.  The commit of operator 4
that reaches operator 1 first has the same root and another data round. -/
def mismatchScript : List Network.Action :=
  [relay ⟨1⟩ ⟨1⟩ 0, relay ⟨2⟩ ⟨1⟩ 0, relay ⟨3⟩ ⟨1⟩ 0,
    relay ⟨1⟩ ⟨1⟩ 1, relay ⟨1⟩ ⟨2⟩ 0, relay ⟨1⟩ ⟨3⟩ 0,
    relay ⟨2⟩ ⟨1⟩ 1, relay ⟨2⟩ ⟨2⟩ 0, relay ⟨2⟩ ⟨3⟩ 0,
    relay ⟨3⟩ ⟨1⟩ 1, relay ⟨3⟩ ⟨2⟩ 0, relay ⟨3⟩ ⟨3⟩ 0,
    inject ⟨1⟩ (signed ⟨4⟩ { message .commit 1 (QbftData.hash (⟨1⟩ : Vote)) with dataRound := 1 }),
    relay ⟨1⟩ ⟨1⟩ 2, relay ⟨1⟩ ⟨2⟩ 1, relay ⟨1⟩ ⟨3⟩ 1]

/-- The commits that operators 1 to 3 sent have all reached operator 1, in its
first round, and it has not completed. -/
theorem commits_incomplete_mismatchScript : network3.Started world ∧
    ∃ es τ, network3.Run network3.Bound world es τ ∧ (τ ⟨1⟩).currentRound = Round.default ∧
      (τ ⟨1⟩).state = .commit (QbftData.hash (⟨1⟩ : Vote)) ∧
      (∀ i ∈ network3.honest, ∃ m ∈ (τ ⟨1⟩).commits, m.signedMessage.operatorIds.toList = [i] ∧
        ∃ u ∈ (τ i).sent, u.qbftMessage.qbftMessageType = .commit ∧
          u.qbftMessage.root = QbftData.hash (⟨1⟩ : Vote) ∧
          u.unsignedMessage.ssvMessage = m.signedMessage.ssvMessage) ∧
      (τ ⟨1⟩).completed = none := by
  exact ⟨started_network3, Network.exists_run (N := network3) (P := network3.Bound) _
    (show ∃ r ∈ network3.simulate network3.Bound sign world mismatchScript, _ by decide +kernel)⟩

end Sample

end Anchor
