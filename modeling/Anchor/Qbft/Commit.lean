import Mathlib
import Anchor.Qbft.Evidence
import Anchor.Qbft.Progress
import Anchor.SsvTypes.Aggregate

/-!
# Counting commits

Commits are counted by their root, but they are aggregated only if they agree in
the whole message they sign.  So an instance completes with the commit that makes
a quorum, or never in its round.
-/

namespace Anchor

open Ssz

def Uniform (ms : List WrappedQbftMessage) : Prop :=
  ∀ m ∈ ms, ∀ m' ∈ ms, m.signedMessage.ssvMessage = m'.signedMessage.ssvMessage

instance : DecidablePred Uniform := fun ms =>
  inferInstanceAs (Decidable (∀ m ∈ ms, ∀ m' ∈ ms,
    m.signedMessage.ssvMessage = m'.signedMessage.ssvMessage))

theorem Uniform.subset {ms ms' : List WrappedQbftMessage} (h : Uniform ms') (hsub : ms ⊆ ms') :
    Uniform ms :=
  fun m hm m' hm' => h m (hsub hm) m' (hsub hm')

namespace MessageContainer

variable {c : MessageContainer} {r : Round} {v : Hash256}

section

variable (hpos : 0 < c.quorumSize) (hroot : ∀ m ∈ c.getMessagesForRound r, m.qbftMessage.root = v)
  (hquorum : c.quorumSize ≤ (c.getMessagesForRound r).length)
include hpos hroot hquorum

theorem hasQuorum_of_root_eq : c.hasQuorum r = some v := by
  unfold getMessagesForRound at hroot hquorum
  unfold hasQuorum
  cases hms : c.messages r with
  | none =>
    simp only [hms, Option.getD_none, List.length_nil] at hquorum
    omega
  | some ms =>
    simp only [hms, Option.getD_some] at hroot hquorum
    obtain ⟨m, rest, rfl⟩ := List.exists_cons_of_length_pos (hpos.trans_le hquorum)
    have hcount : (m :: rest).countP (fun m => decide (m.qbftMessage.root = v)) =
        (m :: rest).length := by
      rw [List.countP_eq_length]
      exact fun m hm => decide_eq_true (hroot m hm)
    rw [Option.bind_some, List.map_cons, hroot m (by simp), List.find?_cons_of_pos]
    rw [hcount]
    exact decide_eq_true hquorum

theorem getQuorumOfMessages_of_root_eq :
    c.getQuorumOfMessages r = c.getMessagesForRound r := by
  rw [getQuorumOfMessages, hasQuorum_of_root_eq hpos hroot hquorum]
  exact List.filter_eq_self.mpr fun m hm => decide_eq_true (hroot m hm)

end

theorem hasQuorum_eq_none_of_lt (hlt : (c.getMessagesForRound r).length < c.quorumSize) :
    c.hasQuorum r = none := by
  cases h : c.hasQuorum r with
  | none => rfl
  | some v =>
    have hle := (le_length_filter_of_hasQuorum h).trans (List.length_filter_le _ _)
    omega

end MessageContainer

namespace Qbft

variable {F D : Type} [LeaderFunction F]

def commits (q : Qbft F D) : List WrappedQbftMessage :=
  q.commitContainer.getMessagesForRound q.currentRound

section Aggregate

variable [QbftData D] {q : Qbft F D} {r : Round} {v : Hash256} {ms : List WrappedQbftMessage}
  {a : SignedSSVMessage}

omit [QbftData D] in
theorem Stored.length_operatorIds {t : QbftMessageType} {m : WrappedQbftMessage}
    (h : q.Stored t r m) :
    m.signedMessage.operatorIds.toList.length = m.signedMessage.signatures.toList.length :=
  h.sound.wellFormed.length_signatures.symm

omit [QbftData D] in
theorem signersOf_eq_map (hms : ∀ m ∈ ms, q.Stored .commit r m) :
    SignedSSVMessage.signersOf (ms.map WrappedQbftMessage.signedMessage) =
      ms.map WrappedQbftMessage.signer := by
  induction ms with
  | nil => rfl
  | cons m ms ih =>
    have hrest := ih fun m' hm' => hms m' (List.mem_cons_of_mem _ hm')
    rw [SignedSSVMessage.signersOf] at hrest ⊢
    rw [List.map_cons, List.flatMap_cons, hrest, (hms m (by simp)).operatorIds_eq]
    rfl

omit [LeaderFunction F] in
theorem aggregateCommitMessages_cons {m : WrappedQbftMessage} {rest : List WrappedQbftMessage}
    (h : q.aggregateCommitMessages (m :: rest) = .ok a) :
    (∀ m' ∈ m :: rest, m.signedMessage.ssvMessage = m'.signedMessage.ssvMessage) ∧
      ∃ a' d, m.signedMessage.aggregate (rest.map WrappedQbftMessage.signedMessage) = .ok a' ∧
        q.data m.qbftMessage.root = some d ∧ a.fullData.toList = QbftData.asSszBytes d ∧
        a = { a' with fullData := a.fullData } := by
  simp only [aggregateCommitMessages] at h
  split at h
  · cases h
  rename_i hsame
  have hbool : rest.all (fun m' => decide
      (m.signedMessage.ssvMessage = m'.signedMessage.ssvMessage)) = true := by
    simpa using hsame
  refine ⟨fun m' hm' => ?_, ?_⟩
  · rcases List.mem_cons.mp hm' with rfl | hm'
    · rfl
    · exact of_decide_eq_true (List.all_eq_true.mp hbool m' hm')
  split at h
  · cases h
  rename_i a' ha'
  split at h
  · cases h
  rename_i d hd
  split at h
  · cases h
  rename_i a'' ha''
  cases h
  unfold SignedSSVMessage.setFullData at ha''
  split at ha''
  · cases ha''
  rename_i data hdata
  cases ha''
  exact ⟨a', d, ha', hd, VariableList.toList_of_new? hdata, rfl⟩

theorem aggregateCommitMessages_eq_ok (h : q.aggregateCommitMessages ms = .ok a)
    (hms : ∀ m ∈ ms, q.Stored .commit r m) :
    Uniform ms ∧ (∀ m ∈ ms, a.ssvMessage = m.signedMessage.ssvMessage) ∧
      a.operatorIds.toList.Perm (ms.map WrappedQbftMessage.signer) := by
  cases ms with
  | nil => cases h
  | cons m rest =>
    obtain ⟨hall, a', d, ha', -, -, hkeep⟩ := aggregateCommitMessages_cons h
    have hstored := hms m (by simp)
    obtain ⟨hext, hperm⟩ := SignedSSVMessage.aggregate_eq_ok ha' hstored.length_operatorIds
    rw [hkeep]
    refine ⟨fun x hx y hy => (hall x hx).symm.trans (hall y hy), fun m' hm' => ?_, ?_⟩
    · rw [← hall m' hm']
      exact hext.ssvMessage_eq
    · refine hperm.trans ?_
      rw [signersOf_eq_map fun m' hm' => hms m' (List.mem_cons_of_mem _ hm'),
        hstored.operatorIds_eq]
      rfl

omit [LeaderFunction F] in
theorem aggregateCommitMessages_congr {p : Qbft F D} (h : p.data = q.data) :
    p.aggregateCommitMessages ms = q.aggregateCommitMessages ms := by
  cases ms with
  | nil => rfl
  | cons m rest => simp only [aggregateCommitMessages, h]

theorem exists_aggregateCommitMessages (hms : ∀ m ∈ ms, q.Stored .commit r m) (hne : ms ≠ [])
    (hlength : ms.length ≤ 13) (huniform : Uniform ms)
    (hroot : ∀ m ∈ ms, m.qbftMessage.root = v) {d : D} (hd : q.data v = some d)
    (hfits : (QbftData.asSszBytes d).length ≤ ssvMessageFullDataLen) :
    ∃ a, q.aggregateCommitMessages ms = .ok a := by
  cases ms with
  | nil => exact absurd rfl hne
  | cons m rest =>
    have hrest : ∀ m' ∈ rest, q.Stored .commit r m' :=
      fun m' hm' => hms m' (List.mem_cons_of_mem _ hm')
    have hstored := hms m (by simp)
    have hsame : rest.all (fun m' => decide
        (m.signedMessage.ssvMessage = m'.signedMessage.ssvMessage)) = true := by
      refine List.all_eq_true.mpr fun m' hm' => decide_eq_true ?_
      exact huniform m (by simp) m' (List.mem_cons_of_mem _ hm')
    obtain ⟨a, ha⟩ : ∃ a, m.signedMessage.aggregate
        (rest.map WrappedQbftMessage.signedMessage) = .ok a := by
      apply SignedSSVMessage.exists_aggregate _ hstored.length_operatorIds
      · rw [signersOf_eq_map hrest, hstored.operatorIds_eq, List.length_map,
          List.length_singleton]
        rw [List.length_cons] at hlength
        omega
      · intro o ho
        obtain ⟨m', hm', rfl⟩ := List.mem_map.mp ho
        exact (hrest m' hm').length_operatorIds
    simp only [aggregateCommitMessages, hsame, ha, hroot m (by simp), hd,
      SignedSSVMessage.setFullData, VariableList.new?, hfits, dif_pos, Bool.not_true,
      Bool.false_eq_true, if_false]
    exact ⟨_, rfl⟩

end Aggregate

/-! ## Receiving a commit -/

structure Voting (q : Qbft F D) [QbftData D] (v : Hash256) : Prop where
  completed_eq : q.completed = none
  state_eq : q.state = .prepare v ∨ q.state = .commit v
  accepted : q.proposalAcceptedForCurrentRound = true
  proposalRoot_eq : q.proposalRoot = some v
  data : ∃ d, q.data v = some d ∧ (QbftData.asSszBytes d).length ≤ ssvMessageFullDataLen
  root_eq : ∀ m ∈ q.commits, m.qbftMessage.root = v

section Receive

variable [QbftData D] {q : Qbft F D} {v : Hash256} {w : WrappedQbftMessage} {s : OperatorId}
  {c : MessageContainer}

omit [QbftData D] in
theorem IsVote.stored {t : QbftMessageType} (h : q.IsVote t w s) (hsound : w.Sound)
    (ht : t = .prepare ∨ t = .commit) : q.Stored t q.currentRound w := by
  have hsigner := h.fromSigner.signer_eq
  refine ⟨hsound, h.type_eq, h.fromSigner.round_eq, h.fromSigner.height_eq, ?_, ?_, ?_⟩
  · rw [hsigner]
    exact h.fromSigner.operatorIds_eq
  · rw [hsigner]
    exact h.fromSigner.mem_committee
  · rcases ht with rfl | rfl <;> trivial

omit [LeaderFunction F] [QbftData D] in
theorem length_messages_le (hc : c.WellFormed) {r : Round}
    (hmem : ∀ m ∈ c.getMessagesForRound r, m.signer ∈ q.config.committeeMembers.toList) :
    (c.getMessagesForRound r).length ≤ 13 := by
  have hcard := hc.card_signersWhere r fun _ => true
  rw [List.filter_true] at hcard
  rw [← hcard]
  refine (Finset.card_le_card fun a ha => ?_).trans q.config.card_committee_le
  obtain ⟨m, hm, -, rfl⟩ := MessageContainer.mem_signersWhere.mp ha
  rw [Config.committee, List.mem_toFinset]
  exact hmem m hm

section New

variable (h : q.Voting v) (hc : q.ContainersOk) (hsound : w.Sound) (hw : q.IsVote .commit w s)
  (hroot : w.qbftMessage.root = v)
  (hadd : q.commitContainer.addMessage q.currentRound s w = (c, true))

include h hroot hadd in
omit [LeaderFunction F] in
theorem Voting.root_eq_of_addMessage :
    ∀ m ∈ c.getMessagesForRound q.currentRound, m.qbftMessage.root = v := by
  rw [MessageContainer.getMessagesForRound_of_addMessage hadd]
  intro m hm
  rcases List.mem_append.mp hm with hm | hm
  · exact h.root_eq m hm
  · rw [List.mem_singleton.mp hm]
    exact hroot

include hc hsound hw hadd in
omit [QbftData D] in
theorem IsVote.stored_of_addMessage :
    ∀ m ∈ c.getMessagesForRound q.currentRound, q.Stored .commit q.currentRound m := by
  rw [MessageContainer.getMessagesForRound_of_addMessage hadd]
  intro m hm
  rcases List.mem_append.mp hm with hm | hm
  · exact hc.stored .commit q.currentRound m hm
  · rw [List.mem_singleton.mp hm]
    exact hw.stored hsound (Or.inr rfl)

include hc hadd in
omit [QbftData D] in
theorem ContainersOk.quorumSize_of_addMessage : c.quorumSize = q.config.quorumSize := by
  rw [MessageContainer.quorumSize_of_addMessage hadd]
  exact hc.quorumSize_eq .commit

include h hc hsound hw hroot hadd

theorem Voting.completed_of_uniform
    (hquorum : q.config.quorumSize ≤ (q.commits ++ [w]).length)
    (huniform : Uniform (q.commits ++ [w])) :
    (q.receivedCommit s q.currentRound w).1.completed = some (.success v) := by
  have hmsgs : c.getMessagesForRound q.currentRound = q.commits ++ [w] :=
    MessageContainer.getMessagesForRound_of_addMessage hadd
  have hsize := hc.quorumSize_of_addMessage hadd
  have hpos : 0 < c.quorumSize := by
    rw [hsize, Config.quorumSize_eq]
    exact Nat.succ_pos _
  have hroots := h.root_eq_of_addMessage hroot hadd
  have hstored := hw.stored_of_addMessage hc hsound hadd
  rw [← hsize, ← hmsgs] at hquorum
  rw [← hmsgs] at huniform
  have hhas := MessageContainer.hasQuorum_of_root_eq hpos hroots hquorum
  have hget := MessageContainer.getQuorumOfMessages_of_root_eq hpos hroots hquorum
  obtain ⟨d, hd, hfits⟩ := h.data
  obtain ⟨a, ha⟩ := exists_aggregateCommitMessages hstored
    (List.ne_nil_of_length_pos (hpos.trans_le hquorum))
    (length_messages_le ((hc.wellFormed .commit).addMessage hadd hw.fromSigner.operatorIds_eq)
      fun m hm => (hstored m hm).mem_committee) huniform hroots hd hfits
  have hstate : ¬ q.state.toU8 ≥ InstanceState.sentRoundChange.toU8 := not_le.mpr hw.state_lt
  unfold receivedCommit
  rw [h.completed_eq, if_neg (by simp), if_neg hstate, if_neg (not_not.mpr hw.type_eq),
    isProposalAccepted, if_pos h.accepted]
  simp only [h.proposalRoot_eq, hroot, ne_eq, not_true_eq_false, if_false, hadd, hhas, hget]
  have hagg : ∀ p : Qbft F D, p.data = q.data →
      p.aggregateCommitMessages (c.getMessagesForRound q.currentRound) = .ok a :=
    fun p hp => (aggregateCommitMessages_congr hp).trans ha
  rcases h.state_eq with hs | hs
  · simp only [hs, not_true_eq_false, if_false]
    rw [hagg]
    rfl
  · simp only [hs, not_true_eq_false, if_false]
    rw [hagg]
    rfl

theorem Voting.receivedCommit_of_not_uniform
    (hnot : ¬ (q.config.quorumSize ≤ (q.commits ++ [w]).length ∧ Uniform (q.commits ++ [w]))) :
    (q.receivedCommit s q.currentRound w).1 = { q with commitContainer := c } := by
  have hmsgs : c.getMessagesForRound q.currentRound = q.commits ++ [w] :=
    MessageContainer.getMessagesForRound_of_addMessage hadd
  have hsize := hc.quorumSize_of_addMessage hadd
  have hpos : 0 < c.quorumSize := by
    rw [hsize, Config.quorumSize_eq]
    exact Nat.succ_pos _
  have hroots := h.root_eq_of_addMessage hroot hadd
  have hstored := hw.stored_of_addMessage hc hsound hadd
  have hstate : ¬ q.state.toU8 ≥ InstanceState.sentRoundChange.toU8 := not_le.mpr hw.state_lt
  rw [← hmsgs, ← hsize] at hnot
  unfold receivedCommit
  rw [h.completed_eq, if_neg (by simp), if_neg hstate, if_neg (not_not.mpr hw.type_eq),
    isProposalAccepted, if_pos h.accepted]
  simp only [h.proposalRoot_eq, hroot, ne_eq, not_true_eq_false, if_false, hadd]
  by_cases hquorum : c.quorumSize ≤ (c.getMessagesForRound q.currentRound).length
  swap
  · rw [MessageContainer.hasQuorum_eq_none_of_lt (not_le.mp hquorum)]
  · have hhas := MessageContainer.hasQuorum_of_root_eq hpos hroots hquorum
    have hget := MessageContainer.getQuorumOfMessages_of_root_eq hpos hroots hquorum
    simp only [hhas, hget]
    cases herror : q.aggregateCommitMessages (c.getMessagesForRound q.currentRound) with
    | ok a => exact absurd ⟨hquorum, (aggregateCommitMessages_eq_ok herror hstored).1⟩ hnot
    | error e =>
      have hagg : ∀ p : Qbft F D, p.data = q.data →
          p.aggregateCommitMessages (c.getMessagesForRound q.currentRound) = .error e :=
        fun p hp => (aggregateCommitMessages_congr hp).trans herror
      rcases h.state_eq with hs | hs
      · simp only [hs, not_true_eq_false, if_false]
        rw [hagg]
        rfl
      · simp only [hs, not_true_eq_false, if_false]
        rw [hagg]
        rfl

end New

end Receive

/-! ## Reachable instances -/

def VotesOn (q : Qbft F D) (v : Hash256) : Prop := q.state = .prepare v ∨ q.state = .commit v

/-- The accepted proposal, its data and the commits of the round belong together. -/
structure VotingOk (q : Qbft F D) [QbftData D] : Prop where
  accepted : ∀ v, q.VotesOn v → q.proposalAcceptedForCurrentRound = true ∧ q.proposalRoot = some v
  data : ∀ v, q.VotesOn v → ∃ d bs, q.data v = some d ∧ QbftData.fromSszBytes bs = some d ∧
    bs.length ≤ ssvMessageFullDataLen
  empty : q.proposalAcceptedForCurrentRound = false → q.commits = []
  root_eq : ∀ m ∈ q.commits, q.proposalRoot = some m.qbftMessage.root

section Reachable

variable [QbftData D] {K : Type} {ctx : ValidationContext K} {q q' : Qbft F D} {e : Event}

omit [QbftData D] in
theorem ContainersOk.commits_eq_nil (hc : q.ContainersOk) {r : Round} (hr : q.currentRound < r) :
    q.commitContainer.getMessagesForRound r = [] := by
  rw [List.eq_nil_iff_forall_not_mem]
  intro m hm
  exact absurd (hc.round_le .commit r m (by simp) hm) (not_le.mpr hr)

variable {w : WrappedQbftMessage}

omit [QbftData D] in
theorem ContainersOk.eq_currentRound_of_mem_senders (hc : q.ContainersOk) {s : OperatorId}
    {r : Round} (hw : q.FromSigner w s r)
    (hs : s ∈ q.proposeContainer.senders r) : r = q.currentRound := by
  have hwf : q.proposeContainer.WellFormed := hc.wellFormed .proposal
  rw [hwf.senders_eq, List.mem_toFinset] at hs
  obtain ⟨m, hm, -⟩ := List.mem_map.mp hs
  exact le_antisymm (hc.round_le .proposal r m (by simp) hm) hw.currentRound_le

omit [LeaderFunction F] [QbftData D] in
theorem not_votesOn_of_eq {t : InstanceState} (h : q.state = t)
    (ht : ∀ v, t ≠ .prepare v ∧ t ≠ .commit v) (v : Hash256) : ¬ q.VotesOn v := by
  rintro (hv | hv)
  · exact (ht v).1 (h.symm.trans hv)
  · exact (ht v).2 (h.symm.trans hv)

omit [LeaderFunction F] in
theorem VotingOk.of_eq (hq : q.VotingOk) (hstate : q'.state = q.state)
    (hflag : q'.proposalAcceptedForCurrentRound = q.proposalAcceptedForCurrentRound)
    (hroot : q'.proposalRoot = q.proposalRoot) (hdata : q'.data = q.data)
    (hcommits : q'.commits = q.commits) : q'.VotingOk := by
  refine ⟨fun v hv => ?_, fun v hv => ?_, fun h => ?_, fun m hm => ?_⟩
  · rw [hflag, hroot]
    rw [VotesOn, hstate] at hv
    exact hq.accepted v hv
  · rw [hdata]
    rw [VotesOn, hstate] at hv
    exact hq.data v hv
  · rw [hcommits]
    exact hq.empty (hflag ▸ h)
  · rw [hroot]
    exact hq.root_eq m (hcommits ▸ hm)

omit [LeaderFunction F] in
theorem VotingOk.of_idle (hstate : ∀ v, ¬ q.VotesOn v)
    (hempty : q.proposalAcceptedForCurrentRound = false → q.commits = [])
    (hroot : ∀ m ∈ q.commits, q.proposalRoot = some m.qbftMessage.root) : q.VotingOk :=
  ⟨fun v hv => absurd hv (hstate v), fun v hv => absurd hv (hstate v), hempty, hroot⟩

theorem VotingOk.commits_of_isProposal (hq : q.VotingOk) (hc : q.ContainersOk) {s : OperatorId}
    {r : Round} {d : D} (hw : q.IsProposal w s r d)
    (hflag : r = q.currentRound → q.proposalAcceptedForCurrentRound = false) :
    q.commitContainer.getMessagesForRound r = [] := by
  rcases hw.fromSigner.currentRound_le.lt_or_eq with hlt | heq
  · exact hc.commits_eq_nil hlt
  · rw [← heq]
    exact hq.empty (hflag heq.symm)

theorem VotingOk.transition (hq : q.VotingOk) (hc : q.ContainersOk) (h : Transition q e q') :
    q'.VotingOk := by
  cases h with
  | ignored w => exact hq
  | proposalRepeated hw hsender =>
    have hstate := hw.awaiting (hc.eq_currentRound_of_mem_senders hw.fromSigner hsender)
    exact VotingOk.of_idle (not_votesOn_of_eq hstate (by simp)) hq.empty hq.root_eq
  | proposalStored hw hadd hflag hround =>
    exact VotingOk.of_idle (not_votesOn_of_eq (hw.awaiting hround) (by simp)) hq.empty hq.root_eq
  | @proposalAccepted w s r d c hw hadd hflag =>
    have hnil := hq.commits_of_isProposal hc hw hflag
    refine ⟨?_, ?_, fun _ => hnil, fun m hm => ?_⟩
    · rintro v (hv | hv) <;> cases hv
      exact ⟨rfl, rfl⟩
    · rintro v (hv | hv) <;> cases hv
      exact ⟨d, w.signedMessage.fullData.toList, data_insertData_self _ _ _, hw.data_eq,
        w.signedMessage.fullData.length_le⟩
    · rw [show commits _ = q.commitContainer.getMessagesForRound r from rfl, hnil] at hm
      cases hm
  | prepareStored hw hadd => exact hq.of_eq rfl rfl rfl rfl rfl
  | @prepared w s c v hw hadd hflag hquorum hstate =>
    refine ⟨?_, ?_, hq.empty, hq.root_eq⟩
    · rintro x (hx | hx) <;> cases hx
      exact hq.accepted v (Or.inl hstate)
    · rintro x (hx | hx) <;> cases hx
      exact hq.data v (Or.inl hstate)
  | @commitStored w s c hw hadd hflag hroot =>
    refine ⟨hq.accepted, hq.data, fun h => ?_, fun m hm => ?_⟩
    · rw [show q.proposalAcceptedForCurrentRound = false from h] at hflag
      cases hflag
    · rcases MessageContainer.mem_getMessagesForRound_of_addMessage hadd hm with hm | ⟨-, rfl⟩
      · exact hq.root_eq m hm
      · exact hroot
  | @committed w s c v a hw hadd hflag hroot hquorum hstate haggregate =>
    refine VotingOk.of_idle (not_votesOn_of_eq rfl (by simp)) (fun h => ?_) fun m hm => ?_
    · rw [show q.proposalAcceptedForCurrentRound = false from h] at hflag
      cases hflag
    · rcases MessageContainer.mem_getMessagesForRound_of_addMessage hadd hm with hm | ⟨-, rfl⟩
      · exact hq.root_eq m hm
      · exact hroot
  | decided hw => exact VotingOk.of_idle (not_votesOn_of_eq rfl (by simp)) hq.empty hq.root_eq
  | roundChangeStored hw hadd hold => exact hq.of_eq rfl rfl rfl rfl rfl
  | @roundChangeQuorum w s r c data out hw hadd hbefore hquorum hout hstart =>
    rcases hw.fromSigner.currentRound_le.lt_or_eq with hlt | heq
    · have hnil : q.commitContainer.getMessagesForRound r = [] := hc.commits_eq_nil hlt
      refine VotingOk.of_idle (not_votesOn_of_eq rfl (by simp)) (fun _ => hnil) fun m hm => ?_
      rw [show commits _ = q.commitContainer.getMessagesForRound r from rfl, hnil] at hm
      cases hm
    · subst heq
      exact VotingOk.of_idle (not_votesOn_of_eq rfl (by simp)) hq.empty hq.root_eq
  | @roundChangePartial w s r r' c b accepted out hw hadd hnone hlowest hout =>
    have hlt := (MessageContainer.exists_of_lowestPartialQuorumAboveRound hlowest).1
    have hnil : q.commitContainer.getMessagesForRound r' = [] := hc.commits_eq_nil hlt
    refine VotingOk.of_idle (not_votesOn_of_eq rfl (by simp)) (fun _ => hnil) fun m hm => ?_
    rw [show commits _ = q.commitContainer.getMessagesForRound r' from rfl, hnil] at hm
    cases hm
  | timedOut hlast => exact VotingOk.of_idle (not_votesOn_of_eq rfl (by simp)) hq.empty hq.root_eq
  | @timeout r accepted out hnext hmax hout =>
    have hlt : q.currentRound < r := by
      rw [Round.lt_def, Round.get_of_next hnext]
      exact Nat.lt_succ_self _
    have hnil : q.commitContainer.getMessagesForRound r = [] := hc.commits_eq_nil hlt
    refine VotingOk.of_idle (not_votesOn_of_eq rfl (by simp)) (fun _ => hnil) fun m hm => ?_
    rw [show commits _ = q.commitContainer.getMessagesForRound r from rfl, hnil] at hm
    cases hm

theorem Reachable.votingOk (h : Reachable ctx q) : q.VotingOk := by
  refine Reachable.invariant (P := fun q => q.VotingOk) ?_ ?_ h
  · intro config startData dataValidator identifier data out _
    refine VotingOk.of_idle (not_votesOn_of_eq rfl (by simp [initial])) (fun _ => rfl)
      fun m hm => ?_
    cases hm
  · intro q e q' hr _ ht hq
    exact hq.transition hr.containersOk ht

/-- The votes that were sent carry nothing but their round and root. -/
def VotesPlain (q : Qbft F D) : Prop :=
  ∀ u ∈ q.sent,
    u.qbftMessage.qbftMessageType = .prepare ∨ u.qbftMessage.qbftMessageType = .commit →
      ∃ (r : Round) (v : Hash256), u = q.unsignedMessage u.qbftMessage.qbftMessageType
        ⟨0, r.toU64, v, []⟩ VariableList.empty VariableList.empty

theorem Reachable.votesPlain (h : Reachable ctx q) : q.VotesPlain := by
  refine h.invariant ?_ ?_
  · intro config startData dataValidator identifier data out hout u hu hvote
    rcases hout.cases_out with rfl | ⟨u', rfl, htype, -⟩
    · cases hu
    · rw [List.mem_singleton.mp hu, htype] at hvote
      simp at hvote
  · intro q e q' hr _ ht hq
    -- What a step may add that is no vote.
    have hother : ∀ {t : QbftMessageType} {out : List UnsignedWrappedQbftMessage},
        (out = [] ∨ ∃ u, out = [u] ∧ u.qbftMessage.qbftMessageType = t) →
        t ≠ .prepare ∧ t ≠ .commit → ∀ u ∈ q.sent ++ out,
        u.qbftMessage.qbftMessageType = .prepare ∨ u.qbftMessage.qbftMessageType = .commit →
          u ∈ q.sent := by
      intro t out hout ht u hu hvote
      rcases List.mem_append.mp hu with hu | hu
      · exact hu
      · rcases hout with rfl | ⟨u', rfl, htype⟩
        · cases hu
        · rw [List.mem_singleton.mp hu, htype] at hvote
          exact absurd hvote (not_or.mpr ht)
    cases ht with
    | @proposalAccepted w s r d c hw hadd hflag =>
      intro u hu hvote
      rcases List.mem_append.mp hu with hu | hu
      · exact hq u hu hvote
      · rw [List.mem_singleton.mp hu]
        exact ⟨r, w.qbftMessage.root, rfl⟩
    | @prepared w s c v hw hadd hflag hquorum hstate =>
      intro u hu hvote
      rcases List.mem_append.mp hu with hu | hu
      · exact hq u hu hvote
      · rw [List.mem_singleton.mp hu]
        exact ⟨q.currentRound, v, rfl⟩
    | roundChangeQuorum hw hadd hbefore hquorum hout hstart =>
      intro u hu hvote
      refine hq u (hother (t := .proposal) ?_ (by simp) u hu hvote) hvote
      exact hout.cases_out.imp_right fun ⟨u, hu, htype, _⟩ => ⟨u, hu, htype⟩
    | roundChangePartial hw hadd hnone hlowest hout =>
      intro u hu hvote
      refine hq u (hother (t := .roundChange) ?_ (by simp) u hu hvote) hvote
      exact hout.cases_out.imp_right fun ⟨u, hu, htype, _⟩ => ⟨u, hu, htype⟩
    | timeout hnext hmax hout =>
      intro u hu hvote
      refine hq u (hother (t := .roundChange) ?_ (by simp) u hu hvote) hvote
      exact hout.cases_out.imp_right fun ⟨u, hu, htype, _⟩ => ⟨u, hu, htype⟩
    | _ => exact hq

theorem Reachable.fullData_eq_nil (hq : Reachable ctx q)
    (h : q.Admissible ctx (.receive w))
    (hvote : w.qbftMessage.qbftMessageType = .prepare ∨
      w.qbftMessage.qbftMessageType = .commit ∧
        w.signedMessage.operatorIds.toList.length = 1) :
    w.signedMessage.fullData.toList = [] := by
  rcases h with hvalid | ⟨u, hu, signature, hsign⟩
  · obtain ⟨-, -, hconsensus⟩ := ValidationContext.validateSsvMessage_eq_ok hvalid.validate_eq
    obtain ⟨-, hsigners, -⟩ := ValidationContext.validateConsensusMessage_eq_ok hconsensus
    exact ValidationContext.fullData_eq_nil_of_vote hsigners hvote
  · obtain ⟨-, -, -, -, hdata, hmsg⟩ := UnsignedWrappedQbftMessage.sign_eq_ok hsign
    rw [hmsg] at hvote
    obtain ⟨r, v, heq⟩ := hq.votesPlain u hu (hvote.imp_right And.left)
    rw [hdata, heq]
    rfl

end Reachable

end Qbft

end Anchor
