import Mathlib
import Anchor.Qbft.Commit

/-!
# What a decision rests on

An instance that completes with success holds the data it decided on and a commit
that a quorum of its committee signed.
-/

namespace Anchor

open Ssz

structure Config.QuorumCommit {F : Type} (config : Config F) (v : Hash256) (a : SignedSSVMessage) :
    Prop where
  nodup : a.operatorIds.toList.Nodup
  mem_committee : ∀ i ∈ a.operatorIds.toList, i ∈ config.committeeMembers.toList
  quorumSize_le : config.quorumSize ≤ a.operatorIds.toList.length
  decoded : ∃ m, QbftMessage.fromSszBytes a.ssvMessage.data.toList = some m ∧ m.root = v

namespace Qbft

variable {F D : Type}

structure DecisionOk (q : Qbft F D) : Prop where
  data : ∀ v, q.completed = some (.success v) → (q.data v).isSome = true
  commit : ∀ v, q.completed = some (.success v) →
    ∃ a, q.aggregatedCommit = some a ∧ q.config.QuorumCommit v a

variable [LeaderFunction F] [QbftData D] {q q' : Qbft F D} {w : WrappedQbftMessage} {v : Hash256}

omit [LeaderFunction F] in
theorem IsDecided.quorumCommit {d : D} (hw : q.IsDecided w d) (hsound : w.Sound) :
    q.config.QuorumCommit w.qbftMessage.root w.signedMessage := by
  refine ⟨hsound.wellFormed.nodup, hw.mem_committee, ?_, _, hsound.decoded, rfl⟩
  have hsub : q.uniqueOperators [w.signedMessage] ⊆
      w.signedMessage.operatorIds.toList.toFinset := by
    intro i hi
    obtain ⟨⟨m, hm, hi⟩, -⟩ := mem_uniqueOperators.mp hi
    rw [List.mem_singleton.mp hm] at hi
    exact List.mem_toFinset.mpr hi
  calc q.config.quorumSize
      ≤ (q.uniqueOperators [w.signedMessage]).card := hasQuorum_iff.mp hw.quorum
    _ ≤ w.signedMessage.operatorIds.toList.toFinset.card := Finset.card_le_card hsub
    _ ≤ _ := List.toFinset_card_le _

theorem quorumCommit_of_aggregate {c : MessageContainer} {a : SignedSSVMessage} {r : Round}
    (hc : c.WellFormed) (hsize : c.quorumSize = q.config.quorumSize)
    (hstored : ∀ m ∈ c.getMessagesForRound r, q.Stored .commit r m)
    (hquorum : c.hasQuorum r = some v)
    (h : q.aggregateCommitMessages (c.getQuorumOfMessages r) = .ok a) :
    q.config.QuorumCommit v a := by
  have hmsgs : c.getQuorumOfMessages r =
      (c.getMessagesForRound r).filter fun m => m.qbftMessage.root = v := by
    rw [MessageContainer.getQuorumOfMessages, hquorum]
  have hmem : ∀ m ∈ c.getQuorumOfMessages r, q.Stored .commit r m ∧ m.qbftMessage.root = v := by
    intro m hm
    rw [hmsgs, List.mem_filter] at hm
    exact ⟨hstored m hm.1, of_decide_eq_true hm.2⟩
  have hlength := MessageContainer.le_length_filter_of_hasQuorum hquorum
  rw [← hmsgs, hsize] at hlength
  obtain ⟨-, hssv, hperm⟩ := aggregateCommitMessages_eq_ok h fun m hm => (hmem m hm).1
  have hpos : 0 < q.config.quorumSize := by
    rw [q.config.quorumSize_eq]
    exact Nat.succ_pos _
  obtain ⟨m, hm⟩ := List.exists_mem_of_length_pos (hpos.trans_le hlength)
  refine ⟨?_, fun i hi => ?_, ?_, m.qbftMessage, ?_, (hmem m hm).2⟩
  · rw [hperm.nodup_iff, hmsgs]
    exact (hc.nodup r).sublist (List.filter_sublist.map _)
  · obtain ⟨m', hm', rfl⟩ := List.mem_map.mp (hperm.mem_iff.mp hi)
    exact (hmem m' hm').1.mem_committee
  · rw [hperm.length_eq, List.length_map]
    exact hlength
  · rw [hssv m hm]
    exact (hmem m hm).1.sound.decoded

theorem Transition.completed_mono {e : Event} (h : Transition q e q')
    (hdone : q'.completed = none) : q.completed = none := by
  cases h with
  | committed hw hadd hflag hroot hquorum hstate haggregate => cases hdone
  | decided hw => cases hdone
  | timedOut hlast => cases hdone
  | _ => exact hdone

theorem Transition.success_mono (h : Transition q (.receive w) q')
    (hv : q.completed = some (.success v)) : q'.completed = some (.success v) := by
  cases h with
  | committed hw =>
    have hnone := hw.completed_eq
    rw [hv] at hnone
    cases hnone
  | decided hw => exact absurd hv (hw.completed_ne v)
  | _ => exact hv

/-- A success is an old one, or it comes with its data and commit. -/
theorem Transition.decision_cases {e : Event} (h : Transition q e q') (hc : q.ContainersOk)
    (hvoting : q.VotingOk) (hsound : ∀ w, e = .receive w → w.Sound)
    (hv : q'.completed = some (.success v)) :
    q.completed = some (.success v) ∧ q'.aggregatedCommit = q.aggregatedCommit ∨
      (q'.data v).isSome = true ∧
        ∃ a, q'.aggregatedCommit = some a ∧ q.config.QuorumCommit v a := by
  cases h with
  | @committed w s c x a hw hadd hflag hroot hquorum hstate haggregate =>
    cases hv
    obtain ⟨d, -, hd, -⟩ := hvoting.data _ hstate
    exact Or.inr ⟨Option.isSome_iff_exists.mpr ⟨d, hd⟩, a, rfl, quorumCommit_of_aggregate
      ((hc.wellFormed .commit).addMessage hadd hw.fromSigner.operatorIds_eq)
      (hc.quorumSize_of_addMessage hadd) (hw.stored_of_addMessage hc (hsound w rfl) hadd)
      hquorum haggregate⟩
  | @decided w d hw =>
    cases hv
    exact Or.inr ⟨Option.isSome_iff_exists.mpr ⟨d, data_insertData_self _ _ _⟩, _, rfl,
      hw.quorumCommit (hsound w rfl)⟩
  | timedOut hlast => cases hv
  | _ => exact Or.inl ⟨hv, rfl⟩

theorem Reachable.decisionOk {K : Type} {ctx : ValidationContext K} (h : Reachable ctx q) :
    q.DecisionOk := by
  refine h.invariant ?_ ?_
  · intro config startData dataValidator identifier data out _
    constructor <;> intro v hv <;> cases hv
  · intro q e q' hr hsound ht hq
    have hconfig := ht.static.1
    constructor <;> intro v hv
    · rcases ht.decision_cases hr.containersOk hr.votingOk hsound hv with ⟨hold, -⟩ | ⟨hdata, -⟩
      · exact ht.data_mono (hq.data v hold)
      · exact hdata
    · rw [hconfig]
      rcases ht.decision_cases hr.containersOk hr.votingOk hsound hv with ⟨hold, heq⟩ | ⟨-, hcommit⟩
      · rw [heq]
        exact hq.commit v hold
      · exact hcommit

end Qbft

end Anchor
