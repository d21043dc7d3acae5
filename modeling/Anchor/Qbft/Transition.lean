import Mathlib
import Anchor.Qbft.Encoding

/-!
# What a step of an instance can do

Each function of the instance gets one lemma that says when it succeeds and what
it returns.  They are put together into `Transition`, a list of everything that
receiving a message or ending a round can do to the state.  All invariants are
derived from that list.
-/

namespace Anchor

open Ssz

namespace Qbft

variable {F D : Type}

section Frames

variable (q : Qbft F D) (h : Hash256) (d : D)

@[simp] theorem data_insertData_self : (q.insertData h d).data h = some d := by
  simp [insertData]

theorem data_insertData_ne {h' : Hash256} (hne : h' ≠ h) :
    (q.insertData h d).data h' = q.data h' := by
  simp [insertData, hne]

theorem isSome_data_insertData {h' : Hash256} (hsome : (q.data h').isSome) :
    ((q.insertData h d).data h').isSome := by
  by_cases heq : h' = h
  · rw [heq, data_insertData_self]
    rfl
  · rwa [data_insertData_ne q h d heq]

end Frames

/-! ## Quorums and rounds -/

variable {q : Qbft F D}

theorem mem_uniqueOperators {msgs : List SignedSSVMessage} {a : OperatorId} :
    a ∈ q.uniqueOperators msgs ↔
      (∃ m ∈ msgs, a ∈ m.operatorIds.toList) ∧ a ∈ q.config.committeeMembers.toList := by
  simp [uniqueOperators, checkCommittee]

theorem uniqueOperators_subset (q : Qbft F D) (msgs : List SignedSSVMessage) :
    q.uniqueOperators msgs ⊆ q.config.committee := by
  intro a ha
  rw [Config.committee, List.mem_toFinset]
  exact (mem_uniqueOperators.mp ha).2

theorem hasQuorum_iff {msgs : List SignedSSVMessage} :
    q.hasQuorum msgs = true ↔ q.config.quorumSize ≤ (q.uniqueOperators msgs).card := by
  simp [hasQuorum]

theorem hasQuorum_singleton_of_single {m : SignedSSVMessage} {s : OperatorId}
    (h : m.operatorIds.toList = [s]) : q.hasQuorum [m] = false := by
  rw [Bool.eq_false_iff]
  intro hq
  have hcard := hasQuorum_iff.mp hq
  have hsub : q.uniqueOperators [m] ⊆ {s} := by
    intro a ha
    obtain ⟨⟨m', hm', ha'⟩, -⟩ := mem_uniqueOperators.mp ha
    rw [List.mem_singleton.mp hm', h] at ha'
    simpa using ha'
  have hle := Finset.card_le_card hsub
  have hquorum := q.config.quorumSize_eq
  have hf := q.config.one_le_f
  rw [Finset.card_singleton] at hle
  omega

/-- A message that the base verification attributes to a single committee member
for round `r`, which is not a past round. -/
structure FromSigner (q : Qbft F D) (w : WrappedQbftMessage) (s : OperatorId) (r : Round) :
    Prop where
  operatorIds_eq : w.signedMessage.operatorIds.toList = [s]
  mem_committee : s ∈ q.config.committeeMembers.toList
  height_eq : w.qbftMessage.height = q.instanceHeight
  round_eq : w.qbftMessage.round = r.toU64
  currentRound_le : q.currentRound ≤ r
  eq_currentRound : w.qbftMessage.qbftMessageType = .prepare ∨
    w.qbftMessage.qbftMessageType = .commit → r = q.currentRound

theorem FromSigner.signer_eq {w : WrappedQbftMessage} {s : OperatorId} {r : Round}
    (h : q.FromSigner w s r) : w.signer = s := by
  simp [WrappedQbftMessage.signer, h.operatorIds_eq]

theorem toU64_le_iff {r s : Round} : r.toU64 ≤ s.toU64 ↔ r ≤ s := by
  rw [UInt64.le_iff_toNat_le, Round.toNat_toU64, Round.toNat_toU64, Round.le_def]

theorem toU64_lt_iff {r s : Round} : r.toU64 < s.toU64 ↔ r < s := by
  rw [UInt64.lt_iff_toNat_lt, Round.toNat_toU64, Round.toNat_toU64, Round.lt_def]

theorem checkRound_single {w : WrappedQbftMessage} {s : OperatorId} {r : Round}
    (hids : w.signedMessage.operatorIds.toList = [s]) (hr : w.qbftMessage.round = r.toU64)
    (h : q.checkRound w = .ok ()) :
    q.currentRound ≤ r ∧ (w.qbftMessage.qbftMessageType = .prepare ∨
      w.qbftMessage.qbftMessageType = .commit → r = q.currentRound) := by
  have hquorum : q.hasQuorum [w.signedMessage] = false := hasQuorum_singleton_of_single hids
  simp only [checkRound, hquorum, hr, Bool.false_eq_true, and_false, not_false_eq_true, and_true,
    gt_iff_lt, toU64_lt_iff, if_false] at h
  split_ifs at h with hpast hfuture
  · refine ⟨hfuture.le, ?_⟩
    rintro (ht | ht) <;> rw [ht] at h <;> cases h
  · have hle := not_lt.mp hpast
    exact ⟨hle, fun _ => le_antisymm (not_lt.mp hfuture) hle⟩

section Verification

variable [QbftData D]

theorem validateMessage_eq_ok {q : Qbft F D} {w : WrappedQbftMessage} {content : MessageContent D}
    {signer : OperatorId} (h : q.validateMessage w = .ok (content, signer)) :
    q.checkRound w = .ok () ∧ w.qbftMessage.height = q.instanceHeight ∧
      (∀ s ∈ w.signedMessage.operatorIds.toList, s ∈ q.config.committeeMembers.toList) ∧
      (1 < w.signedMessage.operatorIds.toList.length ∨
        w.signedMessage.operatorIds.toList = [signer]) ∧
      (∀ validData, content = .complete validData →
        w.signedMessage.operatorIds.toList = [signer] ∧
        validData.hash = w.qbftMessage.root ∧
        QbftData.fromSszBytes w.signedMessage.fullData.toList = some validData.data ∧
        q.dataValidator validData.data q.startData = true) := by
  unfold validateMessage at h
  cases hround : q.checkRound w with
  | error e => simp [hround] at h
  | ok u =>
    simp only [hround] at h
    by_cases hheight : w.qbftMessage.height = q.instanceHeight
    swap
    · simp [hheight] at h
    rw [if_neg (not_not.mpr hheight)] at h
    split at h
    · cases h
    rename_i hcommittee
    have hmem : ∀ s ∈ w.signedMessage.operatorIds.toList,
        s ∈ q.config.committeeMembers.toList := by
      simpa [checkCommittee] using hcommittee
    split at h
    · rename_i hmulti
      cases h
      exact ⟨rfl, hheight, hmem, Or.inl hmulti, fun _ hc => by cases hc⟩
    · rename_i hmulti
      cases hhead : w.signedMessage.operatorIds.toList.head? with
      | none => simp [hhead] at h
      | some s =>
        have hids : w.signedMessage.operatorIds.toList = [s] := by
          obtain ⟨rest, hrest⟩ := List.head?_eq_some_iff.mp hhead
          rw [hrest, List.length_cons] at hmulti
          have hnil : rest = [] := List.length_eq_zero_iff.mp (by omega)
          rw [hrest, hnil]
        simp only [hhead] at h
        split at h
        · cases h
          exact ⟨rfl, hheight, hmem, Or.inr hids, fun _ hc => by cases hc⟩
        · cases hdata : (QbftData.fromSszBytes w.signedMessage.fullData.toList : Option D) with
          | none => simp [hdata] at h
          | some d =>
            simp only [hdata] at h
            split at h
            · rename_i hvalid
              cases h
              refine ⟨rfl, hheight, hmem, Or.inr hids, ?_⟩
              rintro validData hc
              cases hc
              exact ⟨hids, rfl, rfl, hvalid⟩
            · cases h

/-! ## Sending -/

theorem sendPrepare_of_some {q : Qbft F D} {v : Hash256} {d : D} (h : q.data v = some d) :
    q.sendPrepare v = (q.send (q.unsignedMessage .prepare ⟨0, q.currentRound.toU64, v, []⟩
      VariableList.empty VariableList.empty), .ok ()) := by
  simp [sendPrepare, h, newUnsignedMessage_nil, getMessageData]

theorem sendCommit_eq (q : Qbft F D) (v : Hash256) :
    q.sendCommit v = (q.send (q.unsignedMessage .commit ⟨0, q.currentRound.toU64, v, []⟩
      VariableList.empty VariableList.empty), .ok ()) := by
  simp [sendCommit, newUnsignedMessage_nil, getMessageData]

/-- The round change that `q` sends, if its justification can be encoded; without
one the flag keeps the value `accepted`. -/
inductive RoundChangeOut (q : Qbft F D) (accepted : Bool) :
    Bool → List UnsignedWrappedQbftMessage → Prop where
  | failed (h : ¬ Fits roundChangeJustificationLength q.getRoundChangePrepareJustifications) :
      RoundChangeOut q accepted accepted []
  | sent {l : ByteLists roundChangeJustificationLength 13}
      (h : Encodes q.getRoundChangePrepareJustifications l) :
      RoundChangeOut q accepted false
        [q.unsignedMessage .roundChange (q.getMessageData .roundChange Hash256.default) l
          VariableList.empty]

theorem fits_nil (n : ℕ) : Fits n [] := ⟨by simp, by simp⟩

theorem exists_sendRoundChange (q : Qbft F D) :
    ∃ b out, RoundChangeOut q q.proposalAcceptedForCurrentRound b out ∧
      (q.sendRoundChange Hash256.default).1 =
        { q with proposalAcceptedForCurrentRound := b, sent := q.sent ++ out } := by
  unfold sendRoundChange
  cases h : q.newUnsignedMessage .roundChange Hash256.default
      q.getRoundChangePrepareJustifications [] with
  | error e =>
    refine ⟨_, _, RoundChangeOut.failed ?_, by simp⟩
    intro hfits
    obtain ⟨u, hu⟩ := q.exists_newUnsignedMessage .roundChange Hash256.default hfits (fits_nil _)
    rw [h] at hu
    cases hu
  | ok u =>
    obtain ⟨l, l', hl, hl', rfl⟩ := newUnsignedMessage_eq_ok h
    rw [eq_empty_of_encodes_nil hl']
    exact ⟨_, _, RoundChangeOut.sent hl, rfl⟩

end Verification

section Rounds

variable [LeaderFunction F] [QbftData D]

/-- Data that a leader may propose: its own start data, or valid data of a stored
round change for the current round. -/
def Proposable (q : Qbft F D) (h : Hash256) (d : D) : Prop :=
  h = q.validStartData.hash ∧ d = q.validStartData.data ∨
    ∃ m ∈ q.roundChangeContainer.getMessagesForRound q.currentRound,
      m.qbftMessage.root = h ∧ m.qbftMessage.dataRound ≠ 0 ∧
        QbftData.fromSszBytes m.signedMessage.fullData.toList = some d ∧
          QbftData.hash d = h ∧ q.dataValidator d q.startData = true

/-- The data map and the messages after `q`, which awaits a proposal, starts its round. -/
inductive ProposalOut (q : Qbft F D) :
    (Hash256 → Option D) → List UnsignedWrappedQbftMessage → Prop where
  | waiting : ProposalOut q q.data []
  | failed {h : Hash256} {d : D} (hd : q.Proposable h d)
      (hleader : q.checkLeader q.config.operatorId q.currentRound = true) :
      ProposalOut q (q.insertData h d).data []
  | sent {h v : Hash256} {d : D} {l : ByteLists roundChangeJustificationLength 13}
      {l' : ByteLists prepareJustificationLength 13} (hd : q.Proposable h d)
      (hleader : q.checkLeader q.config.operatorId q.currentRound = true)
      (hl : Encodes (q.insertData h d).getRoundChangeJustifications l) :
      ProposalOut q (q.insertData h d).data
        [q.unsignedMessage .proposal ((q.insertData h d).getMessageData .proposal v) l l']

theorem mem_of_lastHighestPrepared {ms : List WrappedQbftMessage} {m : WrappedQbftMessage}
    (h : lastHighestPrepared ms = some m) : m ∈ ms ∧ m.qbftMessage.dataRound ≠ 0 := by
  obtain ⟨hm, hp⟩ := Pick.mem_of_pick h
  exact ⟨hm, by simpa using hp⟩

variable {q : Qbft F D}

omit [LeaderFunction F] in
theorem proposable_of_justify {validData : ValidData D}
    (h : q.justifyRoundChangeQuorum = .highestPrepared validData) :
    q.Proposable validData.hash validData.data := by
  unfold justifyRoundChangeQuorum at h
  simp only at h
  split at h
  · cases h
  · split at h
    · cases h
    · rename_i m hm
      obtain ⟨hmem, hround⟩ := mem_of_lastHighestPrepared hm
      split at h
      · cases h
      · split at h
        · cases h
        · rename_i d hd
          split at h
          · cases h
          · rename_i hhash
            split at h
            · cases h
            · rename_i hvalid
              cases h
              exact Or.inr ⟨m, hmem, rfl, hround, hd, not_not.mp hhash, by simpa using hvalid⟩

theorem exists_sendProposal {h : Hash256} {d : D} (hd : q.Proposable h d)
    (hleader : q.checkLeader q.config.operatorId q.currentRound = true) :
    ∃ data out, ProposalOut q data out ∧
      (q.sendProposal h d).1 = { q with data := data, sent := q.sent ++ out } := by
  unfold sendProposal
  simp only
  split
  · exact ⟨_, _, ProposalOut.failed hd hleader, by simp [insertData]⟩
  · split
    · exact ⟨_, _, ProposalOut.failed hd hleader, by simp [insertData]⟩
    · rename_i u hu
      obtain ⟨l, l', hl, hl', rfl⟩ := newUnsignedMessage_eq_ok hu
      exact ⟨_, _, ProposalOut.sent hd hleader hl, rfl⟩

theorem exists_startRound (hstate : q.state ≠ .sentRoundChange) :
    ∃ data out, ProposalOut { q with state := .awaitingProposal } data out ∧
      q.startRound =
        { q with state := .awaitingProposal, data := data, sent := q.sent ++ out } := by
  unfold startRound
  rw [if_neg hstate]
  simp only
  split
  · rename_i hleader
    split
    · rename_i validData hjust
      exact exists_sendProposal (proposable_of_justify hjust) hleader
    · exact exists_sendProposal (Or.inl ⟨rfl, rfl⟩) hleader
    · exact ⟨_, _, ProposalOut.waiting, by simp⟩
  · exact ⟨_, _, ProposalOut.waiting, by simp⟩

omit [LeaderFunction F] [QbftData D] in
theorem isProposalAccepted_eq_ok {u : Unit} :
    q.isProposalAccepted = .ok u ↔ q.proposalAcceptedForCurrentRound = true := by
  unfold isProposalAccepted
  split <;> simp_all

/-! ## Transitions -/

inductive Event where
  | receive (w : WrappedQbftMessage)
  | endRound

def apply (q : Qbft F D) : Event → Qbft F D
  | .receive w => (q.receive w).1
  | .endRound => q.endRound

/-- A proposal by the leader of its round, with valid data `d` and, after the
first round, with the justifications it needs. -/
structure IsProposal (q : Qbft F D) (w : WrappedQbftMessage) (s : OperatorId) (r : Round) (d : D) :
    Prop where
  fromSigner : q.FromSigner w s r
  type_eq : w.qbftMessage.qbftMessageType = .proposal
  leader : q.checkLeader s r = true
  justified : Round.default < r → q.validateProposalJustifications w.qbftMessage = .ok ()
  data_eq : QbftData.fromSszBytes w.signedMessage.fullData.toList = some d
  valid : q.dataValidator d q.startData = true
  awaiting : r = q.currentRound → q.state = .awaitingProposal

/-- A round change that passed the checks on its justification. -/
structure IsRoundChange (q : Qbft F D) (w : WrappedQbftMessage) (s : OperatorId) (r : Round) :
    Prop where
  fromSigner : q.FromSigner w s r
  type_eq : w.qbftMessage.qbftMessageType = .roundChange
  state_lt : q.state.toU8 < InstanceState.complete.toU8
  checked : q.checkRoundChange w.qbftMessage = .ok ()

structure IsVote (q : Qbft F D) (t : QbftMessageType) (w : WrappedQbftMessage) (s : OperatorId) :
    Prop where
  fromSigner : q.FromSigner w s q.currentRound
  type_eq : w.qbftMessage.qbftMessageType = t
  completed_eq : q.completed = none
  state_lt : q.state.toU8 < InstanceState.sentRoundChange.toU8

structure IsDecided (q : Qbft F D) (w : WrappedQbftMessage) (d : D) : Prop where
  type_eq : w.qbftMessage.qbftMessageType = .commit
  height_eq : w.qbftMessage.height = q.instanceHeight
  mem_committee : ∀ s ∈ w.signedMessage.operatorIds.toList, s ∈ q.config.committeeMembers.toList
  quorum : q.hasQuorum [w.signedMessage] = true
  completed_ne : ∀ v, q.completed ≠ some (.success v)
  data_eq : QbftData.fromSszBytes w.signedMessage.fullData.toList = some d
  valid : q.dataValidator d q.startData = true

inductive Transition (q : Qbft F D) : Event → Qbft F D → Prop where
  | ignored (w : WrappedQbftMessage) : Transition q (.receive w) q
  | proposalRepeated {w : WrappedQbftMessage} {s : OperatorId} {r : Round} {d : D}
      (hw : q.IsProposal w s r d) (hsender : s ∈ q.proposeContainer.senders r) :
      Transition q (.receive w) (q.insertData w.qbftMessage.root d)
  | proposalStored {w : WrappedQbftMessage} {s : OperatorId} {r : Round} {d : D}
      {c : MessageContainer} (hw : q.IsProposal w s r d)
      (hadd : q.proposeContainer.addMessage r s w = (c, true))
      (hflag : q.proposalAcceptedForCurrentRound = true) (hround : r = q.currentRound) :
      Transition q (.receive w)
        { q with
          data := (q.insertData w.qbftMessage.root d).data
          proposeContainer := c }
  | proposalAccepted {w : WrappedQbftMessage} {s : OperatorId} {r : Round} {d : D}
      {c : MessageContainer} (hw : q.IsProposal w s r d)
      (hadd : q.proposeContainer.addMessage r s w = (c, true))
      (hflag : r = q.currentRound → q.proposalAcceptedForCurrentRound = false) :
      Transition q (.receive w)
        { q with
          data := (q.insertData w.qbftMessage.root d).data
          proposeContainer := c
          currentRound := r
          proposalAcceptedForCurrentRound := true
          proposalRoot := some w.qbftMessage.root
          state := .prepare w.qbftMessage.root
          sent := q.sent ++ [q.unsignedMessage .prepare ⟨0, r.toU64, w.qbftMessage.root, []⟩
            VariableList.empty VariableList.empty] }
  | prepareStored {w : WrappedQbftMessage} {s : OperatorId} {c : MessageContainer}
      (hw : q.IsVote .prepare w s)
      (hadd : q.prepareContainer.addMessage q.currentRound s w = (c, true)) :
      Transition q (.receive w) { q with prepareContainer := c }
  | prepared {w : WrappedQbftMessage} {s : OperatorId} {c : MessageContainer} {v : Hash256}
      (hw : q.IsVote .prepare w s)
      (hadd : q.prepareContainer.addMessage q.currentRound s w = (c, true))
      (hflag : q.proposalAcceptedForCurrentRound = true)
      (hquorum : c.hasQuorum q.currentRound = some v) (hstate : q.state = .prepare v) :
      Transition q (.receive w)
        { q with
          prepareContainer := c
          state := .commit v
          lastPreparedValue := some v
          lastPreparedRound := some q.currentRound
          sent := q.sent ++ [q.unsignedMessage .commit ⟨0, q.currentRound.toU64, v, []⟩
            VariableList.empty VariableList.empty] }
  | commitStored {w : WrappedQbftMessage} {s : OperatorId} {c : MessageContainer}
      (hw : q.IsVote .commit w s)
      (hadd : q.commitContainer.addMessage q.currentRound s w = (c, true))
      (hflag : q.proposalAcceptedForCurrentRound = true)
      (hroot : q.proposalRoot = some w.qbftMessage.root) :
      Transition q (.receive w) { q with commitContainer := c }
  | committed {w : WrappedQbftMessage} {s : OperatorId} {c : MessageContainer} {v : Hash256}
      {a : SignedSSVMessage} (hw : q.IsVote .commit w s)
      (hadd : q.commitContainer.addMessage q.currentRound s w = (c, true))
      (hflag : q.proposalAcceptedForCurrentRound = true)
      (hroot : q.proposalRoot = some w.qbftMessage.root)
      (hquorum : c.hasQuorum q.currentRound = some v)
      (hstate : q.state = .prepare v ∨ q.state = .commit v)
      (haggregate : q.aggregateCommitMessages (c.getQuorumOfMessages q.currentRound) = .ok a) :
      Transition q (.receive w)
        { q with
          commitContainer := c
          aggregatedCommit := some a
          state := .complete
          completed := some (.success v) }
  | decided {w : WrappedQbftMessage} {d : D} (hw : q.IsDecided w d) :
      Transition q (.receive w)
        { q with
          data := (q.insertData w.qbftMessage.root d).data
          state := .complete
          completed := some (.success w.qbftMessage.root)
          aggregatedCommit := some w.signedMessage }
  | roundChangeStored {w : WrappedQbftMessage} {s : OperatorId} {r : Round} {c : MessageContainer}
      {b : Bool} (hw : q.IsRoundChange w s r)
      (hadd : q.roundChangeContainer.addMessage r s w = (c, b))
      (hold : q.roundChangeContainer.hasQuorumDisregardingRoot r = true ∨
        c.hasQuorumDisregardingRoot r = false) :
      Transition q (.receive w) { q with roundChangeContainer := c }
  | roundChangeQuorum {w : WrappedQbftMessage} {s : OperatorId} {r : Round} {c : MessageContainer}
      {data : Hash256 → Option D} {out : List UnsignedWrappedQbftMessage}
      (hw : q.IsRoundChange w s r)
      (hadd : q.roundChangeContainer.addMessage r s w = (c, true))
      (hbefore : q.roundChangeContainer.hasQuorumDisregardingRoot r = false)
      (hquorum : c.hasQuorumDisregardingRoot r = true)
      (hout : ProposalOut { q with
        roundChangeContainer := c, currentRound := r, state := .awaitingProposal } data out)
      (hstart : startRound { q with
        roundChangeContainer := c, state := .roundChangeConsensus, currentRound := r } =
          { q with
            roundChangeContainer := c
            currentRound := r
            state := .awaitingProposal
            data := data
            sent := q.sent ++ out }) :
      Transition q (.receive w)
        { q with
          roundChangeContainer := c
          currentRound := r
          state := .awaitingProposal
          data := data
          sent := q.sent ++ out }
  | roundChangePartial {w : WrappedQbftMessage} {s : OperatorId} {r r' : Round}
      {c : MessageContainer} {b accepted : Bool} {out : List UnsignedWrappedQbftMessage}
      (hw : q.IsRoundChange w s r)
      (hadd : q.roundChangeContainer.addMessage r s w = (c, b))
      (hnone : c.hasQuorumDisregardingRoot r = false)
      (hlowest : c.lowestPartialQuorumAboveRound q.currentRound
        (getF q.config.committeeMembers.len + 1) = some r')
      (hout : RoundChangeOut { q with
        roundChangeContainer := c
        currentRound := r'
        state := .sentRoundChange
        proposalAcceptedForCurrentRound := false } false accepted out) :
      Transition q (.receive w)
        { q with
          roundChangeContainer := c
          currentRound := r'
          state := .sentRoundChange
          proposalAcceptedForCurrentRound := false
          sent := q.sent ++ out }
  | timedOut (hlast : ∀ r, q.currentRound.next = some r → q.config.maxRounds < r.get) :
      Transition q .endRound { q with state := .complete, completed := some .timedOut }
  | timeout {r : Round} {accepted : Bool} {out : List UnsignedWrappedQbftMessage}
      (hnext : q.currentRound.next = some r) (hmax : r.get ≤ q.config.maxRounds)
      (hout : RoundChangeOut { q with currentRound := r, state := .sentRoundChange }
        q.proposalAcceptedForCurrentRound accepted out) :
      Transition q .endRound
        { q with
          currentRound := r
          state := .sentRoundChange
          proposalAcceptedForCurrentRound := accepted
          sent := q.sent ++ out }

variable {w : WrappedQbftMessage} {s : OperatorId} {r : Round}

theorem transition_receivedPropose {validData : ValidData D} (hfrom : q.FromSigner w s r)
    (htype : w.qbftMessage.qbftMessageType = .proposal)
    (hhash : validData.hash = w.qbftMessage.root)
    (hdata : QbftData.fromSszBytes w.signedMessage.fullData.toList = some validData.data)
    (hvalid : q.dataValidator validData.data q.startData = true) :
    Transition q (.receive w) (q.receivedPropose validData s r w).1 := by
  unfold receivedPropose
  by_cases hstate : r = q.currentRound ∧ q.state ≠ .awaitingProposal
  · rw [if_pos hstate]
    exact Transition.ignored w
  rw [if_neg hstate]
  by_cases hleader : q.checkLeader s r = true
  swap
  · rw [if_pos (by simpa using hleader)]
    exact Transition.ignored w
  rw [if_neg (by simpa using hleader)]
  split
  · exact Transition.ignored w
  · rename_i hjust
    have hw : q.IsProposal w s r validData.data := by
      refine ⟨hfrom, htype, hleader, ?_, hdata, hvalid, ?_⟩
      · intro hr
        rwa [if_pos hr] at hjust
      · intro hr
        by_contra hne
        exact hstate ⟨hr, hne⟩
    rw [hhash]
    dsimp only
    split
    · rename_i c hadd
      exact Transition.proposalRepeated hw (MessageContainer.mem_senders_of_addMessage_false hadd)
    · rename_i c hadd
      change q.proposeContainer.addMessage r s w = (c, true) at hadd
      split
      · rename_i hflag
        exact Transition.proposalStored hw hadd hflag.1 hflag.2
      · rename_i hflag
        change ¬ (q.proposalAcceptedForCurrentRound = true ∧ r = q.currentRound) at hflag
        rw [sendPrepare_of_some (d := validData.data) (by simp [insertData])]
        have hnew := Transition.proposalAccepted hw hadd fun hr => by
          by_contra hne
          exact hflag ⟨by simpa using hne, hr⟩
        rcases hfrom.currentRound_le.lt_or_eq with hlt | heq
        · simp only [insertData, send, gt_iff_lt, if_pos hlt]
          exact hnew
        · have hnot : ¬ q.currentRound < r := by simp [heq]
          simp only [insertData, send, gt_iff_lt, if_neg hnot]
          rw [← heq] at hnew
          exact hnew

theorem transition_receivedPrepare (hfrom : q.FromSigner w s r)
    (htype : w.qbftMessage.qbftMessageType = .prepare) :
    Transition q (.receive w) (q.receivedPrepare s r w).1 := by
  obtain rfl := hfrom.eq_currentRound (Or.inl htype)
  unfold receivedPrepare
  by_cases hcompleted : q.completed.isSome = true
  · rw [if_pos hcompleted]
    exact Transition.ignored w
  rw [if_neg hcompleted]
  by_cases hstate : q.state.toU8 ≥ InstanceState.sentRoundChange.toU8
  · rw [if_pos hstate]
    exact Transition.ignored w
  rw [if_neg hstate, if_neg (not_not.mpr htype)]
  have hw : q.IsVote .prepare w s :=
    ⟨hfrom, htype, by simpa using hcompleted, not_le.mp hstate⟩
  split
  · exact Transition.ignored w
  · rename_i c hadd
    dsimp only
    split
    · exact Transition.prepareStored hw hadd
    · rename_i haccepted
      have hflag := isProposalAccepted_eq_ok.mp haccepted
      split
      · exact Transition.prepareStored hw hadd
      · split
        · exact Transition.prepareStored hw hadd
        · rename_i v hquorum
          split
          · rename_i root hroot
            by_cases hv : v = root
            · subst hv
              rw [if_neg (by simp), sendCommit_eq]
              exact Transition.prepared hw hadd hflag hquorum hroot
            · rw [if_pos hv]
              exact Transition.prepareStored hw hadd
          · exact Transition.prepareStored hw hadd

theorem transition_receivedCommit (hfrom : q.FromSigner w s r)
    (htype : w.qbftMessage.qbftMessageType = .commit) :
    Transition q (.receive w) (q.receivedCommit s r w).1 := by
  obtain rfl := hfrom.eq_currentRound (Or.inr htype)
  unfold receivedCommit
  by_cases hcompleted : q.completed.isSome = true
  · rw [if_pos hcompleted]
    exact Transition.ignored w
  rw [if_neg hcompleted]
  by_cases hstate : q.state.toU8 ≥ InstanceState.sentRoundChange.toU8
  · rw [if_pos hstate]
    exact Transition.ignored w
  rw [if_neg hstate, if_neg (not_not.mpr htype)]
  have hw : q.IsVote .commit w s :=
    ⟨hfrom, htype, by simpa using hcompleted, not_le.mp hstate⟩
  split
  · exact Transition.ignored w
  rename_i haccepted
  have hflag := isProposalAccepted_eq_ok.mp haccepted
  split
  · exact Transition.ignored w
  rename_i root hroot
  by_cases hv : w.qbftMessage.root = root
  swap
  · rw [if_pos hv]
    exact Transition.ignored w
  subst hv
  rw [if_neg (by simp)]
  split
  · exact Transition.ignored w
  rename_i c hadd
  dsimp only
  split
  · exact Transition.commitStored hw hadd hflag hroot
  rename_i v hquorum
  split
  · rename_i root hprepare
    split
    · exact Transition.commitStored hw hadd hflag hroot
    · rename_i heq
      obtain rfl := not_not.mp heq
      split
      · exact Transition.commitStored hw hadd hflag hroot
      · rename_i a haggregate
        exact Transition.committed hw hadd hflag hroot hquorum (Or.inl hprepare) haggregate
  · rename_i root hcommit
    split
    · exact Transition.commitStored hw hadd hflag hroot
    · rename_i heq
      obtain rfl := not_not.mp heq
      split
      · exact Transition.commitStored hw hadd hflag hroot
      · rename_i a haggregate
        exact Transition.committed hw hadd hflag hroot hquorum (Or.inr hcommit) haggregate
  · exact Transition.commitStored hw hadd hflag hroot

theorem transition_receivedDecided
    (htype : w.qbftMessage.qbftMessageType = .commit)
    (hheight : w.qbftMessage.height = q.instanceHeight)
    (hmem : ∀ s ∈ w.signedMessage.operatorIds.toList, s ∈ q.config.committeeMembers.toList) :
    Transition q (.receive w) (q.receivedDecided w).1 := by
  unfold receivedDecided
  split
  · exact Transition.ignored w
  rename_i hquorum
  split
  · exact Transition.ignored w
  rename_i hcompleted
  split
  · exact Transition.ignored w
  rename_i d hdata
  split
  · exact Transition.ignored w
  rename_i hvalid
  refine Transition.decided ⟨htype, hheight, hmem, by simpa using hquorum, ?_, hdata,
    by simpa using hvalid⟩
  intro v hv
  exact hcompleted v hv

theorem transition_receivedRoundChange (hfrom : q.FromSigner w s r)
    (htype : w.qbftMessage.qbftMessageType = .roundChange) :
    Transition q (.receive w) (q.receivedRoundChange s r w).1 := by
  unfold receivedRoundChange
  by_cases hstate : q.state.toU8 ≥ InstanceState.complete.toU8
  · rw [if_pos hstate]
    exact Transition.ignored w
  rw [if_neg hstate]
  split
  · exact Transition.ignored w
  rename_i hcheck
  have hw : q.IsRoundChange w s r := ⟨hfrom, htype, not_le.mp hstate, hcheck⟩
  obtain ⟨c, b, hadd⟩ : ∃ c b, q.roundChangeContainer.addMessage r s w = (c, b) := ⟨_, _, rfl⟩
  simp only [hadd]
  split
  · rename_i hbefore
    exact Transition.roundChangeStored hw hadd (Or.inl hbefore)
  rename_i hbefore
  split
  · rename_i hquorum
    -- The quorum is new, so the message was not a repeated one.
    cases b with
    | false =>
      rw [MessageContainer.addMessage_false hadd] at hquorum
      exact absurd hquorum hbefore
    | true =>
      obtain ⟨data, out, hout, heq⟩ := exists_startRound (q := { q with
        roundChangeContainer := c, state := .roundChangeConsensus, currentRound := r })
        (by simp)
      rw [setRound, heq]
      exact Transition.roundChangeQuorum hw hadd (by simpa using hbefore) hquorum hout heq
  · rename_i hquorum
    have hnone : c.hasQuorumDisregardingRoot r = false := by simpa using hquorum
    split
    · exact Transition.roundChangeStored hw hadd (Or.inr hnone)
    · rename_i r' hlowest
      split
      · obtain ⟨accepted, out, hout, heq⟩ := exists_sendRoundChange { q with
          roundChangeContainer := c
          state := .sentRoundChange
          currentRound := r'
          proposalAcceptedForCurrentRound := false }
        rw [heq]
        have haccepted : accepted = false := by cases hout <;> rfl
        subst haccepted
        exact Transition.roundChangePartial hw hadd hnone hlowest hout
      · exact Transition.roundChangeStored hw hadd (Or.inr hnone)

theorem transition_receive
    (hw : 1 < w.signedMessage.operatorIds.toList.length →
      w.qbftMessage.qbftMessageType = .commit) :
    Transition q (.receive w) (q.receive w).1 := by
  unfold receive
  split
  · exact Transition.ignored w
  rename_i content signer hvalidate
  obtain ⟨hround, hheight, hmem, hsigners, hcomplete⟩ := validateMessage_eq_ok hvalidate
  split
  swap
  · exact Transition.ignored w
  rename_i hpos
  have hfrom : w.signedMessage.operatorIds.toList = [signer] →
      q.FromSigner w signer (Round.ofU64 w.qbftMessage.round hpos) := by
    intro hids
    have hr : w.qbftMessage.round = (Round.ofU64 w.qbftMessage.round hpos).toU64 := by simp
    obtain ⟨hle, heq⟩ := checkRound_single hids hr hround
    exact ⟨hids, hmem signer (by simp [hids]), hheight, hr, hle, heq⟩
  have hsingle : w.qbftMessage.qbftMessageType ≠ .commit →
      w.signedMessage.operatorIds.toList = [signer] := by
    intro hne
    rcases hsigners with hmulti | hids
    · exact absurd (hw hmulti) hne
    · exact hids
  dsimp only
  unfold dispatch
  split
  · rename_i htype
    split
    · rename_i validData
      obtain ⟨hids, hhash, hdata, hvalid⟩ := hcomplete validData rfl
      exact transition_receivedPropose (hfrom hids) htype hhash hdata hvalid
    · exact Transition.ignored w
  · rename_i htype
    exact transition_receivedPrepare (hfrom (hsingle (by simp [htype]))) htype
  · rename_i htype
    split
    · rename_i hone
      rcases hsigners with hmulti | hids
      · omega
      · exact transition_receivedCommit (hfrom hids) htype
    · exact transition_receivedDecided htype hheight hmem
  · rename_i htype
    exact transition_receivedRoundChange (hfrom (hsingle (by simp [htype]))) htype

theorem transition_endRound (q : Qbft F D) : Transition q .endRound q.endRound := by
  unfold endRound
  split
  · rename_i hnext
    exact Transition.timedOut fun r hr => by
      rw [hnext] at hr
      cases hr
  · rename_i r hnext
    split
    · rename_i hmax
      refine Transition.timedOut fun r' hr' => ?_
      rw [hnext] at hr'
      cases hr'
      exact hmax
    · rename_i hmax
      obtain ⟨accepted, out, hout, heq⟩ :=
        exists_sendRoundChange { q with currentRound := r, state := .sentRoundChange }
      have hnew := Transition.timeout hnext (not_lt.mp hmax) hout
      split
      · rename_i q' e hsend
        rw [hsend] at heq
        simp only at heq
        rw [heq]
        exact hnew
      · rename_i q' hsend
        rw [hsend] at heq
        simp only at heq
        rw [heq]
        -- The instance waits for a round change quorum, so no round is started yet.
        simp only [startRound, if_true]
        exact hnew

end Rounds

end Qbft

end Anchor
