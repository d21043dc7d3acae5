import Mathlib
import Anchor.Library.Observation
import Anchor.Library.RingBuffer
import Anchor.Library.SortedMap
import Anchor.Validator.Failure

/-!
# The duty state

What the validator remembers of the messages it accepted for one message
identifier: for each operator a ring buffer over slots, and in each cell the
round, the message counters, the proposal, the decided signer sets and the signing
roots of that slot.
-/

namespace Anchor

open Ssz

def firstRound : UInt64 := 1

/-! ## Message counters -/

/-- The counter that a partial signature is counted in; `none` for the kinds with
a budget of signing roots. -/
def PartialSignatureKind.phase : PartialSignatureKind → Option CountedPhase
  | randaoPartialSig | selectionProofPartialSig | contributionProofs | validatorRegistration
  | voluntaryExit | aggregatorCommitteePartialSig | ptcAttester => some .preConsensus
  | postConsensus => some .postConsensus
  | proposerPreferences | requestAuth => none

namespace MessageCounts

def maxMessagesPerRound : UInt8 := 1

def default : MessageCounts := ⟨0, 0, 0, 0, 0, 0⟩

def ofType (c : MessageCounts) : QbftMessageType → UInt8
  | .proposal => c.proposal
  | .prepare => c.prepare
  | .commit => c.commit
  | .roundChange => c.roundChange

def ofPhase (c : MessageCounts) : CountedPhase → UInt8
  | .preConsensus => c.preConsensus
  | .postConsensus => c.postConsensus

/-- Commits are limited only when they have one signer. -/
def validateConsensusMessageLimits (c : MessageCounts) (signers : ℕ) (msgType : QbftMessageType) :
    Except ValidationFailure Unit :=
  if (msgType = .commit → signers = 1) ∧ c.ofType msgType ≥ maxMessagesPerRound then
    .error (.duplicatedMessage msgType c)
  else .ok ()

def validatePartialSignatureMessage (c : MessageCounts) (kind : PartialSignatureKind) :
    Except ValidationFailure Unit :=
  match kind.phase with
  | none => .ok ()
  | some phase =>
    if c.ofPhase phase ≥ maxMessagesPerRound then
      .error (.invalidPartialSignatureTypeCount phase c)
    else .ok ()

/-- Commits with more than one signer are not counted. -/
def recordConsensusMessage (c : MessageCounts) (msgType : QbftMessageType) (signerCount : ℕ) :
    MessageCounts :=
  match msgType with
  | .proposal => { c with proposal := c.proposal + 1 }
  | .prepare => { c with prepare := c.prepare + 1 }
  | .commit => if signerCount = 1 then { c with commit := c.commit + 1 } else c
  | .roundChange => { c with roundChange := c.roundChange + 1 }

def recordPartialSignature (c : MessageCounts) (kind : PartialSignatureKind) : MessageCounts :=
  match kind.phase with
  | none => c
  | some .preConsensus => { c with preConsensus := c.preConsensus + 1 }
  | some .postConsensus => { c with postConsensus := c.postConsensus + 1 }

theorem ofType_recordConsensusMessage (c : MessageCounts) (t t' : QbftMessageType) (signers : ℕ) :
    (c.recordConsensusMessage t signers).ofType t' =
      if t' = t ∧ (t = .commit → signers = 1) then c.ofType t' + 1 else c.ofType t' := by
  cases t <;> cases t' <;> simp [recordConsensusMessage, ofType] <;> split_ifs <;> simp_all

@[simp] theorem ofPhase_recordConsensusMessage (c : MessageCounts) (t : QbftMessageType)
    (signers : ℕ) (phase : CountedPhase) :
    (c.recordConsensusMessage t signers).ofPhase phase = c.ofPhase phase := by
  unfold recordConsensusMessage
  cases t <;> cases phase <;> simp only [ofPhase] <;> split_ifs <;> rfl

@[simp] theorem ofType_recordPartialSignature (c : MessageCounts) (kind : PartialSignatureKind)
    (t : QbftMessageType) : (c.recordPartialSignature kind).ofType t = c.ofType t := by
  unfold recordPartialSignature
  split <;> cases t <;> rfl

theorem ofPhase_recordPartialSignature (c : MessageCounts) (kind : PartialSignatureKind)
    (phase : CountedPhase) :
    (c.recordPartialSignature kind).ofPhase phase =
      if kind.phase = some phase then c.ofPhase phase + 1 else c.ofPhase phase := by
  unfold recordPartialSignature
  cases hphase : kind.phase with
  | none => rfl
  | some p => cases p <;> cases phase <;> rfl

@[simp] theorem ofType_default (t : QbftMessageType) : default.ofType t = 0 := by cases t <;> rfl

@[simp] theorem ofPhase_default (phase : CountedPhase) : default.ofPhase phase = 0 := by
  cases phase <;> rfl

theorem eq_zero_of_lt {c : UInt8} (h : ¬ c ≥ maxMessagesPerRound) : c = 0 := by
  have hlt : c.toNat < 1 := UInt8.lt_iff_toNat_lt.mp (UInt8.not_le.mp h)
  exact UInt8.toNat_inj.mp (Nat.lt_one_iff.mp hlt)

theorem validateConsensusMessageLimits_eq_ok {c : MessageCounts} {signers : ℕ}
    {t : QbftMessageType} :
    c.validateConsensusMessageLimits signers t = .ok () ↔
      ((t = .commit → signers = 1) → c.ofType t = 0) := by
  unfold validateConsensusMessageLimits
  split_ifs with h
  · simp only [false_iff]
    intro hzero
    have hge := h.2
    rw [hzero h.1] at hge
    exact absurd hge (by decide)
  · simp only [true_iff]
    intro hsingle
    exact eq_zero_of_lt fun hge => h ⟨hsingle, hge⟩

theorem validatePartialSignatureMessage_eq_ok {c : MessageCounts} {kind : PartialSignatureKind} :
    c.validatePartialSignatureMessage kind = .ok () ↔
      ∀ phase, kind.phase = some phase → c.ofPhase phase = 0 := by
  unfold validatePartialSignatureMessage
  cases hphase : kind.phase with
  | none => simp
  | some phase =>
    simp only [Option.some.injEq, forall_eq']
    split_ifs with h
    · simp only [false_iff]
      intro hzero
      rw [hzero] at h
      exact absurd h (by decide)
    · simp [eq_zero_of_lt h]

end MessageCounts

/-! ## The state of a signer in a slot -/

structure SigningRootBudgets where
  preferences : Finset Hash256
  requestAuth : Finset Hash256
deriving DecidableEq

namespace SigningRootBudgets

def default : SigningRootBudgets := ⟨∅, ∅⟩

def roots (b : SigningRootBudgets) (kind : PartialSignatureKind) : Finset Hash256 :=
  if kind = .requestAuth then b.requestAuth else b.preferences

def extend (b : SigningRootBudgets) (kind : PartialSignatureKind) (new : Finset Hash256) :
    SigningRootBudgets :=
  if kind = .requestAuth then { b with requestAuth := b.requestAuth ∪ new }
  else { b with preferences := b.preferences ∪ new }

end SigningRootBudgets

def maxProposerPreferencesDistinctRoots : ℕ := 4

def maxRequestAuthDistinctRoots : ℕ := 8

def PartialSignatureKind.rootCap : PartialSignatureKind → Option ℕ
  | proposerPreferences => some maxProposerPreferencesDistinctRoots
  | requestAuth => some maxRequestAuthDistinctRoots
  | _ => none

structure SignerState where
  slot : ℕ
  round : UInt64
  messageCounts : MessageCounts
  proposalHash : Option Hash256
  seenSigners : Finset CommitteeId
  rootBudgets : Option SigningRootBudgets
deriving DecidableEq

namespace SignerState

def new (slot : ℕ) (round : UInt64) : SignerState :=
  ⟨slot, round, MessageCounts.default, none, ∅, none⟩

/-- The budgets are allocated when they are first asked for. -/
def allocated (s : SignerState) : SignerState :=
  { s with rootBudgets := some (s.rootBudgets.getD SigningRootBudgets.default) }

def seenRoots (s : SignerState) (kind : PartialSignatureKind) : Finset Hash256 :=
  (s.rootBudgets.getD SigningRootBudgets.default).roots kind

section Update

variable (sha256 : Bytes → Hash256)

def hasSeenSigners (s : SignerState) (operators : List OperatorId) : Bool :=
  decide (CommitteeId.ofSlice sha256 operators ∈ s.seenSigners)

def update (s : SignerState) (signed : SignedSSVMessage) (m : QbftMessage) : SignerState :=
  let signers := signed.operatorIds.toList
  { s with
    proposalHash :=
      if ¬ signed.fullData.toList.isEmpty ∧ m.qbftMessageType = .proposal then some m.root
      else s.proposalHash
    seenSigners :=
      if signers.length > 1 then insert (CommitteeId.ofSlice sha256 signers) s.seenSigners
      else s.seenSigners
    messageCounts := s.messageCounts.recordConsensusMessage m.qbftMessageType signers.length }

end Update

def newRoots (s : SignerState) (m : PartialSignatureMessages) : Finset Hash256 :=
  (m.messages.toList.map PartialSignatureMessage.signingRoot).toFinset \ s.seenRoots m.kind

/-- The budget rules: the whole packet is admitted or nothing of it. -/
def checkRoots (s : SignerState) (m : PartialSignatureMessages) : Except ValidationFailure Unit :=
  match m.kind.rootCap with
  | none => .ok ()
  | some cap =>
    let recorded := (s.seenRoots m.kind).card
    let added := (s.newRoots m).card
    if m.messages.toList.isEmpty then .error .noPartialSignatureMessages
    else if added = 0 then .error (.relayedDuplicateMessage m.kind)
    else if recorded + added > cap then
      .error (.tooManyDistinctSigningRoots m.kind recorded added cap)
    else .ok ()

def recordPartialSignature (s : SignerState) (m : PartialSignatureMessages) : SignerState :=
  { s with
    rootBudgets :=
      match m.kind.rootCap with
      | none => s.rootBudgets
      | some _ =>
        some ((s.rootBudgets.getD SigningRootBudgets.default).extend m.kind (s.newRoots m))
    messageCounts := s.messageCounts.recordPartialSignature m.kind }

@[simp] theorem slot_allocated (s : SignerState) : s.allocated.slot = s.slot := rfl

@[simp] theorem slot_update (sha256 : Bytes → Hash256) (s : SignerState)
    (signed : SignedSSVMessage) (m : QbftMessage) : (s.update sha256 signed m).slot = s.slot := rfl

@[simp] theorem slot_recordPartialSignature (s : SignerState) (m : PartialSignatureMessages) :
    (s.recordPartialSignature m).slot = s.slot := rfl

theorem allocated_update (sha256 : Bytes → Hash256) (s : SignerState) (signed : SignedSSVMessage)
    (m : QbftMessage) :
    (s.update sha256 signed m).allocated = s.allocated.update sha256 signed m := rfl

@[simp] theorem checkRoots_allocated (s : SignerState) (m : PartialSignatureMessages) :
    s.allocated.checkRoots m = s.checkRoots m := rfl

@[simp] theorem recordPartialSignature_allocated (s : SignerState) (m : PartialSignatureMessages) :
    (s.allocated.recordPartialSignature m).allocated = (s.recordPartialSignature m).allocated := by
  unfold recordPartialSignature
  cases m.kind.rootCap <;> rfl

end SignerState

/-! ## The state of an operator -/

/-- A ring of `n` slots.  No entry is for a slot beyond `maxSlot`. -/
structure OperatorState (n : ℕ) where
  state : RingBuffer SignerState n
  maxSlot : ℕ
  slot_le : ∀ {slot st}, state.get SignerState.slot slot = some st → slot ≤ maxSlot

namespace OperatorState

variable {n : ℕ}

def new (n : ℕ) : OperatorState n := ⟨RingBuffer.new n, 0, fun h => by simp at h⟩

def getSignerState (o : OperatorState n) (slot : ℕ) : Option SignerState :=
  o.state.get SignerState.slot slot

def getDutyCount (o : OperatorState n) (epoch slotsPerEpoch : ℕ) : ℕ :=
  ((List.range slotsPerEpoch).filter fun i =>
    (o.getSignerState (epoch * slotsPerEpoch + i)).isSome).length

def isFirstMessageForDuty (o : OperatorState n) (slot : ℕ) : Bool :=
  (o.getSignerState slot).isNone

section Write

variable [NeZero n]

theorem get_set (o : OperatorState n) (st : SignerState) (slot : ℕ) :
    (o.state.set SignerState.slot st).get SignerState.slot slot =
      if slot = st.slot then some st
      else if slot % n = st.slot % n then none else o.getSignerState slot :=
  RingBuffer.get_set (NeZero.pos n) o.state st slot

def setSignerState (o : OperatorState n) (st : SignerState) : OperatorState n where
  state := o.state.set SignerState.slot st
  maxSlot := if st.slot > o.maxSlot then st.slot else o.maxSlot
  slot_le := by
    intro slot st' h
    rw [get_set] at h
    split_ifs at h with hslot
    · split_ifs <;> omega
    · have := o.slot_le h
      split_ifs <;> omega

def writeBack (o : OperatorState n) (st : SignerState) (h : (o.getSignerState st.slot).isSome) :
    OperatorState n where
  state := o.state.set SignerState.slot st
  maxSlot := o.maxSlot
  slot_le := by
    intro slot st' h'
    rw [get_set] at h'
    split_ifs at h' with hslot
    · obtain ⟨old, hold⟩ := Option.isSome_iff_exists.mp h
      exact hslot ▸ o.slot_le hold
    · exact o.slot_le h'

theorem maxSlot_setSignerState (o : OperatorState n) (st : SignerState) :
    (o.setSignerState st).maxSlot = max o.maxSlot st.slot := by
  simp only [setSignerState]
  split_ifs <;> omega

theorem maxSlot_writeBack (o : OperatorState n) (st : SignerState)
    (h : (o.getSignerState st.slot).isSome) :
    (o.writeBack st h).maxSlot = max o.maxSlot st.slot := by
  obtain ⟨old, hold⟩ := Option.isSome_iff_exists.mp h
  exact (max_eq_left (o.slot_le hold)).symm

theorem getSignerState_setSignerState (o : OperatorState n) (st : SignerState) (slot : ℕ) :
    (o.setSignerState st).getSignerState slot =
      if slot = st.slot then some st
      else if slot % n = st.slot % n then none else o.getSignerState slot :=
  o.get_set st slot

theorem getSignerState_writeBack (o : OperatorState n) (st : SignerState)
    (h : (o.getSignerState st.slot).isSome) (slot : ℕ) :
    (o.writeBack st h).getSignerState slot =
      if slot = st.slot then some st
      else if slot % n = st.slot % n then none else o.getSignerState slot :=
  o.get_set st slot

end Write

section Update

variable [NeZero n] (sha256 : Bytes → Hash256)

/-- A higher round, or a slot that is new to the ring, starts a new entry. -/
def update (o : OperatorState n) (signed : SignedSSVMessage) (m : QbftMessage) : OperatorState n :=
  let slot := m.height.toNat
  let fresh := (SignerState.new slot m.round).update sha256 signed m
  match h : o.getSignerState slot with
  | none => o.setSignerState fresh
  | some st =>
    if m.round > st.round then o.setSignerState fresh
    else o.writeBack (st.update sha256 signed m) (by
      rw [SignerState.slot_update, RingBuffer.key_of_get h, h]
      rfl)

theorem update_cases (o : OperatorState n) (signed : SignedSSVMessage) (m : QbftMessage) :
    ((∀ st, o.getSignerState m.height.toNat = some st → st.round < m.round) ∧
      o.update sha256 signed m = o.setSignerState
        ((SignerState.new m.height.toNat m.round).update sha256 signed m)) ∨
    ∃ st, o.getSignerState m.height.toNat = some st ∧ m.round ≤ st.round ∧
      ∃ h, o.update sha256 signed m = o.writeBack (st.update sha256 signed m) h := by
  unfold update
  simp only
  split
  · rename_i hnone
    left
    refine ⟨fun st hst => ?_, rfl⟩
    rw [hnone] at hst
    cases hst
  · rename_i st hst
    by_cases hround : m.round > st.round
    · left
      refine ⟨fun st' hst' => ?_, if_pos hround⟩
      rw [hst] at hst'
      cases hst'
      exact hround
    · right
      have hslot : (o.getSignerState (st.update sha256 signed m).slot).isSome := by
        rw [SignerState.slot_update, RingBuffer.key_of_get hst, hst]
        rfl
      exact ⟨st, hst, UInt64.not_lt.mp hround, hslot, if_neg hround⟩

omit sha256

def entry (o : OperatorState n) (slot : ℕ) : SignerState :=
  (o.getSignerState slot).getD (SignerState.new slot firstRound)

omit [NeZero n] in
theorem slot_entry (o : OperatorState n) (slot : ℕ) : (o.entry slot).slot = slot := by
  rw [entry]
  cases h : o.getSignerState slot with
  | none => rfl
  | some st => exact RingBuffer.key_of_get h

def ensureEntry (o : OperatorState n) (slot : ℕ) : OperatorState n :=
  match o.getSignerState slot with
  | none => o.setSignerState (SignerState.new slot firstRound)
  | some _ => o

theorem getSignerState_ensureEntry (o : OperatorState n) (slot : ℕ) :
    (o.ensureEntry slot).getSignerState slot = some (o.entry slot) := by
  rw [ensureEntry, entry]
  cases h : o.getSignerState slot with
  | none => simp [getSignerState_setSignerState, SignerState.new]
  | some st => exact h

theorem maxSlot_ensureEntry (o : OperatorState n) (slot : ℕ) :
    (o.ensureEntry slot).maxSlot = max o.maxSlot slot := by
  rw [ensureEntry]
  cases h : o.getSignerState slot with
  | none => exact o.maxSlot_setSignerState _
  | some st => exact (max_eq_left (o.slot_le h)).symm

theorem getSignerState_ensureEntry_of_ne (o : OperatorState n) {slot k : ℕ}
    (hk : k % n ≠ slot % n) : (o.ensureEntry slot).getSignerState k = o.getSignerState k := by
  rw [ensureEntry]
  cases h : o.getSignerState slot with
  | none =>
    have hne : k ≠ slot := fun heq => hk (by rw [heq])
    simp [getSignerState_setSignerState, SignerState.new, hne, hk]
  | some st => rfl

/-- Record a packet of partial signatures.  The entry is created, and the budgets
are allocated, before the budget rules are checked. -/
def recordPartialSignature (o : OperatorState n) (m : PartialSignatureMessages) :
    Except ValidationFailure Unit × OperatorState n :=
  let slot := m.slot.toNat
  have hentry : ∀ st : SignerState, st.slot = slot →
      ((o.ensureEntry slot).getSignerState st.slot).isSome := by
    intro st hst
    rw [hst, getSignerState_ensureEntry]
    rfl
  match (o.entry slot).checkRoots m with
  | .error e =>
    (.error e, (o.ensureEntry slot).writeBack (o.entry slot).allocated
      (hentry _ (o.slot_entry slot)))
  | .ok () =>
    (.ok (), (o.ensureEntry slot).writeBack ((o.entry slot).recordPartialSignature m)
      (hentry _ (o.slot_entry slot)))

theorem recordPartialSignature_cases (o : OperatorState n) (m : PartialSignatureMessages) :
    (∃ e h, (o.entry m.slot.toNat).checkRoots m = .error e ∧ o.recordPartialSignature m =
      (.error e, (o.ensureEntry m.slot.toNat).writeBack (o.entry m.slot.toNat).allocated h)) ∨
    ∃ h, (o.entry m.slot.toNat).checkRoots m = .ok () ∧ o.recordPartialSignature m =
      (.ok (), (o.ensureEntry m.slot.toNat).writeBack
        ((o.entry m.slot.toNat).recordPartialSignature m) h) := by
  have hentry : ((o.ensureEntry m.slot.toNat).getSignerState
      (o.entry m.slot.toNat).slot).isSome := by
    rw [slot_entry, getSignerState_ensureEntry]
    rfl
  unfold recordPartialSignature
  simp only
  split
  · rename_i e he
    exact Or.inl ⟨e, hentry, he, rfl⟩
  · rename_i hok
    exact Or.inr ⟨hentry, hok, rfl⟩

end Update

theorem slot_of_getSignerState {o : OperatorState n} {slot : ℕ} {st : SignerState}
    (h : o.getSignerState slot = some st) : st.slot = slot :=
  RingBuffer.key_of_get h

end OperatorState

/-! ## The state of all operators -/

structure DutyState (n : ℕ) where
  operators : SortedMap OperatorId (OperatorState n)

namespace DutyState

variable {n : ℕ}

def new (n : ℕ) : DutyState n := ⟨SortedMap.empty⟩

def operator (d : DutyState n) (signer : OperatorId) : OperatorState n :=
  (d.operators.get? signer).getD (OperatorState.new n)

def setOperator (d : DutyState n) (signer : OperatorId) (o : OperatorState n) : DutyState n :=
  ⟨d.operators.upsert signer fun _ => o⟩

def getOrCreateOperator (signer : OperatorId) :
    Checks.Stateful (DutyState n) ValidationFailure (OperatorState n) := do
  let d ← get
  set (d.setOperator signer (d.operator signer))
  return d.operator signer

section Update

variable [NeZero n]

def updateForConsensusMessage (sha256 : Bytes → Hash256) (signed : SignedSSVMessage)
    (m : QbftMessage) (d : DutyState n) : DutyState n :=
  signed.operatorIds.toList.foldl
    (fun d signer => d.setOperator signer ((d.operator signer).update sha256 signed m)) d

def updateForPartialSignature (m : PartialSignatureMessages) (signer : OperatorId) :
    Checks.Stateful (DutyState n) ValidationFailure Unit := do
  let o ← getOrCreateOperator signer
  modify fun d => d.setOperator signer (o.recordPartialSignature m).2
  (o.recordPartialSignature m).1

end Update

/-- All operators have been idle for longer than the ring reaches back. -/
def outdated (d : DutyState n) (currentSlot : ℕ) : Bool :=
  d.operators.entries.all fun e => decide (e.2.maxSlot < currentSlot - n)

theorem operator_setOperator (d : DutyState n) (signer : OperatorId) (o : OperatorState n)
    (i : OperatorId) :
    (d.setOperator signer o).operator i = if i = signer then o else d.operator i := by
  unfold operator setOperator
  split_ifs with hi
  · rw [hi, SortedMap.get?_upsert_self]
    rfl
  · rw [SortedMap.get?_upsert_ne _ hi]

theorem runOn_updateForPartialSignature [NeZero n] (d : DutyState n)
    (m : PartialSignatureMessages) (signer : OperatorId) :
    (updateForPartialSignature m signer).runOn d =
      (((d.operator signer).recordPartialSignature m).1,
        (d.setOperator signer (d.operator signer)).setOperator signer
          ((d.operator signer).recordPartialSignature m).2) := rfl

end DutyState

end Anchor
