import Mathlib
import Anchor.Validator.DutyState

/-!
# What the duty state shows

The checks of the validator see the duty state through two questions: what is
recorded of an operator in a slot, and what is the highest slot of an operator.
Two duty states with the same answers cannot be told apart.  The answers forget
which operators have an empty entry and whether an empty budget is allocated, and
they make an update of the state an update of two functions.
-/

namespace Anchor

open Ssz

structure Observed where
  signerState : OperatorId → ℕ → Option SignerState
  maxSlot : OperatorId → ℕ

namespace Observed

@[ext] theorem ext {o o' : Observed}
    (hstate : ∀ i slot, o.signerState i slot = o'.signerState i slot)
    (hmax : ∀ i, o.maxSlot i = o'.maxSlot i) : o = o' := by
  cases o
  cases o'
  congr
  · exact funext fun i => funext (hstate i)
  · exact funext hmax

def empty : Observed := ⟨fun _ _ => none, fun _ => 0⟩

/-- Record an entry for an operator in a ring of `n` slots. -/
def put (n : ℕ) (o : Observed) (i : OperatorId) (st : SignerState) : Observed where
  signerState j slot :=
    if j = i then
      if slot = st.slot then some st
      else if slot % n = st.slot % n then none else o.signerState j slot
    else o.signerState j slot
  maxSlot j := if j = i then max (o.maxSlot j) st.slot else o.maxSlot j

def dutyCount (o : Observed) (i : OperatorId) (epoch slotsPerEpoch : ℕ) : ℕ :=
  ((List.range slotsPerEpoch).filter fun k =>
    (o.signerState i (epoch * slotsPerEpoch + k)).isSome).length

def next (sha256 : Bytes → Hash256) (signed : SignedSSVMessage) (m : QbftMessage) (o : Observed)
    (i : OperatorId) : SignerState :=
  let fresh := (SignerState.new m.height.toNat m.round).allocated.update sha256 signed m
  match o.signerState i m.height.toNat with
  | none => fresh
  | some st => if m.round > st.round then fresh else st.update sha256 signed m

def update (n : ℕ) (sha256 : Bytes → Hash256) (signed : SignedSSVMessage) (m : QbftMessage)
    (o : Observed) (i : OperatorId) : Observed :=
  o.put n i (o.next sha256 signed m i)

def recordConsensus (n : ℕ) (sha256 : Bytes → Hash256) (signed : SignedSSVMessage)
    (m : QbftMessage) (o : Observed) : Observed :=
  signed.operatorIds.toList.foldl (update n sha256 signed m) o

def entry (o : Observed) (i : OperatorId) (slot : ℕ) : SignerState :=
  (o.signerState i slot).getD (SignerState.new slot firstRound).allocated

def recordPartial (n : ℕ) (m : PartialSignatureMessages) (o : Observed) (i : OperatorId) :
    Observed :=
  o.put n i ((o.entry i m.slot.toNat).recordPartialSignature m).allocated

section Put

variable {n : ℕ} {o : Observed} {i j : OperatorId} {st : SignerState}

theorem signerState_put_self (slot : ℕ) : (o.put n i st).signerState i slot =
    if slot = st.slot then some st
    else if slot % n = st.slot % n then none else o.signerState i slot := by
  simp [put]

theorem signerState_put_ne (h : j ≠ i) (slot : ℕ) :
    (o.put n i st).signerState j slot = o.signerState j slot := by
  simp [put, h]

theorem maxSlot_put_self : (o.put n i st).maxSlot i = max (o.maxSlot i) st.slot := by
  simp [put]

theorem maxSlot_put_ne (h : j ≠ i) : (o.put n i st).maxSlot j = o.maxSlot j := by
  simp [put, h]

end Put

theorem slot_next (sha256 : Bytes → Hash256) (signed : SignedSSVMessage) (m : QbftMessage)
    {o : Observed} {i : OperatorId}
    (h : ∀ st, o.signerState i m.height.toNat = some st → st.slot = m.height.toNat) :
    (o.next sha256 signed m i).slot = m.height.toNat := by
  unfold next
  cases hst : o.signerState i m.height.toNat with
  | none => rfl
  | some st =>
    simp only
    split_ifs
    · rfl
    · exact h st hst

end Observed

namespace DutyState

variable {n : ℕ}

def observed (d : DutyState n) : Observed where
  signerState i slot := ((d.operator i).getSignerState slot).map SignerState.allocated
  maxSlot i := (d.operator i).maxSlot

section

variable (d : DutyState n) (i : OperatorId)

theorem signerState_observed (slot : ℕ) :
    d.observed.signerState i slot =
      ((d.operator i).getSignerState slot).map SignerState.allocated := rfl

theorem maxSlot_observed :
    d.observed.maxSlot i = (d.operator i).maxSlot := rfl

theorem observed_setOperator (s : OperatorState n) :
    (d.setOperator i s).observed =
      ⟨fun j slot => if j = i then (s.getSignerState slot).map SignerState.allocated
        else d.observed.signerState j slot,
      fun j => if j = i then s.maxSlot else d.observed.maxSlot j⟩ := by
  refine Observed.ext (fun j slot => ?_) fun j => ?_
  · simp only [observed, operator_setOperator]
    split_ifs <;> rfl
  · simp only [observed, operator_setOperator]
    split_ifs <;> rfl

theorem observed_create :
    (d.setOperator i (d.operator i)).observed = d.observed := by
  rw [observed_setOperator]
  refine Observed.ext (fun j slot => ?_) fun j => ?_
  · simp only
    split_ifs with hj
    · rw [hj]
      rfl
    · rfl
  · simp only
    split_ifs with hj
    · rw [hj]
      rfl
    · rfl

theorem observed_setOperator_setOperator (s s' : OperatorState n) :
    ((d.setOperator i s).setOperator i s').observed = (d.setOperator i s').observed := by
  rw [observed_setOperator, observed_setOperator, observed_setOperator]
  refine Observed.ext (fun j slot => ?_) fun j => ?_
  · simp only
    split_ifs <;> rfl
  · simp only
    split_ifs <;> rfl

end

theorem observed_write {d : DutyState n} {i : OperatorId} {s : OperatorState n} {st : SignerState}
    (hget : ∀ slot, s.getSignerState slot = if slot = st.slot then some st
      else if slot % n = st.slot % n then none else (d.operator i).getSignerState slot)
    (hmax : s.maxSlot = max (d.operator i).maxSlot st.slot) :
    (d.setOperator i s).observed = d.observed.put n i st.allocated := by
  rw [observed_setOperator]
  refine Observed.ext (fun j slot => ?_) fun j => ?_
  · by_cases hj : j = i
    · subst hj
      rw [Observed.signerState_put_self, SignerState.slot_allocated]
      simp only [if_true, hget]
      split_ifs <;> rfl
    · rw [Observed.signerState_put_ne hj]
      simp only [if_neg hj]
  · simp only [Observed.put]
    split_ifs with hj
    · rw [hj, hmax]
      rfl
    · rfl

section Update

variable [NeZero n]

theorem observed_setSignerState (d : DutyState n) (i : OperatorId) (st : SignerState) :
    (d.setOperator i ((d.operator i).setSignerState st)).observed =
      d.observed.put n i st.allocated :=
  observed_write ((d.operator i).getSignerState_setSignerState st)
    ((d.operator i).maxSlot_setSignerState st)

theorem observed_writeBack (d : DutyState n) (i : OperatorId) (st : SignerState)
    (h : ((d.operator i).getSignerState st.slot).isSome) :
    (d.setOperator i ((d.operator i).writeBack st h)).observed =
      d.observed.put n i st.allocated :=
  observed_write ((d.operator i).getSignerState_writeBack st h)
    ((d.operator i).maxSlot_writeBack st h)

theorem observed_update (sha256 : Bytes → Hash256) (signed : SignedSSVMessage) (m : QbftMessage)
    (d : DutyState n) (i : OperatorId) :
    (d.setOperator i ((d.operator i).update sha256 signed m)).observed =
      d.observed.update n sha256 signed m i := by
  unfold Observed.update Observed.next
  rw [signerState_observed]
  rcases (d.operator i).update_cases sha256 signed m with
    ⟨hfresh, heq⟩ | ⟨st, hst, hround, hsome, heq⟩
  · rw [heq, observed_setSignerState, SignerState.allocated_update]
    cases hst : (d.operator i).getSignerState m.height.toNat with
    | none => rfl
    | some st => simp [SignerState.allocated, hfresh st hst]
  · rw [heq, observed_writeBack, hst]
    simp [SignerState.allocated, UInt64.not_lt.mpr hround]
    rfl

theorem observed_updateForConsensusMessage (sha256 : Bytes → Hash256) (signed : SignedSSVMessage)
    (m : QbftMessage) (d : DutyState n) :
    (d.updateForConsensusMessage sha256 signed m).observed =
      d.observed.recordConsensus n sha256 signed m := by
  unfold updateForConsensusMessage Observed.recordConsensus
  generalize signed.operatorIds.toList = signers
  induction signers generalizing d with
  | nil => rfl
  | cons i signers ih => rw [List.foldl_cons, List.foldl_cons, ih, observed_update]

omit [NeZero n] in
theorem allocated_entry (d : DutyState n) (i : OperatorId) (slot : ℕ) :
    ((d.operator i).entry slot).allocated = d.observed.entry i slot := by
  rw [OperatorState.entry, Observed.entry, signerState_observed]
  cases (d.operator i).getSignerState slot <;> rfl

theorem observed_writeBack_ensureEntry (d : DutyState n) (i : OperatorId) {slot : ℕ}
    {st : SignerState} (hst : st.slot = slot)
    (h : (((d.operator i).ensureEntry slot).getSignerState st.slot).isSome) :
    (d.setOperator i (((d.operator i).ensureEntry slot).writeBack st h)).observed =
      d.observed.put n i st.allocated := by
  apply observed_write
  · intro k
    rw [OperatorState.getSignerState_writeBack]
    split_ifs with hk hmod
    · rfl
    · rfl
    · exact OperatorState.getSignerState_ensureEntry_of_ne _ (hst ▸ hmod)
  · rw [OperatorState.maxSlot_writeBack, OperatorState.maxSlot_ensureEntry, hst, max_assoc,
      max_self]

/-- The entry of a packet is in the ring whether the packet is admitted or not. -/
theorem runOn_updateForPartialSignature_observed (d : DutyState n) (m : PartialSignatureMessages)
    (i : OperatorId) :
    ((updateForPartialSignature m i).runOn d).1 =
        (d.observed.entry i m.slot.toNat).checkRoots m ∧
      ((updateForPartialSignature m i).runOn d).2.observed =
        match (d.observed.entry i m.slot.toNat).checkRoots m with
        | .ok () => d.observed.recordPartial n m i
        | .error _ => d.observed.put n i (d.observed.entry i m.slot.toNat) := by
  rw [runOn_updateForPartialSignature, ← allocated_entry, SignerState.checkRoots_allocated]
  rcases (d.operator i).recordPartialSignature_cases m with ⟨e, h, hcheck, heq⟩ | ⟨h, hcheck, heq⟩
  · rw [heq, hcheck]
    refine ⟨rfl, ?_⟩
    simp only [observed_setOperator_setOperator]
    apply observed_writeBack_ensureEntry
    exact (d.operator i).slot_entry m.slot.toNat
  · rw [heq, hcheck]
    refine ⟨rfl, ?_⟩
    simp only [observed_setOperator_setOperator]
    rw [Observed.recordPartial, ← allocated_entry, SignerState.recordPartialSignature_allocated]
    apply observed_writeBack_ensureEntry
    exact (d.operator i).slot_entry m.slot.toNat

end Update

end DutyState

end Anchor
