import Mathlib

/-!
# Bitfields of a fixed length

A bitfield is the set of its bits that are set.  A bit outside the field reads as not set,
and setting it changes nothing.
-/

structure Bitfield (n : ℕ) where
  bits : Finset (Fin n)
deriving DecidableEq

namespace Bitfield

variable {n : ℕ}

def zero : Bitfield n := ⟨∅⟩

def isZero (f : Bitfield n) : Bool := f.bits = ∅

def get (f : Bitfield n) (i : ℕ) : Bool := if h : i < n then ⟨i, h⟩ ∈ f.bits else false

def set (f : Bitfield n) (i : ℕ) (b : Bool) : Bitfield n :=
  if h : i < n then ⟨if b then insert ⟨i, h⟩ f.bits else f.bits.erase ⟨i, h⟩⟩ else f

def union (f g : Bitfield n) : Bitfield n := ⟨f.bits ∪ g.bits⟩

@[simp] theorem get_zero (i : ℕ) : (zero : Bitfield n).get i = false := by
  simp [get, zero]

@[simp] theorem get_union (f g : Bitfield n) (i : ℕ) :
    (f.union g).get i = (f.get i || g.get i) := by
  unfold get union
  split_ifs with h
  · simp
  · rfl

theorem get_set (f : Bitfield n) {i : ℕ} (hi : i < n) (b : Bool) (j : ℕ) :
    (f.set i b).get j = if j = i then b else f.get j := by
  unfold get set
  rw [dif_pos hi]
  by_cases hj : j < n
  · rw [dif_pos hj, dif_pos hj]
    by_cases hji : j = i
    · subst hji
      cases b <;> simp
    · cases b <;> simp [hji]
  · rw [dif_neg hj, dif_neg hj, if_neg (by omega)]

theorem isZero_iff {f : Bitfield n} : f.isZero = true ↔ ∀ i, f.get i = false := by
  constructor
  · intro h i
    have hempty : f.bits = ∅ := by simpa [isZero] using h
    simp [get, hempty]
  · intro h
    have hempty : f.bits = ∅ := by
      apply Finset.eq_empty_of_forall_notMem
      intro i hi
      have := h i
      simp [get, hi] at this
    simp [isZero, hempty]

end Bitfield
