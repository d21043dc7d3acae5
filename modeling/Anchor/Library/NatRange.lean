import Mathlib

/-!
# Consecutive ranges of numbers

Ranges that follow each other list the numbers between the first and the last one, each
once.  Cutting a range in two keeps this.  The weight of a range is the number of
nodes of a binary tree that has its numbers as leaves.
-/

structure NatRange where
  first : ℕ
  last : ℕ
deriving DecidableEq

namespace NatRange

def elements (r : NatRange) : List ℕ := List.range' r.first (r.last + 1 - r.first)

def weight (r : NatRange) : ℕ := 2 * (r.last - r.first) + 1

/-- Ranges that are not empty and follow each other, from a number up to another one. -/
def Covers : ℕ → List NatRange → ℕ → Prop
  | a, [], b => a = b
  | a, r :: rs, b => r.first = a ∧ a ≤ r.last ∧ Covers (r.last + 1) rs b

variable {a b : ℕ} {rs rs' : List NatRange} {r : NatRange}

theorem covers_append :
    Covers a (rs ++ rs') b ↔ ∃ c, Covers a rs c ∧ Covers c rs' b := by
  induction rs generalizing a with
  | nil => simp [Covers]
  | cons r rs ih => simp [Covers, ih, and_assoc]

theorem Covers.le (h : Covers a rs b) : a ≤ b := by
  induction rs generalizing a with
  | nil => exact le_of_eq h
  | cons r rs ih =>
    have := ih h.2.2
    have := h.2.1
    omega

theorem Covers.bounds (h : Covers a rs b) (hr : r ∈ rs) :
    a ≤ r.first ∧ r.first ≤ r.last ∧ r.last < b := by
  induction rs generalizing a with
  | nil => cases hr
  | cons r' rs ih =>
    obtain ⟨hfirst, hlast, hrest⟩ := h
    rcases List.mem_cons.mp hr with rfl | hr
    · have := hrest.le
      omega
    · have := ih hrest hr
      omega

theorem Covers.flatMap_elements (h : Covers a rs b) :
    rs.flatMap elements = List.range' a (b - a) := by
  induction rs generalizing a with
  | nil =>
    obtain rfl : a = b := h
    simp
  | cons r rs ih =>
    obtain ⟨rfl, hlast, hrest⟩ := h
    have hle := hrest.le
    rw [List.flatMap_cons, ih hrest, elements]
    have hsplit : b - r.first = (r.last + 1 - r.first) + (b - (r.last + 1)) := by omega
    rw [hsplit, ← List.range'_append_1]
    congr 2
    omega

theorem covers_cut {mid : ℕ} (hfirst : r.first ≤ mid) (hmid : mid < r.last) :
    Covers a (⟨r.first, mid⟩ :: ⟨mid + 1, r.last⟩ :: rs) b ↔ Covers a (r :: rs) b := by
  constructor
  · rintro ⟨rfl, -, -, -, hrest⟩
    exact ⟨rfl, (hfirst.trans_lt hmid).le, hrest⟩
  · rintro ⟨rfl, -, hrest⟩
    exact ⟨rfl, hfirst, rfl, hmid, hrest⟩

theorem weight_cut {mid : ℕ} (hfirst : r.first ≤ mid) (hmid : mid < r.last) :
    weight ⟨r.first, mid⟩ + weight ⟨mid + 1, r.last⟩ + 1 = r.weight := by
  simp only [weight]
  omega

end NatRange
