import Mathlib

/-!
# Ring buffers

A ring buffer of length `n` keeps the value for a key in the cell `key % n`.  The
value itself knows its key, and a lookup finds a value only if the cell still
holds that key.  Writing a key evicts whatever other key shared its cell, so the
buffer is exact on a set of keys as long as no two keys in play share a cell.
-/

structure RingBuffer (α : Type*) (n : ℕ) where
  cells : List (Option α)
  length_eq : cells.length = n

namespace RingBuffer

variable {α : Type*} {n : ℕ} {key : α → ℕ}

def new (n : ℕ) : RingBuffer α n := ⟨List.replicate n none, List.length_replicate⟩

def get (key : α → ℕ) (r : RingBuffer α n) (k : ℕ) : Option α :=
  (r.cells.getD (k % n) none).filter (key · = k)

def set (key : α → ℕ) (r : RingBuffer α n) (a : α) : RingBuffer α n :=
  ⟨r.cells.set (key a % n) (some a), List.length_set.trans r.length_eq⟩

@[simp] theorem get_new (k : ℕ) : (new n).get key k = none := by
  have hcell : (new n : RingBuffer α n).cells.getD (k % n) none = none := by
    rw [new, List.getD_eq_getElem?_getD, List.getElem?_replicate]
    split_ifs <;> rfl
  rw [get, hcell, Option.filter_none]

theorem key_of_get {r : RingBuffer α n} {k : ℕ} {a : α} (h : r.get key k = some a) :
    key a = k := by
  simpa using (Option.filter_eq_some_iff.mp h).2

theorem eq_of_get {r : RingBuffer α n} {j k : ℕ} {a b : α} (ha : r.get key j = some a)
    (hb : r.get key k = some b) (hmod : j % n = k % n) : j = k := by
  have hcell := (Option.filter_eq_some_iff.mp ha).1
  rw [hmod, (Option.filter_eq_some_iff.mp hb).1] at hcell
  cases hcell
  rw [← key_of_get ha, ← key_of_get hb]

/-- Reading after a write: the key written reads the new value, the other keys of
its cell are gone, and the rest is unchanged. -/
theorem get_set (hn : 0 < n) (r : RingBuffer α n) (a : α) (k : ℕ) :
    (r.set key a).get key k =
      if k = key a then some a else if k % n = key a % n then none else r.get key k := by
  have hlt : key a % n < r.cells.length := by
    rw [r.length_eq]
    exact Nat.mod_lt _ hn
  have hcell : (r.set key a).cells.getD (k % n) none =
      if k % n = key a % n then some a else r.cells.getD (k % n) none := by
    rw [set, List.getD_eq_getElem?_getD, List.getElem?_set]
    split_ifs with h1 h2 h2
    · rfl
    · exact absurd h1.symm h2
    · exact absurd h2.symm h1
    · rw [List.getD_eq_getElem?_getD]
  rw [get, hcell]
  by_cases hk : k = key a
  · subst hk
    simp
  · have hne : key a ≠ k := fun h => hk h.symm
    rw [if_neg hk]
    split_ifs
    · simp [Option.filter, hne]
    · rfl

theorem eq_of_mod_eq {i j : ℕ} (hmod : i % n = j % n) (hi : i < j + n) (hj : j < i + n) :
    i = j := by
  have hi' := Nat.div_add_mod i n
  have hj' := Nat.div_add_mod j n
  have hdiv : i / n = j / n := by
    by_contra hne
    rcases Nat.lt_or_gt_of_ne hne with hlt | hlt
    · have := Nat.mul_le_mul_left n (Nat.succ_le_of_lt hlt)
      rw [Nat.mul_succ] at this
      omega
    · have := Nat.mul_le_mul_left n (Nat.succ_le_of_lt hlt)
      rw [Nat.mul_succ] at this
      omega
  rw [← hi', ← hj', hdiv, hmod]

end RingBuffer
