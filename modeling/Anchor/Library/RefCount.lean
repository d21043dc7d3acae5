import Mathlib

/-!
# Reference counts

A key is in use as long as somebody holds it.  The count of a key starts with its first
holder and is dropped with its last one; it says how many holders there are if nobody
acquires what it holds or releases what it does not hold.
-/

namespace RefCount

variable {ι κ : Type*} [DecidableEq κ]

def acquire (counts : κ → Option ℕ) (key : κ) : κ → Option ℕ :=
  Function.update counts key (some ((counts key).getD 0 + 1))

/-- The counts afterwards, and whether the key is not in use any more. -/
def release (counts : κ → Option ℕ) (key : κ) : (κ → Option ℕ) × Bool :=
  match counts key with
  | some count =>
    if count > 1 then (Function.update counts key (some (count - 1)), false)
    else (Function.update counts key none, true)
  | none => (counts, false)

def holders (held : Finset (ι × κ)) (key : κ) : ℕ := (held.filter (·.2 = key)).card

def Tallies (held : Finset (ι × κ)) (counts : κ → Option ℕ) : Prop :=
  ∀ key, counts key = if holders held key = 0 then none else some (holders held key)

variable {held : Finset (ι × κ)} {counts : κ → Option ℕ} {p : ι × κ} {key : κ}

theorem holders_eq_zero_iff : holders held key = 0 ↔ key ∉ held.image Prod.snd := by
  rw [holders, Finset.card_eq_zero, Finset.filter_eq_empty_iff, Finset.mem_image]
  push Not
  rfl

theorem tallies_empty : Tallies (∅ : Finset (ι × κ)) (fun _ => none) := by
  intro key
  rw [holders, Finset.filter_empty, Finset.card_empty, if_pos rfl]

theorem Tallies.eq_none_iff (h : Tallies held counts) :
    counts key = none ↔ key ∉ held.image Prod.snd := by
  rw [h key, ← holders_eq_zero_iff]
  split_ifs with hzero <;> simp [hzero]

theorem Tallies.getD (h : Tallies held counts) (key : κ) :
    (counts key).getD 0 = holders held key := by
  rw [h key]
  split_ifs with hzero
  · exact hzero.symm
  · rfl

variable [DecidableEq ι]

theorem holders_insert (hp : p ∉ held) :
    holders (insert p held) p.2 = holders held p.2 + 1 := by
  rw [holders, Finset.filter_insert, if_pos rfl, Finset.card_insert_of_notMem, holders]
  exact fun hmem => hp (Finset.mem_filter.mp hmem).1

theorem holders_erase (hp : p ∈ held) : holders (held.erase p) p.2 + 1 = holders held p.2 := by
  rw [holders, Finset.filter_erase, holders]
  exact Finset.card_erase_add_one (Finset.mem_filter.mpr ⟨hp, rfl⟩)

theorem holders_insert_of_ne (hkey : key ≠ p.2) :
    holders (insert p held) key = holders held key := by
  rw [holders, Finset.filter_insert, if_neg hkey.symm, holders]

theorem holders_erase_of_ne (hkey : key ≠ p.2) :
    holders (held.erase p) key = holders held key := by
  rw [holders, Finset.filter_erase, Finset.erase_eq_of_notMem, holders]
  exact fun hmem => hkey (Finset.mem_filter.mp hmem).2.symm

theorem Tallies.acquire (h : Tallies held counts) (hp : p ∉ held) :
    Tallies (insert p held) (acquire counts p.2) := by
  intro key
  by_cases hkey : key = p.2
  · subst hkey
    rw [RefCount.acquire, Function.update_self, h.getD, holders_insert hp,
      if_neg (Nat.succ_ne_zero _)]
  · rw [RefCount.acquire, Function.update_of_ne hkey, holders_insert_of_ne hkey]
    exact h key

theorem Tallies.release (h : Tallies held counts) (hp : p ∈ held) :
    Tallies (held.erase p) (release counts p.2).1 := by
  have herase := holders_erase hp
  intro key
  rw [RefCount.release, h p.2, if_neg (by omega)]
  by_cases hkey : key = p.2
  · subst hkey
    -- The count that is stored is the one before the release.
    by_cases hmany : holders held p.2 > 1
    · simp only [if_pos hmany, Function.update_self]
      rw [if_neg (by omega), ← herase, Nat.add_sub_cancel]
    · simp only [if_neg hmany, Function.update_self]
      rw [if_pos (by omega)]
  · rw [holders_erase_of_ne hkey, ← h key]
    by_cases hmany : holders held p.2 > 1
    · simp only [if_pos hmany, Function.update_of_ne hkey]
    · simp only [if_neg hmany, Function.update_of_ne hkey]

theorem Tallies.release_snd (h : Tallies held counts) (hp : p ∈ held) :
    (RefCount.release counts p.2).2 = true ↔ p.2 ∉ (held.erase p).image Prod.snd := by
  have herase := holders_erase hp
  rw [← holders_eq_zero_iff, RefCount.release, h p.2, if_neg (by omega)]
  by_cases hmany : holders held p.2 > 1
  · simp only [if_pos hmany, Bool.false_eq_true, false_iff]
    omega
  · simp only [if_neg hmany, true_iff]
    omega

theorem Tallies.image_erase (h : Tallies held counts) (hp : p ∈ held) :
    (held.erase p).image Prod.snd =
      if (RefCount.release counts p.2).2 then (held.image Prod.snd).erase p.2
      else held.image Prod.snd := by
  have hkeys : ∀ key, key ∈ held.image Prod.snd ↔
      key = p.2 ∨ key ∈ (held.erase p).image Prod.snd := by
    intro key
    rw [← Finset.mem_insert, ← Finset.image_insert, Finset.insert_erase hp]
  ext key
  split_ifs with hlast
  · rw [Finset.mem_erase, hkeys]
    have hnot := (h.release_snd hp).mp hlast
    constructor
    · intro hmem
      refine ⟨?_, Or.inr hmem⟩
      rintro rfl
      exact hnot hmem
    · rintro ⟨hne, hmem⟩
      exact hmem.resolve_left hne
  · rw [hkeys]
    have hmem := not_not.mp (mt (h.release_snd hp).mpr hlast)
    exact (or_iff_right_of_imp (fun heq => heq ▸ hmem)).symm

end RefCount
