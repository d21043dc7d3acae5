import Mathlib

/-!
# Picking an element from a list

A loop that remembers the best element seen so far among those that qualify.
Whether a later element of equal rank replaces an earlier one is left to the
comparison.
-/

namespace Pick

variable {α κ : Type*}

def step (p : α → Bool) (better : α → α → Bool) (best : Option α) (x : α) : Option α :=
  if p x then
    match best with
    | none => some x
    | some y => if better x y then some x else some y
  else best

def pick (p : α → Bool) (better : α → α → Bool) (xs : List α) : Option α :=
  xs.foldl (step p better) none

variable {p : α → Bool} {better : α → α → Bool}

theorem step_eq_some {best : Option α} {x b : α} (h : step p better best x = some b) :
    b = x ∧ p x = true ∨ best = some b := by
  unfold step at h
  split at h
  · rename_i hx
    split at h
    · exact Or.inl ⟨(Option.some.inj h).symm, hx⟩
    · split at h
      · exact Or.inl ⟨(Option.some.inj h).symm, hx⟩
      · exact Or.inr h
  · exact Or.inr h

theorem foldl_step_eq_some {xs : List α} {best : Option α} {b : α}
    (h : xs.foldl (step p better) best = some b) : best = some b ∨ b ∈ xs ∧ p b = true := by
  induction xs generalizing best with
  | nil => exact Or.inl h
  | cons x xs ih =>
    rcases ih h with hbest | ⟨hb, hp⟩
    · rcases step_eq_some hbest with ⟨rfl, hx⟩ | hbest
      · exact Or.inr ⟨by simp, hx⟩
      · exact Or.inl hbest
    · exact Or.inr ⟨List.mem_cons_of_mem _ hb, hp⟩

theorem mem_of_pick {xs : List α} {b : α} (h : pick p better xs = some b) :
    b ∈ xs ∧ p b = true := by
  rcases foldl_step_eq_some h with hnone | hb
  · cases hnone
  · exact hb

section Ranked

variable [LinearOrder κ] {key : α → κ}

variable (hbetter : ∀ x y, better x y = true → key y ≤ key x)
  (hworse : ∀ x y, better x y = false → key x ≤ key y)
include hbetter hworse

theorem le_step (best : Option α) (x : α) :
    (∀ y, best = some y → ∃ b, step p better best x = some b ∧ key y ≤ key b) ∧
      (p x = true → ∃ b, step p better best x = some b ∧ key x ≤ key b) := by
  unfold step
  by_cases hx : p x = true
  · rw [if_pos hx]
    cases best with
    | none => exact ⟨by simp, fun _ => ⟨x, rfl, le_rfl⟩⟩
    | some y =>
      cases hb : better x y with
      | false =>
        refine ⟨?_, fun _ => ⟨y, by simp [hb], hworse x y hb⟩⟩
        rintro z hz
        cases hz
        exact ⟨y, by simp [hb], le_rfl⟩
      | true =>
        refine ⟨?_, fun _ => ⟨x, by simp [hb], le_rfl⟩⟩
        rintro z hz
        cases hz
        exact ⟨x, by simp [hb], hbetter x y hb⟩
  · rw [if_neg hx]
    exact ⟨fun y hy => ⟨y, hy, le_rfl⟩, fun h => absurd h hx⟩

theorem le_foldl_step {xs : List α} (best : Option α) {y : α}
    (h : best = some y ∨ y ∈ xs ∧ p y = true) :
    ∃ b, xs.foldl (step p better) best = some b ∧ key y ≤ key b := by
  induction xs generalizing best y with
  | nil =>
    rcases h with h | ⟨h, -⟩
    · exact ⟨y, h, le_rfl⟩
    · cases h
  | cons x xs ih =>
    obtain ⟨hkeep, hnew⟩ := le_step (p := p) hbetter hworse best x
    rcases h with hbest | ⟨hmem, hp⟩
    · obtain ⟨b, hb, hle⟩ := hkeep y hbest
      obtain ⟨b', hb', hle'⟩ := ih _ (Or.inl hb)
      exact ⟨b', hb', hle.trans hle'⟩
    · rcases List.mem_cons.mp hmem with rfl | hmem
      · obtain ⟨b, hb, hle⟩ := hnew hp
        obtain ⟨b', hb', hle'⟩ := ih _ (Or.inl hb)
        exact ⟨b', hb', hle.trans hle'⟩
      · exact ih _ (Or.inr ⟨hmem, hp⟩)

theorem le_of_pick {xs : List α} {b y : α}
    (h : pick p better xs = some b) (hy : y ∈ xs) (hp : p y = true) : key y ≤ key b := by
  obtain ⟨b', hb', hle⟩ := le_foldl_step hbetter hworse none (Or.inr ⟨hy, hp⟩)
  rw [pick, hb'] at h
  cases h
  exact hle

end Ranked

theorem pick_eq_none_iff {xs : List α} :
    pick p better xs = none ↔ ∀ x ∈ xs, p x = false := by
  constructor
  · intro h x hx
    by_contra hp
    obtain ⟨b, hb, -⟩ := @le_foldl_step α Unit p better _ (fun _ => ()) (fun _ _ _ => le_rfl)
      (fun _ _ _ => le_rfl) xs none x (Or.inr ⟨hx, Bool.eq_true_of_not_eq_false hp⟩)
    rw [pick, hb] at h
    cases h
  · intro h
    cases hpick : pick p better xs with
    | none => rfl
    | some b =>
      obtain ⟨hb, hp⟩ := mem_of_pick hpick
      rw [h b hb] at hp
      cases hp

theorem step_map {β : Type*} (f : β → α) (best : Option β) (x : β) :
    step p better (best.map f) (f x) =
      (step (fun y => p (f y)) (fun y z => better (f y) (f z)) best x).map f := by
  unfold step
  cases best with
  | none => split <;> rfl
  | some b =>
    split
    · simp only [Option.map_some]
      split <;> rfl
    · rfl

theorem pick_map {β : Type*} (f : β → α) (xs : List β) :
    pick p better (xs.map f) =
      (pick (fun y => p (f y)) (fun y z => better (f y) (f z)) xs).map f := by
  have hfold : ∀ best : Option β, (xs.map f).foldl (step p better) (best.map f) =
      (xs.foldl (step (fun y => p (f y)) fun y z => better (f y) (f z)) best).map f := by
    induction xs with
    | nil => exact fun best => rfl
    | cons x xs ih =>
      intro best
      rw [List.map_cons, List.foldl_cons, List.foldl_cons, step_map, ih]
  exact hfold none

end Pick
