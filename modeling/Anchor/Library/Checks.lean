import Mathlib

/-!
# Checks over lists

Loops that run a fallible check or conversion over a list and stop at the first
error, with the statement of when they succeed.
-/

namespace Checks

variable {α β γ ε : Type*}

def forEach (check : α → Except ε Unit) : List α → Except ε Unit
  | [] => .ok ()
  | x :: xs =>
    match check x with
    | .error e => .error e
    | .ok () => forEach check xs

variable {xs : List α}

theorem forEach_eq_ok_iff {check : α → Except ε Unit} :
    forEach check xs = .ok () ↔ ∀ x ∈ xs, check x = .ok () := by
  induction xs with
  | nil => simp [forEach]
  | cons x xs ih =>
    cases h : check x with
    | error e => simp [forEach, h]
    | ok u => simp [forEach, h, ih]

def require (p : Prop) [Decidable p] (e : ε) : Except ε Unit := if p then .ok () else .error e

@[simp] theorem require_eq_ok_iff {p : Prop} [Decidable p] {e : ε} {u : Unit} :
    require p e = .ok u ↔ p := by
  unfold require
  split_ifs with h <;> simp [h]

theorem isOk_iff {x : Except ε Unit} : x.isOk = true ↔ x = .ok () := by
  cases x <;> simp [Except.isOk, Except.toBool]

theorem mapError_eq_ok_iff {ε' : Type*} {f : ε → ε'} {x : Except ε α} {a : α} :
    x.mapError f = .ok a ↔ x = .ok a := by
  cases x <;> simp [Except.mapError]

theorem require_eq_require_iff {p q : Prop} [Decidable p] [Decidable q] {e : ε} :
    (require p e : Except ε Unit) = require q e ↔ (p ↔ q) := by
  by_cases hp : p <;> by_cases hq : q <;> simp [require, hp, hq]

theorem map_eq_ok_iff {f : α → β} {x : Except ε α} {b : β} :
    x.map f = .ok b ↔ ∃ a, x = .ok a ∧ f a = b := by
  cases x with
  | error e => simp [Except.map]
  | ok a => simp [Except.map]

def mapAll (convert : α → Except ε β) : List α → Except ε (List β)
  | [] => .ok []
  | x :: xs =>
    match convert x with
    | .error e => .error e
    | .ok y =>
      match mapAll convert xs with
      | .error e => .error e
      | .ok ys => .ok (y :: ys)

variable {convert : α → Except ε β}

theorem mapAll_of_forall {f : α → β}
    (h : ∀ x ∈ xs, convert x = .ok (f x)) : mapAll convert xs = .ok (xs.map f) := by
  induction xs with
  | nil => rfl
  | cons x xs ih =>
    have hrest := ih fun z hz => h z (List.mem_cons_of_mem _ hz)
    simp [mapAll, h x (by simp), hrest]

theorem mapAll_map {convert : β → Except ε γ} {f : α → β} :
    mapAll convert (xs.map f) = mapAll (fun x => convert (f x)) xs := by
  induction xs with
  | nil => rfl
  | cons x xs ih => simp only [List.map_cons, mapAll, ih]

theorem mapAll_cons_eq_ok {x : α} {zs : List β}
    (h : mapAll convert (x :: xs) = .ok zs) :
    ∃ y ys, zs = y :: ys ∧ convert x = .ok y ∧ mapAll convert xs = .ok ys := by
  cases hx : convert x with
  | error e => simp [mapAll, hx] at h
  | ok y =>
    cases hrest : mapAll convert xs with
    | error e => simp [mapAll, hx, hrest] at h
    | ok ys =>
      simp only [mapAll, hx, hrest, Except.ok.injEq] at h
      exact ⟨y, ys, h.symm, rfl, rfl⟩

variable {ys : List β}

theorem exists_of_mapAll
    (h : mapAll convert xs = .ok ys) : ∀ x ∈ xs, ∃ y, convert x = .ok y := by
  induction xs generalizing ys with
  | nil => simp
  | cons x xs ih =>
    obtain ⟨y, zs, -, hx, hrest⟩ := mapAll_cons_eq_ok h
    exact List.forall_mem_cons.mpr ⟨⟨y, hx⟩, ih hrest⟩

theorem map_of_mapAll {f : α → γ} {g : β → γ} (hg : ∀ x y, convert x = .ok y → g y = f x)
    (h : mapAll convert xs = .ok ys) :
    ys.map g = xs.map f := by
  induction xs generalizing ys with
  | nil =>
    cases h
    rfl
  | cons x xs ih =>
    obtain ⟨y, zs, rfl, hx, hrest⟩ := mapAll_cons_eq_ok h
    rw [List.map_cons, List.map_cons, hg x y hx, ih hrest]

theorem getElem?_of_mapAll
    (h : mapAll convert xs = .ok ys) {i : ℕ} {y : β} (hy : ys[i]? = some y) :
    ∃ x, xs[i]? = some x ∧ convert x = .ok y := by
  induction xs generalizing ys i with
  | nil =>
    cases h
    simp at hy
  | cons x xs ih =>
    obtain ⟨z, zs, rfl, hx, hrest⟩ := mapAll_cons_eq_ok h
    cases i with
    | zero =>
      cases hy
      exact ⟨x, rfl, hx⟩
    | succ i => exact ih hrest hy

theorem exists_mapAll
    (h : ∀ x ∈ xs, ∃ y, convert x = .ok y) : ∃ ys, mapAll convert xs = .ok ys := by
  induction xs with
  | nil => exact ⟨[], rfl⟩
  | cons x xs ih =>
    obtain ⟨y, hy⟩ := h x List.mem_cons_self
    obtain ⟨ys, hys⟩ := ih fun z hz => h z (List.mem_cons_of_mem _ hz)
    exact ⟨y :: ys, by simp only [mapAll, hy, hys]⟩

theorem length_of_mapAll
    (h : mapAll convert xs = .ok ys) : ys.length = xs.length := by
  have hmap := map_of_mapAll (f := fun _ => ()) (g := fun _ => ()) (fun _ _ _ => rfl) h
  simpa using congrArg List.length hmap

end Checks
