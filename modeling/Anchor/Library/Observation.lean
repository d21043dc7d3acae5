import Mathlib
import Anchor.Library.Checks

/-!
# Checks that create on the way

A check on a stateful object may create empty entries while it looks things up,
also when it fails in the end.  Such a check is judged by what a view of the
state shows: it reads the view, answers as a pure check on the view does, and
leaves the view as it was.
-/

namespace Checks

variable {σ ε α β : Type} {ω ι : Type*}

theorem bind_eq_ok {x : Except ε α} {f : α → Except ε β} {b : β} :
    (x >>= f) = .ok b ↔ ∃ a, x = .ok a ∧ f a = .ok b := by
  cases x with
  | error e => simp [bind, Except.bind]
  | ok a => simp [bind, Except.bind]

theorem bind_unit_eq_ok {x : Except ε Unit} {f : Unit → Except ε β} {b : β} :
    (x >>= f) = .ok b ↔ x = .ok () ∧ f () = .ok b :=
  ⟨fun h => bind_eq_ok.mp h |>.elim fun _ h => h, fun h => bind_eq_ok.mpr ⟨(), h⟩⟩

/-- A computation that may fail, and that keeps the state reached when it does. -/
abbrev Stateful (σ ε α : Type) := ExceptT ε (StateM σ) α

def Stateful.runOn (m : Stateful σ ε α) (s : σ) : Except ε α × σ := m.run s

@[simp] theorem runOn_pure (a : α) (s : σ) : (pure a : Stateful σ ε α).runOn s = (.ok a, s) := rfl

@[simp] theorem runOn_lift (x : Except ε α) (s : σ) :
    (liftM x : Stateful σ ε α).runOn s = (x, s) := rfl

theorem runOn_bind (m : Stateful σ ε α) (f : α → Stateful σ ε β) (s : σ) :
    (m >>= f).runOn s = match m.runOn s with
      | (.ok a, t) => (f a).runOn t
      | (.error e, t) => (.error e, t) := by
  simp only [Stateful.runOn, ExceptT.run_bind]
  change (StateT.bind m.run _) s = _
  simp only [StateT.bind]
  rcases m.run s with ⟨x, t⟩
  cases x <;> rfl

theorem runOn_map (m : Stateful σ ε α) (f : α → β) (s : σ) :
    (do let a ← m; return f a : Stateful σ ε β).runOn s = ((m.runOn s).1.map f, (m.runOn s).2) := by
  rw [runOn_bind]
  rcases m.runOn s with ⟨x, t⟩
  cases x <;> rfl

/-- `m` answers as `check` does on the view of the state, and keeps the view. -/
structure Reads (view : σ → ω) (m : Stateful σ ε α) (check : ω → Except ε α) : Prop where
  answer_eq : ∀ s, (m.runOn s).1 = check (view s)
  view_eq : ∀ s, view (m.runOn s).2 = view s

namespace Reads

variable {view : σ → ω}

theorem lift (x : Except ε α) : Reads view (liftM x) fun _ => x := ⟨fun _ => rfl, fun _ => rfl⟩

/-- What follows a check runs, in a state with the same view, exactly if the check
succeeds. -/
theorem bind_cases {m : Stateful σ ε α} {check : ω → Except ε α} (hm : Reads view m check)
    (f : α → Stateful σ ε β) (s : σ) :
    (∃ e t, check (view s) = .error e ∧ view t = view s ∧ (m >>= f).runOn s = (.error e, t)) ∨
      ∃ a t, check (view s) = .ok a ∧ view t = view s ∧ (m >>= f).runOn s = (f a).runOn t := by
  have hanswer := hm.answer_eq s
  have hview := hm.view_eq s
  rw [runOn_bind]
  rcases hrun : m.runOn s with ⟨x, t⟩
  rw [hrun] at hanswer hview
  cases x with
  | error e => exact Or.inl ⟨e, t, hanswer.symm, hview, rfl⟩
  | ok a => exact Or.inr ⟨a, t, hanswer.symm, hview, rfl⟩

theorem bind {m : Stateful σ ε α} {f : α → Stateful σ ε β} {check : ω → Except ε α}
    {next : α → ω → Except ε β} (hm : Reads view m check) (hf : ∀ a, Reads view (f a) (next a)) :
    Reads view (m >>= f) fun o => check o >>= fun a => next a o := by
  constructor
  · intro s
    rcases hm.bind_cases f s with ⟨e, t, hcheck, -, hrun⟩ | ⟨a, t, hcheck, hview, hrun⟩
    · rw [hrun, hcheck]
      rfl
    · rw [hrun, hcheck, (hf a).answer_eq, hview]
      rfl
  · intro s
    rcases hm.bind_cases f s with ⟨e, t, -, hview, hrun⟩ | ⟨a, t, -, hview, hrun⟩
    · rw [hrun, hview]
    · rw [hrun, (hf a).view_eq, hview]

theorem forM {f : ι → Stateful σ ε Unit} {check : ι → ω → Except ε Unit} (xs : List ι)
    (h : ∀ x, Reads view (f x) (check x)) :
    Reads view (xs.forM f) fun o => forEach (fun x => check x o) xs := by
  induction xs with
  | nil => exact ⟨fun _ => rfl, fun _ => rfl⟩
  | cons x xs ih =>
    have hcons := (h x).bind fun _ => ih
    refine ⟨fun s => (hcons.answer_eq s).trans ?_, hcons.view_eq⟩
    simp only [forEach]
    cases check x (view s) <;> rfl

end Reads

end Checks
