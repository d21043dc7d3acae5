import Mathlib

/-!
# Runs of a step function

A machine takes events one after the other.  Facts about whole runs come from facts
about one step: an invariant of the states, or a relation between a state and the
events that led to it.
-/

namespace Machine

variable {σ ε : Type*} {step : σ → ε → σ}

def run (step : σ → ε → σ) (s : σ) (es : List ε) : σ := es.foldl step s

@[simp] theorem run_nil (s : σ) : run step s [] = s := rfl

@[simp] theorem run_cons (s : σ) (e : ε) (es : List ε) :
    run step s (e :: es) = run step (step s e) es := rfl

theorem run_append (s : σ) (es es' : List ε) :
    run step s (es ++ es') = run step (run step s es) es' :=
  List.foldl_append

theorem run_concat (s : σ) (es : List ε) (e : ε) :
    run step s (es ++ [e]) = step (run step s es) e := by
  rw [run_append, run_cons, run_nil]

/-- Every event of a run meets a condition in the state in which it comes. -/
def Steps (step : σ → ε → σ) (P : σ → ε → Prop) : σ → List ε → Prop
  | _, [] => True
  | s, e :: es => P s e ∧ Steps step P (step s e) es

instance Steps.decidable (P : σ → ε → Prop) [∀ s e, Decidable (P s e)] :
    ∀ (s : σ) (es : List ε), Decidable (Steps step P s es)
  | _, [] => inferInstanceAs (Decidable True)
  | s, e :: es =>
    have := Steps.decidable P (step s e) es
    inferInstanceAs (Decidable (P s e ∧ Steps step P (step s e) es))

variable {P : σ → ε → Prop}

theorem steps_append {s : σ} {es es' : List ε} :
    Steps step P s (es ++ es') ↔ Steps step P s es ∧ Steps step P (run step s es) es' := by
  induction es generalizing s with
  | nil => simp [Steps]
  | cons e es ih => simp [Steps, ih, and_assoc]

variable {es : List ε}

theorem steps_concat {s : σ} {e : ε} :
    Steps step P s (es ++ [e]) ↔ Steps step P s es ∧ P (run step s es) e := by
  simp [steps_append, Steps]

theorem steps_of_forall (h : ∀ e ∈ es, ∀ s, P s e) (s : σ) :
    Steps step P s es := by
  induction es generalizing s with
  | nil => trivial
  | cons e es ih =>
    exact ⟨h e (by simp) s, ih (fun d hd => h d (List.mem_cons_of_mem _ hd)) _⟩

/-- What every step that meets the condition keeps holds at the end of the run. -/
theorem invariant {I : σ → Prop} {s : σ} (hstart : I s)
    (hstep : ∀ s e, P s e → I s → I (step s e)) (h : Steps step P s es) : I (run step s es) := by
  induction es generalizing s with
  | nil => exact hstart
  | cons e es ih => exact ih (hstep s e h.1 hstart) h.2

/-- What relates a state to the events before it, kept by every step. -/
theorem history {J : List ε → σ → Prop} {s : σ}
    (hstart : J [] s) (hstep : ∀ es s e, P s e → J es s → J (es ++ [e]) (step s e))
    (h : Steps step P s es) : J es (run step s es) := by
  induction es using List.reverseRecOn with
  | nil => exact hstart
  | append_singleton es e ih =>
    obtain ⟨hes, he⟩ := steps_concat.mp h
    rw [run_concat]
    exact hstep es _ e he (ih hes)

end Machine
