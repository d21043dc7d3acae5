import Mathlib

/-!
# Values that pass through stages

A function of time that never comes back to a value it has left: time is cut into
stages, and the value is the same exactly within a stage.
-/

/-- A value that passes through stages: it is the same exactly within a stage. -/
def Staged {α : Type*} (f : ℕ → α) : Prop :=
  ∃ stage : ℕ → ℕ, Monotone stage ∧ ∀ a b, f a = f b ↔ stage a = stage b

namespace Staged

variable {α : Type*} {f : ℕ → α}

theorem eq_of_between (h : Staged f) {a b c : ℕ} (hab : a ≤ b) (hbc : b ≤ c) (heq : f a = f c) :
    f b = f a := by
  obtain ⟨stage, hmono, hstage⟩ := h
  have hends := (hstage a c).mp heq
  exact (hstage b a).mpr (le_antisymm ((hmono hbc).trans hends.ge) (hmono hab))

theorem ne_iff_exists_change (h : Staged f) {a b : ℕ} (hab : a ≤ b) :
    f a ≠ f b ↔ ∃ c, a ≤ c ∧ c < b ∧ f c ≠ f (c + 1) := by
  constructor
  · intro hne
    by_contra hnone
    push Not at hnone
    refine hne ?_
    induction b, hab using Nat.le_induction with
    | base => rfl
    | succ b hab ih =>
      by_cases hb : f a = f b
      · exact hb.trans (hnone b hab (Nat.lt_succ_self b))
      · exact absurd (ih hb fun c hac hcb => hnone c hac (hcb.trans (Nat.lt_succ_self b))) hb
  · rintro ⟨c, hac, hcb, hne⟩ heq
    have hc := h.eq_of_between hac hcb.le heq
    have hc' := h.eq_of_between (hac.trans (Nat.le_succ c)) hcb heq
    exact hne (hc.trans hc'.symm)

end Staged
