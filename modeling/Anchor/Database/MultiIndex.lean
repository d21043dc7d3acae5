import Mathlib

/-!
# Multi-index maps

Values under a primary key that can also be found by three further keys.  An index that
is unique holds at most one primary key for each of its keys.
-/

namespace Anchor

inductive Uniqueness where
  | unique
  | notUnique
deriving DecidableEq

def Uniqueness.add {K K1 : Type} [DecidableEq K] [DecidableEq K1] (u : Uniqueness)
    (index : K → Finset K1) (k : K) (k1 : K1) : K → Finset K1 :=
  match u with
  | .unique => Function.update index k {k1}
  | .notUnique => Function.update index k (insert k1 (index k))

structure MultiIndexMap (U1 U2 U3 : Uniqueness) (K1 K2 K3 K4 V : Type) where
  primary : K1 → Option V
  secondary : K2 → Finset K1
  tertiary : K3 → Finset K1
  quaternary : K4 → Finset K1

namespace MultiIndexMap

variable {U1 U2 U3 : Uniqueness} {K1 K2 K3 K4 V : Type}

def new : MultiIndexMap U1 U2 U3 K1 K2 K3 K4 V :=
  ⟨fun _ => none, fun _ => ∅, fun _ => ∅, fun _ => ∅⟩

variable (m : MultiIndexMap U1 U2 U3 K1 K2 K3 K4 V)

def present (keys : Finset K1) : Finset K1 := keys.filter fun k => (m.primary k).isSome

variable [DecidableEq K1]

/-- `modify_all_by`, for the primary keys that the index holds. -/
def modifyAll (keys : Finset K1) (f : V → V) : MultiIndexMap U1 U2 U3 K1 K2 K3 K4 V :=
  { m with primary := fun k => if k ∈ keys then (m.primary k).map f else m.primary k }

/-- `get_mut_by` followed by a change of the value. -/
def modify (k : K1) (f : V → V) : MultiIndexMap U1 U2 U3 K1 K2 K3 K4 V :=
  { m with primary := Function.update m.primary k ((m.primary k).map f) }

def remove (k1 : K1) : MultiIndexMap U1 U2 U3 K1 K2 K3 K4 V :=
  match m.primary k1 with
  | none => m
  | some _ =>
    { primary := Function.update m.primary k1 none
      secondary := fun k => (m.secondary k).erase k1
      tertiary := fun k => (m.tertiary k).erase k1
      quaternary := fun k => (m.quaternary k).erase k1 }

variable [DecidableEq K2] [DecidableEq K3] [DecidableEq K4]

def insertOrUpdate (k1 : K1) (k2 : K2) (k3 : K3) (k4 : K4) (v : V) :
    MultiIndexMap U1 U2 U3 K1 K2 K3 K4 V where
  primary := Function.update m.primary k1 (some v)
  secondary := U1.add m.secondary k2 k1
  tertiary := U2.add m.tertiary k3 k1
  quaternary := U3.add m.quaternary k4 k1

end MultiIndexMap

/-! ## What an index holds -/

section Index

variable {K K1 : Type} [DecidableEq K] [DecidableEq K1]

theorem Uniqueness.mem_notUnique_add {index : K → Finset K1} {k k' : K} {k1 x : K1} :
    x ∈ Uniqueness.notUnique.add index k k1 k' ↔ k' = k ∧ x = k1 ∨ x ∈ index k' := by
  by_cases h : k' = k
  · subst h
    simp [Uniqueness.add]
  · simp [Uniqueness.add, h]

theorem Uniqueness.mem_unique_add {index : K → Finset K1} {k k' : K} {k1 x : K1} :
    x ∈ Uniqueness.unique.add index k k1 k' ↔ k' = k ∧ x = k1 ∨ k' ≠ k ∧ x ∈ index k' := by
  by_cases h : k' = k
  · subst h
    simp [Uniqueness.add]
  · simp [Uniqueness.add, h]

end Index

namespace MultiIndexMap

variable {U1 U2 U3 : Uniqueness} {K1 K2 K3 K4 V : Type}

structure Closed (m : MultiIndexMap U1 U2 U3 K1 K2 K3 K4 V) : Prop where
  secondary : ∀ k, ∀ k1 ∈ m.secondary k, (m.primary k1).isSome
  tertiary : ∀ k, ∀ k1 ∈ m.tertiary k, (m.primary k1).isSome
  quaternary : ∀ k, ∀ k1 ∈ m.quaternary k, (m.primary k1).isSome

variable {m : MultiIndexMap U1 U2 U3 K1 K2 K3 K4 V}

theorem present_eq {keys : Finset K1}
    (h : ∀ k ∈ keys, (m.primary k).isSome) : m.present keys = keys :=
  Finset.filter_true_of_mem h

structure SameKeys (m m' : MultiIndexMap U1 U2 U3 K1 K2 K3 K4 V) : Prop where
  primary : ∀ k, (m.primary k).isSome = (m'.primary k).isSome
  secondary : ∀ k, m.present (m.secondary k) = m'.present (m'.secondary k)
  tertiary : ∀ k, m.present (m.tertiary k) = m'.present (m'.tertiary k)
  quaternary : ∀ k, m.present (m.quaternary k) = m'.present (m'.quaternary k)

variable [DecidableEq K1]

theorem remove_of_some {k1 : K1} {v : V}
    (h : m.primary k1 = some v) :
    m.remove k1 = ⟨Function.update m.primary k1 none, fun k => (m.secondary k).erase k1,
      fun k => (m.tertiary k).erase k1, fun k => (m.quaternary k).erase k1⟩ := by
  simp [remove, h]

theorem remove_of_none {k1 : K1}
    (h : m.primary k1 = none) : m.remove k1 = m := by
  simp [remove, h]

theorem primary_remove (m : MultiIndexMap U1 U2 U3 K1 K2 K3 K4 V) (k1 : K1) :
    (m.remove k1).primary = Function.update m.primary k1 none := by
  cases h : m.primary k1 with
  | some v => rw [remove_of_some h]
  | none =>
    rw [remove_of_none h]
    exact (Function.update_eq_self_iff.mpr h.symm).symm

theorem Closed.remove_eq (hm : m.Closed) (k1 : K1) :
    m.remove k1 = ⟨Function.update m.primary k1 none, fun k => (m.secondary k).erase k1,
      fun k => (m.tertiary k).erase k1, fun k => (m.quaternary k).erase k1⟩ := by
  cases h : m.primary k1 with
  | some v => exact remove_of_some h
  | none =>
    have habsent : ∀ {s : Finset K1}, (∀ k ∈ s, (m.primary k).isSome) → s.erase k1 = s := by
      intro s hs
      exact Finset.erase_eq_of_notMem fun hmem => by simpa [h] using hs k1 hmem
    have hprimary : Function.update m.primary k1 none = m.primary :=
      Function.update_eq_self_iff.mpr h.symm
    simp only [remove_of_none h, hprimary, fun k => habsent (hm.secondary k),
      fun k => habsent (hm.tertiary k), fun k => habsent (hm.quaternary k)]

theorem isSome_primary_modifyAll (m : MultiIndexMap U1 U2 U3 K1 K2 K3 K4 V) (keys : Finset K1)
    (f : V → V) (k : K1) : ((m.modifyAll keys f).primary k).isSome = (m.primary k).isSome := by
  simp only [modifyAll]
  split <;> simp

theorem isSome_primary_modify (m : MultiIndexMap U1 U2 U3 K1 K2 K3 K4 V) (k k' : K1)
    (f : V → V) : ((m.modify k f).primary k').isSome = (m.primary k').isSome := by
  by_cases h : k' = k
  · subst h
    simp [modify]
  · simp [modify, Function.update_of_ne h]

end MultiIndexMap

end Anchor
