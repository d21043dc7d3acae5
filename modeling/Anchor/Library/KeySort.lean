import Mathlib.Data.List.Sort
import Mathlib.Data.List.Nodup
import Mathlib.Order.Defs.LinearOrder

/-!
# Sorting by a key

A list whose keys are distinct has one order in which they increase, so sorting by
the key forgets the order in which the entries came.
-/

namespace KeySort

variable {α κ : Type*} [LinearOrder κ]

theorem pairwise_le_insertionSort (key : α → κ) (l : List α) :
    (l.insertionSort fun a b => key a ≤ key b).Pairwise fun a b => key a ≤ key b := by
  have : Std.Total fun a b : α => key a ≤ key b := ⟨fun a b => le_total (key a) (key b)⟩
  have : IsTrans α fun a b => key a ≤ key b := ⟨fun a b c => le_trans⟩
  exact List.pairwise_insertionSort _ l

theorem pairwise_lt_insertionSort (key : α → κ) {l : List α} (hkeys : (l.map key).Nodup) :
    ((l.insertionSort fun a b => key a ≤ key b).map key).Pairwise (· < ·) := by
  have hperm := ((l.perm_insertionSort fun a b => key a ≤ key b).map key).nodup_iff.mpr hkeys
  have hle := List.pairwise_map.mpr (pairwise_le_insertionSort key l)
  exact (hle.and hperm).imp fun h => lt_of_le_of_ne h.1 h.2

theorem insertionSort_eq_of_perm (key : α → κ) {l l' : List α} (h : l.Perm l')
    (hkeys : (l.map key).Nodup) :
    (l.insertionSort fun a b => key a ≤ key b) = l'.insertionSort fun a b => key a ≤ key b := by
  have hkeys' : (l'.map key).Nodup := (h.map key).nodup_iff.mp hkeys
  have hperm := (l.perm_insertionSort fun a b => key a ≤ key b).trans
    (h.trans (l'.perm_insertionSort fun a b => key a ≤ key b).symm)
  have hlt := List.pairwise_map.mp (pairwise_lt_insertionSort key hkeys)
  have hlt' := List.pairwise_map.mp (pairwise_lt_insertionSort key hkeys')
  refine List.Perm.eq_of_pairwise ?_ hlt hlt' hperm
  exact fun a b _ _ hab hba => absurd hba (lt_asymm hab)

theorem insertionSort_le_eq_of_perm {l l' : List κ} (h : l.Perm l') :
    l.insertionSort (· ≤ ·) = l'.insertionSort (· ≤ ·) := by
  have hperm := (l.perm_insertionSort (· ≤ ·)).trans
    (h.trans (l'.perm_insertionSort (· ≤ ·)).symm)
  exact hperm.eq_of_pairwise' (l.pairwise_insertionSort _) (l'.pairwise_insertionSort _)

end KeySort
