import Mathlib

/-!
# Sharing a secret by a polynomial

A secret is the value at zero of a polynomial, and a share is its value at a
node.  The value at zero is a fixed linear combination of the values at enough
distinct nodes, so it can be computed in any module over the field from the images
of the shares alone.
-/

namespace SecretSharing

open Polynomial

variable {F G : Type*} [Field F] [DecidableEq F] [AddCommGroup G] [Module F G]

/-- The weight of the value at the node `x` in the value at zero. -/
def weight (nodes : List F) (x : F) : F :=
  (x * ((nodes.filter (· ≠ x)).map (· - x)).prod)⁻¹ * nodes.prod

def combine (points : List (F × G)) : G :=
  (points.map fun p => weight (points.map Prod.fst) p.1 • p.2).sum

theorem weight_eq_eval_basis {nodes : List F} (hnodup : nodes.Nodup) (hzero : (0 : F) ∉ nodes)
    {x : F} (hx : x ∈ nodes) :
    weight nodes x = (Lagrange.basis nodes.toFinset id x).eval 0 := by
  have hfilter : (nodes.filter (· ≠ x)).Nodup := hnodup.filter _
  have hx0 : x ≠ 0 := fun h => hzero (h ▸ hx)
  have hnumerator : nodes.prod = x * ∏ y ∈ nodes.toFinset.erase x, y := by
    rw [Finset.mul_prod_erase _ (fun y => y) (List.mem_toFinset.mpr hx),
      List.prod_toFinset _ hnodup, List.map_id']
  have hdenominator : ((nodes.filter (· ≠ x)).map (· - x)).prod =
      ∏ y ∈ nodes.toFinset.erase x, (y - x) := by
    have herase : nodes.toFinset.erase x = (nodes.filter (· ≠ x)).toFinset := by
      ext y
      simp [and_comm]
    rw [herase, List.prod_toFinset _ hfilter]
  have hfactor : ∀ y ∈ nodes.toFinset.erase x,
      (Lagrange.basisDivisor (id x) (id y)).eval 0 = y * (y - x)⁻¹ := by
    intro y hy
    have hsub : x - y ≠ 0 := sub_ne_zero.mpr (Finset.ne_of_mem_erase hy).symm
    have hsub' : y - x ≠ 0 := sub_ne_zero.mpr (Finset.ne_of_mem_erase hy)
    simp only [Lagrange.basisDivisor, id_eq, eval_mul, eval_C, eval_sub, eval_X]
    field_simp
    ring
  rw [weight, hnumerator, hdenominator, Lagrange.basis, eval_prod, Finset.prod_congr rfl hfactor,
    Finset.prod_mul_distrib, Finset.prod_inv_distrib, mul_inv, mul_comm x⁻¹, mul_assoc,
    inv_mul_cancel_left₀ hx0, mul_comm]

theorem sum_weight_mul_eval {nodes : List F} (hnodup : nodes.Nodup) (hzero : (0 : F) ∉ nodes)
    {p : F[X]} (hdegree : p.degree < nodes.length) :
    (nodes.map fun x => weight nodes x * p.eval x).sum = p.eval 0 := by
  have hcard : nodes.toFinset.card = nodes.length := List.toFinset_card_of_nodup hnodup
  have hinterpolate : p = Lagrange.interpolate nodes.toFinset id fun x => p.eval (id x) := by
    apply Lagrange.eq_interpolate (Set.injOn_id _)
    rw [hcard]
    exact hdegree
  calc (nodes.map fun x => weight nodes x * p.eval x).sum
      = ∑ x ∈ nodes.toFinset, weight nodes x * p.eval x := (List.sum_toFinset _ hnodup).symm
    _ = ∑ x ∈ nodes.toFinset, p.eval x * (Lagrange.basis nodes.toFinset id x).eval 0 := by
        apply Finset.sum_congr rfl
        intro x hx
        rw [weight_eq_eval_basis hnodup hzero (List.mem_toFinset.mp hx), mul_comm]
    _ = (Lagrange.interpolate nodes.toFinset id fun x => p.eval (id x)).eval 0 := by
        simp only [Lagrange.interpolate_apply, eval_finsetSum, eval_mul, eval_C, id_eq]
    _ = p.eval 0 := by rw [← hinterpolate]

/-- Shares of one polynomial combine to the secret, whichever and however many they are,
as soon as there are more than the degree. -/
theorem combine_eq_eval_zero {points : List (F × G)} {p : F[X]} {g : G}
    (hnodup : (points.map Prod.fst).Nodup) (hzero : (0 : F) ∉ points.map Prod.fst)
    (hdegree : p.degree < points.length) (hpoints : ∀ q ∈ points, q.2 = p.eval q.1 • g) :
    combine points = p.eval 0 • g := by
  have hlength : p.degree < (points.map Prod.fst).length := by simpa using hdegree
  rw [← sum_weight_mul_eval hnodup hzero hlength, List.sum_smul, List.map_map, List.map_map]
  unfold combine
  congr 1
  apply List.map_congr_left
  intro q hq
  rw [hpoints q hq, smul_smul]
  rfl

/-- One share less does not give the secret: the polynomial of that degree through the other
shares misses it by a multiple of the product of the nodes. -/
theorem combine_ne_eval_zero {points : List (F × G)} {p : F[X]} {g : G} (hg : g ≠ 0)
    (hnodup : (points.map Prod.fst).Nodup) (hzero : (0 : F) ∉ points.map Prod.fst)
    (hdegree : p.degree = points.length) (hpoints : ∀ q ∈ points, q.2 = p.eval q.1 • g) :
    combine points ≠ p.eval 0 • g := by
  set nodes := (points.map Prod.fst).toFinset with hnodes
  have hcard : nodes.card = points.length := by
    rw [hnodes, List.toFinset_card_of_nodup hnodup, List.length_map]
  have hp : p ≠ 0 := by
    rintro rfl
    cases hdegree
  let r : F[X] := p - C p.leadingCoeff * Lagrange.nodal nodes id
  have hr : r.degree < points.length := by
    have hsame : p.degree = (C p.leadingCoeff * Lagrange.nodal nodes id).degree := by
      rw [degree_C_mul (leadingCoeff_ne_zero.mpr hp), Lagrange.degree_nodal, hcard, hdegree]
    rw [← hdegree]
    apply degree_sub_lt_left hsame hp
    rw [leadingCoeff_mul, leadingCoeff_C, (Lagrange.nodal_monic).leadingCoeff, mul_one]
  have heval : ∀ q ∈ points, q.2 = r.eval q.1 • g := by
    intro q hq
    have hnode : q.1 ∈ nodes := List.mem_toFinset.mpr (List.mem_map_of_mem hq)
    have hroot : (Lagrange.nodal nodes id).eval q.1 = 0 :=
      Lagrange.eval_nodal_at_node (v := id) hnode
    rw [hpoints q hq, eval_sub, eval_mul, hroot, mul_zero, sub_zero]
  have hmiss : p.leadingCoeff * (Lagrange.nodal nodes id).eval 0 ≠ 0 := by
    refine mul_ne_zero (leadingCoeff_ne_zero.mpr hp) ?_
    rw [Lagrange.eval_nodal, Finset.prod_ne_zero_iff]
    intro x hx hsub
    rw [id_eq, zero_sub, neg_eq_zero] at hsub
    exact hzero (hsub ▸ List.mem_toFinset.mp hx)
  intro heq
  rw [combine_eq_eval_zero hnodup hzero hr heval, eval_sub, eval_mul, eval_C, sub_smul,
    sub_eq_self] at heq
  exact (smul_ne_zero hmiss hg) heq

theorem exists_eval_zero_eq {nodes : Finset F} (hzero : (0 : F) ∉ nodes) {q : F[X]}
    (hq : q.degree < nodes.card) {k : F} (hk : q.eval 0 ≠ k) :
    ∃ p : F[X], p.degree = nodes.card ∧ p.eval 0 = k ∧ ∀ x ∈ nodes, p.eval x = q.eval x := by
  let value : F → F := fun x => if x = 0 then k else q.eval x
  have hinj : Set.InjOn id ((insert 0 nodes : Finset F) : Set F) := Set.injOn_id _
  have hvalue : ∀ x ∈ insert 0 nodes,
      (Lagrange.interpolate (insert 0 nodes) id value).eval x = value x := fun x hx =>
    Lagrange.eval_interpolate_at_node value hinj hx
  have heval : ∀ x ∈ nodes, (Lagrange.interpolate (insert 0 nodes) id value).eval x = q.eval x :=
    fun x hx => (hvalue x (Finset.mem_insert_of_mem hx)).trans
      (if_neg (ne_of_mem_of_not_mem hx hzero))
  have hkey := (hvalue 0 (Finset.mem_insert_self _ _)).trans (if_pos rfl)
  refine ⟨_, le_antisymm ?_ (not_lt.mp fun hlt => hk ?_), hkey, heval⟩
  · have hlt := Lagrange.degree_interpolate_lt value hinj
    rw [Finset.card_insert_of_notMem hzero] at hlt
    exact Order.le_of_lt_succ (by exact_mod_cast hlt)
  · rw [← hkey, eq_of_degrees_lt_of_eval_finset_eq nodes hlt hq heval]

/-! ## The polynomial of a list of coefficients -/

section Coefficients

omit [DecidableEq F]

noncomputable def ofCoefficients : List F → F[X]
  | [] => 0
  | c :: cs => C c + X * ofCoefficients cs

def share (coefficients : List F) (x : F) : F := coefficients.foldr (fun c y => c + x * y) 0

theorem eval_ofCoefficients (coefficients : List F) (x : F) :
    (ofCoefficients coefficients).eval x = share coefficients x := by
  induction coefficients with
  | nil => simp [ofCoefficients, share]
  | cons c cs ih =>
    rw [ofCoefficients, eval_add, eval_C, eval_mul, eval_X, ih]
    rfl

theorem share_zero (c : F) (cs : List F) : share (c :: cs) 0 = c := by
  simp [share]

theorem coeff_ofCoefficients (coefficients : List F) (i : ℕ) :
    (ofCoefficients coefficients).coeff i = coefficients.getD i 0 := by
  induction coefficients generalizing i with
  | nil => simp [ofCoefficients]
  | cons c cs ih =>
    cases i with
    | zero => simp [ofCoefficients]
    | succ i => simp [ofCoefficients, ih, coeff_C_succ]

theorem degree_ofCoefficients {cs : List F} {c : F} (hc : c ≠ 0) :
    (ofCoefficients (cs ++ [c])).degree = cs.length := by
  apply degree_eq_of_le_of_coeff_ne_zero
  · rw [degree_le_iff_coeff_zero]
    intro i hi
    have hlt : cs.length < i := by exact_mod_cast hi
    rw [coeff_ofCoefficients, List.getD_eq_default _ _ (by simpa using hlt)]
  · rw [coeff_ofCoefficients]
    simpa using hc

end Coefficients

end SecretSharing
