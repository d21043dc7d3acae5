import Mathlib
import Anchor.Library.Checks
import Anchor.Library.SecretSharing
import Anchor.SsvTypes.MsgId

/-!
# Combining partial signatures

Partial signatures are combined by Lagrange interpolation at zero, with the ids of
the operators as nodes.  What the curve library computes is a parameter, and the
facts assumed of it are stated apart: signatures are unique, and they are linear in
the key.
-/

namespace Anchor

/-- What the curve library provides: public keys are points of `P`, signatures of
type `S` hold points of `G` or none. -/
structure Bls (P G S : Type) where
  decompress : PublicKeyBytes → Option P
  point : S → Option G
  fromPoint : G → S
  verifyPoint : P → Hash256 → G → Bool

namespace BlsLagrange

inductive Error where
  | internalError
  | invalidThreshold
  | lessThanTwoSignatures
  | notOneIdPerSignature
  | zeroId
  | zeroKey
  | repeatedId
  | invalidSignature
deriving DecidableEq

/-- The id of a key share; it is not zero, the node of the secret itself. -/
structure KeyId where
  num : UInt64
  ne_zero : num ≠ 0

namespace KeyId

def tryFrom (value : UInt64) : Except Error KeyId :=
  if h : value ≠ 0 then .ok ⟨value, h⟩ else .error .zeroId

def scalar {F : Type} [Field F] (id : KeyId) : F := (id.num.toNat : F)

end KeyId

theorem eraseIdx_eq_filter {α : Type} [DecidableEq α] {xs : List α} (hnodup : xs.Nodup)
    {e : α × ℕ} (he : e ∈ xs.zipIdx) :
    xs.eraseIdx e.2 = xs.filter (· ≠ e.1) := by
  obtain ⟨hlt, hget⟩ := List.mem_zipIdx' he
  have herase : xs.erase xs[e.2] = xs.eraseIdx e.2 := hnodup.erase_getElem e.2 hlt
  rw [← herase, ← hget, hnodup.erase_eq_filter]
  apply List.filter_congr
  intro x _
  rw [bne, beq_eq_decide, decide_not]

section Coefficients

variable {F : Type} [Field F] [DecidableEq F]

def numerator (product : F) : List F → Except Error F
  | [] => .ok product
  | x :: xs => if product * x = 0 then .error .zeroId else numerator (product * x) xs

/-- `x_i * (x_0 - x_i) * (x_1 - x_i) * ...` -/
def denominator (x product : F) : List F → Except Error F
  | [] => .ok product
  | y :: ys => if y - x = 0 then .error .repeatedId else denominator x (product * (y - x)) ys

def lagrangeCoefficients (ids : List F) : Except Error (List F) :=
  match ids with
  | [] => .error .internalError
  | first :: rest => do
      let numerator ← numerator first rest
      Checks.mapAll (fun e => (denominator e.1 e.1 (ids.eraseIdx e.2)).map (·⁻¹ * numerator))
        ids.zipIdx

theorem numerator_eq {product : F} {xs : List F} (hproduct : product ≠ 0) (h : (0 : F) ∉ xs) :
    numerator product xs = .ok (product * xs.prod) := by
  induction xs generalizing product with
  | nil => simp [numerator]
  | cons x xs ih =>
    obtain ⟨hx, hxs⟩ := not_or.mp (List.mem_cons.not.mp h)
    have hne : product * x ≠ 0 := mul_ne_zero hproduct (Ne.symm hx)
    rw [numerator, if_neg hne, ih hne hxs, List.prod_cons, mul_assoc]

theorem denominator_eq {x product : F} {ys : List F} (h : x ∉ ys) :
    denominator x product ys = .ok (product * (ys.map (· - x)).prod) := by
  induction ys generalizing product with
  | nil => simp [denominator]
  | cons y ys ih =>
    obtain ⟨hy, hys⟩ := not_or.mp (List.mem_cons.not.mp h)
    rw [denominator, if_neg (sub_ne_zero.mpr (Ne.symm hy)), ih hys, List.map_cons,
      List.prod_cons, mul_assoc]

theorem lagrangeCoefficients_eq {ids : List F} (hne : ids ≠ []) (hnodup : ids.Nodup)
    (hzero : (0 : F) ∉ ids) :
    lagrangeCoefficients ids = .ok (ids.map (SecretSharing.weight ids)) := by
  obtain ⟨first, rest, rfl⟩ := List.exists_cons_of_ne_nil hne
  obtain ⟨hfirst, hrest⟩ := not_or.mp (List.mem_cons.not.mp hzero)
  have heach : ∀ e ∈ (first :: rest).zipIdx,
      (denominator e.1 e.1 ((first :: rest).eraseIdx e.2)).map (·⁻¹ * (first * rest.prod)) =
        .ok (SecretSharing.weight (first :: rest) e.1) := by
    intro e he
    have hnot : e.1 ∉ (first :: rest).filter (· ≠ e.1) := by simp
    rw [eraseIdx_eq_filter hnodup he, denominator_eq hnot]
    simp only [Except.map, SecretSharing.weight, List.prod_cons]
  simp only [lagrangeCoefficients, numerator_eq (Ne.symm hfirst) hrest]
  change Checks.mapAll _ _ = _
  rw [Checks.mapAll_of_forall heach]
  exact congrArg Except.ok ((List.map_map (g := SecretSharing.weight _) (f := Prod.fst)).symm.trans
    (congrArg (List.map _) (List.zipIdx_map_fst 0 _)))

end Coefficients

end BlsLagrange

namespace Bls

open BlsLagrange

variable {F P G S : Type} [Field F] [AddCommGroup P] [Module F P] [AddCommGroup G] [Module F G]
  (bls : Bls P G S)

def verify (publicKey : P) (root : Hash256) (signature : S) : Bool :=
  (bls.point signature).any (bls.verifyPoint publicKey root)

def combineSignatures (F : Type) [Field F] [DecidableEq F] [Module F G] (signatures : List S)
    (ids : List KeyId) : Except Error S :=
  if signatures.length < 2 then .error .lessThanTwoSignatures
  else if signatures.length ≠ ids.length then .error .notOneIdPerSignature
  else do
    let points ← Checks.mapAll
      (fun signature => (bls.point signature).elim (.error .invalidSignature) .ok) signatures
    let d ← lagrangeCoefficients (ids.map (KeyId.scalar (F := F)))
    return bls.fromPoint (List.zipWith (fun (c : F) (g : G) => c • g) d points).sum

/-- What is assumed of the curve library: ids are distinct scalars, the encoding of a
point is unique, and the signature of a key is the key times the hashed root. -/
structure Lawful (F : Type) [Field F] [Module F P] [Module F G] (generator : P)
    (hashToCurve : Hash256 → G) : Prop where
  scalar_injective : ∀ a b : UInt64, (a.toNat : F) = b.toNat → a = b
  point_fromPoint : ∀ g, bls.point (bls.fromPoint g) = some g
  fromPoint_point : ∀ s g, bls.point s = some g → bls.fromPoint g = s
  verifyPoint_iff : ∀ (k : F) root g,
    bls.verifyPoint (k • generator) root g = true ↔ g = k • hashToCurve root

namespace Lawful

variable {bls : Bls P G S} {generator : P} {hashToCurve : Hash256 → G}

theorem verify_iff (h : bls.Lawful F generator hashToCurve) (k : F) (root : Hash256)
    (s : S) : bls.verify (k • generator) root s = true ↔
      bls.point s = some (k • hashToCurve root) := by
  unfold verify
  cases hpoint : bls.point s with
  | none => simp
  | some g => simp [h.verifyPoint_iff]

theorem eq_of_verify (h : bls.Lawful F generator hashToCurve) {k : F} {root : Hash256}
    {s s' : S} (hs : bls.verify (k • generator) root s = true)
    (hs' : bls.verify (k • generator) root s' = true) : s = s' := by
  rw [h.verify_iff] at hs hs'
  rw [← h.fromPoint_point _ _ hs, ← h.fromPoint_point _ _ hs']

end Lawful

open Polynomial in
/-- Valid shares of enough operators combine to the signature of the shared key. -/
theorem verify_combineSignatures [DecidableEq F] {bls : Bls P G S} {generator : P}
    {hashToCurve : Hash256 → G} (h : bls.Lawful F generator hashToCurve) {p : F[X]}
    {root : Hash256} {shares : List (KeyId × S)} (htwo : 2 ≤ shares.length)
    (hdegree : p.degree < shares.length)
    (hnodup : (shares.map fun e => e.1.num).Nodup)
    (hvalid : ∀ e ∈ shares, bls.verify (p.eval e.1.scalar • generator) root e.2 = true) :
    ∃ s, bls.combineSignatures F (shares.map Prod.snd) (shares.map Prod.fst) = .ok s ∧
      bls.verify (p.eval 0 • generator) root s = true := by
  let node : KeyId × S → F := fun e => e.1.scalar
  let value : KeyId × S → G := fun e => p.eval (node e) • hashToCurve root
  have hne : shares ≠ [] := List.ne_nil_of_length_pos (by omega)
  have hnodes : (shares.map node).Nodup := by
    refine List.Nodup.of_map (fun x : F => x) ?_
    rw [List.map_map]
    exact (List.nodup_map_iff_inj_on (hnodup.of_map _)).mpr fun a ha b hb hab =>
      List.inj_on_of_nodup_map hnodup ha hb (h.scalar_injective _ _ hab)
  have hzero : (0 : F) ∉ shares.map node := by
    intro hmem
    obtain ⟨e, -, he⟩ := List.mem_map.mp hmem
    exact e.1.ne_zero (h.scalar_injective _ 0 (by simpa [node, KeyId.scalar] using he))
  have hpoints : Checks.mapAll
      (fun signature => (bls.point signature).elim (.error Error.invalidSignature) .ok)
      (shares.map Prod.snd) = .ok (shares.map value) := by
    rw [Checks.mapAll_map]
    apply Checks.mapAll_of_forall
    intro e he
    rw [(h.verify_iff _ _ _).mp (hvalid e he)]
    rfl
  have hcoefficients : lagrangeCoefficients (shares.map node) =
      .ok ((shares.map node).map (SecretSharing.weight (shares.map node))) :=
    lagrangeCoefficients_eq (by simpa using hne) hnodes hzero
  have hsum : (List.zipWith (fun (c : F) (g : G) => c • g)
      ((shares.map node).map (SecretSharing.weight (shares.map node))) (shares.map value)).sum =
        p.eval 0 • hashToCurve root := by
    have hfst : (shares.map fun e => (node e, value e)).map Prod.fst = shares.map node := by
      rw [List.map_map]
      rfl
    have hcombine : SecretSharing.combine (shares.map fun e => (node e, value e)) =
        p.eval 0 • hashToCurve root := by
      apply SecretSharing.combine_eq_eval_zero
      · rwa [hfst]
      · rwa [hfst]
      · simpa using hdegree
      · intro q hq
        obtain ⟨e, -, rfl⟩ := List.mem_map.mp hq
        rfl
    rw [← hcombine, SecretSharing.combine]
    simp only [List.map_map, List.zipWith_map, List.zipWith_self]
    rfl
  refine ⟨bls.fromPoint (p.eval 0 • hashToCurve root), ?_, ?_⟩
  · simp only [combineSignatures, List.length_map]
    rw [if_neg (by omega), if_neg (by simp), hpoints]
    rw [List.map_map]
    change (do let d ← lagrangeCoefficients (shares.map node); return _) = _
    rw [hcoefficients]
    exact congrArg (fun g => Except.ok (bls.fromPoint g)) hsum
  · rw [h.verify_iff]
    exact h.point_fromPoint _

end Bls

end Anchor
