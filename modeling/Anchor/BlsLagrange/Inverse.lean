import Mathlib
import Anchor.Keysplit.RoundTrip

/-!
# Splitting and combining are inverse

The curve library reports a result that is zero, and some places of the source assert that
there is none.  Signatures of the shares of a key combine to the signature of the key, and no
assertion fails on the way.  The check of share public keys accepts exactly those of one
polynomial, whatever their order.
-/

namespace Anchor

open BlsLagrange Polynomial

variable {F : Type} [Field F]

namespace BlsKeys

variable {P G S : Type} [AddCommGroup P] [Module F P] {bls : BlsKeys F P G S}

theorem map_sharePoint {q : F[X]} {points : List (KeyId × P)}
    (h : ∀ e ∈ points, bls.sharePoint q e.1 = e) :
    (points.map Prod.fst).map (bls.sharePoint q) = points := by
  rw [List.map_map]
  exact (List.map_congr_left h).trans (List.map_id _)

variable [AddCommGroup G] [Module F G]

theorem Lawful.exists_sharePoint (h : bls.Lawful) (hspan : ∀ x : P, ∃ k : F, bls.publicKey k = x)
    {points : List (KeyId × P)} (hnodup : (points.map fun q => q.1.num).Nodup) :
    ∃ q : F[X], q.degree < points.length ∧ ∀ e ∈ points, bls.sharePoint q e.1 = e := by
  classical
  choose log hlog using hspan
  have hinj : Set.InjOn (fun e : KeyId × P => (e.1.scalar : F)) points.toFinset := by
    intro a ha b hb hab
    exact List.inj_on_of_nodup_map hnodup (List.mem_toFinset.mp ha) (List.mem_toFinset.mp hb)
      (h.scalar_injective _ _ hab)
  refine ⟨Lagrange.interpolate points.toFinset (fun e => e.1.scalar) fun e => log e.2, ?_, ?_⟩
  · refine (Lagrange.degree_interpolate_lt _ hinj).trans_le ?_
    exact_mod_cast List.toFinset_card_le points
  · intro e he
    rw [sharePoint, Lagrange.eval_interpolate_at_node _ hinj (List.mem_toFinset.mpr he), hlog]

theorem Lawful.publicKey_injective (h : bls.Lawful) : Function.Injective bls.publicKey :=
  fun a b hab => by
    have hsub : (a - b) • bls.generator = 0 := by
      rw [sub_smul]
      exact sub_eq_zero.mpr hab
    exact sub_eq_zero.mp ((smul_eq_zero.mp hsub).resolve_right h.generator_ne_zero)

end BlsKeys

variable [DecidableEq F]

namespace BlsLagrange

/-- What `lagrange_coefficients` asserts: neither a denominator, after any of its factors, nor a
coefficient is zero. -/
def AssertionsHold (ids : List F) : Prop :=
  (∀ e ∈ ids.zipIdx, ∀ k, denominator e.1 e.1 ((ids.eraseIdx e.2).take k) ≠ .ok 0) ∧
    ∀ d, lagrangeCoefficients ids = .ok d → (0 : F) ∉ d

theorem assertionsHold_of_nodup {ids : List F} (hne : ids ≠ []) (hnodup : ids.Nodup)
    (hzero : (0 : F) ∉ ids) : AssertionsHold ids := by
  have hproduct : ∀ x ∈ ids, ∀ ys : List F, x ∉ ys → x * (ys.map (· - x)).prod ≠ 0 := by
    intro x hx ys hys
    refine mul_ne_zero (ne_of_mem_of_not_mem hx hzero) (List.prod_ne_zero fun hmem => ?_)
    obtain ⟨y, hy, hsub⟩ := List.mem_map.mp hmem
    exact hys (sub_eq_zero.mp hsub ▸ hy)
  constructor
  · intro e he k
    have hnot : e.1 ∉ (ids.eraseIdx e.2).take k := fun hmem => by
      simpa [eraseIdx_eq_filter hnodup he] using List.mem_of_mem_take hmem
    rw [denominator_eq hnot, ne_eq, Except.ok.injEq]
    exact hproduct e.1 (List.fst_mem_of_mem_zipIdx he) _ hnot
  · intro d hd hmem
    rw [lagrangeCoefficients_eq hne hnodup hzero] at hd
    cases hd
    obtain ⟨x, hx, hweight⟩ := List.mem_map.mp hmem
    exact mul_ne_zero (inv_ne_zero (hproduct x hx _ (by simp))) (List.prod_ne_zero hzero) hweight

end BlsLagrange

namespace BlsKeys

variable {P G S : Type} [AddCommGroup P] [Module F P] [AddCommGroup G] [Module F G]
  {bls : BlsKeys F P G S}

/-- Split a key, let any threshold of the shares sign, in any order, and combine: this is the
signature of the key. -/
theorem Lawful.combine_split (h : bls.Lawful) (key : F) (threshold : ℕ) (ids : List KeyId)
    (random : ℕ → Fˣ) (hkey : key ≠ 0) (hthreshold : 2 ≤ threshold)
    (hnodup : (ids.map KeyId.num).Nodup)
    (hvalues : ∀ id ∈ ids, NonVanishing (coefficients key threshold random) (id.scalar : F)) :
    ∃ shares, splitWithRng key threshold ids random = .ok shares ∧ shares.map Prod.fst = ids ∧
      ∀ quorum : List (KeyId × F), (∀ e ∈ quorum, e ∈ shares) → quorum.Nodup →
        threshold ≤ quorum.length → ∀ root,
        bls.combineSignatures F (quorum.map fun e => bls.sign e.2 root) (quorum.map Prod.fst) =
            .ok (bls.sign key root) ∧
          AssertionsHold (quorum.map fun e => (e.1.scalar : F)) := by
  refine ⟨_, splitWithRng_of_nonVanishing hthreshold hkey fun id hid =>
    ⟨h.scalar_ne_zero id, hvalues id hid⟩, by simp [Function.comp_def], ?_⟩
  intro quorum hmem hquorum hlength root
  have hshare : ∀ e ∈ quorum, e.1 ∈ ids ∧
      e.2 = (SecretSharing.ofCoefficients (coefficients key threshold random)).eval e.1.scalar := by
    intro e he
    obtain ⟨id, hid, rfl⟩ := List.mem_map.mp (hmem e he)
    exact ⟨hid, (SecretSharing.eval_ofCoefficients _ _).symm⟩
  have hids : ((quorum.map Prod.fst).map KeyId.num).Nodup := by
    rw [List.map_map]
    refine hquorum.map_on fun a ha b hb hab => ?_
    have hid := List.inj_on_of_nodup_map hnodup (hshare a ha).1 (hshare b hb).1 hab
    exact Prod.ext hid (by rw [(hshare a ha).2, (hshare b hb).2, hid])
  constructor
  · have hcombine := h.combineSignatures_sign
      (p := SecretSharing.ofCoefficients (coefficients key threshold random))
      (by rw [List.length_map]; omega) (by
        rw [List.length_map, degree_coefficients _ _ hthreshold]
        exact_mod_cast (show threshold - 1 < quorum.length by omega)) hids root
    rw [SecretSharing.eval_ofCoefficients, coefficients, SecretSharing.share_zero,
      List.map_map] at hcombine
    rw [← hcombine]
    refine congrArg (bls.combineSignatures F · _) (List.map_congr_left fun e he => ?_)
    rw [(hshare e he).2]
    rfl
  · have hnodes := h.nodup_scalar hids
    have hzero := h.zero_notMem_scalar (quorum.map Prod.fst)
    rw [List.map_map] at hnodes hzero
    refine assertionsHold_of_nodup ?_ hnodes hzero
    rw [ne_eq, List.map_eq_nil_iff, ← List.length_eq_zero_iff]
    omega

/-! ## Share public keys -/

section Exact

variable [DecidableEq P] {validatorPubkey : PublicKeyBytes}
  {shares : List (KeyId × PublicKeyBytes)} {threshold : ℕ}

/-- Accepted keys are those of one polynomial: the one through the base shares and the key. -/
theorem Lawful.exists_sharesOf (h : bls.Lawful) (hspan : ∀ x : P, ∃ k : F, bls.publicKey k = x)
    (hnodup : (shares.map fun e => e.1.num).Nodup)
    (hok : Bls.validateSharePublicKeys F bls.toBls validatorPubkey shares threshold = .ok ()) :
    ∃ p, bls.SharesOf p validatorPubkey shares threshold := by
  obtain ⟨⟨htwo, hle⟩, expected, points, hkey, hpoints, ⟨recovered, hbase, hmiss⟩, hrest⟩ :=
    Bls.validateSharePublicKeys_eq_ok_iff.mp hok
  have hlength := congrArg List.length hpoints
  have hids := congrArg (List.map fun e : KeyId × Option P => e.1.num) hpoints
  simp only [List.length_map, List.map_map, Function.comp_def] at hlength hids
  rw [← hids] at hnodup
  -- some points have a polynomial of their own, whose value at zero they give
  have hvalue : ∀ l : List (KeyId × P), l.Sublist points → l ≠ [] → ∃ q : F[X],
      q.degree < l.length ∧ (∀ e ∈ l, bls.sharePoint q e.1 = e) ∧
        Bls.interpolatePublicKey F l = .ok (bls.publicKey (q.eval 0)) := by
    intro l hl hne
    obtain ⟨q, hq, hqe⟩ := h.exists_sharePoint hspan (hnodup.sublist (hl.map _))
    refine ⟨q, hq, hqe, ?_⟩
    have hids : ((l.map Prod.fst).map KeyId.num).Nodup := by
      rw [List.map_map]
      exact hnodup.sublist (hl.map _)
    have heq := h.interpolate_eq (p := q) (by simpa using hne) hids (by simpa using hq)
    rwa [map_sharePoint hqe] at heq
  have htake : (points.take (threshold - 1)).length = threshold - 1 := by
    rw [List.length_take]
    omega
  obtain ⟨q, hq, hqe, hq0⟩ := hvalue _ (List.take_sublist (threshold - 1) points)
    (List.ne_nil_of_length_pos (by omega))
  obtain ⟨k, rfl⟩ := hspan expected
  have hqk : q.eval 0 ≠ k := by
    rintro rfl
    exact hmiss (Except.ok.inj (hbase.symm.trans hq0))
  let nodes : List F := ((points.take (threshold - 1)).map Prod.fst).map KeyId.scalar
  have hnodes : nodes.Nodup := h.nodup_scalar (by
    rw [List.map_map]
    exact hnodup.sublist ((List.take_sublist _ _).map _))
  have hcard : nodes.toFinset.card = threshold - 1 := by
    rw [List.toFinset_card_of_nodup hnodes, List.length_map, List.length_map, htake]
  have hnode : ∀ e ∈ points.take (threshold - 1), (e.1.scalar : F) ∈ nodes.toFinset := fun e he =>
    List.mem_toFinset.mpr (List.mem_map_of_mem (List.mem_map_of_mem he))
  have hzero : (0 : F) ∉ nodes.toFinset := List.mem_toFinset.not.mpr (h.zero_notMem_scalar _)
  obtain ⟨p, hp, hp0, hpe⟩ :=
    SecretSharing.exists_eval_zero_eq hzero (by rwa [hcard, ← htake]) hqk
  have hall : ∀ e ∈ points, bls.sharePoint p e.1 = e := by
    intro e he
    rw [← List.take_append_drop (threshold - 1) points, List.mem_append] at he
    rcases he with he | he
    · rw [sharePoint, hpe _ (hnode e he)]
      exact hqe e he
    -- the polynomial of the base and this share has the same values
    have hsublist : (points.take (threshold - 1) ++ [e]).Sublist points := by
      conv_rhs => rw [← List.take_append_drop (threshold - 1) points]
      exact (List.Sublist.refl _).append (List.singleton_sublist.mpr he)
    obtain ⟨r, hr, hre, hr0⟩ := hvalue _ hsublist (by simp)
    have hrk := h.publicKey_injective (Except.ok.inj (hr0.symm.trans (hrest e he)))
    have hcard' : (insert 0 nodes.toFinset).card = threshold - 1 + 1 := by
      rw [Finset.card_insert_of_notMem hzero, hcard]
    have hpr : p = r := by
      refine eq_of_degrees_lt_of_eval_finset_eq (insert 0 nodes.toFinset) ?_ ?_ fun x hx => ?_
      · rw [hp, hcard, hcard']
        exact_mod_cast Nat.lt_succ_self _
      · rwa [hcard', ← htake, ← List.length_singleton (a := e), ← List.length_append]
      · rcases Finset.mem_insert.mp hx with rfl | hx
        · rw [hp0, hrk]
        · rw [hpe x hx]
          obtain ⟨id, hid, rfl⟩ := List.mem_map.mp (List.mem_toFinset.mp hx)
          obtain ⟨e', he', rfl⟩ := List.mem_map.mp hid
          have hsame := (hqe e' he').trans (hre e' (List.mem_append_left _ he')).symm
          exact h.publicKey_injective (congrArg Prod.snd hsame)
    rw [hpr]
    exact hre e (by simp)
  refine ⟨p, by rw [hp, hcard], by rw [hp0]; exact hkey, fun e he => ?_⟩
  have hmem := List.mem_map_of_mem (f := fun e => (e.1, bls.decompress e.2)) he
  rw [← hpoints] at hmem
  obtain ⟨x, hx, heq⟩ := List.mem_map.mp hmem
  obtain ⟨hid, hdecode⟩ := Prod.mk.inj heq
  rw [← hdecode, ← hid, ← congrArg Prod.snd (hall x hx)]
  rfl

variable (validatorPubkey shares threshold) in
/-- The check accepts exactly the keys of one polynomial of degree `threshold - 1`.  Then every
threshold of the shares gives the key and one share less does not, and the order of the list does
not matter. -/
theorem Lawful.share_public_keys_exact (h : bls.Lawful)
    (hspan : ∀ x : P, ∃ k : F, bls.publicKey k = x)
    (hpoint : ∀ bytes x, bls.decompress bytes = some x → x ≠ 0)
    (hnodup : (shares.map fun e => e.1.num).Nodup) :
    (Bls.validateSharePublicKeys F bls.toBls validatorPubkey shares threshold = .ok () ↔
      (2 ≤ threshold ∧ threshold ≤ shares.length) ∧ ∃ p,
        bls.SharesOf p validatorPubkey shares threshold ∧ bls.publicKey (p.eval 0) ≠ 0 ∧
          ∀ e ∈ shares, bls.publicKey (p.eval e.1.scalar) ≠ 0) ∧
    (Bls.validateSharePublicKeys F bls.toBls validatorPubkey shares threshold = .ok () →
      ∃ expected, bls.decompress validatorPubkey = some expected ∧
        ∀ points : List (KeyId × P), points.Nodup →
          (∀ q ∈ points, ∃ e ∈ shares, q.1 = e.1 ∧ bls.decompress e.2 = some q.2) →
          (points.length = threshold → Bls.interpolatePublicKey F points = .ok expected) ∧
          (points.length = threshold - 1 →
            ∃ x, Bls.interpolatePublicKey F points = .ok x ∧ x ≠ expected)) ∧
    ∀ shares' : List (KeyId × PublicKeyBytes), shares'.Perm shares →
      (Bls.validateSharePublicKeys F bls.toBls validatorPubkey shares' threshold = .ok () ↔
        Bls.validateSharePublicKeys F bls.toBls validatorPubkey shares threshold = .ok ()) := by
  have hiff : ∀ shares' : List (KeyId × PublicKeyBytes), shares'.Perm shares →
      (Bls.validateSharePublicKeys F bls.toBls validatorPubkey shares' threshold = .ok () ↔
        (2 ≤ threshold ∧ threshold ≤ shares.length) ∧ ∃ p,
          bls.SharesOf p validatorPubkey shares threshold) := by
    intro shares' hperm
    have hnodup' := (hperm.map fun e => e.1.num).nodup_iff.mpr hnodup
    rw [← hperm.length_eq]
    constructor
    · intro hok
      obtain ⟨p, hp⟩ := h.exists_sharesOf hspan hnodup' hok
      exact ⟨(Bls.validateSharePublicKeys_eq_ok_iff.mp hok).1, p, hp.degree, hp.key,
        fun e he => hp.share e (hperm.mem_iff.mpr he)⟩
    · rintro ⟨⟨htwo, hle⟩, p, hp⟩
      exact SharesOf.validateSharePublicKeys_eq_ok
        ⟨hp.degree, hp.key, fun e he => hp.share e (hperm.mem_iff.mp he)⟩ h htwo hle hnodup'
  refine ⟨(hiff shares (.refl _)).trans (and_congr_right' (exists_congr fun p => ?_)), ?_, ?_⟩
  · exact ⟨fun hp => ⟨hp, hpoint _ _ hp.key, fun e he => hpoint _ _ (hp.share e he)⟩,
      fun hp => hp.1⟩
  · intro hok
    obtain ⟨⟨htwo, -⟩, p, hp⟩ := (hiff shares (.refl _)).mp hok
    refine ⟨_, hp.key, fun points hpoints hmem => ?_⟩
    have hshare : ∀ q ∈ points, (∃ e ∈ shares, q.1 = e.1) ∧ bls.sharePoint p q.1 = q := by
      intro q hq
      obtain ⟨e, he, hid, hdecode⟩ := hmem q hq
      rw [hp.share e he, Option.some.injEq, ← hid] at hdecode
      exact ⟨⟨e, he, hid⟩, Prod.ext rfl hdecode⟩
    have hids : ((points.map Prod.fst).map KeyId.num).Nodup := by
      rw [List.map_map]
      refine hpoints.map_on fun a ha b hb hab => ?_
      obtain ⟨⟨e, he, hae⟩, hshareA⟩ := hshare a ha
      obtain ⟨⟨e', he', hbe⟩, hshareB⟩ := hshare b hb
      have heq : e = e' := List.inj_on_of_nodup_map hnodup he he' (by rw [← hae, ← hbe]; exact hab)
      rw [← hshareA, ← hshareB, hae, hbe, heq]
    have hmap := map_sharePoint fun q hq => (hshare q hq).2
    constructor
    · intro hlength
      have heq := h.interpolate_eq (p := p) ?_ hids ?_
      · rwa [hmap] at heq
      · rw [ne_eq, List.map_eq_nil_iff, ← List.length_eq_zero_iff]
        omega
      · rw [hp.degree, List.length_map, hlength]
        exact_mod_cast (show threshold - 1 < threshold by omega)
    · intro hlength
      have hne := h.interpolate_ne (p := p) ?_ hids ?_
      · rwa [hmap] at hne
      · rw [ne_eq, List.map_eq_nil_iff, ← List.length_eq_zero_iff]
        omega
      · rw [hp.degree, List.length_map, hlength]
  · intro shares' hperm
    exact (hiff shares' hperm).trans (hiff shares (.refl _)).symm

end Exact

end BlsKeys

namespace Keysplit.Sample

def keyIds : List KeyId := ([1, 2, 3, 9].map KeyId.tryFrom).filterMap Except.toOption

/-- All shares but the first one sign, the last one first. -/
theorem combine_split_last :
    ∃ shares, splitWithRng (7 : Scalar) 3 keyIds (fun _ => 1) = .ok shares ∧ ∀ root,
      curve.combineSignatures Scalar ((shares.drop 1).reverse.map fun e => curve.sign e.2 root)
        ((shares.drop 1).reverse.map Prod.fst) = .ok (curve.sign 7 root) := by
  obtain ⟨shares, hsplit, hids, hcombine⟩ := lawful_curve.combine_split 7 3 keyIds
    (fun _ => 1) (by decide +kernel) (by decide) (by decide) (by decide +kernel)
  have hlength := congrArg List.length hids
  rw [List.length_map] at hlength
  have hnodup : shares.Nodup := List.Nodup.of_map (KeyId.num ∘ Prod.fst) (by
    rw [← List.map_map, hids]
    decide)
  refine ⟨shares, hsplit, fun root => (hcombine _ (fun e he => ?_) ?_ ?_ root).1⟩
  · exact List.mem_of_mem_drop (List.mem_reverse.mp he)
  · exact List.nodup_reverse.mpr (hnodup.sublist (List.drop_sublist _ _))
  · rw [List.length_reverse, List.length_drop, hlength]
    decide

/-- The shares of a polynomial of degree one. -/
theorem share_public_keys_exact_two :
    Bls.validateSharePublicKeys Scalar curve.toBls (curve.serializePublicKey (curve.publicKey 7))
      (keyIds.map fun id => (id, curve.serializePublicKey (curve.publicKey (id.scalar + 7)))) 2 =
      .ok () := by
  have hpoint : ∀ bytes x, curve.decompress bytes = some x → x ≠ 0 := by
    intro bytes x h
    simp only [curve] at h
    split_ifs at h with hzero
    cases h
    exact hzero
  have hkey : (7 : Scalar) ≠ 0 := by decide +kernel
  have hvalue : ∀ id ∈ keyIds, (id.scalar : Scalar) + 7 ≠ 0 := by decide +kernel
  refine (lawful_curve.share_public_keys_exact _ _ _ (fun x => ⟨x, mul_one x⟩) hpoint
    (by decide)).1.mpr ⟨by decide, X + C 7, ⟨?_, ?_, ?_⟩, ?_, ?_⟩
  · rw [degree_X_add_C]
    rfl
  · simpa using lawful_curve.decompress_publicKey hkey
  · intro e he
    obtain ⟨id, hid, rfl⟩ := List.mem_map.mp he
    simpa using lawful_curve.decompress_publicKey (hvalue id hid)
  · simpa using lawful_curve.publicKey_ne_zero hkey
  · intro e he
    obtain ⟨id, hid, rfl⟩ := List.mem_map.mp he
    simpa using lawful_curve.publicKey_ne_zero (hvalue id hid)

end Keysplit.Sample

end Anchor
