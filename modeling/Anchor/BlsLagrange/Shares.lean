import Mathlib
import Anchor.SignatureCollector.BlsLagrange

/-!
# Splitting a key and checking the public keys of its shares

A key is split by evaluating a polynomial with random coefficients at the ids of the
operators.  Whoever sees only public keys can check by interpolation that they belong
to the shares of one polynomial, of a degree that asks for a quorum and no less.
-/

namespace Anchor

/-- Secret keys are scalars of `F`; the curve library also encodes keys and signatures. -/
structure BlsKeys (F P G S : Type) extends Bls P G S where
  generator : P
  hashToCurve : Hash256 → G
  serializePublicKey : P → PublicKeyBytes
  serializeSignature : S → Ssz.FixedBytes 96
  deserializeSignature : Ssz.Bytes → Option S
  serializeSecretKey : F → Ssz.FixedBytes 32
  deserializeSecretKey : Ssz.FixedBytes 32 → Option F

namespace BlsKeys

variable {F P G S : Type} [Field F] [AddCommGroup P] [Module F P] [AddCommGroup G] [Module F G]
  (bls : BlsKeys F P G S)

def publicKey (key : F) : P := key • bls.generator

def sign (key : F) (root : Hash256) : S := bls.fromPoint (key • bls.hashToCurve root)

/-- What is assumed of the curve library: its arithmetic, and that what it encodes it can
decode.  It decodes neither the point at infinity nor the zero scalar. -/
structure Lawful : Prop extends bls.toBls.Lawful F bls.generator bls.hashToCurve where
  generator_ne_zero : bls.generator ≠ 0
  decompress_serialize : ∀ p, p ≠ 0 → bls.decompress (bls.serializePublicKey p) = some p
  deserialize_signature : ∀ s,
    bls.deserializeSignature (bls.serializeSignature s).toList = some s
  deserialize_secretKey : ∀ k, k ≠ 0 →
    bls.deserializeSecretKey (bls.serializeSecretKey k) = some k

variable {bls}

theorem Lawful.publicKey_ne_zero (h : bls.Lawful) {key : F} (hkey : key ≠ 0) :
    bls.publicKey key ≠ 0 :=
  smul_ne_zero hkey h.generator_ne_zero

theorem Lawful.decompress_publicKey (h : bls.Lawful) {key : F} (hkey : key ≠ 0) :
    bls.decompress (bls.serializePublicKey (bls.publicKey key)) = some (bls.publicKey key) :=
  h.decompress_serialize _ (h.publicKey_ne_zero hkey)

theorem Lawful.verify_sign (h : bls.Lawful) (key : F) (root : Hash256) :
    bls.verify (bls.publicKey key) root (bls.sign key root) = true :=
  (h.toLawful.verify_iff key root _).mpr (h.point_fromPoint _)

end BlsKeys

namespace BlsLagrange

/-! ## Splitting -/

inductive SplitError where
  | error (e : Error)
  | panicked
deriving DecidableEq

section Split

variable {F : Type} [Field F]

def coefficients (key : F) (threshold : ℕ) (random : ℕ → Fˣ) : List F :=
  key :: (List.range (threshold - 1)).map fun i => (random i : F)

variable {threshold : ℕ}

theorem coefficients_eq_concat (key : F) (random : ℕ → Fˣ) (h : 1 < threshold) :
    coefficients key threshold random =
      coefficients key (threshold - 1) random ++ [(random (threshold - 2) : F)] := by
  obtain ⟨t, rfl⟩ : ∃ t, threshold = t + 2 := ⟨threshold - 2, by omega⟩
  change key :: (List.range (t + 1)).map _ = _
  rw [List.range_succ, List.map_append]
  rfl

theorem degree_coefficients (key : F) (random : ℕ → Fˣ) (h : 1 < threshold) :
    (SecretSharing.ofCoefficients (coefficients key threshold random)).degree =
      ((threshold - 1 : ℕ) : WithBot ℕ) := by
  rw [coefficients_eq_concat key random h, SecretSharing.degree_ofCoefficients (Units.ne_zero _)]
  have hlength : (coefficients key (threshold - 1) random).length = threshold - 1 := by
    simp only [coefficients, List.length_cons, List.length_map, List.length_range]
    omega
  rw [hlength]

variable [DecidableEq F]

/-- `f(id)`, from the highest coefficient on; no intermediate value may be zero. -/
def evaluate (x : F) : List F → Except SplitError F
  | [] => .error .panicked
  | [c] => .ok c
  | c :: d :: ds =>
    match evaluate x (d :: ds) with
    | .error e => .error e
    | .ok y =>
      if y * x = 0 then .error (.error .zeroId)
      else if y * x + c = 0 then .error .panicked
      else .ok (y * x + c)

def splitWithRng (key : F) (threshold : ℕ) (ids : List KeyId) (random : ℕ → Fˣ) :
    Except SplitError (List (KeyId × F)) :=
  if threshold ≤ 1 then .error (.error .invalidThreshold)
  else if key = 0 then .error (.error .zeroKey)
  else
    Checks.mapAll
      (fun id => (evaluate id.scalar (coefficients key threshold random)).map (id, ·)) ids

theorem evaluate_ok {x v : F} {cs : List F} (h : evaluate x cs = .ok v) :
    v = SecretSharing.share cs x := by
  induction cs generalizing v with
  | nil => cases h
  | cons c cs ih =>
    cases cs with
    | nil =>
      cases h
      simp [SecretSharing.share]
    | cons d ds =>
      rw [evaluate] at h
      split at h
      · cases h
      · rename_i y hy
        split_ifs at h
        cases h
        rw [ih hy, mul_comm, add_comm]
        rfl

theorem ne_zero_of_evaluate {x v : F} {cs : List F} {c : F} (hc : c ≠ 0)
    (h : evaluate x (cs ++ [c]) = .ok v) : v ≠ 0 := by
  cases cs with
  | nil =>
    cases h
    exact hc
  | cons d ds =>
    obtain ⟨e, es, hes⟩ : ∃ e es, ds ++ [c] = e :: es :=
      List.exists_cons_of_ne_nil (List.append_ne_nil_of_right_ne_nil _ (List.cons_ne_nil _ _))
    rw [List.cons_append, hes, evaluate] at h
    split at h
    · cases h
    · split_ifs at h with _ hne
      cases h
      exact hne

def NonVanishing (cs : List F) (x : F) : Prop :=
  ∀ k < cs.length, SecretSharing.share (cs.drop k) x ≠ 0

instance (cs : List F) (x : F) : Decidable (NonVanishing cs x) :=
  inferInstanceAs (Decidable (∀ k < cs.length, SecretSharing.share (cs.drop k) x ≠ 0))

theorem evaluate_of_nonVanishing {x : F} (hx : x ≠ 0) {cs : List F} (hne : cs ≠ [])
    (h : NonVanishing cs x) : evaluate x cs = .ok (SecretSharing.share cs x) := by
  induction cs with
  | nil => exact absurd rfl hne
  | cons c cs ih =>
    cases cs with
    | nil => simp [evaluate, SecretSharing.share]
    | cons d ds =>
      have hrest : NonVanishing (d :: ds) x := fun k hk => h (k + 1) (Nat.succ_lt_succ hk)
      have hvalue : SecretSharing.share (d :: ds) x * x + c =
          SecretSharing.share (c :: d :: ds) x := by
        rw [mul_comm, add_comm]
        rfl
      have hmul : SecretSharing.share (d :: ds) x * x ≠ 0 :=
        mul_ne_zero (hrest 0 (Nat.succ_pos _)) hx
      rw [evaluate, ih (List.cons_ne_nil _ _) hrest]
      simp only [hvalue]
      have hshare : SecretSharing.share (c :: d :: ds) x ≠ 0 := h 0 (Nat.succ_pos _)
      rw [if_neg hmul, if_neg hshare]

theorem splitWithRng_ok {key : F} {ids : List KeyId} {random : ℕ → Fˣ}
    {shares : List (KeyId × F)} (h : splitWithRng key threshold ids random = .ok shares) :
    1 < threshold ∧ key ≠ 0 ∧
      shares = ids.map (fun id =>
        (id, SecretSharing.share (coefficients key threshold random) id.scalar)) ∧
      ∀ id ∈ ids, SecretSharing.share (coefficients key threshold random) id.scalar ≠ 0 := by
  unfold splitWithRng at h
  split_ifs at h with hthreshold hkey
  have hone : 1 < threshold := Nat.lt_of_not_le hthreshold
  refine ⟨hone, hkey, ?_, ?_⟩
  · have hmap := Checks.map_of_mapAll (g := id)
      (f := fun id : KeyId =>
        (id, SecretSharing.share (coefficients key threshold random) (id.scalar : F))) ?_ h
    · rwa [List.map_id] at hmap
    · intro id share hshare
      obtain ⟨v, hv, rfl⟩ := Checks.map_eq_ok_iff.mp hshare
      rw [evaluate_ok hv]
      rfl
  · intro id hid
    obtain ⟨share, hshare⟩ := Checks.exists_of_mapAll h id hid
    obtain ⟨v, hv, -⟩ := Checks.map_eq_ok_iff.mp hshare
    rw [← evaluate_ok hv]
    rw [coefficients_eq_concat key random hone] at hv
    exact ne_zero_of_evaluate (Units.ne_zero _) hv

theorem splitWithRng_of_nonVanishing {key : F} {ids : List KeyId}
    {random : ℕ → Fˣ} (hthreshold : 1 < threshold) (hkey : key ≠ 0)
    (hids : ∀ id ∈ ids, (id.scalar : F) ≠ 0 ∧
      NonVanishing (coefficients key threshold random) id.scalar) :
    splitWithRng key threshold ids random = .ok (ids.map fun id =>
      (id, SecretSharing.share (coefficients key threshold random) id.scalar)) := by
  rw [splitWithRng, if_neg (by omega), if_neg hkey]
  apply Checks.mapAll_of_forall
  intro id hid
  have hne : coefficients key threshold random ≠ [] := List.cons_ne_nil _ _
  rw [evaluate_of_nonVanishing (hids id hid).1 hne (hids id hid).2]
  rfl

end Split

end BlsLagrange

/-! ## Checking the public keys -/

namespace BlsLagrange

inductive SharePublicKeyError where
  | invalidThreshold (threshold shares : ℕ)
  | invalidValidatorPublicKey
  | invalidSharePublicKey (id : UInt64)
  | ids (e : Error)
  | degreeBelowThreshold
  | notReconstructed (id : UInt64)
deriving DecidableEq

end BlsLagrange

namespace Bls

open BlsLagrange

theorem decodeShares_eq_ok_iff {P G S : Type} {bls : Bls P G S}
    {shares : List (KeyId × PublicKeyBytes)} {points : List (KeyId × P)} :
    Checks.mapAll (fun e => (bls.decompress e.2).elim
        (.error (SharePublicKeyError.invalidSharePublicKey e.1.num)) fun p => .ok (e.1, p)) shares =
        .ok points ↔
      points.map (fun q => (q.1, some q.2)) = shares.map fun e => (e.1, bls.decompress e.2) := by
  constructor
  · refine Checks.map_of_mapAll fun e q hq => ?_
    cases hdecode : bls.decompress e.2 with
    | none => simp [hdecode] at hq
    | some x =>
      rw [hdecode] at hq
      cases hq
      rfl
  · intro h
    induction shares generalizing points with
    | nil => simp_all [Checks.mapAll]
    | cons e shares ih =>
      cases points with
      | nil => simp at h
      | cons q points =>
        rw [List.map_cons, List.map_cons, List.cons.injEq, Prod.mk.injEq] at h
        obtain ⟨⟨hid, hdecode⟩, hrest⟩ := h
        simp [Checks.mapAll, ← hdecode, ih hrest, ← hid]

section Validate

variable {P G S : Type} (F : Type) [Field F] [DecidableEq F] [AddCommGroup P] [Module F P]

def interpolatePublicKey (points : List (KeyId × P)) : Except Error P :=
  (lagrangeCoefficients (points.map fun e => (e.1.scalar : F))).map fun d =>
    (List.zipWith (fun (c : F) (p : P) => c • p) d (points.map Prod.snd)).sum

variable [DecidableEq P]

/-- `validate_share_public_keys` of `bls_lagrange`.  Public keys are decompressed as
`key_validate` does it. -/
def validateSharePublicKeys (bls : Bls P G S) (validatorPubkey : PublicKeyBytes)
    (shares : List (KeyId × PublicKeyBytes)) (threshold : ℕ) : Except SharePublicKeyError Unit :=
  if threshold < 2 ∨ shares.length < threshold then
    .error (.invalidThreshold threshold shares.length)
  else
    match bls.decompress validatorPubkey with
    | none => .error .invalidValidatorPublicKey
    | some expected =>
      match Checks.mapAll (fun e => (bls.decompress e.2).elim
          (.error (SharePublicKeyError.invalidSharePublicKey e.1.num)) fun p => .ok (e.1, p))
          shares with
      | .error e => .error e
      | .ok points =>
        let base := points.take (threshold - 1)
        match interpolatePublicKey F base with
        | .error e => .error (.ids e)
        | .ok recovered =>
          if recovered = expected then .error .degreeBelowThreshold
          else
            Checks.forEach (fun e =>
              match interpolatePublicKey F (base ++ [e]) with
              | .error err => .error (.ids err)
              | .ok recovered =>
                if recovered = expected then .ok ()
                else .error (.notReconstructed e.1.num))
              (points.drop (threshold - 1))

variable {F} {bls : Bls P G S} {shares : List (KeyId × PublicKeyBytes)}

theorem validateSharePublicKeys_eq_ok_iff {validatorPubkey : PublicKeyBytes} {threshold : ℕ} :
    validateSharePublicKeys F bls validatorPubkey shares threshold = .ok () ↔
      (2 ≤ threshold ∧ threshold ≤ shares.length) ∧
      ∃ (expected : P) (points : List (KeyId × P)),
        bls.decompress validatorPubkey = some expected ∧
        points.map (fun q => (q.1, some q.2)) = shares.map (fun e => (e.1, bls.decompress e.2)) ∧
        (∃ recovered, interpolatePublicKey F (points.take (threshold - 1)) = .ok recovered ∧
          recovered ≠ expected) ∧
        ∀ e ∈ points.drop (threshold - 1),
          interpolatePublicKey F (points.take (threshold - 1) ++ [e]) = .ok expected := by
  unfold validateSharePublicKeys
  split_ifs with hthreshold
  · simp only [false_iff]
    omega
  rw [and_iff_right (by omega)]
  cases bls.decompress validatorPubkey with
  | none => simp
  | some expected =>
    simp only [Option.some.injEq, exists_and_left, exists_eq_left', ← decodeShares_eq_ok_iff]
    split
    · simp_all
    rename_i points hpoints
    simp only [hpoints, Except.ok.injEq, exists_eq_left']
    cases interpolatePublicKey F (points.take (threshold - 1)) with
    | error e => simp
    | ok recovered =>
      by_cases hmiss : recovered = expected
      · simp [hmiss]
      simp only [hmiss, if_false, Checks.forEach_eq_ok_iff, Except.ok.injEq, exists_eq_left',
        ne_eq, not_false_eq_true, true_and]
      refine forall₂_congr fun e _ => ?_
      cases interpolatePublicKey F (points.take (threshold - 1) ++ [e]) with
      | error e => simp
      | ok recovered => simp

omit [DecidableEq P] in
theorem interpolatePublicKey_eq {points : List (KeyId × P)} (hne : points ≠ [])
    (hnodup : (points.map fun e => (e.1.scalar : F)).Nodup)
    (hzero : (0 : F) ∉ points.map fun e => (e.1.scalar : F)) :
    interpolatePublicKey F points =
      .ok (SecretSharing.combine (points.map fun e => ((e.1.scalar : F), e.2))) := by
  have hnodes : points.map (fun e => (e.1.scalar : F)) ≠ [] := by simpa using hne
  rw [interpolatePublicKey, lagrangeCoefficients_eq hnodes hnodup hzero]
  apply congrArg Except.ok
  unfold SecretSharing.combine
  simp only [List.map_map, List.zipWith_map, List.zipWith_self]
  rfl

end Validate

end Bls

namespace BlsKeys

open BlsLagrange Polynomial

variable {F P G S : Type} [Field F] [DecidableEq F] [AddCommGroup P] [Module F P]
  [AddCommGroup G] [Module F G] {bls : BlsKeys F P G S}

omit [DecidableEq F] in
theorem Lawful.scalar_ne_zero (h : bls.Lawful) (id : KeyId) : (id.scalar : F) ≠ 0 := fun hzero =>
  id.ne_zero (h.scalar_injective _ 0 (by simpa [KeyId.scalar] using hzero))

omit [DecidableEq F] in
theorem Lawful.zero_notMem_scalar (h : bls.Lawful) (ids : List KeyId) :
    (0 : F) ∉ ids.map KeyId.scalar := by
  intro hmem
  obtain ⟨id, -, hid⟩ := List.mem_map.mp hmem
  exact h.scalar_ne_zero id hid

variable {ids : List KeyId}

omit [DecidableEq F] in
theorem Lawful.nodup_scalar (h : bls.Lawful)
    (hnodup : (ids.map KeyId.num).Nodup) : (ids.map (KeyId.scalar (F := F))).Nodup :=
  (List.nodup_map_iff_inj_on hnodup.of_map).mpr fun _ ha _ hb hab =>
    List.inj_on_of_nodup_map hnodup ha hb (h.scalar_injective _ _ hab)

def sharePoint (bls : BlsKeys F P G S) (p : F[X]) (id : KeyId) : KeyId × P :=
  (id, bls.publicKey (p.eval id.scalar))

theorem Lawful.interpolate_sharePoint (h : bls.Lawful) {p : F[X]}
    (hne : ids ≠ []) (hnodup : (ids.map KeyId.num).Nodup) :
    Bls.interpolatePublicKey F (ids.map (bls.sharePoint p)) =
      .ok (SecretSharing.combine (ids.map fun id =>
        ((id.scalar : F), p.eval (id.scalar : F) • bls.generator))) := by
  have hnodes : (ids.map (bls.sharePoint p)).map (fun e => (e.1.scalar : F)) =
      ids.map (KeyId.scalar (F := F)) := by
    rw [List.map_map]
    rfl
  rw [Bls.interpolatePublicKey_eq, List.map_map]
  · rfl
  · simpa using hne
  · rw [hnodes]
    exact h.nodup_scalar hnodup
  · rw [hnodes]
    exact h.zero_notMem_scalar ids

theorem Lawful.interpolate_eq (h : bls.Lawful) {p : F[X]} (hne : ids ≠ [])
    (hnodup : (ids.map KeyId.num).Nodup) (hdegree : p.degree < ids.length) :
    Bls.interpolatePublicKey F (ids.map (bls.sharePoint p)) = .ok (bls.publicKey (p.eval 0)) := by
  rw [h.interpolate_sharePoint hne hnodup]
  apply congrArg Except.ok
  apply SecretSharing.combine_eq_eval_zero
  · rw [List.map_map]
    exact h.nodup_scalar hnodup
  · rw [List.map_map]
    exact h.zero_notMem_scalar ids
  · simpa using hdegree
  · intro q hq
    obtain ⟨id, -, rfl⟩ := List.mem_map.mp hq
    rfl

theorem Lawful.interpolate_ne (h : bls.Lawful) {p : F[X]} (hne : ids ≠ [])
    (hnodup : (ids.map KeyId.num).Nodup) (hdegree : p.degree = ids.length) :
    ∃ point, Bls.interpolatePublicKey F (ids.map (bls.sharePoint p)) = .ok point ∧
      point ≠ bls.publicKey (p.eval 0) := by
  refine ⟨_, h.interpolate_sharePoint hne hnodup, ?_⟩
  apply SecretSharing.combine_ne_eval_zero h.generator_ne_zero
  · rw [List.map_map]
    exact h.nodup_scalar hnodup
  · rw [List.map_map]
    exact h.zero_notMem_scalar ids
  · simpa using hdegree
  · intro q hq
    obtain ⟨id, -, rfl⟩ := List.mem_map.mp hq
    rfl

/-- The keys are the values, in the exponent, of a polynomial of degree one less than the
threshold. -/
structure SharesOf (bls : BlsKeys F P G S) (p : F[X]) (validatorPubkey : PublicKeyBytes)
    (shares : List (KeyId × PublicKeyBytes)) (threshold : ℕ) : Prop where
  degree : p.degree = ((threshold - 1 : ℕ) : WithBot ℕ)
  key : bls.decompress validatorPubkey = some (bls.publicKey (p.eval 0))
  share : ∀ e ∈ shares, bls.decompress e.2 = some (bls.publicKey (p.eval e.1.scalar))

theorem SharesOf.validateSharePublicKeys_eq_ok [DecidableEq P] {p : F[X]}
    {validatorPubkey : PublicKeyBytes} {shares : List (KeyId × PublicKeyBytes)} {threshold : ℕ}
    (hshares : bls.SharesOf p validatorPubkey shares threshold) (h : bls.Lawful)
    (htwo : 2 ≤ threshold) (hle : threshold ≤ shares.length)
    (hnodup : (shares.map fun e => e.1.num).Nodup) :
    Bls.validateSharePublicKeys F bls.toBls validatorPubkey shares threshold = .ok () := by
  have hsub : ∀ shares' : List (KeyId × PublicKeyBytes), shares'.Sublist shares →
      ((shares'.map Prod.fst).map KeyId.num).Nodup := by
    intro shares' hsublist
    rw [List.map_map]
    exact hnodup.sublist (hsublist.map _)
  have hlength : (shares.take (threshold - 1)).length = threshold - 1 := by
    rw [List.length_take]
    omega
  have hbase : shares.take (threshold - 1) ≠ [] := by
    rw [← List.length_pos_iff]
    omega
  refine Bls.validateSharePublicKeys_eq_ok_iff.mpr ⟨⟨htwo, hle⟩, _,
    (shares.map Prod.fst).map (bls.sharePoint p), hshares.key, ?_, ?_, ?_⟩
  · rw [List.map_map, List.map_map]
    refine List.map_congr_left fun e he => ?_
    rw [hshares.share e he]
    rfl
  · -- the base shares alone miss the key
    rw [← List.map_take, ← List.map_take]
    refine h.interpolate_ne (by simpa using hbase) (hsub _ (List.take_sublist _ _)) ?_
    rw [List.length_map, hlength, hshares.degree]
  · -- with any other share they give it
    rw [← List.map_drop, ← List.map_drop, ← List.map_take, ← List.map_take]
    intro q hq
    obtain ⟨id, hid, rfl⟩ := List.mem_map.mp hq
    obtain ⟨e, he, rfl⟩ := List.mem_map.mp hid
    have hsublist : (shares.take (threshold - 1) ++ [e]).Sublist shares := by
      conv_rhs => rw [← List.take_append_drop (threshold - 1) shares]
      exact (List.Sublist.refl _).append (List.singleton_sublist.mpr he)
    have hconcat := h.interpolate_eq (p := p) (by simp) (hsub _ hsublist) (by
      rw [hshares.degree, List.length_map, List.length_append, hlength]
      exact_mod_cast Nat.lt_succ_self _)
    simpa using hconcat

theorem Lawful.combineSignatures_sign (h : bls.Lawful) {p : F[X]} (htwo : 2 ≤ ids.length)
    (hdegree : p.degree < ids.length) (hnodup : (ids.map KeyId.num).Nodup) (root : Hash256) :
    bls.combineSignatures F (ids.map fun id => bls.sign (p.eval id.scalar) root) ids =
      .ok (bls.sign (p.eval 0) root) := by
  have hvalid : ∀ e ∈ ids.map fun id => (id, bls.sign (p.eval id.scalar) root),
      bls.verify (p.eval e.1.scalar • bls.generator) root e.2 = true := by
    intro e he
    obtain ⟨id, -, rfl⟩ := List.mem_map.mp he
    exact h.verify_sign _ root
  obtain ⟨s, hs, hverify⟩ := Bls.verify_combineSignatures h.toLawful (by simpa using htwo)
    (by simpa using hdegree) (by rwa [List.map_map]) hvalid
  rw [h.toLawful.eq_of_verify hverify (h.verify_sign _ root)] at hs
  simpa [Function.comp_def] using hs

end BlsKeys

end Anchor
