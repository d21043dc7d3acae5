import Mathlib
import Anchor.Library.SortedMap
import Anchor.SignatureCollector.BlsLagrange

/-!
# The collector of one signature

A collector gathers the partial signatures for one signing root and validator.
The first registration fixes the threshold and the validator's key; from then on
the collector tries to combine what it has after every message.  When that fails it
checks the shares one by one, drops the wrong ones and tries again.

The order in which the hash map of shares is walked through and the answers of the
database are parameters.
-/

namespace Anchor

open BlsLagrange

/-! ## State and messages -/

structure CollectedShare (S : Type) where
  signature : S
  companionRoots : Option Hash256 × Option Hash256

namespace CollectedShare

variable {S : Type}

def contains (share : CollectedShare S) (root : Hash256) : Bool :=
  share.companionRoots.1 = some root || share.companionRoots.2 = some root

def addCompanion (share : CollectedShare S) (root : Hash256) : CollectedShare S :=
  if share.contains root then share
  else
    match share.companionRoots with
    | (none, second) => { share with companionRoots := (some root, second) }
    | (some first, none) => { share with companionRoots := (some first, some root) }
    | (some _, some _) => share

@[simp] theorem signature_addCompanion (share : CollectedShare S) (root : Hash256) :
    (share.addCompanion root).signature = share.signature := by
  unfold addCompanion
  split_ifs
  · rfl
  · split <;> rfl

end CollectedShare

structure CollectorRegistration (P : Type) where
  threshold : ℕ
  validatorPubkey : PublicKeyBytes
  decompressedValidatorPubkey : P
  requiredCompanion : Option Hash256

structure SignatureCollectorState (P S : Type) where
  signingRoot : Hash256
  notifiers : List ℕ
  signatureShare : SortedMap OperatorId (CollectedShare S)
  fullSignature : Option S
  registration : Option (CollectorRegistration P)

/-- Notifiers are the sending halves of one-shot channels, told apart by a number. -/
inductive CollectorMessageKind (S : Type) where
  | registerNotifier (notify : Option ℕ) (requiredCompanion : Option Hash256) (threshold : ℕ)
      (validatorPubkey : PublicKeyBytes)
  | partialSignature (operatorId : OperatorId) (signature : S) (companionRoot : Option Hash256)

inductive ReconstructionFailure where
  | combination (error : Error)
  | masterVerification
deriving DecidableEq

/-- What surrounds the collectors: the curve library, the order in which a map of shares
is walked through, and the share keys that the database returns. -/
structure CollectorEnv (P G S : Type) where
  bls : Bls P G S
  walk : List (OperatorId × CollectedShare S) → List (OperatorId × CollectedShare S)
  getSharePubkeysForValidator : PublicKeyBytes → Option (SortedMap OperatorId PublicKeyBytes)

namespace CollectorEnv

variable {F P G S : Type} [Field F] [DecidableEq F] [AddCommGroup P] [Module F P]
  [AddCommGroup G] [Module F G] [DecidableEq S] (env : CollectorEnv P G S)

/-- The share keys of a validator; having none is as bad as not being able to read them. -/
def fetch (validatorPubkey : PublicKeyBytes) : Option (SortedMap OperatorId PublicKeyBytes) :=
  (env.getSharePubkeysForValidator validatorPubkey).filter fun keys => !keys.entries.isEmpty

def shareIsValid (keys : SortedMap OperatorId PublicKeyBytes) (root : Hash256)
    (operatorId : OperatorId) (signature : S) : Bool :=
  ((keys.get? operatorId).bind env.bls.decompress).any (env.bls.verify · root signature)

def combineSignatures (F : Type) [Field F] [DecidableEq F] [Module F G]
    (shares : SortedMap OperatorId (CollectedShare S)) : Except Error S := do
  let pairs ← Checks.mapAll
    (fun e => (KeyId.tryFrom e.1.val).map fun keyId => (keyId, e.2.signature))
    (env.walk shares.entries)
  env.bls.combineSignatures F (pairs.map Prod.snd) (pairs.map Prod.fst)

end CollectorEnv

namespace SignatureCollectorState

variable {F P G S : Type} [Field F] [DecidableEq F] [AddCommGroup P] [Module F P]
  [AddCommGroup G] [Module F G] [DecidableEq S]

/-- Signatures sent to notifiers, in the order of sending. -/
abbrev Deliveries (S : Type) := List (ℕ × S)

def new (signingRoot : Hash256) : SignatureCollectorState P S :=
  ⟨signingRoot, [], SortedMap.empty, none, none⟩

/-! ## The state machine -/

def addNotifier (st : SignatureCollectorState P S) (notify : Option ℕ) :
    SignatureCollectorState P S × Deliveries S :=
  match notify with
  | none => (st, [])
  | some notify =>
    match st.fullSignature with
    | some fullSignature => (st, [(notify, fullSignature)])
    | none => ({ st with notifiers := st.notifiers ++ [notify] }, [])

def withRegistration (st : SignatureCollectorState P S) (registration : CollectorRegistration P) :
    SignatureCollectorState P S :=
  { st with
    registration := some registration
    signatureShare :=
      match registration.requiredCompanion with
      | none => st.signatureShare
      | some root => st.signatureShare.retain fun _ share => share.contains root }

/-- `none` ends the collector. -/
def registerRequest (env : CollectorEnv P G S) (st : SignatureCollectorState P S)
    (notify : Option ℕ) (newThreshold : ℕ) (validatorPubkey : PublicKeyBytes)
    (requiredCompanion : Option Hash256) :
    Option (SignatureCollectorState P S × Deliveries S) :=
  match st.registration with
  | some registration =>
    if newThreshold ≠ registration.threshold ∨ validatorPubkey ≠ registration.validatorPubkey ∨
        requiredCompanion ≠ registration.requiredCompanion then none
    else some (st.addNotifier notify)
  | none =>
    match env.bls.decompress validatorPubkey with
    | none => none
    | some publicKey => some ((st.withRegistration
        ⟨newThreshold, validatorPubkey, publicKey, requiredCompanion⟩).addNotifier notify)

def addPartialSignature (st : SignatureCollectorState P S) (operatorId : OperatorId)
    (signature : S) (companionRoot : Option Hash256) : SignatureCollectorState P S :=
  if st.fullSignature.isSome then st
  else if (st.registration.bind (·.requiredCompanion)).any (companionRoot ≠ some ·) then st
  else
    { st with
      signatureShare := st.signatureShare.upsert operatorId fun
        | none => ⟨signature, (companionRoot, none)⟩
        | some share =>
          if share.signature ≠ signature then share
          else companionRoot.elim share share.addCompanion }

def tryReconstruct (F : Type) [Field F] [DecidableEq F] [Module F G] (env : CollectorEnv P G S)
    (st : SignatureCollectorState P S) : Except ReconstructionFailure (Option S) :=
  if st.fullSignature.isSome then .ok none
  else
    match st.registration with
    | none => .ok none
    | some registration =>
      if st.signatureShare.entries.length < registration.threshold then .ok none
      else
        match env.combineSignatures F st.signatureShare with
        | .error e => .error (.combination e)
        | .ok signature =>
          if env.bls.verify registration.decompressedValidatorPubkey st.signingRoot
              signature then .ok (some signature)
          else .error .masterVerification

def completeReconstruction (st : SignatureCollectorState P S) (signature : S) :
    SignatureCollectorState P S × Deliveries S :=
  ({ st with
      signatureShare := SortedMap.empty
      notifiers := []
      fullSignature := some signature },
    st.notifiers.map fun notifier => (notifier, signature))

def removeInvalidShares (env : CollectorEnv P G S) (st : SignatureCollectorState P S)
    (keys : SortedMap OperatorId PublicKeyBytes) :
    SignatureCollectorState P S × List OperatorId :=
  ({ st with
      signatureShare := st.signatureShare.retain fun i share =>
        env.shareIsValid keys st.signingRoot i share.signature },
    (st.signatureShare.entries.filter fun e =>
      !env.shareIsValid keys st.signingRoot e.1 e.2.signature).map Prod.fst)

/-- `none` ends the collector. -/
def handleReconstructionFallback (F : Type) [Field F] [DecidableEq F] [Module F G]
    (env : CollectorEnv P G S) (st : SignatureCollectorState P S) :
    Option (SignatureCollectorState P S × Deliveries S) :=
  match st.registration with
  | none => none
  | some registration =>
    match env.fetch registration.validatorPubkey with
    | none => none
    | some keys =>
      let checked := st.removeInvalidShares env keys
      if checked.2 = [] then none
      else if checked.1.signatureShare.entries.length < registration.threshold then
        some (checked.1, [])
      else
        match checked.1.tryReconstruct F env with
        | .ok (some signature) => some (checked.1.completeReconstruction signature)
        | .ok none => none
        | .error _ => none

def reconstruct (F : Type) [Field F] [DecidableEq F] [Module F G] (env : CollectorEnv P G S)
    (st : SignatureCollectorState P S) : Option (SignatureCollectorState P S × Deliveries S) :=
  match st.tryReconstruct F env with
  | .ok none => some (st, [])
  | .ok (some signature) => some (st.completeReconstruction signature)
  | .error _ => st.handleReconstructionFallback F env

def handle (F : Type) [Field F] [DecidableEq F] [Module F G] (env : CollectorEnv P G S)
    (st : SignatureCollectorState P S) :
    CollectorMessageKind S → Option (SignatureCollectorState P S × Deliveries S)
  | .registerNotifier notify requiredCompanion threshold validatorPubkey => do
      let (st, served) ← st.registerRequest env notify threshold validatorPubkey requiredCompanion
      let (st, delivered) ← st.reconstruct F env
      return (st, served ++ delivered)
  | .partialSignature operatorId signature companionRoot =>
    (st.addPartialSignature operatorId signature companionRoot).reconstruct F env

def step (F : Type) [Field F] [DecidableEq F] [Module F G] (env : CollectorEnv P G S)
    (loop : Option (SignatureCollectorState P S) × Deliveries S) (m : CollectorMessageKind S) :
    Option (SignatureCollectorState P S) × Deliveries S :=
  match loop.1 with
  | none => loop
  | some st =>
    match st.handle F env m with
    | none => (none, loop.2)
    | some (st, delivered) => (some st, loop.2 ++ delivered)

def run (F : Type) [Field F] [DecidableEq F] [Module F G] (env : CollectorEnv P G S)
    (signingRoot : Hash256) (messages : List (CollectorMessageKind S)) :
    Option (SignatureCollectorState P S) × Deliveries S :=
  messages.foldl (step F env) (some (new signingRoot), [])

end SignatureCollectorState

/-! ## Share keys -/

open Polynomial in
/-- The share keys in the database are those of a polynomial of degree below the
threshold, with the validator's key at zero and an operator's key at its id. -/
structure ShareKeys (F : Type) {P G S : Type} [Field F] [AddCommGroup P] [Module F P]
    [AddCommGroup G] [Module F G] (env : CollectorEnv P G S) (validatorPubkey : PublicKeyBytes)
    (threshold : ℕ) (committee : List OperatorId) where
  generator : P
  hashToCurve : Hash256 → G
  lawful : env.bls.Lawful F generator hashToCurve
  walk_perm : ∀ es, (env.walk es).Perm es
  two_le : 2 ≤ threshold
  polynomial : F[X]
  degree_lt : polynomial.degree < threshold
  decompress_eq : env.bls.decompress validatorPubkey = some (polynomial.eval 0 • generator)
  keys : SortedMap OperatorId PublicKeyBytes
  fetch_eq : env.fetch validatorPubkey = some keys
  key_eq : ∀ i ∈ committee, i.val ≠ 0 ∧ ∃ key, keys.get? i = some key ∧
    env.bls.decompress key = some (polynomial.eval (i.val.toNat : F) • generator)

namespace ShareKeys

open SignatureCollectorState

variable {F P G S : Type} [Field F] [AddCommGroup P] [Module F P] [AddCommGroup G] [Module F G]
  {env : CollectorEnv P G S} {validatorPubkey : PublicKeyBytes} {threshold : ℕ}
  {committee : List OperatorId} (K : ShareKeys F env validatorPubkey threshold committee)

noncomputable def masterKey : P := K.polynomial.eval 0 • K.generator

def keyId (i : OperatorId) : KeyId := if h : i.val ≠ 0 then ⟨i.val, h⟩ else ⟨1, by decide⟩

theorem num_keyId {i : OperatorId} (h : i.val ≠ 0) : (keyId i).num = i.val := by
  simp [keyId, h]

theorem tryFrom_val {i : OperatorId} (h : i.val ≠ 0) : KeyId.tryFrom i.val = .ok (keyId i) := by
  simp [KeyId.tryFrom, keyId, h]

include K in
theorem verify_combineSignatures [DecidableEq F] {root : Hash256}
    {shares : SortedMap OperatorId (CollectedShare S)}
    (hmembers : ∀ e ∈ shares.entries, e.1 ∈ committee)
    (hvalid : ∀ e ∈ shares.entries, env.shareIsValid K.keys root e.1 e.2.signature = true)
    (hlength : threshold ≤ shares.entries.length) :
    ∃ s, env.combineSignatures F shares = .ok s ∧ env.bls.verify K.masterKey root s = true := by
  have hperm : (env.walk shares.entries).Perm shares.entries := K.walk_perm _
  have hne : ∀ e ∈ env.walk shares.entries, e.1.val ≠ 0 := fun e he =>
    (K.key_eq e.1 (hmembers e (hperm.mem_iff.mp he))).1
  let pairs := (env.walk shares.entries).map fun e => (keyId e.1, e.2.signature)
  have hpairs : Checks.mapAll
      (fun e => (KeyId.tryFrom e.1.val).map fun keyId => (keyId, e.2.signature))
      (env.walk shares.entries) = .ok pairs := by
    apply Checks.mapAll_of_forall
    intro e he
    rw [tryFrom_val (hne e he)]
    rfl
  have hlen : pairs.length = shares.entries.length := by
    rw [List.length_map]
    exact hperm.length_eq
  have htwo : 2 ≤ pairs.length := by
    rw [hlen]
    exact K.two_le.trans hlength
  have hdegree : K.polynomial.degree < pairs.length := by
    rw [hlen]
    exact K.degree_lt.trans_le (by exact_mod_cast hlength)
  have hnodup : (pairs.map fun e => e.1.num).Nodup := by
    have hnums : pairs.map (fun e => e.1.num) =
        ((env.walk shares.entries).map Prod.fst).map OperatorId.val := by
      rw [List.map_map, List.map_map]
      exact List.map_congr_left fun e he => num_keyId (hne e he)
    rw [hnums]
    apply List.Nodup.map (fun a b h => OperatorId.ext h)
    exact (hperm.map Prod.fst).nodup_iff.mpr shares.nodup_keys
  have hverify : ∀ e ∈ pairs, env.bls.verify (K.polynomial.eval e.1.scalar • K.generator) root e.2 =
      true := by
    intro q hq
    obtain ⟨e, he, rfl⟩ := List.mem_map.mp hq
    have hmem := hperm.mem_iff.mp he
    obtain ⟨-, key, hget, hkey⟩ := K.key_eq e.1 (hmembers e hmem)
    have h := hvalid e hmem
    simp only [CollectorEnv.shareIsValid, hget, Option.bind_some, hkey, Option.any_some] at h
    simpa [KeyId.scalar, num_keyId (hne e he)] using h
  obtain ⟨s, hs, hmaster⟩ := Bls.verify_combineSignatures K.lawful htwo hdegree hnodup hverify
  refine ⟨s, ?_, hmaster⟩
  unfold CollectorEnv.combineSignatures
  rw [hpairs]
  exact hs

end ShareKeys

end Anchor
