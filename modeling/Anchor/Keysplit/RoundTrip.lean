import Mathlib
import Anchor.Eth.EventProcessor
import Anchor.Keysplit.Pairing

/-!
# From the output back to the shares

What is split is registered on chain by its owner and read from the event by every
operator.  The two programs share only the layout of the bytes, the order of the operators
and the text that the owner signs.
-/

namespace Anchor

open Ssz BlsLagrange

/-! ## The readers -/

namespace BlsKeys

variable {F P G S : Type} (bls : BlsKeys F P G S)

/-- `verify_signature`, of the owner's address and the nonce. -/
def verifySignature (keccak256 : Bytes → Hash256) (addressText : Address → Bytes)
    (signature : Bytes) (nonce : ℕ) (owner : Address) (publicKey : PublicKeyBytes) : Bool :=
  match bls.deserializeSignature signature with
  | none => false
  | some signature =>
    match bls.decompress publicKey with
    | none => false
    | some publicKey =>
      bls.verify publicKey (keccak256 (Keysplit.nonceMessage addressText owner nonce)) signature

def interpolates [Field F] [DecidableEq F] [AddCommGroup P] [Module F P] [DecidableEq P]
    (publicKey : PublicKeyBytes) (shares : List (KeyId × PublicKeyBytes)) (threshold : ℕ) : Bool :=
  (Bls.validateSharePublicKeys F bls.toBls publicKey shares threshold).isOk

/-- `decrypt_key_share`.  Text that is not UTF-8 is not hexadecimal either. -/
def decryptKeyShare {R K Padding : Type} (rsa : Keysplit.Rsa R K Padding) (operatorKey : K)
    (encryptedPrivateKey : FixedBytes 256) : Option F := do
  let keyHex ← rsa.decrypt operatorKey encryptedPrivateKey.toList
  let digits := if Keysplit.hexMarker.isPrefixOf keyHex then keyHex.drop 2 else keyHex
  let bytes ← Hex.decode digits
  let secretKey ← FixedBytes.new? bytes
  bls.deserializeSecretKey secretKey

end BlsKeys

/-! ## The layout of the shares -/

theorem take_drop_flatMap {α β : Type*} {f : α → List β} {n : ℕ} (rest : List β) {xs : List α}
    (hf : ∀ x ∈ xs, (f x).length = n) {i : ℕ} (hi : i < xs.length) :
    ((xs.flatMap f ++ rest).drop (n * i)).take n = f xs[i] := by
  induction xs generalizing i with
  | nil => cases hi
  | cons x xs ih =>
    have hx : (f x).length = n := hf x List.mem_cons_self
    rw [List.flatMap_cons, List.append_assoc]
    cases i with
    | zero =>
      rw [Nat.mul_zero, List.drop_zero]
      exact List.take_left' hx
    | succ i =>
      rw [Nat.mul_succ, Nat.add_comm, ← hx, List.drop_length_add_append, hx]
      exact ih (fun y hy => hf y (List.mem_cons_of_mem _ hy)) (Nat.lt_of_succ_lt_succ hi)

theorem length_flatMap_const {α β : Type*} {f : α → List β} {n : ℕ} {xs : List α}
    (hf : ∀ x ∈ xs, (f x).length = n) : (xs.flatMap f).length = n * xs.length := by
  induction xs with
  | nil => simp
  | cons x xs ih =>
    rw [List.flatMap_cons, List.length_append, hf x List.mem_cons_self,
      ih fun y hy => hf y (List.mem_cons_of_mem _ hy), List.length_cons, Nat.mul_succ,
      Nat.add_comm]

theorem parseShares_layout {C : Type} {signature : Bytes} (hsignature : signature.length = 96)
    {ids : List OperatorId} (pubkey : OperatorId → PublicKeyBytes)
    {encrypted : List (FixedBytes 256)}
    (hlength : encrypted.length = ids.length) (clusterId : C) (validatorPubkey : PublicKeyBytes) :
    parseShares (signature ++ ids.flatMap (fun id => (pubkey id).toList) ++
        encrypted.flatMap FixedBytes.toList) ids clusterId validatorPubkey =
      .ok (signature, List.zipWith (fun id e => ⟨validatorPubkey, id, clusterId, pubkey id, e⟩) ids
        encrypted) := by
  have hpubkeys : (ids.flatMap fun id => (pubkey id).toList).length = 48 * ids.length :=
    length_flatMap_const fun id _ => (pubkey id).length_eq
  have hencrypted : (encrypted.flatMap FixedBytes.toList).length = 256 * ids.length := by
    rw [length_flatMap_const fun e _ => e.length_eq, hlength]
  have htotal : (signature ++ ids.flatMap (fun id => (pubkey id).toList) ++
      encrypted.flatMap FixedBytes.toList).length =
        96 + 48 * ids.length + 256 * ids.length := by
    rw [List.length_append, List.length_append, hsignature, hpubkeys, hencrypted]
  simp only [parseShares]
  rw [if_neg (by rw [htotal]; simp), List.append_assoc, ← hsignature, List.take_left,
    List.drop_left, ← hpubkeys, List.drop_length_add_append, List.drop_left]
  refine congrArg (fun shares => Except.ok (signature, shares)) ?_
  let zero : FixedBytes 256 := ⟨List.replicate 256 0, List.length_replicate⟩
  have heach : ∀ e ∈ ids.zipIdx, (do
      let sharePubkey ← FixedBytes.new? (((ids.flatMap (fun id => (pubkey id).toList) ++
        encrypted.flatMap FixedBytes.toList).drop (48 * e.2)).take 48)
      let encryptedPrivateKey ← FixedBytes.new?
        (((encrypted.flatMap FixedBytes.toList).drop (256 * e.2)).take 256)
      some (⟨validatorPubkey, e.1, clusterId, sharePubkey, encryptedPrivateKey⟩ : Share C)) =
        some ⟨validatorPubkey, e.1, clusterId, pubkey e.1, encrypted.getD e.2 zero⟩ := by
    intro e he
    obtain ⟨hlt, hget⟩ := List.mem_zipIdx' he
    have hlt' : e.2 < encrypted.length := hlength ▸ hlt
    have hkey := take_drop_flatMap (encrypted.flatMap FixedBytes.toList)
      (fun id (_ : id ∈ ids) => (pubkey id).length_eq) hlt
    have hcipher := take_drop_flatMap [] (fun c (_ : c ∈ encrypted) => c.length_eq) hlt'
    rw [List.append_nil] at hcipher
    rw [hkey, hcipher, FixedBytes.new?_toList, FixedBytes.new?_toList, hget,
      List.getD_eq_getElem _ _ hlt']
    rfl
  rw [List.filterMap_congr heach, List.filterMap_eq_map']
  refine List.ext_getElem (by simp [hlength]) fun i hi hi' => ?_
  have hlt : i < encrypted.length := by
    rw [List.length_zipWith] at hi'
    exact lt_of_lt_of_le hi' (min_le_right _ _)
  rw [List.getElem_map, List.getElem_zipIdx, List.getElem_zipWith, Nat.zero_add,
    List.getD_eq_getElem _ _ hlt]

namespace Keysplit

/-- What is assumed of RSA: the owner of a key decrypts what was encrypted for it, a ciphertext is
as long as the modulus, and a text that leaves eleven bytes for the padding is encrypted. -/
structure Rsa.Lawful {R K Padding : Type} (rsa : Rsa R K Padding) : Prop where
  decrypt_encrypt : ∀ k padding text cipher,
    rsa.encrypt (rsa.publicKey k) padding text = some cipher → rsa.decrypt k cipher = some text
  length_encrypt : ∀ r padding text cipher,
    rsa.encrypt r padding text = some cipher → cipher.length = rsa.size r
  encrypt_isSome : ∀ r padding (text : Bytes), text.length + 11 ≤ rsa.size r →
    (rsa.encrypt r padding text).isSome

def Payload.sharesBytes {P : Type} (payload : Payload P) : Option Bytes :=
  Hex.decode (payload.sharesData.drop 2)

theorem threshold_eq_quorumSize (operators : OperatorIds) :
    threshold operators.toList.length = quorumSize operators.toList.length := by
  have hsize := operators.size
  simp only [List.mem_cons, List.not_mem_nil, or_false] at hsize
  rcases hsize with h | h | h | h <;> rw [h] <;> rfl

theorem isValidCommitteeSize_operators (operators : OperatorIds) :
    isValidCommitteeSize operators.toList.length = true := by
  rw [isValidCommitteeSize_iff]
  simpa using operators.size

theorem two_le_quorumSize (operators : OperatorIds) :
    2 ≤ quorumSize operators.toList.length ∧
      quorumSize operators.toList.length ≤ operators.toList.length := by
  have hsize := operators.size
  simp only [List.mem_cons, List.not_mem_nil, or_false] at hsize
  rcases hsize with h | h | h | h <;> rw [h] <;> decide

namespace KeysplitEnv

variable {F P G S R K Padding C : Type} [Field F] [DecidableEq F] [AddCommGroup P] [Module F P]
  [DecidableEq P] [AddCommGroup G] [Module F G] (env : KeysplitEnv F P G S R K Padding)

def sharePubkey (shared : SharedKeygenOptions) (i : ℕ) (key : F) (id : OperatorId) :
    PublicKeyBytes :=
  env.bls.serializePublicKey (env.bls.publicKey (env.shareOf shared i key id))

def validatorPubkey (key : F) : PublicKeyBytes :=
  env.bls.serializePublicKey (env.bls.publicKey key)

/-- The bytes of an event that an operator reads: they pass all checks, every operator decrypts
its secret, and any quorum of the secrets signs for the validator. -/
structure RoundTrips (shared : SharedKeygenOptions) (privateKeys : List K) (nonce : ℕ) (key : F)
    (signature : Bytes) (shares : List (Share C)) : Prop where
  verified : env.bls.verifySignature env.keccak256 env.addressText signature nonce shared.owner
    (env.validatorPubkey key) = true
  validated : validateSharePublicKeys env.bls.interpolates (env.validatorPubkey key)
    (shares.map fun share => (share.operatorId, share.sharePubkey)) = .ok ()
  operators : shares.map (fun share => share.operatorId) = shared.operators.toList
  decrypted : ∀ (j : ℕ) (share : Share C) (privateKey : K), shares[j]? = some share →
    privateKeys[j]? = some privateKey → ∃ secret : F,
      env.bls.decryptKeyShare env.rsa privateKey share.encryptedPrivateKey = some secret ∧
      env.bls.serializePublicKey (env.bls.publicKey secret) = share.sharePubkey
  reconstructed : ∀ (quorum : List (KeyId × F)) (root : Hash256),
    quorumSize shares.length ≤ quorum.length → (quorum.map fun e => e.1.num).Nodup →
    (∀ e ∈ quorum, ∃ (j : ℕ) (share : Share C) (privateKey : K), shares[j]? = some share ∧
      privateKeys[j]? = some privateKey ∧ share.operatorId.val = e.1.num ∧
      env.bls.decryptKeyShare env.rsa privateKey share.encryptedPrivateKey = some e.2) →
    env.bls.combineSignatures F (quorum.map fun e => env.bls.sign e.2 root)
      (quorum.map Prod.fst) = .ok (env.bls.sign key root)

structure Lawful : Prop where
  bls : env.bls.Lawful
  rsa : env.rsa.Lawful

variable {env}

section Parts

variable {shared : SharedKeygenOptions} {nonce : UInt64} {privateKeys : List K} {i : ℕ} {key : F}
  {out : OutputKeyShare P R}

omit [DecidableEq F] [DecidableEq P] in
theorem decryptKeyShare_of_encrypt (henv : env.Lawful) {privateKey : K} {padding : Padding}
    {secret : F} (hsecret : secret ≠ 0) {cipher : FixedBytes 256}
    (h : env.rsa.encrypt (env.rsa.publicKey privateKey) padding (env.secretText secret) =
      some cipher.toList) :
    env.bls.decryptKeyShare env.rsa privateKey cipher = some secret := by
  have hmarked : hexMarker.isPrefixOf (env.secretText secret) = false := by
    rw [Bool.eq_false_iff, ne_eq, List.isPrefixOf_iff_prefix]
    exact Hex.not_marked_encode _
  simp only [BlsKeys.decryptKeyShare, henv.rsa.decrypt_encrypt _ _ _ _ h, hmarked,
    Option.bind_eq_bind, Option.bind_some, Bool.false_eq_true, if_false]
  rw [secretText, Hex.decode_encode, Option.bind_some, FixedBytes.new?_toList, Option.bind_some,
    henv.bls.deserialize_secretKey secret hsecret]

omit [DecidableEq F] [DecidableEq P] in
theorem Lists.exists_layout (henv : env.Lawful)
    (hsize : ∀ k ∈ privateKeys, env.rsa.size (env.rsa.publicKey k) = 256)
    (h : env.Lists shared nonce (privateKeys.map env.rsa.publicKey) i key out) :
    ∃ encrypted : List (FixedBytes 256), encrypted.length = shared.operators.toList.length ∧
      (∀ (j : ℕ) id privateKey cipher, shared.operators.toList[j]? = some id →
        privateKeys[j]? = some privateKey → encrypted[j]? = some cipher →
        env.bls.decryptKeyShare env.rsa privateKey cipher =
          some (env.shareOf shared i key id)) ∧
      out.payload.sharesBytes = some ((env.bls.serializeSignature (env.bls.sign key (env.keccak256
          (nonceMessage env.addressText shared.owner
            (nonce + UInt64.ofNat i).toNat)))).toList ++
        shared.operators.toList.flatMap (fun id => (env.sharePubkey shared i key id).toList) ++
        encrypted.flatMap FixedBytes.toList) := by
  obtain ⟨encrypted, hlength, hencrypt, hdata⟩ := h.sharesData
  have hkeys : privateKeys.length = shared.operators.toList.length := by
    simpa using h.length_eq
  have hcipher : ∀ (j : ℕ) id privateKey cipher, shared.operators.toList[j]? = some id →
      privateKeys[j]? = some privateKey → encrypted[j]? = some cipher →
      env.rsa.encrypt (env.rsa.publicKey privateKey) (env.padding i j)
        (env.secretText (env.shareOf shared i key id)) = some cipher := by
    intro j id privateKey cipher hid hprivate hj
    refine hencrypt j ⟨id, env.rsa.publicKey privateKey⟩ cipher ?_ hj
    rw [h.data_eq, List.getElem?_zipWith_eq_some]
    exact ⟨id, _, hid, by simp [hprivate], rfl⟩
  have hlong : ∀ cipher ∈ encrypted, cipher.length = 256 := by
    intro cipher hmem
    obtain ⟨j, hj, rfl⟩ := List.getElem_of_mem hmem
    have hid : j < shared.operators.toList.length := hlength ▸ hj
    have hprivate : j < privateKeys.length := hkeys ▸ hid
    rw [henv.rsa.length_encrypt _ _ _ _ (hcipher j _ _ _ (List.getElem?_eq_getElem hid)
      (List.getElem?_eq_getElem hprivate) (List.getElem?_eq_getElem hj))]
    exact hsize _ (List.getElem_mem _)
  refine ⟨encrypted.pmap FixedBytes.mk hlong, by rw [List.length_pmap, hlength], ?_, ?_⟩
  · intro j id privateKey cipher hid hprivate hj
    rw [List.getElem?_pmap, Option.pmap_eq_some_iff] at hj
    obtain ⟨bytes, hbytes, hmem, rfl⟩ := hj
    exact decryptKeyShare_of_encrypt henv (h.share_ne_zero id (List.mem_of_getElem? hid))
      (hcipher j id privateKey bytes hid hprivate hmem)
  · have hflat : (encrypted.pmap FixedBytes.mk hlong).flatMap FixedBytes.toList =
        encrypted.flatten := by
      rw [List.flatMap_def, List.map_pmap]
      simp
    have hencode : Hex.encode encrypted.flatten = encrypted.flatMap Hex.encode := by
      rw [← List.flatMap_id, Hex.encode_flatMap]
      rfl
    rw [Payload.sharesBytes, hdata, hflat, createSignature, ← hencode, List.append_assoc,
      List.append_assoc]
    change Hex.decode ([] ++ _) = _
    rw [List.nil_append, ← Hex.encode_flatMap, ← Hex.encode_append, ← Hex.encode_append,
      Hex.decode_encode, List.append_assoc]
    rfl

omit [DecidableEq F] [DecidableEq P] in
theorem verifySignature_sign (henv : env.Lawful) (hkey : key ≠ 0) (owner : Address) (n : ℕ) :
    env.bls.verifySignature env.keccak256 env.addressText (env.bls.serializeSignature
      (env.bls.sign key (env.keccak256 (nonceMessage env.addressText owner n)))).toList n owner
        (env.validatorPubkey key) = true := by
  simp only [BlsKeys.verifySignature, validatorPubkey, henv.bls.deserialize_signature,
    henv.bls.decompress_publicKey hkey]
  exact henv.bls.verify_sign key _

theorem exists_keyIds {ids : List OperatorId} (hids : ∀ id ∈ ids, id.val ≠ 0)
    (pubkey : OperatorId → PublicKeyBytes) :
    ∃ keyIds' : List KeyId, keyIds'.map (fun k => OperatorId.mk k.num) = ids ∧
      keyIds (ids.map fun id => (id, pubkey id)) =
        .ok (keyIds'.map fun k => (k, pubkey ⟨k.num⟩)) := by
  induction ids with
  | nil => exact ⟨[], rfl, rfl⟩
  | cons id ids ih =>
    obtain ⟨rest, hrest, hkeyIds⟩ := ih fun x hx => hids x (List.mem_cons_of_mem _ hx)
    have hid : id.val ≠ 0 := hids id List.mem_cons_self
    refine ⟨⟨id.val, hid⟩ :: rest, by rw [List.map_cons, hrest], ?_⟩
    simp only [List.map_cons, keyIds, KeyId.tryFrom, dif_pos hid, hkeyIds]
    rfl

variable (env shared i key) in
noncomputable def polynomial : Polynomial F :=
  SecretSharing.ofCoefficients
    (coefficients key (threshold shared.operators.toList.length) (env.randomKey i))

omit [DecidableEq F] [AddCommGroup P] [Module F P] [DecidableEq P] [AddCommGroup G] [Module F G] in
theorem eval_polynomial (k : KeyId) :
    (env.polynomial shared i key).eval k.scalar = env.shareOf shared i key ⟨k.num⟩ :=
  SecretSharing.eval_ofCoefficients _ _

omit [DecidableEq F] [AddCommGroup P] [Module F P] [DecidableEq P] [AddCommGroup G] [Module F G] in
theorem eval_zero_polynomial : (env.polynomial shared i key).eval 0 = key :=
  (SecretSharing.eval_ofCoefficients _ _).trans (SecretSharing.share_zero _ _)

omit [DecidableEq F] [AddCommGroup P] [Module F P] [DecidableEq P] [AddCommGroup G] [Module F G] in
theorem degree_polynomial : (env.polynomial shared i key).degree =
    ((quorumSize shared.operators.toList.length - 1 : ℕ) : WithBot ℕ) := by
  have htwo := (two_le_quorumSize shared.operators).1
  rw [polynomial, degree_coefficients _ _ (by rw [threshold_eq_quorumSize]; omega),
    threshold_eq_quorumSize]

theorem validateSharePublicKeys_shares (henv : env.Lawful)
    (h : env.Lists shared nonce (privateKeys.map env.rsa.publicKey) i key out) :
    validateSharePublicKeys env.bls.interpolates (env.validatorPubkey key)
      (shared.operators.toList.map fun id => (id, env.sharePubkey shared i key id)) = .ok () := by
  obtain ⟨kids, hkids, hkeyIds⟩ :=
    exists_keyIds h.id_ne_zero (env.sharePubkey shared i key)
  have hlength : kids.length = shared.operators.toList.length := by
    rw [← hkids, List.length_map]
  have hincreasing : (kids.map fun k => (k, env.sharePubkey shared i key ⟨k.num⟩)).Pairwise
      fun a b => a.1.num ≤ b.1.num := by
    have hsorted := shared.operators.sorted
    rw [← hkids, List.pairwise_map] at hsorted
    rw [List.pairwise_map]
    exact hsorted.imp fun hlt => UInt64.le_iff_toNat_le.mpr (le_of_lt hlt)
  have hnodup : (kids.map KeyId.num).Nodup := by
    have hids : shared.operators.toList.Nodup := shared.operators.sorted.imp ne_of_lt
    rw [← hkids] at hids
    exact List.Nodup.of_map OperatorId.mk (by rwa [List.map_map])
  have hshares : env.bls.SharesOf (env.polynomial shared i key) (env.validatorPubkey key)
      (kids.map fun k => (k, env.sharePubkey shared i key ⟨k.num⟩))
      (quorumSize shared.operators.toList.length) := by
    refine ⟨degree_polynomial, ?_, fun e he => ?_⟩
    · rw [eval_zero_polynomial]
      exact henv.bls.decompress_publicKey h.key_ne_zero
    · obtain ⟨k, hk, rfl⟩ := List.mem_map.mp he
      rw [eval_polynomial]
      exact henv.bls.decompress_publicKey (h.share_ne_zero _ (hkids ▸ List.mem_map_of_mem hk))
  have hvalid := hshares.validateSharePublicKeys_eq_ok henv.bls
    (two_le_quorumSize shared.operators).1
    (by rw [List.length_map, hlength]; exact (two_le_quorumSize shared.operators).2)
    (by rwa [List.map_map])
  simp only [validateSharePublicKeys, List.length_map, isValidCommitteeSize_operators,
    Bool.not_true, Bool.false_eq_true, if_false, hkeyIds]
  rw [hincreasing.insertionSort_eq, if_pos]
  rw [BlsKeys.interpolates]
  exact congrArg Except.isOk hvalid

omit [DecidableEq P] in
theorem combineSignatures_shares (henv : env.Lawful) {quorum : List (KeyId × F)} (root : Hash256)
    (hquorum : quorumSize shared.operators.toList.length ≤ quorum.length)
    (hnodup : (quorum.map fun e => e.1.num).Nodup)
    (hshares : ∀ e ∈ quorum, e.2 = env.shareOf shared i key ⟨e.1.num⟩) :
    env.bls.combineSignatures F (quorum.map fun e => env.bls.sign e.2 root)
      (quorum.map Prod.fst) = .ok (env.bls.sign key root) := by
  have htwo := (two_le_quorumSize shared.operators).1
  have hcombine := henv.bls.combineSignatures_sign (p := env.polynomial shared i key)
    (by rw [List.length_map]; omega) (by
      rw [List.length_map, degree_polynomial]
      exact_mod_cast (show quorumSize shared.operators.toList.length - 1 < quorum.length by omega))
    (show ((quorum.map Prod.fst).map KeyId.num).Nodup by rwa [List.map_map]) root
  rw [List.map_map, eval_zero_polynomial] at hcombine
  rw [← hcombine]
  refine congrArg (env.bls.combineSignatures F · _) (List.map_congr_left fun e he => ?_)
  rw [Function.comp_apply, eval_polynomial, ← hshares e he]

theorem Lists.roundTrips (henv : env.Lawful)
    (hsize : ∀ k ∈ privateKeys, env.rsa.size (env.rsa.publicKey k) = 256)
    (hnonce : nonce.toNat + i < 2 ^ 16)
    (h : env.Lists shared nonce (privateKeys.map env.rsa.publicKey) i key out) (clusterId : C) :
    ∃ bytes signature shares, out.payload.sharesBytes = some bytes ∧
      parseShares bytes out.payload.operatorIds clusterId
        (env.bls.serializePublicKey out.payload.publicKey) = .ok (signature, shares) ∧
      env.RoundTrips shared privateKeys (nonce.toNat + i) key signature shares := by
  obtain ⟨encrypted, hlength, hdecrypt, hbytes⟩ := h.exists_layout henv hsize
  have hkeys : privateKeys.length = shared.operators.toList.length := by
    simpa using h.length_eq
  have hordinal : (nonce + UInt64.ofNat i).toNat = nonce.toNat + i := by
    rw [UInt64.toNat_add, UInt64.toNat_ofNat']
    omega
  rw [hordinal] at hbytes
  rw [h.operatorIds_eq, h.payload_publicKey]
  refine ⟨_, _, _, hbytes, parseShares_layout (FixedBytes.length_eq _) _ hlength _ _, ?_⟩
  generalize hshares : List.zipWith (fun id e => (⟨env.bls.serializePublicKey
    (env.bls.publicKey key), id, clusterId, env.sharePubkey shared i key id, e⟩ : Share C))
    shared.operators.toList encrypted = shares
  have hcount : shares.length = shared.operators.toList.length := by
    rw [← hshares, List.length_zipWith, hlength, min_self]
  -- each share is that of an operator, which decrypts it
  have hshare : ∀ (j : ℕ) share, shares[j]? = some share →
      ∃ id cipher, shared.operators.toList[j]? = some id ∧ encrypted[j]? = some cipher ∧
        share.operatorId = id ∧ share.sharePubkey = env.sharePubkey shared i key id ∧
        share.encryptedPrivateKey = cipher := by
    intro j share hj
    rw [← hshares, List.getElem?_zipWith_eq_some] at hj
    obtain ⟨id, cipher, hid, hcipher, rfl⟩ := hj
    exact ⟨id, cipher, hid, hcipher, rfl, rfl, rfl⟩
  constructor
  · exact verifySignature_sign henv h.key_ne_zero _ _
  · rw [← hshares, List.map_zipWith, zipWith_left hlength.ge
      fun id => (id, env.sharePubkey shared i key id)]
    exact validateSharePublicKeys_shares henv h
  · rw [← hshares, List.map_zipWith, zipWith_left hlength.ge fun id => id, List.map_id']
  · intro j share privateKey hj hprivate
    obtain ⟨id, cipher, hid, hcipher, -, hpubkey, hencrypted⟩ := hshare j share hj
    refine ⟨env.shareOf shared i key id, ?_, ?_⟩
    · rw [hencrypted]
      exact hdecrypt j id privateKey cipher hid hprivate hcipher
    · rw [hpubkey]
      rfl
  · intro quorum root hquorum hnodup hmembers
    rw [hcount] at hquorum
    apply combineSignatures_shares henv root hquorum hnodup
    intro e he
    obtain ⟨j, share, privateKey, hj, hprivate, hid', hsecret⟩ := hmembers e he
    obtain ⟨id, cipher, hid, hcipher, hoperator, -, hencrypted⟩ := hshare j share hj
    rw [hencrypted, hdecrypt j id privateKey cipher hid hprivate hcipher] at hsecret
    rw [← Option.some.inj hsecret, ← hid', hoperator]

end Parts

/-! ## Producing an output -/

/-- No operator has the id zero, no key is zero, and no value that occurs while a share is
computed is zero. -/
def Splittable (env : KeysplitEnv F P G S R K Padding) (shared : SharedKeygenOptions)
    (keys : List F) : Prop :=
  (∀ id ∈ shared.operators.toList, id.val ≠ 0) ∧
    ∀ (i : ℕ) key, keys[i]? = some key → key ≠ 0 ∧ ∀ id ∈ shared.operators.toList,
      NonVanishing (coefficients key (threshold shared.operators.toList.length)
        (env.randomKey i)) (id.val.toNat : F)

omit [DecidableEq P] in
theorem exists_splitKey (henv : env.Lawful) {shared : SharedKeygenOptions} {key : F} {i : ℕ}
    (hids : ∀ id ∈ shared.operators.toList, id.val ≠ 0) (hkey : key ≠ 0)
    (hvalues : ∀ id ∈ shared.operators.toList, NonVanishing (coefficients key
      (threshold shared.operators.toList.length) (env.randomKey i)) (id.val.toNat : F)) :
    ∃ shares, splitKey shared key (env.randomKey i) = .ok shares := by
  obtain ⟨kids, hkids⟩ : ∃ kids, Checks.mapAll (fun id : OperatorId => KeyId.tryFrom id.val)
      shared.operators.toList = .ok kids := by
    apply Checks.exists_mapAll
    intro id hid
    exact ⟨⟨id.val, hids id hid⟩, dif_pos (hids id hid)⟩
  have hthreshold : 1 < threshold shared.operators.toList.length := by
    have htwo := (two_le_quorumSize shared.operators).1
    rw [threshold_eq_quorumSize]
    omega
  have hvalues' : ∀ k ∈ kids, (k.scalar : F) ≠ 0 ∧ NonVanishing (coefficients key
      (threshold shared.operators.toList.length) (env.randomKey i)) k.scalar := fun k hk =>
    ⟨henv.bls.scalar_ne_zero k,
      hvalues ⟨k.num⟩ (keyIds_ok hkids ▸ List.mem_map_of_mem hk)⟩
  unfold splitKey
  rw [hkids]
  simp only [splitWithRng_of_nonVanishing hthreshold hkey hvalues']
  exact ⟨_, rfl⟩

omit [DecidableEq F] [DecidableEq P] in
theorem exists_encryptKeyshares (henv : env.Lawful) {split : Split (KeyShare F R)} {i : ℕ}
    (hsize : ∀ share ∈ split.keyShares, env.rsa.size share.publicKey = 256) :
    ∃ encrypted, env.encryptKeyshares i split = .ok encrypted := by
  obtain ⟨es, hes⟩ : ∃ es, Checks.mapAll (fun e => env.encryptKeyshare i e.1 e.2)
      split.keyShares.zipIdx = .ok es := by
    apply Checks.exists_mapAll
    intro e he
    have hlong : (env.secretText e.1.keyshare).length + 11 ≤ env.rsa.size e.1.publicKey := by
      rw [hsize e.1 (List.fst_mem_of_mem_zipIdx he), secretText, Hex.length_encode,
        FixedBytes.length_eq]
      norm_num
    obtain ⟨cipher, hcipher⟩ := Option.isSome_iff_exists.mp
      (henv.rsa.encrypt_isSome e.1.publicKey (env.padding i e.2) _ hlong)
    unfold encryptKeyshare
    rw [hcipher]
    exact ⟨_, rfl⟩
  exact ⟨_, by rw [encryptKeyshares, hes]; rfl⟩

omit [DecidableEq P] in
theorem exists_output (henv : env.Lawful) {shared : SharedKeygenOptions} {nonce : UInt64}
    {privateKeys : List K} {sql : Sql C} {keys : List F}
    (hlength : privateKeys.length = shared.operators.toList.length)
    (hsize : ∀ k ∈ privateKeys, env.rsa.size (env.rsa.publicKey k) = 256)
    (h : env.Splittable shared keys) :
    ∃ output, env.runKeysplitter (.manual ⟨shared, nonce, privateKeys.map env.rsa.publicKey⟩) sql
      keys = .ok output := by
  obtain ⟨hids, hkeys⟩ := h
  obtain ⟨splits, hsplits⟩ : ∃ splits, env.createKeysharesForKeys nonce shared keys
      (privateKeys.map env.rsa.publicKey) = .ok splits := by
    apply Checks.exists_mapAll
    intro e he
    have hkey : keys[e.2]? = some e.1 := by
      obtain ⟨hlt, hget⟩ := List.mem_zipIdx' he
      rw [List.getElem?_eq_getElem hlt, hget]
    obtain ⟨hne, hvalues⟩ := hkeys e.2 e.1 hkey
    obtain ⟨shares, hshares⟩ := exists_splitKey henv hids hne hvalues
    exact ⟨_, by rw [createKeysharesForKey, hshares]; rfl⟩
  obtain ⟨encrypted, hencrypted⟩ : ∃ encrypted,
      Checks.mapAll (fun e => env.encryptKeyshares e.2 e.1) splits.zipIdx = .ok encrypted := by
    apply Checks.exists_mapAll
    intro e he
    apply exists_encryptKeyshares henv
    intro share hshare
    obtain ⟨j, hj⟩ := List.mem_iff_getElem?.mp (List.fst_mem_of_mem_zipIdx he)
    obtain ⟨x, -, hcreate⟩ := Checks.getElem?_of_mapAll hsplits hj
    obtain ⟨l, hl⟩ := List.mem_iff_getElem?.mp hshare
    rw [(createKeysharesForKey_ok hcreate).2, List.getElem?_zipWith_eq_some] at hl
    obtain ⟨id, rsa, -, hrsa, rfl⟩ := hl
    obtain ⟨privateKey, hprivate, rfl⟩ := List.mem_map.mp (List.mem_of_getElem? hrsa)
    exact hsize privateKey hprivate
  have hcount : encrypted.length = keys.length := by
    rw [Checks.length_of_mapAll hencrypted, List.length_zipIdx, Checks.length_of_mapAll hsplits,
      List.length_zipIdx]
  have hsplit : env.split (.manual ⟨shared, nonce, privateKeys.map env.rsa.publicKey⟩) sql keys =
      .ok splits := by
    simp only [split, manualSplit]
    rw [if_neg (by simp [hlength]), hsplits]
  simp only [runKeysplitter, hsplit, hencrypted, outputShares]
  rw [if_neg (not_not.mpr hcount)]
  exact ⟨_, rfl⟩


end KeysplitEnv

variable {F P G S R K Padding C : Type} [Field F] [DecidableEq F] [AddCommGroup P] [Module F P]
  [DecidableEq P] [AddCommGroup G] [Module F G]

/-- Keys are split for operators in increasing order, with RSA keys of 2048 bits paired to them.
If no value on the way is zero there is an output.  The payload for the `i`-th key then passes
every check of its event, with the ordinal `nonce + i`; every operator decrypts the secret whose
public key is listed for it; and every quorum of these secrets signs for the validator. -/
theorem keysplit_round_trip (env : KeysplitEnv F P G S R K Padding) (henv : env.Lawful)
    (shared : SharedKeygenOptions) (nonce : UInt64) (privateKeys : List K) (keys : List F)
    (sql : Sql C) (clusterId : C)
    (hpaired : privateKeys.length = shared.operators.toList.length)
    (hsize : ∀ k ∈ privateKeys, env.rsa.size (env.rsa.publicKey k) = 2048 / 8)
    (hnonce : nonce.toNat + keys.length ≤ 2 ^ 16) :
    (env.Splittable shared keys → ∃ output, env.runKeysplitter
      (.manual ⟨shared, nonce, privateKeys.map env.rsa.publicKey⟩) sql keys = .ok output) ∧
    ∀ output, env.runKeysplitter
      (.manual ⟨shared, nonce, privateKeys.map env.rsa.publicKey⟩) sql keys = .ok output →
      output.length = keys.length ∧ ∀ i out, output[i]? = some out →
        ∃ key, keys[i]? = some key ∧ out.payload.publicKey = env.bls.publicKey key ∧
        ∃ bytes signature shares, out.payload.sharesBytes = some bytes ∧
          parseShares bytes out.payload.operatorIds clusterId
            (env.bls.serializePublicKey out.payload.publicKey) = .ok (signature, shares) ∧
          env.RoundTrips shared privateKeys (nonce.toNat + i) key signature shares := by
  refine ⟨fun h => KeysplitEnv.exists_output henv hpaired hsize h, fun output hrun => ?_⟩
  obtain ⟨hlength, hsplit⟩ := KeysplitEnv.manual_split hrun
  obtain ⟨hcount, hlists⟩ := KeysplitEnv.lists_of_outputs hlength hsplit hrun
  refine ⟨hcount, fun i out hout => ?_⟩
  obtain ⟨key, hkey, hkeyLists⟩ := hlists i out hout
  have hi : i < keys.length := (List.getElem?_eq_some_iff.mp hkey).1
  have hordinal : nonce.toNat + i < 2 ^ 16 := by omega
  exact ⟨key, hkey, hkeyLists.payload_publicKey,
    hkeyLists.roundTrips henv hsize hordinal clusterId⟩

namespace Sample

theorem cast_ofLe_leBytes {w : ℕ} (hw : fieldSize ≤ 256 ^ w) (x : Scalar) :
    ((ofLe (leBytes w x.val) : ℕ) : Scalar) = x := by
  rw [ofLe_leBytes (lt_of_lt_of_le (ZMod.val_lt x) hw), ZMod.natCast_zmod_val]

theorem lawful_curve : curve.Lawful where
  scalar_injective a b h := by
    rw [ZMod.natCast_eq_natCast_iff'] at h
    have ha : a.toNat < 2 ^ 64 := a.toNat_lt
    have hb : b.toNat < 2 ^ 64 := b.toNat_lt
    rw [Nat.mod_eq_of_lt (lt_trans ha (by norm_num)),
      Nat.mod_eq_of_lt (lt_trans hb (by norm_num))] at h
    exact UInt64.toNat_inj.mp h
  point_fromPoint _ := rfl
  fromPoint_point _ _ h := (Option.some.inj h).symm
  verifyPoint_iff k root g := by simp [curve]
  generator_ne_zero := one_ne_zero
  decompress_serialize p hp := by
    simp only [curve]
    rw [cast_ofLe_leBytes (by norm_num), if_neg hp]
  deserialize_signature s := by
    simp only [curve]
    rw [cast_ofLe_leBytes (by norm_num)]
  deserialize_secretKey k _ := by
    simp only [curve]
    rw [cast_ofLe_leBytes (by norm_num)]

theorem lawful_cipher : cipher.Lawful where
  decrypt_encrypt k padding text c h := by
    simp only [cipher] at h ⊢
    split_ifs at h
    cases h
    have hshift : ((· - k) ∘ (· + k) : UInt8 → UInt8) = id := by
      funext b
      simp
    rw [List.map_map, hshift, List.map_id, List.dropWhile_append_of_pos (by simp)]
    rfl
  length_encrypt r padding text c h := by
    simp only [cipher] at h ⊢
    split_ifs at h with hlength
    cases h
    simp
    omega
  encrypt_isSome r padding text h := by
    simp only [cipher] at h ⊢
    rw [if_pos h]
    rfl

theorem splittable_sample : env.Splittable ⟨owner, operators⟩ [7, 8] := by
  refine ⟨by decide, fun i key hkey => ?_⟩
  rcases i with _ | _ | i
  · cases hkey
    exact ⟨by decide +kernel, by decide +kernel⟩
  · cases hkey
    exact ⟨by decide +kernel, by decide +kernel⟩
  · cases hkey

theorem keysplit_round_trip_sample :
    ∃ output, env.runKeysplitter (.manual ⟨⟨owner, operators⟩, 5, [10, 20, 30, 40]⟩) sql [7, 8] =
      .ok output ∧ output.length = 2 ∧ ∀ i out, output[i]? = some out →
        ∃ key bytes signature shares, out.payload.sharesBytes = some bytes ∧
          parseShares bytes out.payload.operatorIds 0
            (curve.serializePublicKey out.payload.publicKey) = .ok (signature, shares) ∧
          env.RoundTrips ⟨owner, operators⟩ [10, 20, 30, 40] (5 + i) key signature shares := by
  obtain ⟨hexists, hall⟩ := keysplit_round_trip env ⟨lawful_curve, lawful_cipher⟩
    ⟨owner, operators⟩ 5 [10, 20, 30, 40] [7, 8] sql 0 rfl (fun _ _ => rfl) (by decide)
  obtain ⟨output, hrun⟩ := hexists splittable_sample
  obtain ⟨hlength, hout⟩ := hall output hrun
  refine ⟨output, hrun, hlength, fun i out hi => ?_⟩
  obtain ⟨key, -, -, hrest⟩ := hout i out hi
  exact ⟨key, hrest⟩

end Sample

end Keysplit

end Anchor
