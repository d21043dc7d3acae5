import Mathlib
import Anchor.BlsLagrange.Shares
import Anchor.Database.Sql
import Anchor.Library.Hex

/-!
# Splitting validator keys among operators

The command line names the operators; their RSA keys come from the command line too, or
from the database of a node.  Each validator key is split into one share per operator,
the shares are encrypted, and the output lists them with the data an owner registers on
chain.
-/

namespace Anchor.Keysplit

open Ssz BlsLagrange

/-! ## The command line -/

/-- The code points with the property `White_Space`. -/
def isWhitespace (c : Char) : Bool :=
  (9 ≤ c.toNat && c.toNat ≤ 13) || (8192 ≤ c.toNat && c.toNat ≤ 8202) ||
    [32, 133, 160, 5760, 8232, 8233, 8239, 8287, 12288].contains c.toNat

def trim (text : List Char) : List Char :=
  ((text.dropWhile isWhitespace).reverse.dropWhile isWhitespace).reverse

inductive ParseIntError where
  | empty
  | invalidDigit
  | posOverflow
deriving DecidableEq

def parseDigits (n : ℕ) : List Char → Except ParseIntError UInt64
  | [] => .ok (UInt64.ofNat n)
  | c :: cs =>
    if !c.isDigit then .error .invalidDigit
    else if 2 ^ 64 ≤ 10 * n + (c.toNat - 48) then .error .posOverflow
    else parseDigits (10 * n + (c.toNat - 48)) cs

/-- `parse::<u64>`, which allows a plus sign. -/
def parseU64 : List Char → Except ParseIntError UInt64
  | [] => .error .empty
  | [c] => parseDigits 0 [c]
  | c :: cs => if c = '+' then parseDigits 0 cs else parseDigits 0 (c :: cs)

/-- Enforce that the user can only enter 4, 7, 10, or 13 operators; the set keeps their ids in
increasing order. -/
structure OperatorIds where
  toList : List OperatorId
  sorted : toList.Pairwise (· < ·)
  size : toList.length ∈ [4, 7, 10, 13]

inductive OperatorIdsError where
  | parse (e : ParseIntError)
  | invalidNumber (length : ℕ)
deriving DecidableEq

namespace OperatorIds

def numbers (text : List Char) : Except ParseIntError (List OperatorId) :=
  Checks.mapAll (fun s => (parseU64 s).map OperatorId.mk)
    (((text.splitOn ',').map trim).filter fun s => !s.isEmpty)

def toSet (ids : List OperatorId) : List OperatorId := ids.dedup.insertionSort (· ≤ ·)

variable {ids : List OperatorId}

theorem perm_toSet (h : ids.Nodup) : (toSet ids).Perm ids := by
  rw [toSet, h.dedup]
  exact List.perm_insertionSort _ _

theorem toSet_sorted (ids : List OperatorId) : (toSet ids).Pairwise (· < ·) := by
  have hle : (toSet ids).Pairwise (· ≤ ·) := List.pairwise_insertionSort _ _
  have hnodup : (toSet ids).Nodup :=
    (List.perm_insertionSort (· ≤ ·) ids.dedup).nodup_iff.mpr (List.nodup_dedup ids)
  exact (hle.and hnodup).imp fun h => lt_of_le_of_ne h.1 h.2

theorem toSet_eq_self (h : ids.Pairwise (· < ·)) : toSet ids = ids := by
  have hnodup : ids.Nodup := h.imp ne_of_lt
  exact (perm_toSet hnodup).eq_of_pairwise' ((toSet_sorted ids).imp le_of_lt) (h.imp le_of_lt)

def fromStr (text : List Char) : Except OperatorIdsError OperatorIds :=
  match numbers text with
  | .error e => .error (.parse e)
  | .ok ids =>
    if h : (toSet ids).length ∈ [4, 7, 10, 13] then .ok ⟨toSet ids, toSet_sorted ids, h⟩
    else .error (.invalidNumber (toSet ids).length)

theorem toList_of_fromStr {text : List Char} {operators : OperatorIds}
    (hnumbers : numbers text = .ok ids) (h : fromStr text = .ok operators) :
    operators.toList = toSet ids := by
  simp only [fromStr, hnumbers] at h
  split_ifs at h
  cases h
  rfl

end OperatorIds

structure SharedKeygenOptions where
  owner : Address
  operators : OperatorIds

structure Manual (R : Type) where
  shared : SharedKeygenOptions
  nonce : UInt64
  publicKeys : List R

structure Onchain where
  shared : SharedKeygenOptions

inductive KeygenSubcommands (R : Type) where
  | onchain (onchain : Onchain)
  | manual (manual : Manual R)

def KeygenSubcommands.shared {R : Type} : KeygenSubcommands R → SharedKeygenOptions
  | .onchain options => options.shared
  | .manual options => options.shared

/-! ## Splitting and encrypting -/

inductive KeysplitError where
  | invalidKeyLen
  | invalidOperator
  | database (e : DatabaseError)
  | keyId (e : BlsLagrange.Error)
  | splitFailure (e : BlsLagrange.Error)
  | encryption
  | mismatch
  | panicked
deriving DecidableEq

/-- RSA keys with padding as the encryption library applies it; public keys are of type `R`,
private ones of type `K`, and a padding is random. -/
structure Rsa (R K Padding : Type) where
  publicKey : K → R
  /-- The size of the modulus in bytes. -/
  size : R → ℕ
  encrypt : R → Padding → Bytes → Option Bytes
  decrypt : K → Bytes → Option Bytes

/-- The libraries that splitting relies on, and the random values it draws: the coefficients
and the paddings for each validator key. -/
structure KeysplitEnv (F P G S R K Padding : Type) [Field F] where
  bls : BlsKeys F P G S
  rsa : Rsa R K Padding
  publicKeyFromPem : Bytes → Option R
  keccak256 : Bytes → Hash256
  addressText : Address → Bytes
  randomKey : ℕ → ℕ → Fˣ
  padding : ℕ → ℕ → Padding

structure KeyShare (F R : Type) where
  id : OperatorId
  publicKey : R
  keyshare : F

structure EncryptedKeyShare (P R : Type) where
  id : OperatorId
  publicKey : R
  sharePublicKey : P
  encryptedKeyshare : Bytes

structure Split (α : Type) where
  keyShares : List α
  nonce : UInt64

def threshold (numOperators : ℕ) : ℕ := numOperators - (numOperators - 1) / 3

section SplitKey

variable {F R : Type} [Field F] [DecidableEq F]

def splitKey (shared : SharedKeygenOptions) (sk : F) (random : ℕ → Fˣ) :
    Except KeysplitError (List (KeyId × F)) :=
  match Checks.mapAll (fun id => KeyId.tryFrom id.val) shared.operators.toList with
  | .error e => .error (.keyId e)
  | .ok keyIds =>
    match splitWithRng sk (threshold shared.operators.toList.length) keyIds random with
    | .error (.error e) => .error (.splitFailure e)
    | .error .panicked => .error .panicked
    | .ok shares => .ok shares

/-- Each key share is zipped with an RSA public key. -/
def createKeysharesForKey (nonce : UInt64) (shared : SharedKeygenOptions) (secretKey : F)
    (publicKeys : List R) (random : ℕ → Fˣ) : Except KeysplitError (Split (KeyShare F R)) :=
  (splitKey shared secretKey random).map fun splitKeys =>
    { keyShares := List.zipWith (fun (split : KeyId × F) rsa => ⟨⟨split.1.num⟩, rsa, split.2⟩)
        splitKeys publicKeys
      nonce }

end SplitKey

end Anchor.Keysplit

namespace Anchor.Sql

variable {C : Type}

def getOperatorKey (sql : Sql C) (id : OperatorId) : Except DatabaseError Ssz.Bytes :=
  if !storable id then .error .sqlError
  else
    match sql.operators.find? id with
    | some row => if row.removed then .error .sqlError else .ok row.publicKey
    | none => .error .sqlError

/-- The nonce an owner used last; a row that has none cannot be read. -/
def getNonceForOwner (sql : Sql C) (owner : Address) : Except DatabaseError (Option ℕ) :=
  match sql.owners.find? owner with
  | none => .ok none
  | some row =>
    match row.nonce with
    | some nonce => .ok (some nonce)
    | none => .error .sqlError

end Anchor.Sql

namespace Anchor.Keysplit

open Ssz BlsLagrange

/-! ## The output -/

structure Payload (P : Type) where
  publicKey : P
  operatorIds : List OperatorId
  sharesData : Bytes

structure Operator (R : Type) where
  id : OperatorId
  publicKey : R

structure OutputKeyData (P R : Type) where
  ownerNonce : UInt64
  ownerAddress : Address
  publicKey : P
  operators : List (Operator R)

structure OutputKeyShare (P R : Type) where
  data : OutputKeyData P R
  payload : Payload P

def nonceMessage (addressText : Address → Bytes) (owner : Address) (nonce : ℕ) : Bytes :=
  addressText owner ++ [58] ++ (Nat.toDigits 10 nonce).map fun c => UInt8.ofNat c.toNat

def hexMarker : Bytes := [48, 120]

namespace KeysplitEnv

variable {F P G S R K Padding C : Type} [Field F] [DecidableEq F] [AddCommGroup P] [Module F P]
  [AddCommGroup G] [Module F G] (env : KeysplitEnv F P G S R K Padding)

def createKeysharesForKeys (nonce : UInt64) (shared : SharedKeygenOptions) (secretKeys : List F)
    (publicKeys : List R) : Except KeysplitError (List (Split (KeyShare F R))) :=
  Checks.mapAll (fun e => createKeysharesForKey (nonce + UInt64.ofNat e.2) shared e.1 publicKeys
    (env.randomKey e.2)) secretKeys.zipIdx

def manualSplit (manual : Manual R) (secretKeys : List F) :
    Except KeysplitError (List (Split (KeyShare F R))) :=
  if manual.shared.operators.toList.length ≠ manual.publicKeys.length then .error .invalidKeyLen
  else env.createKeysharesForKeys manual.nonce manual.shared secretKeys manual.publicKeys

/-- The keys are fetched one at a time to maintain order. -/
def getKeysForOperators (sql : Sql C) (operators : List OperatorId) :
    Except KeysplitError (List R) :=
  Checks.mapAll (fun id =>
    match sql.getOperatorKey id with
    | .error _ => .error .invalidOperator
    | .ok pem => (env.publicKeyFromPem pem).elim (.error .panicked) .ok) operators

/-- The database is the one that the sync of the chain has filled. -/
def onchainSplit (onchain : Onchain) (sql : Sql C) (secretKeys : List F) :
    Except KeysplitError (List (Split (KeyShare F R))) :=
  match env.getKeysForOperators sql onchain.shared.operators.toList with
  | .error e => .error e
  | .ok publicKeys =>
    match sql.getNonceForOwner onchain.shared.owner with
    | .error e => .error (.database e)
    | .ok nonce =>
      env.createKeysharesForKeys (nonce.elim 0 fun n => UInt64.ofNat n + 1) onchain.shared
        secretKeys publicKeys

/-- A share is encrypted as hexadecimal text. -/
def secretText (keyshare : F) : Bytes := Hex.encode (env.bls.serializeSecretKey keyshare).toList

def encryptKeyshare (i : ℕ) (share : KeyShare F R) (j : ℕ) :
    Except KeysplitError (EncryptedKeyShare P R) :=
  match env.rsa.encrypt share.publicKey (env.padding i j) (env.secretText share.keyshare) with
  | none => .error .encryption
  | some encrypted =>
    .ok { id := share.id
          publicKey := share.publicKey
          sharePublicKey := env.bls.publicKey share.keyshare
          encryptedKeyshare := encrypted }

def encryptKeyshares (i : ℕ) (split : Split (KeyShare F R)) :
    Except KeysplitError (Split (EncryptedKeyShare P R)) :=
  (Checks.mapAll (fun e => env.encryptKeyshare i e.1 e.2) split.keyShares.zipIdx).map
    fun keyShares => { keyShares, nonce := split.nonce }

def createSignature (key : F) (nonce : UInt64) (owner : Address) : Bytes :=
  Hex.encode (env.bls.serializeSignature (env.bls.sign key
    (env.keccak256 (nonceMessage env.addressText owner nonce.toNat)))).toList

/-- The signature, then all share public keys, then all encrypted shares. -/
def Payload.new (encryptedKeys : List (EncryptedKeyShare P R)) (key : F) (nonce : UInt64)
    (owner : Address) : Payload P where
  publicKey := env.bls.publicKey key
  operatorIds := encryptedKeys.map (·.id)
  sharesData := hexMarker ++ env.createSignature key nonce owner ++
    encryptedKeys.flatMap (fun e => Hex.encode (env.bls.serializePublicKey e.sharePublicKey).toList)
      ++ encryptedKeys.flatMap fun e => Hex.encode e.encryptedKeyshare

def outputKeyShare (owner : Address) (split : Split (EncryptedKeyShare P R)) (key : F) :
    OutputKeyShare P R where
  data := { ownerNonce := split.nonce
            ownerAddress := owner
            publicKey := env.bls.publicKey key
            operators := split.keyShares.map fun e => ⟨e.id, e.publicKey⟩ }
  payload := Payload.new env split.keyShares key split.nonce owner

def outputShares (encryptedKeys : List (Split (EncryptedKeyShare P R)))
    (shared : SharedKeygenOptions) (keys : List F) :
    Except KeysplitError (List (OutputKeyShare P R)) :=
  if encryptedKeys.length ≠ keys.length then .error .mismatch
  else .ok (List.zipWith (env.outputKeyShare shared.owner) encryptedKeys keys)

def split (command : KeygenSubcommands R) (sql : Sql C) (keys : List F) :
    Except KeysplitError (List (Split (KeyShare F R))) :=
  match command with
  | .manual manual => env.manualSplit manual keys
  | .onchain onchain => env.onchainSplit onchain sql keys

/-- `run_keysplitter`, from the decrypted validator keys to the output. -/
def runKeysplitter (command : KeygenSubcommands R) (sql : Sql C) (keys : List F) :
    Except KeysplitError (List (OutputKeyShare P R)) :=
  match env.split command sql keys with
  | .error e => .error e
  | .ok splits =>
    match Checks.mapAll (fun e => env.encryptKeyshares e.2 e.1) splits.zipIdx with
    | .error e => .error e
    | .ok encrypted => env.outputShares encrypted command.shared keys

/-! ## What an output lists -/

/-- The share of an operator in the `i`-th validator key: the value of the polynomial at the
operator's id. -/
def shareOf (shared : SharedKeygenOptions) (i : ℕ) (key : F) (id : OperatorId) : F :=
  SecretSharing.share
    (coefficients key (threshold shared.operators.toList.length) (env.randomKey i)) id.val.toNat

/-- The output for the `i`-th key lists every operator with an RSA key of the given ones, and
with its share, encrypted under that RSA key. -/
structure Lists (shared : SharedKeygenOptions) (nonce : UInt64) (publicKeys : List R) (i : ℕ)
    (key : F) (out : OutputKeyShare P R) : Prop where
  key_ne_zero : key ≠ 0
  id_ne_zero : ∀ id ∈ shared.operators.toList, id.val ≠ 0
  share_ne_zero : ∀ id ∈ shared.operators.toList, env.shareOf shared i key id ≠ 0
  length_eq : publicKeys.length = shared.operators.toList.length
  data_eq : out.data =
    { ownerNonce := nonce + UInt64.ofNat i
      ownerAddress := shared.owner
      publicKey := env.bls.publicKey key
      operators := List.zipWith Operator.mk shared.operators.toList publicKeys }
  payload_publicKey : out.payload.publicKey = env.bls.publicKey key
  operatorIds_eq : out.payload.operatorIds = shared.operators.toList
  sharesData : ∃ encrypted : List Bytes, encrypted.length = shared.operators.toList.length ∧
    (∀ j o c, out.data.operators[j]? = some o → encrypted[j]? = some c →
      env.rsa.encrypt o.publicKey (env.padding i j)
        (env.secretText (env.shareOf shared i key o.id)) = some c) ∧
    out.payload.sharesData =
      hexMarker ++ env.createSignature key (nonce + UInt64.ofNat i) shared.owner ++
        shared.operators.toList.flatMap (fun id => Hex.encode
          (env.bls.serializePublicKey (env.bls.publicKey (env.shareOf shared i key id))).toList) ++
        encrypted.flatMap Hex.encode

end KeysplitEnv

section SplitKey

variable {F R : Type} [Field F] [DecidableEq F]

theorem keyIds_ok {operators : List OperatorId} {keyIds : List KeyId}
    (h : Checks.mapAll (fun id : OperatorId => KeyId.tryFrom id.val) operators = .ok keyIds) :
    keyIds.map (fun k => OperatorId.mk k.num) = operators := by
  have hmap := Checks.map_of_mapAll (f := id) (g := fun k : KeyId => OperatorId.mk k.num) ?_ h
  · rwa [List.map_id] at hmap
  · intro id keyId hid
    unfold KeyId.tryFrom at hid
    split_ifs at hid
    cases hid
    rfl

theorem splitKey_ok {shared : SharedKeygenOptions} {sk : F} {random : ℕ → Fˣ}
    {shares : List (KeyId × F)} (h : splitKey shared sk random = .ok shares) :
    sk ≠ 0 ∧ (∀ id ∈ shared.operators.toList, id.val ≠ 0 ∧
      SecretSharing.share (coefficients sk (threshold shared.operators.toList.length) random)
        (id.val.toNat : F) ≠ 0) ∧
      shares.map (fun e => (OperatorId.mk e.1.num, e.2)) =
        shared.operators.toList.map fun id => (id, SecretSharing.share
          (coefficients sk (threshold shared.operators.toList.length) random) (id.val.toNat : F)) :=
    by
  unfold splitKey at h
  split at h
  · cases h
  · rename_i keyIds hkeyIds
    split at h
    · cases h
    · cases h
    · rename_i shares' hshares
      cases h
      have hoperators := keyIds_ok hkeyIds
      obtain ⟨-, hsk, rfl, hne⟩ := splitWithRng_ok hshares
      generalize coefficients sk (threshold shared.operators.toList.length) random = cs at hne ⊢
      refine ⟨hsk, ?_, ?_⟩
      · intro id hid
        rw [← hoperators] at hid
        obtain ⟨keyId, hkeyId, rfl⟩ := List.mem_map.mp hid
        exact ⟨keyId.ne_zero, hne keyId hkeyId⟩
      · rw [← hoperators, List.map_map, List.map_map]
        rfl

theorem createKeysharesForKey_ok {nonce : UInt64} {shared : SharedKeygenOptions} {sk : F}
    {publicKeys : List R} {random : ℕ → Fˣ} {split : Split (KeyShare F R)}
    (h : createKeysharesForKey nonce shared sk publicKeys random = .ok split) :
    split.nonce = nonce ∧ split.keyShares = List.zipWith (fun id rsa => ⟨id, rsa,
      SecretSharing.share (coefficients sk (threshold shared.operators.toList.length) random)
        (id.val.toNat : F)⟩) shared.operators.toList publicKeys := by
  obtain ⟨shares, hshares, rfl⟩ := Checks.map_eq_ok_iff.mp h
  obtain ⟨-, -, hmap⟩ := splitKey_ok hshares
  refine ⟨rfl, ?_⟩
  have hzip := congrArg (fun l => List.zipWith (fun (e : OperatorId × F) (rsa : R) =>
    (⟨e.1, rsa, e.2⟩ : KeyShare F R)) l publicKeys) hmap
  simpa only [List.zipWith_map_left] using hzip

end SplitKey

namespace KeysplitEnv

variable {F P G S R K Padding C : Type} [Field F] [DecidableEq F] [AddCommGroup P] [Module F P]
  [AddCommGroup G] [Module F G] {env : KeysplitEnv F P G S R K Padding}

omit [DecidableEq F] [AddCommGroup G] [Module F G] in
theorem encryptKeyshare_ok {i j : ℕ} {share : KeyShare F R} {e : EncryptedKeyShare P R}
    (h : env.encryptKeyshare i share j = .ok e) :
    e.id = share.id ∧ e.publicKey = share.publicKey ∧
      e.sharePublicKey = env.bls.publicKey share.keyshare ∧
      env.rsa.encrypt share.publicKey (env.padding i j) (env.secretText share.keyshare) =
        some e.encryptedKeyshare := by
  unfold encryptKeyshare at h
  split at h
  · cases h
  · rename_i encrypted hencrypted
    cases h
    exact ⟨rfl, rfl, rfl, hencrypted⟩

variable {encrypted : Split (EncryptedKeyShare P R)}

omit [DecidableEq F] [AddCommGroup G] [Module F G] in
theorem encryptKeyshares_ok {i : ℕ} {split : Split (KeyShare F R)}
    (h : env.encryptKeyshares i split = .ok encrypted) :
    encrypted.nonce = split.nonce ∧
      encrypted.keyShares.map (fun e => (e.id, e.publicKey, e.sharePublicKey)) =
        split.keyShares.map (fun share =>
          (share.id, share.publicKey, env.bls.publicKey share.keyshare)) ∧
      ∀ j e, encrypted.keyShares[j]? = some e → ∃ share, split.keyShares[j]? = some share ∧
        env.rsa.encrypt share.publicKey (env.padding i j) (env.secretText share.keyshare) =
          some e.encryptedKeyshare := by
  obtain ⟨es, hes, rfl⟩ := Checks.map_eq_ok_iff.mp h
  refine ⟨rfl, ?_, ?_⟩
  · have hmap := Checks.map_of_mapAll (g := fun e => (e.id, e.publicKey, e.sharePublicKey))
      (f := fun x => (x.1.id, x.1.publicKey, env.bls.publicKey x.1.keyshare)) ?_ hes
    · rw [hmap, ← List.zipIdx_map_fst 0 split.keyShares, List.map_map, List.zipIdx_map_fst]
      rfl
    · intro x e he
      obtain ⟨hid, hkey, hshare, -⟩ := encryptKeyshare_ok he
      rw [hid, hkey, hshare]
  · intro j e he
    obtain ⟨x, hx, hencrypt⟩ := Checks.getElem?_of_mapAll hes he
    rw [List.getElem?_zipIdx, Option.map_eq_some_iff] at hx
    obtain ⟨share, hshare, rfl⟩ := hx
    refine ⟨share, hshare, ?_⟩
    simpa using (encryptKeyshare_ok hencrypt).2.2.2

theorem zipWith_left {α β γ : Type*} {xs : List α} {ys : List β} (h : xs.length ≤ ys.length)
    (f : α → γ) : List.zipWith (fun x _ => f x) xs ys = xs.map f := by
  have hfst := congrArg (List.map f) (List.map_fst_zip h)
  rwa [List.map_map, List.zip, List.map_zipWith] at hfst

theorem lists_outputKeyShare {shared : SharedKeygenOptions} {nonce : UInt64} {publicKeys : List R}
    {i : ℕ} {key : F} {split : Split (KeyShare F R)}
    (hlength : publicKeys.length = shared.operators.toList.length)
    (hsplit : createKeysharesForKey (nonce + UInt64.ofNat i) shared key publicKeys
      (env.randomKey i) = .ok split)
    (hencrypted : env.encryptKeyshares i split = .ok encrypted) :
    env.Lists shared nonce publicKeys i key (env.outputKeyShare shared.owner encrypted key) := by
  obtain ⟨shares, hshares, -⟩ := Checks.map_eq_ok_iff.mp hsplit
  obtain ⟨hkey, hids, -⟩ := splitKey_ok hshares
  obtain ⟨hnonce, hkeyShares⟩ := createKeysharesForKey_ok hsplit
  obtain ⟨hnonce', hlisted, hdata⟩ := encryptKeyshares_ok hencrypted
  rw [hkeyShares, List.map_zipWith] at hlisted
  have hoperators : encrypted.keyShares.map (fun e => (⟨e.id, e.publicKey⟩ : Operator R)) =
      List.zipWith Operator.mk shared.operators.toList publicKeys := by
    have hmap := congrArg (List.map fun x => (⟨x.1, x.2.1⟩ : Operator R)) hlisted
    rwa [List.map_map, List.map_zipWith] at hmap
  have hnonces : encrypted.nonce = nonce + UInt64.ofNat i := hnonce'.trans hnonce
  refine ⟨hkey, fun id hid => (hids id hid).1, fun id hid => (hids id hid).2, hlength, ?_, rfl, ?_,
    encrypted.keyShares.map (·.encryptedKeyshare), ?_, ?_, ?_⟩
  · rw [outputKeyShare, hnonces, hoperators]
  · have hmap := congrArg (List.map Prod.fst) hlisted
    rw [List.map_map, List.map_zipWith] at hmap
    exact hmap.trans ((zipWith_left hlength.ge id).trans (List.map_id _))
  · have hcount := congrArg List.length hlisted
    rw [List.length_map, List.length_zipWith, hlength, min_self] at hcount
    rw [List.length_map, hcount]
  · intro j o c ho hc
    rw [List.getElem?_map, Option.map_eq_some_iff] at hc
    obtain ⟨e, he, rfl⟩ := hc
    obtain ⟨share, hshare, hencrypt⟩ := hdata j e he
    change (encrypted.keyShares.map fun e => (⟨e.id, e.publicKey⟩ : Operator R))[j]? = _ at ho
    rw [hkeyShares, List.getElem?_zipWith_eq_some] at hshare
    rw [hoperators, List.getElem?_zipWith_eq_some] at ho
    obtain ⟨id, rsa, hid, hrsa, rfl⟩ := hshare
    obtain ⟨id', rsa', hid', hrsa', rfl⟩ := ho
    cases hid.symm.trans hid'
    cases hrsa.symm.trans hrsa'
    exact hencrypt
  · have hpublic := congrArg (List.map fun x => x.2.2) hlisted
    rw [List.map_map, List.map_zipWith] at hpublic
    have hkeys : encrypted.keyShares.map (·.sharePublicKey) =
        shared.operators.toList.map fun id => env.bls.publicKey (env.shareOf shared i key id) :=
      hpublic.trans (zipWith_left hlength.ge fun id =>
        env.bls.publicKey (env.shareOf shared i key id))
    have hflat := congrArg (List.flatMap fun p =>
      Hex.encode (env.bls.serializePublicKey p).toList) hkeys
    rw [List.flatMap_map, List.flatMap_map] at hflat
    rw [List.flatMap_map, ← hflat, ← hnonces]
    rfl

theorem lists_of_outputs {command : KeygenSubcommands R} {nonce : UInt64} {publicKeys : List R}
    {sql : Sql C} {keys : List F} {output : List (OutputKeyShare P R)}
    (hlength : publicKeys.length = command.shared.operators.toList.length)
    (hsplit : env.split command sql keys =
      env.createKeysharesForKeys nonce command.shared keys publicKeys)
    (h : env.runKeysplitter command sql keys = .ok output) :
    output.length = keys.length ∧ ∀ i out, output[i]? = some out →
      ∃ key, keys[i]? = some key ∧ env.Lists command.shared nonce publicKeys i key out := by
  unfold runKeysplitter at h
  rw [hsplit] at h
  split at h
  · cases h
  · rename_i splits hsplits
    split at h
    · cases h
    · rename_i encrypted hencrypted
      unfold outputShares at h
      split_ifs at h with hcount
      cases h
      rw [not_not] at hcount
      refine ⟨by rw [List.length_zipWith, hcount, min_self], ?_⟩
      intro i out hout
      rw [List.getElem?_zipWith_eq_some] at hout
      obtain ⟨e, key, he, hkey, rfl⟩ := hout
      obtain ⟨x, hx, hencrypt⟩ := Checks.getElem?_of_mapAll hencrypted he
      rw [List.getElem?_zipIdx, Option.map_eq_some_iff] at hx
      obtain ⟨split, hsplit, rfl⟩ := hx
      obtain ⟨x, hx, hcreate⟩ := Checks.getElem?_of_mapAll hsplits hsplit
      rw [List.getElem?_zipIdx, Option.map_eq_some_iff] at hx
      obtain ⟨key', hkey', rfl⟩ := hx
      cases hkey.symm.trans hkey'
      rw [Nat.zero_add] at hencrypt hcreate
      exact ⟨key, hkey, lists_outputKeyShare hlength hcreate hencrypt⟩

end KeysplitEnv

end Anchor.Keysplit
