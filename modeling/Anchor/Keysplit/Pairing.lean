import Mathlib
import Anchor.Keysplit.Split

/-!
# Pairing shares with the keys of their operators

The ids of the operators pass through a sorted set, while RSA keys that are given by hand
keep their order, and the two are paired by position.  Keys fetched from the database are
fetched in the order of the set.
-/

namespace Anchor.Keysplit

open Ssz

namespace KeysplitEnv

variable {F P G S R K Padding C : Type} [Field F] [DecidableEq F] [AddCommGroup P] [Module F P]
  [AddCommGroup G] [Module F G] {env : KeysplitEnv F P G S R K Padding}

/-- The output for the `i`-th key has every operator's share encrypted under an RSA key that
belongs to the operator. -/
def Paired (env : KeysplitEnv F P G S R K Padding) (owns : OperatorId → R → Prop)
    (shared : SharedKeygenOptions) (nonce : UInt64) (i : ℕ) (key : F)
    (out : OutputKeyShare P R) : Prop :=
  ∃ publicKeys, env.Lists shared nonce publicKeys i key out ∧
    List.Forall₂ owns shared.operators.toList publicKeys

variable {publicKeys : List R}

theorem map_publicKey_zipWith {ids : List OperatorId}
    (h : publicKeys.length = ids.length) :
    (List.zipWith Operator.mk ids publicKeys).map (·.publicKey) = publicKeys := by
  have hsnd := List.map_snd_zip h.le
  rw [List.zip, List.map_zipWith] at hsnd
  rwa [List.map_zipWith]

omit [DecidableEq F] in
theorem Lists.publicKeys_eq {shared : SharedKeygenOptions} {nonce : UInt64}
    {publicKeys publicKeys' : List R} {i : ℕ} {key : F} {out : OutputKeyShare P R}
    (h : env.Lists shared nonce publicKeys i key out)
    (h' : env.Lists shared nonce publicKeys' i key out) : publicKeys = publicKeys' := by
  have hdata := congrArg (fun data => data.operators.map (·.publicKey))
    (h.data_eq.symm.trans h'.data_eq)
  simpa only [map_publicKey_zipWith h.length_eq, map_publicKey_zipWith h'.length_eq] using hdata

def EachPaired (env : KeysplitEnv F P G S R K Padding) (owns : OperatorId → R → Prop)
    (shared : SharedKeygenOptions) (nonce : UInt64) (keys : List F)
    (output : List (OutputKeyShare P R)) : Prop :=
  output.length = keys.length ∧ ∀ i out, output[i]? = some out →
    ∃ key, keys[i]? = some key ∧ env.Paired owns shared nonce i key out

variable {sql : Sql C} {output : List (OutputKeyShare P R)}

theorem eachPaired_iff {command : KeygenSubcommands R} {nonce : UInt64} {keys : List F}
    {owns : OperatorId → R → Prop} (hkeys : keys ≠ [])
    (hlength : publicKeys.length = command.shared.operators.toList.length)
    (hsplit : env.split command sql keys =
      env.createKeysharesForKeys nonce command.shared keys publicKeys)
    (h : env.runKeysplitter command sql keys = .ok output) :
    env.EachPaired owns command.shared nonce keys output ↔
      List.Forall₂ owns command.shared.operators.toList publicKeys := by
  obtain ⟨hcount, hlists⟩ := lists_of_outputs hlength hsplit h
  constructor
  · rintro ⟨-, hpaired⟩
    have hpos : 0 < output.length := hcount ▸ List.length_pos_iff.mpr hkeys
    obtain ⟨key, hkey, hkeyLists⟩ := hlists 0 _ (List.getElem?_eq_getElem hpos)
    obtain ⟨key', hkey', publicKeys', hlists', howns⟩ :=
      hpaired 0 _ (List.getElem?_eq_getElem hpos)
    cases hkey.symm.trans hkey'
    rwa [hkeyLists.publicKeys_eq hlists']
  · intro howns
    refine ⟨hcount, fun i out hout => ?_⟩
    obtain ⟨key, hkey, hkeyLists⟩ := hlists i out hout
    exact ⟨key, hkey, publicKeys, hkeyLists, howns⟩

theorem manual_split {manual : Manual R} {keys : List F}
    (h : env.runKeysplitter (.manual manual) sql keys = .ok output) :
    manual.publicKeys.length = manual.shared.operators.toList.length ∧
      env.split (.manual manual) sql keys =
        env.createKeysharesForKeys manual.nonce manual.shared keys manual.publicKeys := by
  by_cases hlength : manual.shared.operators.toList.length = manual.publicKeys.length
  · exact ⟨hlength.symm, if_neg (not_not.mpr hlength)⟩
  · have herror : env.split (.manual manual) sql keys = .error .invalidKeyLen := if_pos hlength
    rw [runKeysplitter, herror] at h
    cases h

theorem onchain_split {onchain : Onchain} {keys : List F}
    (h : env.runKeysplitter (.onchain onchain) sql keys = .ok output) :
    ∃ publicKeys nonce,
      env.getKeysForOperators sql onchain.shared.operators.toList = .ok publicKeys ∧
      env.split (.onchain onchain) sql keys =
        env.createKeysharesForKeys nonce onchain.shared keys publicKeys := by
  have hsplit : ∃ splits, env.split (.onchain onchain) sql keys = .ok splits := by
    unfold runKeysplitter at h
    split at h
    · cases h
    · exact ⟨_, ‹_›⟩
  obtain ⟨splits, hsplit⟩ := hsplit
  simp only [split, onchainSplit] at hsplit ⊢
  cases hkeys : env.getKeysForOperators sql onchain.shared.operators.toList with
  | error e => simp [hkeys] at hsplit
  | ok publicKeys =>
    cases hnonce : sql.getNonceForOwner onchain.shared.owner with
    | error e => simp [hkeys, hnonce] at hsplit
    | ok nonce => exact ⟨publicKeys, _, rfl, rfl⟩

def OwnsOnchain (env : KeysplitEnv F P G S R K Padding) (sql : Sql C) (id : OperatorId)
    (publicKey : R) : Prop :=
  ∃ row, sql.operators.find? id = some row ∧ row.removed = false ∧
    env.publicKeyFromPem row.publicKey = some publicKey

omit [DecidableEq F] [AddCommGroup P] [Module F P] [AddCommGroup G] [Module F G] in
theorem getKeysForOperators_ok {operators : List OperatorId}
    (h : env.getKeysForOperators sql operators = .ok publicKeys) :
    List.Forall₂ (env.OwnsOnchain sql) operators publicKeys := by
  have hlength := Checks.length_of_mapAll h
  refine List.forall₂_iff_get.mpr ⟨hlength.symm, fun i hi hi' => ?_⟩
  obtain ⟨id, hid, hkey⟩ := Checks.getElem?_of_mapAll h (List.getElem?_eq_getElem hi')
  rw [List.getElem?_eq_getElem hi, Option.some.injEq] at hid
  subst hid
  simp only [Sql.getOperatorKey] at hkey
  split at hkey
  · cases hkey
  · rename_i pem hpem
    split_ifs at hpem
    split at hpem
    · rename_i row hrow
      split_ifs at hpem with hremoved
      cases hpem
      refine ⟨row, hrow, by simpa using hremoved, ?_⟩
      cases hdecode : env.publicKeyFromPem row.publicKey with
      | none => simp [hdecode] at hkey
      | some publicKey => simpa [hdecode] using hkey
    · cases hpem

end KeysplitEnv

/-- Every RSA key stands where the id of its operator stands in increasing order. -/
def KeysInIdOrder {R : Type} (ids : List OperatorId) (publicKeys : List R) : Prop :=
  (OperatorIds.toSet ids).zip publicKeys ⊆ ids.zip publicKeys

theorem forall₂_zip_iff_keysInIdOrder {R : Type} {ids : List OperatorId} {publicKeys : List R}
    (hlength : publicKeys.length = (OperatorIds.toSet ids).length) :
    List.Forall₂ (fun id rsa => (id, rsa) ∈ ids.zip publicKeys) (OperatorIds.toSet ids)
      publicKeys ↔ KeysInIdOrder ids publicKeys := by
  rw [List.forall₂_iff_zip]
  constructor
  · rintro ⟨-, h⟩ ⟨id, rsa⟩ hmem
    exact h hmem
  · intro h
    exact ⟨hlength.symm, fun hmem => h hmem⟩

theorem keysInIdOrder_iff {R : Type} {ids : List OperatorId} {publicKeys : List R}
    (hids : ids.Nodup) (hlength : publicKeys.length = ids.length) (hkeys : publicKeys.Nodup) :
    KeysInIdOrder ids publicKeys ↔ ids.Pairwise (· < ·) := by
  constructor
  · intro h
    have hcount : (OperatorIds.toSet ids).length = ids.length :=
      (OperatorIds.perm_toSet hids).length_eq
    have hsame : OperatorIds.toSet ids = ids := by
      refine List.ext_getElem hcount fun k hk hk' => ?_
      have hkey : k < publicKeys.length := hlength ▸ hk'
      have hzip : ((OperatorIds.toSet ids)[k], publicKeys[k]) ∈
          (OperatorIds.toSet ids).zip publicKeys := by
        rw [← List.getElem_zip (h := by rw [List.length_zip]; exact lt_min hk hkey)]
        exact List.getElem_mem _
      obtain ⟨j, hj, heq⟩ := List.getElem_of_mem (h hzip)
      rw [List.getElem_zip, Prod.mk.injEq] at heq
      have hjk : j = k := (hkeys.getElem_inj_iff).mp heq.2
      subst hjk
      exact heq.1.symm
    rw [← hsame]
    exact OperatorIds.toSet_sorted ids
  · intro h
    rw [KeysInIdOrder, OperatorIds.toSet_eq_self h]
    exact List.Subset.refl _

variable {F P G S R K Padding C : Type} [Field F] [DecidableEq F] [AddCommGroup P] [Module F P]
  [AddCommGroup G] [Module F G]

/-- Every share is encrypted under the RSA key of its operator: with keys given by hand exactly
if they stand in the order of the ids, which for different keys means that the ids are given
in increasing order; with keys from the chain always. -/
theorem shares_paired_iff_keys_in_id_order (env : KeysplitEnv F P G S R K Padding) (sql : Sql C)
    (keys : List F) (output : List (OutputKeyShare P R)) :
    (∀ (text : List Char) (ids : List OperatorId) (manual : Manual R),
      OperatorIds.numbers text = .ok ids → ids.Nodup →
      OperatorIds.fromStr text = .ok manual.shared.operators → keys ≠ [] →
      env.runKeysplitter (.manual manual) sql keys = .ok output →
      (env.EachPaired (fun id rsa => (id, rsa) ∈ ids.zip manual.publicKeys) manual.shared
          manual.nonce keys output ↔ KeysInIdOrder ids manual.publicKeys) ∧
        (manual.publicKeys.Nodup →
          (KeysInIdOrder ids manual.publicKeys ↔ ids.Pairwise (· < ·)))) ∧
    ∀ onchain : Onchain, env.runKeysplitter (.onchain onchain) sql keys = .ok output →
      ∃ nonce, env.EachPaired (env.OwnsOnchain sql) onchain.shared nonce keys output := by
  constructor
  · intro text ids manual hnumbers hids hoperators hkeys hrun
    obtain ⟨hlength, hsplit⟩ := KeysplitEnv.manual_split hrun
    have hset := OperatorIds.toList_of_fromStr hnumbers hoperators
    refine ⟨?_, fun hdistinct => keysInIdOrder_iff hids ?_ hdistinct⟩
    · refine (KeysplitEnv.eachPaired_iff hkeys hlength hsplit hrun).trans ?_
      change List.Forall₂ _ manual.shared.operators.toList _ ↔ _
      rw [hset] at hlength ⊢
      exact forall₂_zip_iff_keysInIdOrder hlength
    · rw [hlength, hset, (OperatorIds.perm_toSet hids).length_eq]
  · intro onchain hrun
    obtain ⟨publicKeys, nonce, hpublicKeys, hsplit⟩ := KeysplitEnv.onchain_split hrun
    have howns := KeysplitEnv.getKeysForOperators_ok hpublicKeys
    have hlength : publicKeys.length = onchain.shared.operators.toList.length :=
      howns.length_eq.symm
    obtain ⟨hcount, hlists⟩ := KeysplitEnv.lists_of_outputs hlength hsplit hrun
    refine ⟨nonce, hcount, fun i out hout => ?_⟩
    obtain ⟨key, hkey, hkeyLists⟩ := hlists i out hout
    exact ⟨key, hkey, publicKeys, hkeyLists, howns⟩

/-! ## Sample runs -/

namespace Sample

abbrev fieldSize : ℕ := 2 ^ 89 - 1

instance prime_fieldSize : Fact fieldSize.Prime :=
  ⟨lucas_lehmer_sufficiency 89 (by norm_num) (by norm_num)⟩

abbrev Scalar := ZMod fieldSize

def curve : BlsKeys Scalar Scalar Scalar Scalar where
  decompress key := if (ofLe key.toList : Scalar) = 0 then none else some (ofLe key.toList)
  point := some
  fromPoint g := g
  verifyPoint key root g := decide (g = key * ofLe root.toList)
  generator := 1
  hashToCurve root := ofLe root.toList
  serializePublicKey p := ⟨leBytes 48 p.val, length_leBytes _ _⟩
  serializeSignature s := ⟨leBytes 96 s.val, length_leBytes _ _⟩
  deserializeSignature bytes := some (ofLe bytes)
  serializeSecretKey k := ⟨leBytes 32 k.val, length_leBytes _ _⟩
  deserializeSecretKey bytes := some (ofLe bytes.toList)

def cipher : Rsa UInt8 UInt8 Unit where
  publicKey k := k
  size _ := 256
  encrypt key _ text :=
    if text.length + 11 ≤ 256 then
      some ((List.replicate (255 - text.length) 1 ++ 0 :: text).map (· + key))
    else none
  decrypt key text := some (((text.map (· - key)).dropWhile (· = 1)).drop 1)

theorem length_digest (bytes : Bytes) : ((bytes ++ List.replicate 32 0).take 32).length = 32 := by
  simp

def env : KeysplitEnv Scalar Scalar Scalar Scalar UInt8 UInt8 Unit where
  bls := curve
  rsa := cipher
  publicKeyFromPem := List.head?
  keccak256 bytes := ⟨(bytes ++ List.replicate 32 0).take 32, length_digest bytes⟩
  addressText owner := owner.toList
  randomKey _ _ := 1
  padding _ _ := ()

def owner : Address := ⟨List.replicate 20 7, by simp⟩

def operators : OperatorIds where
  toList := [⟨1⟩, ⟨2⟩, ⟨3⟩, ⟨4⟩]
  sorted := by decide
  size := by decide

def manual (publicKeys : List UInt8) : Manual UInt8 := ⟨⟨owner, operators⟩, 5, publicKeys⟩

def sql : Sql ℕ :=
  { Sql.new with
    operators :=
      { rows := [⟨⟨2⟩, [20], owner, false⟩, ⟨⟨1⟩, [10], owner, false⟩, ⟨⟨4⟩, [40], owner, false⟩,
          ⟨⟨3⟩, [30], owner, false⟩]
        nodup := by decide } }

def listed (output : List (OutputKeyShare Scalar UInt8)) : List (List (UInt64 × UInt8)) :=
  output.map fun out => out.data.operators.map fun o => (o.id.val, o.publicKey)

theorem shares_paired_sample :
    (∃ output, env.runKeysplitter (.manual (manual [10, 20, 30, 40])) sql [7] = .ok output ∧
      env.EachPaired (fun id rsa => (id, rsa) ∈ operators.toList.zip [10, 20, 30, 40])
        (manual []).shared 5 [7] output) ∧
    ∃ output nonce, env.runKeysplitter (.onchain ⟨⟨owner, operators⟩⟩) sql [7, 8] = .ok output ∧
      env.EachPaired (env.OwnsOnchain sql) ⟨owner, operators⟩ nonce [7, 8] output := by
  have hmanual : (env.runKeysplitter (.manual (manual [10, 20, 30, 40])) sql [7]).map listed =
      .ok [[(1, 10), (2, 20), (3, 30), (4, 40)]] := by decide +kernel
  have honchain : (env.runKeysplitter (.onchain ⟨⟨owner, operators⟩⟩) sql [7, 8]).map listed =
      .ok [[(1, 10), (2, 20), (3, 30), (4, 40)], [(1, 10), (2, 20), (3, 30), (4, 40)]] := by
    decide +kernel
  obtain ⟨output, hrun, -⟩ := Checks.map_eq_ok_iff.mp hmanual
  obtain ⟨output', hrun', -⟩ := Checks.map_eq_ok_iff.mp honchain
  have hin := (shares_paired_iff_keys_in_id_order env sql [7] output).1 "1,2,3,4".toList
    operators.toList (manual [10, 20, 30, 40]) (by decide +kernel) (by decide) rfl (by simp) hrun
  obtain ⟨nonce, hpaired⟩ :=
    (shares_paired_iff_keys_in_id_order env sql [7, 8] output').2 _ hrun'
  exact ⟨⟨output, hrun, hin.1.mpr ((hin.2 (by decide)).mpr (by decide))⟩,
    output', nonce, hrun', hpaired⟩

/-- The ids two and one are given in this order, each with its own key, and the output has the
share of operator one encrypted for operator two. -/
theorem keys_out_of_id_order_swapped :
    OperatorIds.numbers "2,1,3,4".toList = .ok [⟨2⟩, ⟨1⟩, ⟨3⟩, ⟨4⟩] ∧
    OperatorIds.fromStr "2,1,3,4".toList = .ok operators ∧
    ∃ output, env.runKeysplitter (.manual (manual [20, 10, 30, 40])) sql [7] = .ok output ∧
      listed output = [[(1, 20), (2, 10), (3, 30), (4, 40)]] ∧
      ¬ env.EachPaired (fun id rsa => (id, rsa) ∈ List.zip [⟨2⟩, ⟨1⟩, ⟨3⟩, ⟨4⟩] [20, 10, 30, 40])
        (manual []).shared 5 [7] output := by
  have hmanual : (env.runKeysplitter (.manual (manual [20, 10, 30, 40])) sql [7]).map listed =
      .ok [[(1, 20), (2, 10), (3, 30), (4, 40)]] := by decide +kernel
  obtain ⟨output, hrun, hlisted⟩ := Checks.map_eq_ok_iff.mp hmanual
  refine ⟨by decide +kernel, rfl, output, hrun, hlisted, ?_⟩
  obtain ⟨hlength, hsplit⟩ := KeysplitEnv.manual_split hrun
  rintro ⟨hcount, hpaired⟩
  have howns := (KeysplitEnv.eachPaired_iff (by simp) hlength hsplit hrun).mp ⟨hcount, hpaired⟩
  revert howns
  decide +kernel

end Sample

end Anchor.Keysplit
