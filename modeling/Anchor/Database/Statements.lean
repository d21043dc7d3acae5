import Mathlib
import Anchor.Eth.LogEffect

/-!
# What the operations do to the tables

One description for each operation of the event processor that changes operators,
clusters, validators or shares, in terms of the rows before and after.
-/

namespace Anchor

open Ssz

variable {C : Type}

/-! ## The identity of a cluster -/

theorem leBytes_injOn {w m n : ℕ} (hm : m < 256 ^ w) (hn : n < 256 ^ w)
    (h : leBytes w m = leBytes w n) : m = n := by
  rw [← ofLe_leBytes hm, ← ofLe_leBytes hn, h]

theorem beBytes64_injective : Function.Injective beBytes64 := by
  intro a b h
  have hle : leBytes 8 a.toNat = leBytes 8 b.toNat := List.reverse_injective h
  exact UInt64.toNat_inj.mp (leBytes_injOn a.toNat_lt b.toNat_lt hle)

theorem flatMap_injective {α : Type} {f : α → Bytes} {n : ℕ} (hpos : 0 < n)
    (hlength : ∀ a, (f a).length = n) (hf : Function.Injective f) {l l' : List α}
    (h : l.flatMap f = l'.flatMap f) : l = l' := by
  induction l generalizing l' with
  | nil =>
    cases l' with
    | nil => rfl
    | cons b l' =>
      have hlen := congrArg List.length h
      simp only [List.flatMap_nil, List.length_nil, List.flatMap_cons, List.length_append,
        hlength] at hlen
      omega
  | cons a l ih =>
    cases l' with
    | nil =>
      have hlen := congrArg List.length h
      simp only [List.flatMap_nil, List.length_nil, List.flatMap_cons, List.length_append,
        hlength] at hlen
      omega
    | cons b l' =>
      rw [List.flatMap_cons, List.flatMap_cons] at h
      obtain ⟨hab, hrest⟩ := List.append_inj h ((hlength a).trans (hlength b).symm)
      rw [hf hab, ih hrest]

theorem computeClusterId_inj {keccak256 : Bytes → C} (hkeccak : Function.Injective keccak256)
    {owner owner' : Address} {ids ids' : List OperatorId}
    (h : computeClusterId keccak256 owner ids = computeClusterId keccak256 owner' ids') :
    owner = owner' ∧ ids.Perm ids' := by
  obtain ⟨howner, hids⟩ := List.append_inj (hkeccak h)
    (owner.length_eq.trans owner'.length_eq.symm)
  refine ⟨FixedBytes.ext howner, ?_⟩
  have hblock : Function.Injective fun id : OperatorId =>
      List.replicate 24 (0 : UInt8) ++ beBytes64 id.val := by
    intro a b hab
    exact OperatorId.ext (beBytes64_injective (List.append_cancel_left hab))
  have hsorted := flatMap_injective (n := 32) (by decide) (by simp [beBytes64]) hblock hids
  exact (List.perm_insertionSort _ ids).symm.trans
    (hsorted ▸ List.perm_insertionSort _ ids')

/-! ## Adding a validator -/

/-- What is known of a validator that passes every check. -/
structure ValidatorAddition (env : EventEnv C) (sql : Sql C) (owner : Address)
    (operatorIds : List OperatorId) (pubkey : PublicKeyBytes) (shares : List (Share C)) : Prop where
  nodup : operatorIds.Nodup
  size : isValidCommitteeSize operatorIds.length = true
  active : ∀ id ∈ operatorIds, ∃ row ∈ sql.operators, row.operatorId = id ∧ row.removed = false
  operators : shares.map (·.operatorId) = operatorIds
  belongs : ∀ share ∈ shares, share.validatorPubkey = pubkey ∧
    share.clusterId = computeClusterId env.keccak256 owner operatorIds
  valid : validateSharePublicKeys env.interpolates pubkey
    (shares.map fun share => (share.operatorId, share.sharePubkey)) = .ok ()
  fresh : sql.validators.find? pubkey = none

variable {ids : List OperatorId}

theorem active_of_checkOperatorsExist {sql : Sql C}
    (h : checkOperatorsExist sql ids = .ok ()) :
    ∀ id ∈ ids, ∃ row ∈ sql.operators, row.operatorId = id ∧ row.removed = false := by
  induction ids with
  | nil => simp
  | cons id ids ih =>
    simp only [checkOperatorsExist] at h
    split at h
    · cases h
    rename_i status hstatus
    split at h
    · rename_i hactive
      subst hactive
      rw [List.forall_mem_cons]
      refine ⟨?_, ih h⟩
      unfold Sql.getOperatorStatus at hstatus
      split at hstatus
      · cases hstatus
      split at hstatus
      · rename_i row hrow
        obtain ⟨hmem, hid⟩ := Table.find?_eq_some.mp hrow
        refine ⟨row, hmem, hid, ?_⟩
        by_contra hremoved
        rw [if_pos (by simpa using hremoved)] at hstatus
        cases hstatus
      · cases hstatus
    · cases h

theorem of_validateOperators {sql : Sql C}
    (h : validateOperators sql ids = .ok ()) :
    ids.Nodup ∧ isValidCommitteeSize ids.length = true ∧
      ∀ id ∈ ids, ∃ row ∈ sql.operators, row.operatorId = id ∧ row.removed = false := by
  unfold validateOperators at h
  split_ifs at h with _ _ hsize hnodup
  refine ⟨hnodup, by simpa using hsize, active_of_checkOperatorsExist h⟩

theorem map_filterMap_eq_map {α β γ : Type} {f : α → Option β} {g : β → γ} {h : α → γ} {l : List α}
    (hf : ∀ a ∈ l, ∃ b, f a = some b ∧ g b = h a) : (l.filterMap f).map g = l.map h := by
  induction l with
  | nil => rfl
  | cons a l ih =>
    obtain ⟨b, hb, hg⟩ := hf a (by simp)
    rw [List.filterMap_cons_some hb, List.map_cons, List.map_cons, hg,
      ih fun a' ha' => hf a' (List.mem_cons_of_mem _ ha')]

variable {shares : List (Share C)}

theorem of_parseShares {bytes signature : Bytes} {clusterId : C}
    {pubkey : PublicKeyBytes}
    (h : parseShares bytes ids clusterId pubkey = .ok (signature, shares)) :
    shares.map (·.operatorId) = ids ∧
      ∀ share ∈ shares, share.validatorPubkey = pubkey ∧ share.clusterId = clusterId := by
  unfold parseShares at h
  dsimp only at h
  split at h
  · cases h
  rename_i hlength
  rw [not_not] at hlength
  cases h
  constructor
  · have hids : ids.zipIdx.map (fun e => e.1) = ids := List.zipIdx_map_fst 0 ids
    rw [map_filterMap_eq_map (h := fun e : OperatorId × ℕ => e.1) ?_, hids]
    rintro ⟨id, i⟩ he
    have hi : i < ids.length := List.snd_lt_of_mem_zipIdx he
    have hpubkey : (((bytes.drop 96).drop (48 * i)).take 48).length = 48 := by
      rw [List.length_take, List.length_drop, List.length_drop]
      omega
    have hencrypted :
        (((bytes.drop (96 + 48 * ids.length)).drop (256 * i)).take 256).length = 256 := by
      rw [List.length_take, List.length_drop, List.length_drop]
      omega
    dsimp only
    rw [show FixedBytes.new? _ = some ⟨_, hpubkey⟩ from dif_pos hpubkey,
      show FixedBytes.new? _ = some ⟨_, hencrypted⟩ from dif_pos hencrypted]
    exact ⟨_, rfl, rfl⟩
  · intro share hshare
    obtain ⟨⟨id, i⟩, -, he⟩ := List.mem_filterMap.mp hshare
    simp only [Option.bind_eq_bind, Option.bind_eq_some_iff, Option.some.injEq] at he
    obtain ⟨a, -, b, -, rfl⟩ := he
    exact ⟨rfl, rfl⟩

variable [DecidableEq C]

theorem validatorAddition_of_check {env : EventEnv C} {tx : Tx C} {nonce : ℕ} {owner : Address}
    {operatorIds : List OperatorId} {publicKey bytes : Bytes} {pubkey : PublicKeyBytes}
    (h : tx.checkValidatorAdded env nonce owner operatorIds publicKey bytes =
      .ok (pubkey, shares)) :
    ValidatorAddition env tx.sql owner operatorIds pubkey shares := by
  simp only [Tx.checkValidatorAdded] at h
  split at h
  · cases h
  split at h
  · cases h
  rename_i hoperators
  split at h
  · cases h
  rename_i hparse
  split at h
  · cases h
  split at h
  · cases h
  rename_i hvalid
  split at h
  · cases h
  rename_i hconflict
  cases h
  obtain ⟨hnodup, hsize, hactive⟩ := of_validateOperators hoperators
  obtain ⟨hids, hshares⟩ := of_parseShares hparse
  refine ⟨hnodup, hsize, hactive, hids, hshares, hvalid, ?_⟩
  unfold Tx.validateValidatorAddedConflict at hconflict
  split at hconflict
  · assumption
  · split at hconflict
    · cases hconflict
    · split_ifs at hconflict

structure Sql.Added (sql sql' : Sql C) (cluster : Cluster C) (validator : ValidatorMetadata C)
    (shares : List (Share C)) : Prop where
  operators : sql'.operators = sql.operators
  clusters : sql'.clusters = sql.clusters.insertOrIgnore ⟨cluster.clusterId, cluster.owner, false⟩
  validators : ∀ v, v ∈ sql'.validators ↔ v ∈ sql.validators ∨ v = validator
  clusterMembers : ∀ m, m ∈ sql'.clusterMembers ↔ m ∈ sql.clusterMembers ∨
    ∃ share ∈ shares, m = ⟨share.clusterId, share.operatorId⟩
  shares : sql'.shares.rows = sql.shares.rows ++ shares
  owners : sql'.owners = sql.owners.insertOrIgnore ⟨cluster.owner, some cluster.owner, none⟩

theorem Sql.insertMembersAndShares_ok {sql sql' : Sql C}
    (h : sql.insertMembersAndShares shares = .ok sql') :
    sql'.operators = sql.operators ∧ sql'.clusters = sql.clusters ∧
      sql'.validators = sql.validators ∧ sql'.owners = sql.owners ∧
      sql'.shares.rows = sql.shares.rows ++ shares ∧
      ∀ m, m ∈ sql'.clusterMembers ↔ m ∈ sql.clusterMembers ∨
        ∃ share ∈ shares, m = ⟨share.clusterId, share.operatorId⟩ := by
  induction shares generalizing sql with
  | nil =>
    cases h
    simp
  | cons share shares ih =>
    simp only [Sql.insertMembersAndShares] at h
    split at h
    · rename_i mid hmid
      unfold Sql.insertMemberAndShare at hmid
      split at hmid
      · cases hmid
      split at hmid
      · rename_i hinsert
        cases hmid
        obtain ⟨hnone, rfl⟩ := Table.insert?_eq_some hinsert
        obtain ⟨h1, h2, h3, h4, h5, h6⟩ := ih h
        refine ⟨h1, h2, h3, h4, ?_, ?_⟩
        · rw [h5]
          simp [Table.insertOrIgnore, hnone]
        · intro m
          rw [h6, Table.mem_insertOrIgnore, List.exists_mem_cons_iff]
          constructor
          · rintro ((hm | ⟨rfl, -⟩) | hm)
            · exact Or.inl hm
            · exact Or.inr (Or.inl rfl)
            · exact Or.inr (Or.inr hm)
          · rintro (hm | rfl | hm)
            · exact Or.inl (Or.inl hm)
            · refine Or.inl ?_
              by_cases hold : (⟨share.clusterId, share.operatorId⟩ : ClusterMember C) ∈
                  sql.clusterMembers
              · exact Or.inl hold
              · refine Or.inr ⟨rfl, Table.find?_eq_none.mpr ?_⟩
                rintro m' hm' rfl
                exact hold hm'
            · exact Or.inr hm
      · cases hmid
    · cases h

theorem Tx.insertValidatorTx_ok {env : DatabaseEnv C} {published : Database.NetworkState C}
    {tx tx' : Tx C} {cluster : Cluster C} {validator : ValidatorMetadata C}
    (hcluster : validator.clusterId = cluster.clusterId)
    (h : tx.insertValidatorTx env published cluster validator shares = .ok tx') :
    tx.sql.Added tx'.sql cluster validator shares ∧
      tx'.updates = tx.updates ++ [.insertValidator cluster validator
        (shares.reverse.find? fun share =>
          tx.getOwnOperatorIdTx env published = some share.operatorId)] := by
  unfold Tx.insertValidatorTx at h
  split at h
  · cases h
  rename_i sql hsql
  split at h
  · cases h
  rename_i sql'' hsql''
  cases h
  refine ⟨?_, rfl⟩
  unfold Sql.insertClusterAndValidator at hsql
  split at hsql
  · rename_i hinsert
    cases hsql
    obtain ⟨h1, h2, h3, h4, h5, h6⟩ := Sql.insertMembersAndShares_ok hsql''
    refine ⟨h1, h2, ?_, h6, h5, h4⟩
    intro v
    have hsame : { validator with clusterId := cluster.clusterId } = validator := by
      rw [← hcluster]
    change v ∈ sql''.validators ↔ _
    rw [h3, Table.mem_of_insert? hinsert, hsame]
  · cases hsql

end Anchor
