import Mathlib
import Anchor.Eth.Chain

/-!
# Who the node is

The id of the own operator, the clusters it is in and its shares, in memory and as a
start from the tables gives them.  In memory an id is set once and never cleared, so that
the removal of the own operator separates the two.
-/

namespace Anchor

open Ssz

variable {C : Type}

/-! ## The own operator in the tables -/

def PubkeyOrId.isPubkey : PubkeyOrId → Bool
  | pubkey _ => true
  | id _ => false

namespace Sql

def OwnByKey (env : DatabaseEnv C) (sql : Sql C) (id : OperatorId) : Prop :=
  env.operator.isPubkey = true ∧ sql.ownId env = some id

instance (env : DatabaseEnv C) (sql : Sql C) (id : OperatorId) : Decidable (sql.OwnByKey env id) :=
  inferInstanceAs (Decidable (_ ∧ _))

variable {env : DatabaseEnv C} {sql sql' : Sql C}

variable {id : OperatorId}

theorem getOperatorId_eq_some (hsql : sql.WellFormed env) {key : Bytes} :
    sql.getOperatorId key = some id ↔
      ∃ row ∈ sql.operators, row.publicKey = key ∧ row.removed = false ∧ row.operatorId = id := by
  simp only [getOperatorId, Option.map_eq_some_iff]
  constructor
  · rintro ⟨row, hrow, rfl⟩
    have hp := List.find?_some hrow
    simp only [Bool.and_eq_true, decide_eq_true_eq, Bool.not_eq_true'] at hp
    exact ⟨row, List.mem_of_find?_eq_some hrow, hp.1, hp.2, rfl⟩
  · rintro ⟨row, hrow, hkey, hremoved, rfl⟩
    cases hfind : sql.operators.rows.find? fun row => row.publicKey = key && !row.removed with
    | none => exact absurd (List.find?_eq_none.mp hfind row hrow) (by simp [hkey, hremoved])
    | some row' =>
      have hkey' : row'.publicKey = key := by
        have hp := List.find?_some hfind
        simp only [Bool.and_eq_true, decide_eq_true_eq] at hp
        exact hp.1
      have heq : row' = row := hsql.key_unique row' (List.mem_of_find?_eq_some hfind) row hrow
        (hkey'.trans hkey.symm)
      exact ⟨row', rfl, by rw [heq]⟩

theorem ownId_of_pubkey (sql : Sql C) {key : Bytes} (hop : env.operator = .pubkey key) :
    sql.ownId env = sql.getOperatorId key := by
  rw [ownId, hop]

theorem ownId_of_id (sql : Sql C) (hop : env.operator = .id id) :
    sql.ownId env = some id := by
  rw [ownId, hop]

variable {operator : Operator}

theorem isOwnOperator_iff : Tx.isOwnOperator env operator = true ↔
    env.operator = .pubkey operator.rsaPubkey ∨ env.operator = .id operator.id := by
  unfold Tx.isOwnOperator
  cases env.operator with
  | pubkey key => simp [eq_comm]
  | id id => simp

theorem ownId_eq_of_forall (hsql : sql.WellFormed env) (hsql' : sql'.WellFormed env)
    (h : ∀ row, row.removed = false → env.operator = .pubkey row.publicKey →
      (row ∈ sql'.operators ↔ row ∈ sql.operators)) : sql'.ownId env = sql.ownId env := by
  unfold ownId
  cases hop : env.operator with
  | id id => rfl
  | pubkey key =>
    apply Option.ext
    intro id
    simp only [getOperatorId_eq_some hsql, getOperatorId_eq_some hsql']
    refine exists_congr fun row => ?_
    constructor
    · rintro ⟨hrow, rfl, hremoved, hid⟩
      exact ⟨(h row hremoved hop).mp hrow, rfl, hremoved, hid⟩
    · rintro ⟨hrow, rfl, hremoved, hid⟩
      exact ⟨(h row hremoved hop).mpr hrow, rfl, hremoved, hid⟩

theorem ownId_insertOperator (hsql : sql.WellFormed env)
    (h : sql.insertOperator operator = .ok sql') :
    sql'.ownId env = if Tx.isOwnOperator env operator then some operator.id else sql.ownId env := by
  have hsql' := hsql.insertOperator h
  obtain ⟨-, -, -, operators, rfl, hmem⟩ := insertOperator_ok h
  split
  · rename_i hown
    rcases isOwnOperator_iff.mp hown with hop | hop
    · rw [ownId_of_pubkey _ hop]
      exact (getOperatorId_eq_some hsql').mpr ⟨_, (hmem _).mpr (Or.inr rfl), rfl, rfl, rfl⟩
    · exact ownId_of_id _ hop
  · rename_i hown
    refine ownId_eq_of_forall hsql hsql' fun row hremoved hkey => ?_
    rw [hmem]
    constructor
    · rintro (hrow | rfl)
      · exact hrow
      · exact absurd (isOwnOperator_iff.mpr (Or.inl hkey)) hown
    · exact Or.inl

theorem ownId_of_insertOperator (hsql : sql.WellFormed env)
    (h : sql.insertOperator operator = .ok sql') (hown : Tx.isOwnOperator env operator = true) :
    sql.ownId env = none ∨ sql.ownId env = some operator.id := by
  obtain ⟨-, -, hkey, -⟩ := insertOperator_ok h
  rcases isOwnOperator_iff.mp hown with hop | hop
  · rw [ownId_of_pubkey _ hop]
    refine Or.inl (Option.eq_none_iff_forall_ne_some.mpr fun id hid => ?_)
    obtain ⟨row, hrow, hrowkey, -⟩ := (getOperatorId_eq_some hsql).mp hid
    exact hkey row hrow hrowkey
  · exact Or.inr (ownId_of_id _ hop)

theorem ownId_deleteOperator_of_ownByKey (hsql : sql.WellFormed env)
    (h : sql.OwnByKey env id) : (sql.deleteOperator id).ownId env = none := by
  obtain ⟨hpubkey, hown⟩ := h
  unfold ownId at hown ⊢
  split at hown
  · rename_i key _
    obtain ⟨row, hrow, hkey, hremoved, hid⟩ := (getOperatorId_eq_some hsql).mp hown
    refine Option.eq_none_iff_forall_ne_some.mpr fun id' hid' => ?_
    obtain ⟨row', hrow', hkey', hremoved', -⟩ :=
      (getOperatorId_eq_some (hsql.deleteOperator id)).mp hid'
    rcases mem_operators_deleteOperator.mp hrow' with ⟨hmem, hne⟩ | ⟨-, old, -, -, rfl⟩
    · rw [hsql.key_unique row' hmem row hrow (hkey'.trans hkey.symm)] at hne
      exact hne hid
    · cases hremoved'
  · rename_i id' hop
    simp [hop, PubkeyOrId.isPubkey] at hpubkey

theorem ownId_deleteOperator_of_not (hsql : sql.WellFormed env)
    (h : ¬ sql.OwnByKey env id) : (sql.deleteOperator id).ownId env = sql.ownId env := by
  refine ownId_eq_of_forall hsql (hsql.deleteOperator id) fun row hremoved hop => ?_
  rw [mem_operators_deleteOperator]
  constructor
  · rintro (⟨hmem, -⟩ | ⟨-, old, -, -, rfl⟩)
    · exact hmem
    · cases hremoved
  · intro hmem
    refine Or.inl ⟨hmem, fun hid => h ⟨by rw [hop]; rfl, ?_⟩⟩
    rw [ownId_of_pubkey _ hop]
    exact (getOperatorId_eq_some hsql).mpr ⟨row, hmem, rfl, hremoved, hid⟩

variable {validator : ValidatorMetadata C}

theorem ownId_removal [DecidableEq C]
    (h : Removal env sql sql' validator) : sql'.ownId env = sql.ownId env := by
  refine ownId_eq_of_forall h.wellFormed h.wellFormed' fun row hremoved _ => ?_
  rw [h.removed.operators]
  simp [hremoved]

/-! ## The own shares in the tables -/

theorem WellFormed.share_operator (hsql : sql.WellFormed env) {share : Share C}
    (h : share ∈ sql.shares) : ∃ row ∈ sql.operators, row.operatorId = share.operatorId := by
  obtain ⟨v, hv, hkey, -⟩ := hsql.share_validator share h
  have hmember := (hsql.share_iff v hv share.operatorId).mp ⟨share, h, hkey.symm, rfl⟩
  exact hsql.member_operator _ hmember

theorem ownShare_insertOperator (hsql : sql.WellFormed env)
    (h : sql.insertOperator operator = .ok sql') (share : Share C) :
    sql'.OwnShare env share ↔ sql.OwnShare env share := by
  have hid := ownId_insertOperator hsql h
  have hfresh : ∀ share ∈ sql.shares, share.operatorId ≠ operator.id := by
    intro share hshare heq
    obtain ⟨row, hrow, hrowid⟩ := hsql.share_operator hshare
    exact Table.find?_eq_none.mp (insertOperator_ok h).2.1 row hrow (hrowid.trans heq)
  have hshares : sql'.shares = sql.shares := by
    obtain ⟨-, -, -, operators, rfl, -⟩ := insertOperator_ok h
    rfl
  unfold OwnShare
  rw [hid, hshares]
  refine and_congr_right fun hshare => ?_
  split
  · rename_i hown
    constructor
    · intro heq
      exact absurd (Option.some.inj heq).symm (hfresh share hshare)
    · intro heq
      rcases ownId_of_insertOperator hsql h hown with hnone | hsome
      · rw [hnone] at heq
        cases heq
      · exact hsome.symm.trans heq
  · rfl

theorem ownShare_added [DecidableEq C] {cluster : Cluster C}
    {shares : List (Share C)} (h : sql.Added sql' cluster validator shares) (share : Share C) :
    sql'.OwnShare env share ↔ sql.OwnShare env share ∨
      share ∈ shares ∧ sql.ownId env = some share.operatorId := by
  simp only [OwnShare, h.mem_shares, ownId_congr h.operators, or_and_right]

theorem ownShare_removal [DecidableEq C]
    (h : Removal env sql sql' validator) (share : Share C) :
    sql'.OwnShare env share ↔
      sql.OwnShare env share ∧ share.validatorPubkey ≠ validator.publicKey := by
  simp only [OwnShare, h.removed.mem_shares, ownId_removal h]
  constructor
  · rintro ⟨⟨hshare, hne, -⟩, hown⟩
    exact ⟨⟨hshare, hown⟩, hne⟩
  · rintro ⟨⟨hshare, hown⟩, hne⟩
    obtain ⟨v, hv, hkey, hid⟩ := h.wellFormed.share_validator share hshare
    exact ⟨⟨hshare, hne, InCluster.kept ⟨v, hv, hkey, hid⟩ hne⟩, hown⟩

end Sql

/-! ## The own operator in memory -/

variable [DecidableEq C] {env : EventEnv C} {published mem mem' : Database.NetworkState C}
  {tx tx' : Tx C} {log : ContractLog}

/-- The own id, clusters and shares in memory are those of the tables. -/
structure OwnState (env : DatabaseEnv C) (sql : Sql C) (mem : Database.NetworkState C) :
    Prop where
  id : mem.id = sql.ownId env
  ownClusters : ∀ c, c ∈ mem.ownClusters ↔ ∃ share, sql.OwnShare env share ∧ share.clusterId = c
  shares : ∀ pubkey share, mem.shares.primary pubkey = some share ↔
    sql.OwnShare env share ∧ share.validatorPubkey = pubkey

/-- The log does not remove the own operator of a node that is known by its key. -/
def OwnOperatorStays (env : EventEnv C) (published : Database.NetworkState C) (tx : Tx C) :
    ContractLog → Prop
  | .operatorRemoved operatorId =>
    tx.Accepts env published (.operatorRemoved operatorId) →
      ¬ tx.sql.OwnByKey env.toDatabaseEnv operatorId
  | _ => True

instance (env : EventEnv C) (published : Database.NetworkState C) (tx : Tx C) :
    (log : ContractLog) → Decidable (OwnOperatorStays env published tx log)
  | .operatorRemoved operatorId =>
    inferInstanceAs (Decidable (tx.Accepts env published (.operatorRemoved operatorId) →
      ¬ tx.sql.OwnByKey env.toDatabaseEnv operatorId))
  | .operatorAdded .. | .validatorAdded .. | .validatorRemoved .. | .clusterLiquidated ..
  | .clusterReactivated .. | .feeRecipientAddressUpdated .. | .validatorExited .. | .unknown =>
    inferInstanceAs (Decidable True)

namespace OwnState

variable {denv : DatabaseEnv C} {sql sql' : Sql C}

omit [DecidableEq C] in
theorem congr (h : OwnState denv sql mem) (hid : mem'.id = sql'.ownId denv)
    (hshare : ∀ share, sql'.OwnShare denv share ↔ sql.OwnShare denv share)
    (hclusters : mem'.ownClusters = mem.ownClusters) (hshares : mem'.shares = mem.shares) :
    OwnState denv sql' mem' := by
  refine ⟨hid, ?_, ?_⟩
  · intro c
    simp only [hclusters, h.ownClusters, hshare]
  · intro pubkey share
    simp only [hshares, h.shares, hshare]

omit [DecidableEq C] in
theorem operatorAdded (hsql : sql.WellFormed denv) (h : OwnState denv sql mem)
    {operator : Operator} (hinsert : sql.insertOperator operator = .ok sql') :
    OwnState denv sql' (mem.insertOperator operator (Tx.isOwnOperator denv operator)) := by
  refine h.congr ?_ (Sql.ownShare_insertOperator hsql hinsert) rfl rfl
  rw [Sql.ownId_insertOperator hsql hinsert, Database.NetworkState.insertOperator, h.id]
  cases hown : Tx.isOwnOperator denv operator with
  | false => simp
  | true =>
    rcases Sql.ownId_of_insertOperator hsql hinsert hown with hnone | hsome
    · simp [hnone]
    · simp [hsome]

omit [DecidableEq C] in
theorem getOwnOperatorIdTx (h : OwnState denv tx.sql mem)
    (hid : ∀ id, published.id = some id → mem.id = some id) :
    tx.getOwnOperatorIdTx denv published = tx.sql.ownId denv := by
  unfold Tx.getOwnOperatorIdTx
  split
  · rename_i id hpublished
    rw [← h.id, hid id hpublished]
  · rfl

theorem validatorAdded {owner : Address} {ids : List OperatorId} {cluster : Cluster C}
    {validator : ValidatorMetadata C} {shares : List (Share C)} {ownShare : Option (Share C)}
    (hadd : Addition env sql sql' owner ids cluster validator shares)
    (h : OwnState env.toDatabaseEnv sql mem)
    (hown : ∀ share, ownShare = some share ↔
      share ∈ shares ∧ sql.ownId env.toDatabaseEnv = some share.operatorId) :
    OwnState env.toDatabaseEnv sql'
      (mem.insertValidator env.toDatabaseEnv cluster validator ownShare) := by
  have hshare : ∀ share, sql'.OwnShare env.toDatabaseEnv share ↔
      sql.OwnShare env.toDatabaseEnv share ∨ ownShare = some share := by
    intro share
    rw [Sql.ownShare_added hadd.added, hown]
  have hfresh : ∀ share, sql.OwnShare env.toDatabaseEnv share →
      share.validatorPubkey ≠ validator.publicKey := fun share hold =>
    hadd.wellFormed.share_ne hadd.checked.fresh hold.1
  refine ⟨?_, ?_, ?_⟩
  · rw [Database.NetworkState.id_insertValidator, h.id, Sql.ownId_congr hadd.added.operators]
  · intro c
    cases ownShare with
    | none =>
      simp only [hshare, reduceCtorEq, or_false]
      exact h.ownClusters c
    | some own =>
      obtain ⟨hmem, -⟩ := (hown own).mp rfl
      have hcluster : own.clusterId = cluster.clusterId :=
        (hadd.checked.belongs own hmem).2.trans hadd.clusterId.symm
      simp only [Database.NetworkState.insertValidator, Database.NetworkState.insertOwnShare,
        Finset.mem_insert, h.ownClusters, hshare, Option.some.injEq]
      constructor
      · rintro (rfl | ⟨share, hold, hc⟩)
        · exact ⟨own, Or.inr rfl, hcluster⟩
        · exact ⟨share, Or.inl hold, hc⟩
      · rintro ⟨share, hold | rfl, hc⟩
        · exact Or.inr ⟨share, hold, hc⟩
        · exact Or.inl (hc.symm.trans hcluster)
  · intro pubkey share
    cases ownShare with
    | none =>
      simp only [hshare, reduceCtorEq, or_false]
      exact h.shares pubkey share
    | some own =>
      obtain ⟨hmem, -⟩ := (hown own).mp rfl
      have hkey : own.validatorPubkey = validator.publicKey := (hadd.checked.belongs own hmem).1
      simp only [Database.NetworkState.insertValidator, Database.NetworkState.insertOwnShare,
        MultiIndexMap.insertOrUpdate, hshare, Option.some.injEq]
      by_cases hpubkey : pubkey = validator.publicKey
      · subst hpubkey
        simp only [Function.update_self, Option.some.injEq]
        constructor
        · rintro rfl
          exact ⟨Or.inr rfl, hkey⟩
        · rintro ⟨hold | heq, hk⟩
          · exact absurd hk (hfresh share hold)
          · exact heq
      · rw [Function.update_of_ne hpubkey, h.shares]
        constructor
        · rintro ⟨hold, hk⟩
          exact ⟨Or.inl hold, hk⟩
        · rintro ⟨hold | rfl, hk⟩
          · exact ⟨hold, hk⟩
          · exact absurd (hk.symm.trans hkey) hpubkey

/-- A cluster that stays still has an own share if it had one: its members have shares of all its
validators. -/
theorem validatorRemoved {validator : ValidatorMetadata C}
    (hremoval : Removal denv sql sql' validator) (h : OwnState denv sql mem)
    (hmem : mem.Removed (sql.IsLast validator) validator mem') : OwnState denv sql' mem' := by
  have hshare := Sql.ownShare_removal hremoval
  refine ⟨?_, ?_, ?_⟩
  · rw [hmem.id, h.id, Sql.ownId_removal hremoval]
  · intro c
    by_cases hlast : sql.IsLast validator
    · rw [(hmem.dropped hlast).2, Finset.mem_erase, h.ownClusters]
      simp only [hshare]
      constructor
      · rintro ⟨hne, share, hold, rfl⟩
        refine ⟨share, ⟨hold, fun hkey => hne ?_⟩, rfl⟩
        obtain ⟨v, hv, hvkey, hvid⟩ := hremoval.wellFormed.share_validator share hold.1
        rw [← hvid, Table.eq_of_key_eq hv hremoval.stored (hvkey.trans hkey)]
      · rintro ⟨share, ⟨hold, hne⟩, rfl⟩
        obtain ⟨v, hv, hvkey, hvid⟩ := hremoval.wellFormed.share_validator share hold.1
        exact ⟨fun hid => Sql.InCluster.kept ⟨v, hv, hvkey, hvid⟩ hne ⟨hlast, hid⟩, share, hold,
          rfl⟩
    · rw [(hmem.kept hlast).2, h.ownClusters]
      simp only [hshare]
      constructor
      · rintro ⟨share, hold, rfl⟩
        by_cases hkey : share.validatorPubkey = validator.publicKey
        · obtain ⟨v, hv, hvkey, hvid⟩ := hremoval.wellFormed.share_validator share hold.1
          obtain rfl : v = validator := Table.eq_of_key_eq hv hremoval.stored (hvkey.trans hkey)
          obtain ⟨w, hw, hwid, hwkey⟩ : ∃ w ∈ sql.validators, w.clusterId = v.clusterId ∧
              w.publicKey ≠ v.publicKey := by
            simpa [Sql.IsLast] using hlast
          have hmember := (hremoval.wellFormed.share_iff v hv share.operatorId).mp
            ⟨share, hold.1, hkey, rfl⟩
          rw [← hwid] at hmember
          obtain ⟨other, hother, hokey, hoid⟩ :=
            (hremoval.wellFormed.share_iff w hw share.operatorId).mpr hmember
          obtain ⟨x, hx, hxkey, hxid⟩ := hremoval.wellFormed.share_validator other hother
          obtain rfl : x = w := Table.eq_of_key_eq hx hw (hxkey.trans hokey)
          refine ⟨other, ⟨⟨hother, by rw [hoid]; exact hold.2⟩, by rw [hokey]; exact hwkey⟩, ?_⟩
          exact hxid.symm.trans (hwid.trans hvid)
        · exact ⟨share, ⟨hold, hkey⟩, rfl⟩
      · rintro ⟨share, ⟨hold, -⟩, hc⟩
        exact ⟨share, hold, hc⟩
  · intro pubkey share
    rw [hmem.shares, MultiIndexMap.primary_remove, hshare]
    by_cases hpubkey : pubkey = validator.publicKey
    · subst hpubkey
      simp only [Function.update_self, reduceCtorEq, false_iff]
      rintro ⟨⟨-, hne⟩, heq⟩
      exact hne heq
    · rw [Function.update_of_ne hpubkey, h.shares]
      constructor
      · rintro ⟨hold, rfl⟩
        exact ⟨⟨hold, hpubkey⟩, rfl⟩
      · rintro ⟨⟨hold, -⟩, hk⟩
        exact ⟨hold, hk⟩

end OwnState

theorem agreement_ownState (env : EventEnv C) :
    Agreement env (OwnState env.toDatabaseEnv) (OwnOperatorStays env) := by
  have hcongr : ∀ {sql sql' : Sql C} {mem mem' : Database.NetworkState C}, sql.SameCore sql' →
      mem.SameCore mem' →
      (OwnState env.toDatabaseEnv sql' mem' ↔ OwnState env.toDatabaseEnv sql mem) := by
    intro sql sql' mem mem' hsql hmem
    have hshare : ∀ share, sql'.OwnShare env.toDatabaseEnv share ↔
        sql.OwnShare env.toDatabaseEnv share := by
      intro share
      simp only [Sql.OwnShare, hsql.shares, Sql.ownId_congr hsql.operators]
    constructor
    · intro h
      refine h.congr ?_ (fun share => (hshare share).symm) hmem.ownClusters.symm hmem.shares.symm
      rw [← hmem.id, h.id, Sql.ownId_congr hsql.operators]
    · intro h
      refine h.congr ?_ hshare hmem.ownClusters hmem.shares
      rw [hmem.id, h.id, Sql.ownId_congr hsql.operators]
  refine ⟨hcongr, fun _ h => ⟨h.id, h.ownClusters, h.shares⟩, ?_⟩
  intro published tx mem log sql' mem' htx hmirrors hreplays h
  cases hreplays with
  | quiet hsql hmem hlog =>
    refine iff_of_true ((hcongr hsql hmem).mpr h) ?_
    cases log with
    | operatorRemoved id => exact fun haccepts => absurd haccepts (hlog trivial)
    | _ => trivial
  | operatorAdded hsql hmem hwellFormed hinsert =>
    exact iff_of_true (((hcongr hsql hmem).mpr h).operatorAdded hwellFormed hinsert) trivial
  | operatorRemoved haccepts hactive =>
    rename_i id
    by_cases hkey : tx.sql.OwnByKey env.toDatabaseEnv id
    · refine iff_of_false (fun h' => ?_) fun hstays => hstays haccepts hkey
      have hnone := h'.id.trans (Sql.ownId_deleteOperator_of_ownByKey htx.wellFormed hkey)
      rw [show mem.id = some id from h.id.trans hkey.2] at hnone
      cases hnone
    · have hid := Sql.ownId_deleteOperator_of_not htx.wellFormed hkey
      refine iff_of_true (h.congr (h.id.trans hid.symm) ?_ rfl rfl) fun _ => hkey
      intro share
      simp only [Sql.OwnShare, hid, Sql.shares_deleteOperator]
  | validatorAdded haccepts hmode hsql hmem hadd hactive hown =>
    refine iff_of_true ?_ trivial
    refine OwnState.validatorAdded hadd ((hcongr hsql hmem).mpr h) fun share => ?_
    rw [hown, h.getOwnOperatorIdTx htx.id, Sql.ownId_congr hsql.operators]
  | validatorRemoved haccepts hpubkey hremoval hmem =>
    exact iff_of_true (h.validatorRemoved hremoval hmem) trivial
  | liquidated => exact iff_of_true (h.congr h.id (fun _ => Iff.rfl) rfl rfl) trivial
  | reactivated => exact iff_of_true (h.congr h.id (fun _ => Iff.rfl) rfl rfl) trivial
  | feeRecipient => exact iff_of_true (h.congr h.id (fun _ => Iff.rfl) rfl rfl) trivial

namespace NetworkDatabase

/-- The own id, clusters and shares are those that a start from the tables would give. -/
def IdentityAgrees (env : EventEnv C) (db : NetworkDatabase C) : Prop :=
  ∃ rebuilt, Database.NetworkState.newWithState env.toDatabaseEnv db.sql = some rebuilt ∧
    db.state.id = rebuilt.id ∧ db.state.ownClusters = rebuilt.ownClusters ∧
    db.state.shares = rebuilt.shares

theorem identityAgrees_iff {db : NetworkDatabase C} (hsound : db.Sound env) :
    db.IdentityAgrees env ↔ OwnState env.toDatabaseEnv db.sql db.state := by
  have hrebuilt := Database.NetworkState.rebuilt_loadState hsound.wellFormed
  rw [IdentityAgrees, Database.NetworkState.newWithState_eq hsound.wellFormed]
  constructor
  · rintro ⟨rebuilt, hsome, hid, hclusters, hshares⟩
    cases hsome
    refine ⟨hid.trans hrebuilt.id, ?_, ?_⟩
    · rw [hclusters]
      exact hrebuilt.ownClusters
    · rw [hshares]
      exact hrebuilt.shares
  · intro h
    refine ⟨_, rfl, h.id.trans hrebuilt.id.symm, ?_, ?_⟩
    · ext c
      rw [h.ownClusters, hrebuilt.ownClusters]
    · refine hsound.mirrors.shares_indexed.eq_of_primary hrebuilt.mirrors.shares_indexed ?_
      funext pubkey
      apply Option.ext
      intro share
      rw [h.shares, hrebuilt.shares]

end NetworkDatabase

/-- The identity in memory agrees with the tables as long as the own operator is not removed, and
the removal of the own operator always separates them. -/
theorem own_identity_agrees_iff_own_operator_stays (env : EventEnv C)
    (hkeccak : Function.Injective env.keccak256) :
    (∀ events, Machine.Steps (NetworkDatabase.step env)
        (NetworkDatabase.Meets env (OwnOperatorStays env)) (NetworkDatabase.new env) events →
      (Machine.run (NetworkDatabase.step env) (NetworkDatabase.new env) events).IdentityAgrees
        env) ∧
    ∀ (db : NetworkDatabase C) (logs : List ContractLog) (log : ContractLog) (tx tx' : Tx C)
      (m n : ℕ), db.Reachable env →
      Tx.afterLogs env db.state db.beginTx logs = .ok tx →
      tx.afterLog env db.state log = .ok tx' → (db.commit env tx m).IdentityAgrees env →
      ((db.commit env tx' n).IdentityAgrees env ↔ OwnOperatorStays env db.state tx log) := by
  constructor
  · intro events hsteps
    exact NetworkDatabase.agrees_run hkeccak (agreement_ownState env)
      NetworkDatabase.identityAgrees_iff hsteps
  · intro db logs log tx tx' m n hdb hlogs hlog hagrees
    exact NetworkDatabase.agrees_commit_iff hkeccak (agreement_ownState env)
      NetworkDatabase.identityAgrees_iff hdb hlogs hlog hagrees

namespace Sample

def chainEnv : EventEnv Bytes where
  operator := .pubkey [1]
  keccak256 := id
  sha256 := fun _ => ⟨List.replicate 32 0, rfl⟩
  interpolates := fun _ _ _ => true
  mode := .node
  parseOperatorPublicKey := .ok
  verifySignature := fun _ _ _ _ => true

def clusterOwner : Address := ⟨List.replicate 20 7, rfl⟩

def operatorLogs : List ContractLog :=
  [.operatorAdded ⟨1⟩ clusterOwner [1], .operatorAdded ⟨2⟩ clusterOwner [2],
    .operatorAdded ⟨3⟩ clusterOwner [3], .operatorAdded ⟨4⟩ clusterOwner [4]]

def validatorKey (k : UInt8) : Bytes := List.replicate 48 k

def addValidator (k : UInt8) : ContractLog :=
  .validatorAdded clusterOwner [⟨1⟩, ⟨2⟩, ⟨3⟩, ⟨4⟩] (validatorKey k)
    (List.replicate (96 + 48 * 4 + 256 * 4) k)

def removeValidator (k : UInt8) : ContractLog :=
  .validatorRemoved clusterOwner [⟨1⟩, ⟨2⟩, ⟨3⟩, ⟨4⟩] (validatorKey k)

def runChain (events : List ChainEvent) : NetworkDatabase Bytes :=
  Machine.run (NetworkDatabase.step chainEnv) (NetworkDatabase.new chainEnv) events

end Sample

theorem own_identity_agrees_sample :
    Function.Injective Sample.chainEnv.keccak256 ∧
      (Sample.runChain [.block Sample.operatorLogs 1,
        .block [Sample.addValidator 9, Sample.removeValidator 9] 2, .restart]).IdentityAgrees
          Sample.chainEnv :=
  ⟨Function.injective_id,
    (own_identity_agrees_iff_own_operator_stays Sample.chainEnv Function.injective_id).1 _
      (by decide +kernel)⟩

/-- The own operator is removed: the node keeps its id in memory, but has none after a restart. -/
theorem own_id_stays_after_removal :
    ¬ (Sample.runChain [.block Sample.operatorLogs 1,
      .block [.operatorRemoved ⟨1⟩] 2]).IdentityAgrees Sample.chainEnv := by
  rintro ⟨rebuilt, hrebuilt, hid, -⟩
  have hmemory : (Sample.runChain [.block Sample.operatorLogs 1,
      .block [.operatorRemoved ⟨1⟩] 2]).state.id = some ⟨1⟩ := by
    decide +kernel
  have htables : (Database.NetworkState.newWithState Sample.chainEnv.toDatabaseEnv
      (Sample.runChain [.block Sample.operatorLogs 1, .block [.operatorRemoved ⟨1⟩] 2]).sql).map
        (·.id) = some none := by
    decide +kernel
  rw [hrebuilt, Option.map_some, Option.some.injEq] at htables
  rw [hmemory, htables] at hid
  cases hid

end Anchor
