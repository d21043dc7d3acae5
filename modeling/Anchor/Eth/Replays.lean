import Mathlib
import Anchor.Database.Rebuild

/-!
# A log in the tables and in memory

While a block is open, the state that publishing the collected updates would give moves
along with the tables of the transaction.  One relation says what a log does to both.
-/

namespace Anchor

open Ssz

variable {C : Type}

/-- The parts that are compared with the tables are the same. -/
structure Database.NetworkState.SameCore (state state' : Database.NetworkState C) : Prop where
  shares : state'.shares = state.shares
  metadata : state'.metadata = state.metadata
  clusters : state'.clusters = state.clusters
  id : state'.id = state.id
  ownClusters : state'.ownClusters = state.ownClusters

theorem Database.NetworkState.SameCore.rfl {state : Database.NetworkState C} :
    state.SameCore state :=
  ⟨Eq.refl _, Eq.refl _, Eq.refl _, Eq.refl _, Eq.refl _⟩

theorem Database.NetworkState.SameCore.trans {s₁ s₂ s₃ : Database.NetworkState C}
    (h : s₁.SameCore s₂) (h' : s₂.SameCore s₃) : s₁.SameCore s₃ :=
  ⟨h'.shares.trans h.shares, h'.metadata.trans h.metadata, h'.clusters.trans h.clusters,
    h'.id.trans h.id, h'.ownClusters.trans h.ownClusters⟩

variable [DecidableEq C] {env : EventEnv C} {published mem : Database.NetworkState C}
  {tx tx' : Tx C} {log : ContractLog}

namespace Database.NetworkState

variable {denv : DatabaseEnv C} {state state' : Database.NetworkState C}

theorem publish_append (us vs : List (StateUpdate C)) :
    state.publish denv (us ++ vs) = (state.publish denv us).bind (·.publish denv vs) :=
  List.foldlM_append

theorem publish_concat {us : List (StateUpdate C)} (h : state.publish denv us = some state')
    (u : StateUpdate C) : state.publish denv (us ++ [u]) = u.apply denv state' := by
  rw [publish_append, h, Option.bind_some, publish, List.foldlM_cons]
  cases u.apply denv state' <;> rfl

theorem publish_quiet (denv : DatabaseEnv C) {us : List (StateUpdate C)} (h : ∀ u ∈ us, u.Quiet)
    (state : Database.NetworkState C) :
    ∃ state', state.publish denv us = some state' ∧ state.SameCore state' := by
  induction us generalizing state with
  | nil => exact ⟨state, rfl, .rfl⟩
  | cons u us ih =>
    rw [List.forall_mem_cons] at h
    have hstep : ∃ mid, u.apply denv state = some mid ∧ state.SameCore mid := by
      cases u with
      | setLastProcessedBlock n => exact ⟨_, rfl, rfl, rfl, rfl, rfl, rfl⟩
      | setMaxOperatorIdSeen id => exact ⟨_, rfl, rfl, rfl, rfl, rfl, rfl⟩
      | setOwnerNonce owner nonce => exact ⟨_, rfl, rfl, rfl, rfl, rfl, rfl⟩
      | _ => exact h.1.elim
    obtain ⟨mid, hmid, hsame⟩ := hstep
    obtain ⟨state', hstate', hsame'⟩ := ih h.2 mid
    refine ⟨state', ?_, hsame.trans hsame'⟩
    rw [publish, List.foldlM_cons, hmid]
    exact hstate'

theorem id_insertValidator (state : Database.NetworkState C) (cluster : Cluster C)
    (validator : ValidatorMetadata C) (ownShare : Option (Share C)) :
    (state.insertValidator denv cluster validator ownShare).id = state.id := by
  cases ownShare <;> rfl

end Database.NetworkState

theorem Mirrors.sameCore {sha256 : Bytes → Hash256} {sql sql' : Sql C}
    {state state' : Database.NetworkState C} (h : Mirrors sha256 sql state)
    (hsql : sql.SameCore sql') (hstate : state.SameCore state') : Mirrors sha256 sql' state' := by
  refine (h.congr hsql.validators ?_ hsql.clusterMembers hsql.shares ?_).of_maps hstate.metadata
    hstate.shares hstate.clusters
  · intro c owner
    simp only [Sql.OwnedBy, hsql.clusters]
  · intro owner
    simp only [Sql.feeRecipientOf, hsql.feeRecipient]

omit [DecidableEq C] in
theorem Sql.ownId_congr {denv : DatabaseEnv C} {sql sql' : Sql C}
    (h : sql'.operators = sql.operators) : sql'.ownId denv = sql.ownId denv := by
  simp only [ownId, getOperatorId, h]

omit [DecidableEq C] in
theorem Tx.Quiet.getOwnOperatorIdTx {denv : DatabaseEnv C} (h : tx.Quiet tx') :
    tx'.getOwnOperatorIdTx denv published = tx.getOwnOperatorIdTx denv published := by
  simp only [Tx.getOwnOperatorIdTx, Sql.ownId_congr h.core.operators]

def Database.NetworkState.withStatus (state : Database.NetworkState C) (c : C)
    (liquidated : Bool) : Database.NetworkState C :=
  { state with clusters := state.clusters.modify c fun cluster => { cluster with liquidated } }

/-- What a log does to the tables and to the state in memory. -/
inductive Replays (env : EventEnv C) (published : Database.NetworkState C) (tx : Tx C)
    (mem : Database.NetworkState C) : ContractLog → Sql C → Database.NetworkState C → Prop where
  | quiet {log sql' mem'} (hsql : tx.sql.SameCore sql') (hmem : mem.SameCore mem')
      (hlog : log.Writes env.mode → ¬ tx.Accepts env published log) :
      Replays env published tx mem log sql' mem'
  | operatorAdded {operatorId owner publicKey sql₁ mem₁ sql'} {rsaPubkey : Bytes}
      (hsql : tx.sql.SameCore sql₁) (hmem : mem.SameCore mem₁)
      (hwellFormed : sql₁.WellFormed env.toDatabaseEnv)
      (hinsert : sql₁.insertOperator ⟨operatorId, rsaPubkey, owner⟩ = .ok sql') :
      Replays env published tx mem (.operatorAdded operatorId owner publicKey) sql'
        (mem₁.insertOperator ⟨operatorId, rsaPubkey, owner⟩
          (Tx.isOwnOperator env.toDatabaseEnv ⟨operatorId, rsaPubkey, owner⟩))
  | operatorRemoved {operatorId}
      (haccepts : tx.Accepts env published (.operatorRemoved operatorId))
      (hactive : tx.sql.getOperatorStatus operatorId = .ok .active) :
      Replays env published tx mem (.operatorRemoved operatorId)
        (tx.sql.deleteOperator operatorId)
        { mem with operators := Function.update mem.operators operatorId none }
  | validatorAdded {owner operatorIds publicKey bytes sql₁ mem₁ sql'} {cluster : Cluster C}
      {validator : ValidatorMetadata C} {shares : List (Share C)} {ownShare : Option (Share C)}
      (haccepts : tx.Accepts env published (.validatorAdded owner operatorIds publicKey bytes))
      (hmode : env.mode = .node) (hsql : tx.sql.SameCore sql₁) (hmem : mem.SameCore mem₁)
      (hadd : Addition env sql₁ sql' owner operatorIds cluster validator shares)
      (hactive : cluster.liquidated = false)
      (hown : ∀ share, ownShare = some share ↔ share ∈ shares ∧
        tx.getOwnOperatorIdTx env.toDatabaseEnv published = some share.operatorId) :
      Replays env published tx mem (.validatorAdded owner operatorIds publicKey bytes) sql'
        (mem₁.insertValidator env.toDatabaseEnv cluster validator ownShare)
  | validatorRemoved {owner operatorIds publicKey sql' mem'} {validator : ValidatorMetadata C}
      (haccepts : tx.Accepts env published (.validatorRemoved owner operatorIds publicKey))
      (hpubkey : FixedBytes.new? publicKey = some validator.publicKey)
      (hremoval : Removal env.toDatabaseEnv tx.sql sql' validator)
      (hmem : mem.Removed (tx.sql.IsLast validator) validator mem') :
      Replays env published tx mem (.validatorRemoved owner operatorIds publicKey) sql' mem'
  | liquidated {owner operatorIds} :
      Replays env published tx mem (.clusterLiquidated owner operatorIds)
        (tx.sql.updateClusterStatus (computeClusterId env.keccak256 owner operatorIds) true)
        (mem.withStatus (computeClusterId env.keccak256 owner operatorIds) true)
  | reactivated {owner operatorIds} :
      Replays env published tx mem (.clusterReactivated owner operatorIds)
        (tx.sql.updateClusterStatus (computeClusterId env.keccak256 owner operatorIds) false)
        (mem.withStatus (computeClusterId env.keccak256 owner operatorIds) false)
  | feeRecipient {owner recipient} :
      Replays env published tx mem (.feeRecipientAddressUpdated owner recipient)
        (tx.sql.setFeeRecipient owner recipient)
        { mem with
          clusters := mem.clusters.modifyAll (mem.clusters.tertiary owner) fun cluster =>
            { cluster with feeRecipient := recipient } }

/-- An open transaction, and the state that publishing its updates would give. -/
structure Tx.Consistent (env : EventEnv C) (published : Database.NetworkState C) (tx : Tx C)
    (mem : Database.NetworkState C) : Prop where
  wellFormed : tx.sql.WellFormed env.toDatabaseEnv
  publish : published.publish env.toDatabaseEnv tx.updates = some mem
  mirrors : Mirrors env.sha256 tx.sql mem
  /-- An identity that is published stays. -/
  id : ∀ id, published.id = some id → mem.id = some id

omit [DecidableEq C] in
theorem own_share_iff {shares : List (Share C)} (hnodup : (shares.map (·.operatorId)).Nodup)
    (ownId : Option OperatorId) (share : Share C) :
    shares.reverse.find? (fun s => ownId = some s.operatorId) = some share ↔
      share ∈ shares ∧ ownId = some share.operatorId := by
  constructor
  · intro h
    exact ⟨List.mem_reverse.mp (List.mem_of_find?_eq_some h),
      by simpa using List.find?_some h⟩
  · rintro ⟨hmem, hown⟩
    cases hfind : shares.reverse.find? fun s => ownId = some s.operatorId with
    | none =>
      have hnone := List.find?_eq_none.mp hfind share (List.mem_reverse.mpr hmem)
      exact absurd hown (by simpa using hnone)
    | some s =>
      have hs : ownId = some s.operatorId := by simpa using List.find?_some hfind
      have hid : s.operatorId = share.operatorId := Option.some.inj (hs.symm.trans hown)
      rw [List.inj_on_of_nodup_map hnodup (List.mem_reverse.mp (List.mem_of_find?_eq_some hfind))
        hmem hid]

namespace Tx.Consistent

theorem quiet (h : tx.Consistent env published mem) (hquiet : tx.Quiet tx') :
    ∃ mem', tx'.Consistent env published mem' ∧ mem.SameCore mem' := by
  obtain ⟨us, hus, hall⟩ := hquiet.updates
  obtain ⟨mem', hmem', hsame⟩ :=
    Database.NetworkState.publish_quiet env.toDatabaseEnv hall mem
  refine ⟨mem', ⟨h.wellFormed.congr hquiet.core (hquiet.nonces h.wellFormed.nonces), ?_,
    h.mirrors.sameCore hquiet.core hsame, fun id hid => hsame.id.trans (h.id id hid)⟩, hsame⟩
  rw [hus, Database.NetworkState.publish_append, h.publish]
  exact hmem'

theorem insertOperatorTx (h : tx.Consistent env published mem) {operator : Operator}
    (hinsert : tx.insertOperatorTx env.toDatabaseEnv operator = .ok tx') :
    tx.sql.insertOperator operator = .ok tx'.sql ∧ tx'.Consistent env published
      (mem.insertOperator operator (Tx.isOwnOperator env.toDatabaseEnv operator)) := by
  unfold Tx.insertOperatorTx at hinsert
  split at hinsert
  · cases hinsert
  split at hinsert
  · cases hinsert
  split at hinsert
  · cases hinsert
  rename_i sql hsql
  cases hinsert
  refine ⟨hsql, h.wellFormed.insertOperator hsql, Database.NetworkState.publish_concat h.publish _,
    ?_, ?_⟩
  · obtain ⟨-, -, -, operators, rfl, -⟩ := Sql.insertOperator_ok hsql
    have hsql' : Mirrors env.sha256 { tx.sql with operators } mem :=
      h.mirrors.congr rfl (fun _ _ => Iff.rfl) rfl rfl fun _ => rfl
    exact hsql'.of_maps rfl rfl rfl
  · intro id hid
    simp [Database.NetworkState.insertOperator, h.id id hid]

theorem deleteOperatorTx (h : tx.Consistent env published mem) {id : OperatorId}
    (hdelete : tx.deleteOperatorTx id = .ok tx') :
    tx.sql.getOperatorStatus id = .ok .active ∧ tx'.sql = tx.sql.deleteOperator id ∧
      tx'.Consistent env published
        { mem with operators := Function.update mem.operators id none } := by
  unfold Tx.deleteOperatorTx at hdelete
  split at hdelete
  · cases hdelete
  rename_i hstatus
  split at hdelete
  · rename_i hactive
    subst hactive
    cases hdelete
    refine ⟨hstatus, rfl, h.wellFormed.deleteOperator id,
      Database.NetworkState.publish_concat h.publish _, ?_, h.id⟩
    have hsql : Mirrors env.sha256 (tx.sql.deleteOperator id) mem :=
      h.mirrors.congr (by simp) (by simp [Sql.OwnedBy]) (by simp) (by simp)
        (by simp [Sql.feeRecipientOf, Sql.feeRecipientForOwner])
    exact hsql.of_maps rfl rfl rfl
  · cases hdelete

theorem afterLog (hkeccak : Function.Injective env.keccak256)
    (h : tx.Consistent env published mem) (hlog : tx.afterLog env published log = .ok tx') :
    ∃ mem', tx'.Consistent env published mem' ∧
      Replays env published tx mem log tx'.sql mem' := by
  cases Tx.logEffect_of_afterLog hlog with
  | quiet hquiet hwrites =>
    obtain ⟨mem', hmem', hsame⟩ := h.quiet hquiet
    exact ⟨mem', hmem', .quiet hquiet.core hsame hwrites⟩
  | operatorAdded haccepts hmid hinsert =>
    obtain ⟨mem₁, h₁, hsame⟩ := h.quiet hmid
    obtain ⟨hsql, h'⟩ := h₁.insertOperatorTx hinsert
    exact ⟨_, h', .operatorAdded hmid.core hsame h₁.wellFormed hsql⟩
  | operatorRemoved haccepts hdelete =>
    obtain ⟨hactive, hsql, h'⟩ := h.deleteOperatorTx hdelete
    refine ⟨_, h', ?_⟩
    rw [hsql]
    exact .operatorRemoved haccepts hactive
  | validatorAdded haccepts hmode hmid hcheck hinsert =>
    obtain ⟨mem₁, h₁, hsame⟩ := h.quiet hmid
    obtain ⟨hadded, hupdates⟩ := Tx.insertValidatorTx_ok rfl hinsert
    have hchecked := validatorAddition_of_check hcheck
    have hadd : Addition env _ _ _ _ _ _ _ :=
      ⟨h₁.wellFormed, hkeccak, hchecked, hadded, rfl, rfl, rfl, rfl, rfl⟩
    have hown := own_share_iff (hchecked.operators ▸ hchecked.nodup)
      (tx.getOwnOperatorIdTx env.toDatabaseEnv published)
    rw [hmid.getOwnOperatorIdTx] at hupdates
    refine ⟨_, ⟨hadd.wellFormed', ?_, hadd.mirrors h₁.mirrors fun share hshare =>
      ((hown share).mp hshare).1, ?_⟩,
      .validatorAdded haccepts hmode hmid.core hsame hadd rfl hown⟩
    · rw [hupdates]
      exact Database.NetworkState.publish_concat h₁.publish _
    · intro id hpublished
      rw [Database.NetworkState.id_insertValidator]
      exact h₁.id id hpublished
  | validatorRemoved haccepts hpubkey hvalidator =>
    obtain ⟨hstored, rfl⟩ := Table.find?_eq_some.mp hvalidator
    have hremoval : Removal env.toDatabaseEnv tx.sql _ _ :=
      ⟨h.wellFormed, hstored, Sql.removed_deleteValidator hvalidator⟩
    obtain ⟨mem', hmem', hremoved⟩ := hremoval.exists_deleteValidator h.mirrors
    refine ⟨mem', ⟨hremoval.wellFormed', ?_, hremoval.mirrors h.mirrors hremoved, ?_⟩,
      .validatorRemoved haccepts hpubkey hremoval hremoved⟩
    · exact (Database.NetworkState.publish_concat h.publish _).trans hmem'
    · intro id hid
      exact hremoved.id.trans (h.id id hid)
  | liquidated =>
    exact ⟨_, ⟨h.wellFormed.updateClusterStatus _ _,
      Database.NetworkState.publish_concat h.publish _, h.mirrors.updateClusterStatus _ _, h.id⟩,
      .liquidated⟩
  | reactivated =>
    exact ⟨_, ⟨h.wellFormed.updateClusterStatus _ _,
      Database.NetworkState.publish_concat h.publish _, h.mirrors.updateClusterStatus _ _, h.id⟩,
      .reactivated⟩
  | feeRecipient =>
    exact ⟨_, ⟨h.wellFormed.setFeeRecipient _ _,
      Database.NetworkState.publish_concat h.publish _, h.mirrors.setFeeRecipient _ _, h.id⟩,
      .feeRecipient⟩

end Tx.Consistent

end Anchor
