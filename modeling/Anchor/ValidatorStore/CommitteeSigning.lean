import Mathlib
import Anchor.Eth.Identity
import Anchor.SignatureCollector.CommitteeBatch

/-!
# Signing for the validators of a committee

Attestations and sync committee messages are signed committee by committee.  The size of
the batch in which a committee's partial signatures leave is counted from the duties of
the slot; what goes into the batch is what the lookups and the decryption of each
validator's share let through.
-/

namespace Anchor

open Ssz

structure VotingAssignments where
  slot : ℕ
  attestingValidators : List UInt64
  /-- The positions in each subnet, by validator. -/
  syncValidatorsBySubnet : Table (Prod.fst : UInt64 × List (UInt64 × ℕ) → UInt64)

namespace VotingAssignments

def syncValidators (assignments : VotingAssignments) : List UInt64 :=
  assignments.syncValidatorsBySubnet.rows.map Prod.fst

def votingMessageCountForCommittee (assignments : VotingAssignments)
    (isInCommittee : UInt64 → Bool) : ℕ :=
  assignments.attestingValidators.countP isInCommittee +
    assignments.syncValidators.countP isInCommittee

end VotingAssignments

/-- What the validator store uses from outside.  A node without a private key only observes; a
share that cannot be decrypted has no key. -/
structure StoreEnv (Key : Type) where
  sha256 : Bytes → Hash256
  signer : Signer Key
  privateKey : Option (FixedBytes 256 → Option Key)

inductive StoreError (C : Type) where
  | unknownPubkey (pubkey : PublicKeyBytes)
  | clusterLiquidated
  | validatorClusterMismatch (validatorPubkey : PublicKeyBytes) (clusterId : C)
  | keyShareDecryptionFailed
  | missingIndex
  | ownOperatorIdUnknown

structure SigningRequest (C : Type) where
  validator : ValidatorMetadata C
  signingRoot : Hash256

/-- What a committee decided for a slot: the hash of the value, and the roots to sign. -/
structure DecidedVote (A : Type) where
  decidedHash : Hash256
  attestationRoot : A → Hash256
  syncRoot : Hash256

variable {C Key : Type} (env : StoreEnv Key)

namespace Database.NetworkState

variable (state : Database.NetworkState C)

def getValidatorAndCluster (pubkey : PublicKeyBytes) :
    Except (StoreError C) (ValidatorMetadata C × Cluster C) :=
  match state.metadata.primary pubkey with
  | none => .error (.unknownPubkey pubkey)
  | some validator =>
    match state.clusters.primary validator.clusterId with
    | some cluster =>
      if cluster.liquidated then .error .clusterLiquidated else .ok (validator, cluster)
    | none => .error (.validatorClusterMismatch pubkey validator.clusterId)

def getCommitteeValidatorIndices (committeeId : CommitteeId) : Finset UInt64 :=
  (state.metadata.present (state.metadata.quaternary committeeId)).biUnion fun pubkey =>
    ((state.metadata.primary pubkey).bind (·.index)).toFinset

/-- The items of a committee, with the cluster of the first one.  Items whose validator or cluster
is not found, and those of liquidated clusters, are skipped. -/
def groupByCommittee {I : Type} (items : List I) (getPubkey : I → PublicKeyBytes)
    (committeeId : CommitteeId) : Option (Cluster C × List (ValidatorMetadata C × I)) :=
  let found := items.filterMap fun item =>
    match state.getValidatorAndCluster (getPubkey item) with
    | .ok (validator, cluster) =>
      if cluster.committeeId env.sha256 = committeeId then some (cluster, validator, item)
      else none
    | .error _ => none
  found.head?.map fun first => (first.1, found.map Prod.snd)

def validatorSigningData (validator : ValidatorMetadata C) (root : Hash256) :
    Except (StoreError C) (ValidatorSigningData Key) :=
  match state.shares.primary validator.publicKey with
  | none => .error (.unknownPubkey validator.publicKey)
  | some share =>
    let decrypted : Except (StoreError C) (Option Key) :=
      match env.privateKey with
      | none => .ok none
      | some decryptKeyShare =>
        match decryptKeyShare share.encryptedPrivateKey with
        | none => .error .keyShareDecryptionFailed
        | some key => .ok (some key)
    match decrypted, validator.index with
    | .error e, _ => .error e
    | .ok _, none => .error .missingIndex
    | .ok share, some index => .ok ⟨root, index, validator.publicKey, share⟩

def collectSignature (role : Role) (batchSize : ℕ) (baseHash : Hash256)
    (validator : ValidatorMetadata C) (cluster : Cluster C) (signingRoot : Hash256) (slot : ℕ) :
    Except (StoreError C) BatchCall :=
  match state.validatorSigningData env validator signingRoot with
  | .error e => .error e
  | .ok data =>
    match state.id with
    | none => .error .ownOperatorIdUnknown
    | some operatorId =>
      .ok
        { metadata := ⟨.postConsensus, role, getF cluster.clusterMembers.toList.length * 2 + 1,
            slot, cluster.committeeId env.sha256⟩
          batchSize
          baseHash
          message := data.partialSignatureMessage env.signer signingRoot operatorId }

/-- The calls for all validators that have an index; the others, and those that fail, are left
out. -/
def collectPreparedSignatures (role : Role) (slot : ℕ) (cluster : Cluster C) (batchSize : ℕ)
    (dataHash : Hash256) (prepared : List (SigningRequest C)) : List BatchCall :=
  (prepared.filter (·.validator.index.isSome)).filterMap fun item =>
    (state.collectSignature env role batchSize dataHash item.validator cluster item.signingRoot
      slot).toOption

def committeeBatchSize (assignments : VotingAssignments) (committeeId : CommitteeId) : ℕ :=
  assignments.votingMessageCountForCommittee
    (· ∈ state.getCommitteeValidatorIndices committeeId)

def signCommittee {I : Type} (assignments : VotingAssignments) (committeeId : CommitteeId)
    (decidedHash : Hash256) (root : I → Hash256)
    (group : Option (Cluster C × List (ValidatorMetadata C × I))) : List BatchCall :=
  match group with
  | none => []
  | some (cluster, items) =>
    state.collectPreparedSignatures env .committee assignments.slot cluster
      (state.committeeBatchSize assignments committeeId) decidedHash
      (items.map fun item => ⟨item.1, root item.2⟩)

/-- `sign_attestations` of a committee; a node that is not synced signs none. -/
def signAttestations {A : Type} (isSynced : Bool) (assignments : VotingAssignments)
    (committeeId : CommitteeId) (decided : DecidedVote A) (attestations : List A)
    (getPubkey : A → PublicKeyBytes) : List BatchCall :=
  if !isSynced then []
  else
    state.signCommittee env assignments committeeId decided.decidedHash decided.attestationRoot
      (state.groupByCommittee env attestations getPubkey committeeId)

/-- `sign_sync_committee_signatures` of a committee. -/
def signSyncCommitteeSignatures {A : Type} (assignments : VotingAssignments)
    (committeeId : CommitteeId) (decided : DecidedVote A) (messages : List PublicKeyBytes) :
    List BatchCall :=
  state.signCommittee env assignments committeeId decided.decidedHash
    (fun _ => decided.syncRoot)
    (state.groupByCommittee env messages (fun pubkey => pubkey) committeeId)

theorem getValidatorAndCluster_eq_ok {state : Database.NetworkState C} {pubkey : PublicKeyBytes}
    {validator : ValidatorMetadata C} {cluster : Cluster C} :
    state.getValidatorAndCluster pubkey = .ok (validator, cluster) ↔
      state.metadata.primary pubkey = some validator ∧
        state.clusters.primary validator.clusterId = some cluster ∧
        cluster.liquidated = false := by
  unfold getValidatorAndCluster
  cases state.metadata.primary pubkey with
  | none => simp
  | some v =>
    dsimp only
    constructor
    · intro h
      split at h
      · rename_i found hfound
        split at h
        · cases h
        · rename_i hactive
          cases h
          exact ⟨rfl, hfound, by simpa using hactive⟩
      · cases h
    · rintro ⟨hv, hcluster, hactive⟩
      cases hv
      simp [hcluster, hactive]

/-! ## What goes into the batch -/

def hasUsableShare (validator : ValidatorMetadata C) : Bool :=
  (state.shares.primary validator.publicKey).any fun share =>
    env.privateKey.all fun decryptKeyShare => (decryptKeyShare share.encryptedPrivateKey).isSome

def usable (pubkey : PublicKeyBytes) : Bool :=
  match state.getValidatorAndCluster pubkey with
  | .ok (validator, _) =>
    validator.index.isSome && state.id.isSome && state.hasUsableShare env validator
  | .error _ => false

variable {env state}

theorem isSome_collectSignature (role : Role) (batchSize : ℕ) (baseHash : Hash256)
    (validator : ValidatorMetadata C) (cluster : Cluster C) (signingRoot : Hash256) (slot : ℕ) :
    (state.collectSignature env role batchSize baseHash validator cluster signingRoot
        slot).toOption.isSome =
      (validator.index.isSome && state.id.isSome && state.hasUsableShare env validator) := by
  unfold collectSignature validatorSigningData hasUsableShare
  cases state.shares.primary validator.publicKey with
  | none => simp [Except.toOption]
  | some share =>
    cases env.privateKey with
    | none =>
      cases validator.index <;> cases state.id <;> simp [Except.toOption]
    | some decryptKeyShare =>
      cases hkey : decryptKeyShare share.encryptedPrivateKey <;> cases validator.index <;>
        cases state.id <;> simp [Except.toOption, hkey]

theorem length_collectPreparedSignatures (role : Role) (slot : ℕ) (cluster : Cluster C)
    (batchSize : ℕ) (dataHash : Hash256) (prepared : List (SigningRequest C)) :
    (state.collectPreparedSignatures env role slot cluster batchSize dataHash prepared).length =
      prepared.countP fun item =>
        item.validator.index.isSome && state.id.isSome &&
          state.hasUsableShare env item.validator := by
  rw [collectPreparedSignatures, List.length_filterMap_eq_countP, List.countP_filter]
  refine List.countP_congr fun item _ => ?_
  rw [isSome_collectSignature]
  cases item.validator.index <;> simp

section Group

variable {I : Type} {items : List I} {getPubkey : I → PublicKeyBytes} {committeeId : CommitteeId}
  {assignments : VotingAssignments} {decidedHash : Hash256} {root : I → Hash256}

theorem mem_signCommittee {c : BatchCall}
    (h : c ∈ state.signCommittee env assignments committeeId decidedHash root
      (state.groupByCommittee env items getPubkey committeeId)) :
    c.key = .committeePostConsensus assignments.slot committeeId ∧
      c.batchSize = state.committeeBatchSize assignments committeeId := by
  unfold signCommittee groupByCommittee at h
  dsimp only at h
  split at h
  · cases h
  · rename_i cluster group hgroup
    obtain ⟨request, -, hcall⟩ := List.mem_filterMap.mp h
    unfold collectSignature at hcall
    split at hcall
    · cases hcall
    split at hcall
    · cases hcall
    cases hcall
    refine ⟨BatchCall.key_eq_committeePostConsensus.mpr ⟨rfl, rfl, ?_⟩, rfl⟩
    obtain ⟨first, hfirst, heq⟩ := Option.map_eq_some_iff.mp hgroup
    obtain ⟨item, -, hitem⟩ := List.mem_filterMap.mp (List.mem_of_head? hfirst)
    split at hitem
    · split at hitem
      · rename_i hcid
        cases hitem
        cases heq
        exact hcid
      · cases hitem
    · cases hitem

def isGrouped (env : StoreEnv Key) (state : Database.NetworkState C) (committeeId : CommitteeId)
    (pubkey : PublicKeyBytes) : Bool :=
  match state.getValidatorAndCluster pubkey with
  | .ok (_, cluster) => cluster.committeeId env.sha256 = committeeId
  | .error _ => false

theorem length_signCommittee (items : List I) (getPubkey : I → PublicKeyBytes) :
    (state.signCommittee env assignments committeeId decidedHash root
      (state.groupByCommittee env items getPubkey committeeId)).length =
      (items.map getPubkey).countP fun pubkey =>
        state.isGrouped env committeeId pubkey && state.usable env pubkey := by
  unfold groupByCommittee
  -- an empty group makes no calls, as the count over it says
  have hcount : ∀ found : List (Cluster C × ValidatorMetadata C × I),
      (state.signCommittee env assignments committeeId decidedHash root
        (found.head?.map fun first => (first.1, found.map Prod.snd))).length =
      found.countP fun entry => entry.2.1.index.isSome && state.id.isSome &&
        state.hasUsableShare env entry.2.1 := by
    intro found
    cases found with
    | nil => rfl
    | cons first rest =>
      simp only [List.head?_cons, Option.map_some, signCommittee,
        length_collectPreparedSignatures, List.countP_map]
      rfl
  rw [hcount, List.countP_filterMap, List.countP_map]
  refine List.countP_congr fun item _ => ?_
  unfold isGrouped usable
  dsimp only [Function.comp_apply]
  split
  · rename_i validator cluster _
    by_cases hcid : cluster.committeeId env.sha256 = committeeId <;> simp [hcid]
  · simp

end Group

end Database.NetworkState

/-! ## Duties and callbacks -/

namespace Database.NetworkState

/-- The committee by which a validator is found is the committee of its cluster. -/
def CommitteeIndexed (sha256 : Bytes → Hash256) (state : Database.NetworkState C) : Prop :=
  ∀ pubkey validator cluster, state.metadata.primary pubkey = some validator →
    state.clusters.primary validator.clusterId = some cluster →
    ∀ q, pubkey ∈ state.metadata.quaternary q ↔ cluster.committeeId sha256 = q

/-- The callbacks name the assigned validators of the committee, each as often as it is
assigned. -/
def Covers (state : Database.NetworkState C) (committeeId : CommitteeId) (assigned : List UInt64)
    (pubkeys : List PublicKeyBytes) : Prop :=
  ((pubkeys.filter (· ∈ state.metadata.quaternary committeeId)).map fun pubkey =>
      (state.metadata.primary pubkey).bind (·.index)).Perm
    ((assigned.filter (· ∈ state.getCommitteeValidatorIndices committeeId)).map some)

instance (state : Database.NetworkState C) (committeeId : CommitteeId) (assigned : List UInt64)
    (pubkeys : List PublicKeyBytes) : Decidable (state.Covers committeeId assigned pubkeys) :=
  inferInstanceAs (Decidable (List.Perm _ _))

def AllUsable (env : StoreEnv Key) (state : Database.NetworkState C) (committeeId : CommitteeId)
    (pubkeys : List PublicKeyBytes) : Prop :=
  ∀ pubkey ∈ pubkeys, pubkey ∈ state.metadata.quaternary committeeId →
    state.usable env pubkey = true

instance (env : StoreEnv Key) (state : Database.NetworkState C) (committeeId : CommitteeId)
    (pubkeys : List PublicKeyBytes) : Decidable (state.AllUsable env committeeId pubkeys) :=
  inferInstanceAs (Decidable (∀ pubkey ∈ pubkeys, _))

/-- The memory part of `set_validator_indices`. -/
def setValidatorIndices (state : Database.NetworkState C) (map : List (PublicKeyBytes × UInt64)) :
    Database.NetworkState C :=
  map.foldl (fun state entry =>
    { state with
      metadata := state.metadata.modify entry.1 fun validator =>
        { validator with index := some entry.2 } }) state

variable {env : StoreEnv Key} {state : Database.NetworkState C} {committeeId : CommitteeId}

theorem CommitteeIndexed.setValidatorIndices {sha256 : Bytes → Hash256}
    (h : state.CommitteeIndexed sha256) (map : List (PublicKeyBytes × UInt64)) :
    (state.setValidatorIndices map).CommitteeIndexed sha256 := by
  induction map generalizing state with
  | nil => exact h
  | cons entry map ih =>
    refine ih fun pubkey validator cluster hvalidator hcluster => ?_
    by_cases hpubkey : pubkey = entry.1
    · subst hpubkey
      simp only [MultiIndexMap.modify, Function.update_self, Option.map_eq_some_iff] at hvalidator
      obtain ⟨old, hold, rfl⟩ := hvalidator
      exact h entry.1 old cluster hold hcluster
    · simp only [MultiIndexMap.modify, Function.update_of_ne hpubkey] at hvalidator
      exact h pubkey validator cluster hvalidator hcluster

/-- In every state that mirrors the tables validators are found by the committee of their
cluster. -/
theorem committeeIndexed_of_mirrors [DecidableEq C] {sha256 : Bytes → Hash256} {sql : Sql C}
    (h : Mirrors sha256 sql state) : state.CommitteeIndexed sha256 := by
  intro pubkey validator cluster hvalidator hcluster q
  have hcommittee : sql.committeeOf sha256 validator.clusterId = cluster.committeeId sha256 :=
    Sql.committeeOf_eq sha256 cluster.clusterMembers.nodup fun id =>
      (h.clusters_valued.clusterMembers _ cluster hcluster id).symm
  have hin : sql.InCluster pubkey validator.clusterId := by
    rw [h.metadata] at hvalidator
    obtain ⟨hmem, hkey⟩ := Table.find?_eq_some.mp hvalidator
    exact ⟨validator, hmem, hkey, rfl⟩
  rw [h.metadata_indexed.quaternary]
  constructor
  · rintro ⟨-, c, hc, hq⟩
    rw [← hcommittee, ← hc.unique hin]
    exact hq
  · intro hq
    exact ⟨by rw [hvalidator]; rfl, validator.clusterId, hin, hcommittee.trans hq⟩

theorem length_of_covers {assigned : List UInt64} {pubkeys : List PublicKeyBytes}
    (h : state.Covers committeeId assigned pubkeys) :
    assigned.countP (· ∈ state.getCommitteeValidatorIndices committeeId) =
      pubkeys.countP (· ∈ state.metadata.quaternary committeeId) := by
  rw [List.countP_eq_length_filter, List.countP_eq_length_filter]
  simpa using h.length_eq.symm

theorem countP_isGrouped_and_usable (hstate : state.CommitteeIndexed env.sha256)
    (pubkeys : List PublicKeyBytes) :
    pubkeys.countP (fun pubkey => state.isGrouped env committeeId pubkey &&
        state.usable env pubkey) =
      (pubkeys.filter (· ∈ state.metadata.quaternary committeeId)).countP (state.usable env) := by
  rw [List.countP_filter]
  refine List.countP_congr fun pubkey _ => ?_
  unfold isGrouped usable
  split
  · rename_i validator cluster hfound
    obtain ⟨hmetadata, hcluster, -⟩ := getValidatorAndCluster_eq_ok.mp hfound
    simp [hstate pubkey validator cluster hmetadata hcluster committeeId, and_comm]
  · simp

theorem countP_usable_eq_iff (pubkeys : List PublicKeyBytes) :
    (pubkeys.filter (· ∈ state.metadata.quaternary committeeId)).countP (state.usable env) =
        pubkeys.countP (· ∈ state.metadata.quaternary committeeId) ↔
      state.AllUsable env committeeId pubkeys := by
  rw [List.countP_eq_length_filter (l := pubkeys), List.countP_eq_length]
  simp only [AllUsable, List.mem_filter, decide_eq_true_eq, and_imp]

end Database.NetworkState

def BatchEvent.callsFor (key : CommitteeBatchKey) (es : List BatchEvent) : List BatchCall :=
  es.filterMap fun
    | call c => if c.key = key then some c else none
    | _ => none

theorem BatchEvent.pushedFor_eq (key : CommitteeBatchKey) (es : List BatchEvent) :
    BatchEvent.pushedFor key es = (BatchEvent.callsFor key es).map (·.message) := by
  rw [BatchEvent.pushedFor, BatchEvent.callsFor, List.map_filterMap]
  refine List.filterMap_congr fun e _ => ?_
  cases e with
  | call c =>
    dsimp only
    split <;> rfl
  | _ => rfl

theorem BatchEvent.commonSize_of_callsFor {key : CommitteeBatchKey} {size : ℕ}
    {es : List BatchEvent} (h : ∀ c ∈ BatchEvent.callsFor key es, c.batchSize = size) :
    ∀ e ∈ es, e.CommonSize key size := by
  intro e he
  cases e with
  | call c =>
    intro hkey
    exact h c (List.mem_filterMap.mpr ⟨_, he, if_pos hkey⟩)
  | _ => trivial

theorem BatchEvent.callsFor_map_call {key : CommitteeBatchKey} {calls : List BatchCall}
    (h : ∀ c ∈ calls, c.key = key) : BatchEvent.callsFor key (calls.map .call) = calls := by
  rw [BatchEvent.callsFor, List.filterMap_map]
  conv_rhs => rw [← List.filterMap_some (l := calls)]
  exact List.filterMap_congr fun c hc => if_pos (h c hc)

section Callbacks

variable {A : Type} (env : StoreEnv Key) (state : Database.NetworkState C) (isSynced : Bool)
  (assignments : VotingAssignments) (committeeId : CommitteeId) (decided : DecidedVote A)
  (attestations : List A) (getPubkey : A → PublicKeyBytes) (messages : List PublicKeyBytes)

def committeeCalls : List BatchCall :=
  state.signAttestations env isSynced assignments committeeId decided attestations getPubkey ++
    state.signSyncCommitteeSignatures env assignments committeeId decided messages

/-- Everyone in the committee who is to sign can do so, and attesters only count on a synced
node. -/
def AllSign : Prop :=
  (∀ attestation ∈ attestations,
    getPubkey attestation ∈ state.metadata.quaternary committeeId → isSynced = true) ∧
  state.AllUsable env committeeId (attestations.map getPubkey) ∧
  state.AllUsable env committeeId messages

instance : Decidable (AllSign env state isSynced committeeId attestations getPubkey messages) :=
  inferInstanceAs (Decidable ((∀ attestation ∈ attestations, _) ∧ _ ∧ _))

variable {env state isSynced assignments committeeId decided attestations getPubkey messages}

theorem mem_committeeCalls {c : BatchCall}
    (h : c ∈ committeeCalls env state isSynced assignments committeeId decided attestations
      getPubkey messages) :
    c.key = .committeePostConsensus assignments.slot committeeId ∧
      c.batchSize = state.committeeBatchSize assignments committeeId := by
  rcases List.mem_append.mp h with h | h
  · unfold Database.NetworkState.signAttestations at h
    split at h
    · cases h
    · exact Database.NetworkState.mem_signCommittee h
  · exact Database.NetworkState.mem_signCommittee h

/-- The batch is counted from all validators that are to sign; there are fewer calls as soon as
one of them cannot. -/
theorem length_committeeCalls (isSynced : Bool) (decided : DecidedVote A)
    (hstate : state.CommitteeIndexed env.sha256)
    (hattesters : state.Covers committeeId assignments.attestingValidators
      (attestations.map getPubkey))
    (hsyncers : state.Covers committeeId assignments.syncValidators messages) :
    (committeeCalls env state isSynced assignments committeeId decided attestations getPubkey
        messages).length ≤ state.committeeBatchSize assignments committeeId ∧
      (state.committeeBatchSize assignments committeeId =
          (committeeCalls env state isSynced assignments committeeId decided attestations getPubkey
            messages).length ↔
        AllSign env state isSynced committeeId attestations getPubkey messages) := by
  have hlength : (committeeCalls env state isSynced assignments committeeId decided attestations
      getPubkey messages).length = (state.signAttestations env isSynced assignments committeeId
        decided attestations getPubkey).length +
      (messages.filter (· ∈ state.metadata.quaternary committeeId)).countP (state.usable env) := by
    rw [committeeCalls, List.length_append, Database.NetworkState.signSyncCommitteeSignatures,
      Database.NetworkState.length_signCommittee, List.map_id',
      Database.NetworkState.countP_isGrouped_and_usable hstate]
  have hle : ∀ pubkeys : List PublicKeyBytes,
      (pubkeys.filter (· ∈ state.metadata.quaternary committeeId)).countP (state.usable env) ≤
        pubkeys.countP (· ∈ state.metadata.quaternary committeeId) := by
    intro pubkeys
    rw [List.countP_eq_length_filter (l := pubkeys)]
    exact List.countP_le_length
  have hsync := hle messages
  have hattest := hle (attestations.map getPubkey)
  rw [hlength, Database.NetworkState.committeeBatchSize,
    VotingAssignments.votingMessageCountForCommittee,
    Database.NetworkState.length_of_covers hattesters,
    Database.NetworkState.length_of_covers hsyncers]
  unfold AllSign Database.NetworkState.signAttestations
  rw [← Database.NetworkState.countP_usable_eq_iff, ← Database.NetworkState.countP_usable_eq_iff]
  cases isSynced with
  | true =>
    simp only [Bool.not_true, Bool.false_eq_true, if_false,
      Database.NetworkState.length_signCommittee,
      Database.NetworkState.countP_isGrouped_and_usable hstate, implies_true, true_and]
    omega
  | false =>
    have hnone : (∀ attestation ∈ attestations,
        getPubkey attestation ∈ state.metadata.quaternary committeeId → False) ↔
        (attestations.map getPubkey).countP (· ∈ state.metadata.quaternary committeeId) = 0 := by
      simp [List.countP_eq_zero]
    simp only [Bool.not_false, if_true, List.length_nil, Bool.false_eq_true, hnone]
    omega

variable (isSynced assignments committeeId decided attestations getPubkey messages) in
/-- The partial signatures of a committee leave in one batch, once all callbacks have pushed
theirs, exactly if everyone who is to sign can do so: then the size of the batch is the number of
partial signatures pushed.  Otherwise it is larger, and nothing of the committee ever leaves. -/
theorem committee_batch_complete_iff_all_sign (hstate : state.CommitteeIndexed env.sha256)
    (hattesters : state.Covers committeeId assignments.attestingValidators
      (attestations.map getPubkey))
    (hsyncers : state.Covers committeeId assignments.syncValidators messages) :
    (∀ c ∈ committeeCalls env state isSynced assignments committeeId decided attestations getPubkey
        messages, c.key = .committeePostConsensus assignments.slot committeeId ∧
      c.batchSize = state.committeeBatchSize assignments committeeId) ∧
    (state.committeeBatchSize assignments committeeId =
        (committeeCalls env state isSynced assignments committeeId decided attestations getPubkey
          messages).length ↔
      AllSign env state isSynced committeeId attestations getPubkey messages) ∧
    ∀ (clock : ℕ) (es : List BatchEvent),
      (BatchEvent.callsFor (.committeePostConsensus assignments.slot committeeId) es).Perm
        (committeeCalls env state isSynced assignments committeeId decided attestations getPubkey
          messages) →
      (AllSign env state isSynced committeeId attestations getPubkey messages →
        committeeCalls env state isSynced assignments committeeId decided attestations getPubkey
          messages ≠ [] →
        cutoffAt (Machine.run BatchManager.step (BatchManager.new clock) es).clock ≤
          assignments.slot →
        (Machine.run BatchManager.step (BatchManager.new clock) es).takenFor
            (.committeePostConsensus assignments.slot committeeId) =
          [BatchEvent.pushedFor (.committeePostConsensus assignments.slot committeeId) es]) ∧
      (¬ AllSign env state isSynced committeeId attestations getPubkey messages →
        (Machine.run BatchManager.step (BatchManager.new clock) es).takenFor
          (.committeePostConsensus assignments.slot committeeId) = []) := by
  obtain ⟨hle, hiff⟩ := length_committeeCalls isSynced decided hstate hattesters hsyncers
  refine ⟨fun c hc => mem_committeeCalls hc, hiff, ?_⟩
  intro clock es hperm
  have hpushed := congrArg List.length
    (BatchEvent.pushedFor_eq (.committeePostConsensus assignments.slot committeeId) es)
  rw [List.length_map, hperm.length_eq] at hpushed
  have hcommon := BatchEvent.commonSize_of_callsFor fun c hc =>
    (mem_committeeCalls (hperm.mem_iff.mp hc)).2
  constructor
  · intro hall hne hfresh
    have hpos := List.length_pos_iff.mpr hne
    have heq := hiff.mpr hall
    exact (BatchManager.takenFor_postConsensus clock (by omega) hcommon).2 (by omega) hfresh
  · intro hnot
    have hlt := lt_of_le_of_ne hle fun heq => hnot (hiff.mp heq.symm)
    exact (BatchManager.takenFor_postConsensus clock (by omega) hcommon).1 (by omega)

end Callbacks

namespace Sample

def storeEnv : StoreEnv Unit where
  sha256 := chainEnv.sha256
  signer := ⟨fun _ _ => ⟨List.replicate 96 1, rfl⟩, ⟨List.replicate 96 0, length_zeroSignature⟩⟩
  -- only the shares of the first validator can be decrypted
  privateKey := some fun encrypted => if encrypted.toList.head? = some 8 then some () else none

def pubkeyOf (k : UInt8) : PublicKeyBytes := ⟨validatorKey k, rfl⟩

def twoValidators : Database.NetworkState Bytes :=
  (runChain [.block operatorLogs 1,
    .block [addValidator 8, addValidator 9] 2]).state.setValidatorIndices
      [(pubkeyOf 8, 0), (pubkeyOf 9, 1)]

def dutiesOf (attesting : List UInt64) : VotingAssignments := ⟨5, attesting, ⟨[(0, [])], by simp⟩⟩

def decidedVote : DecidedVote PublicKeyBytes :=
  ⟨Hash256.default, fun _ => Hash256.default, Hash256.default⟩

def callsOf (attesting : List UInt64) (attesters : List PublicKeyBytes) : List BatchCall :=
  committeeCalls storeEnv twoValidators true (dutiesOf attesting) Hash256.default decidedVote
    attesters (fun pubkey => pubkey) [pubkeyOf 8]

theorem committeeIndexed_twoValidators : twoValidators.CommitteeIndexed storeEnv.sha256 := by
  have hsound : (runChain [.block operatorLogs 1,
      .block [addValidator 8, addValidator 9] 2]).Sound chainEnv :=
    NetworkDatabase.sound_run Function.injective_id _
  exact (Database.NetworkState.committeeIndexed_of_mirrors hsound.mirrors).setValidatorIndices _

end Sample

theorem committee_batch_complete_sample :
    (Machine.run BatchManager.step (BatchManager.new 5)
        ((Sample.callsOf [0] [Sample.pubkeyOf 8]).map .call)).takenFor
          (.committeePostConsensus 5 Hash256.default) =
      [BatchEvent.pushedFor (.committeePostConsensus 5 Hash256.default)
        ((Sample.callsOf [0] [Sample.pubkeyOf 8]).map .call)] := by
  obtain ⟨hkeys, -, hruns⟩ := committee_batch_complete_iff_all_sign true (Sample.dutiesOf [0])
    Hash256.default Sample.decidedVote [Sample.pubkeyOf 8] (fun pubkey => pubkey)
    [Sample.pubkeyOf 8] Sample.committeeIndexed_twoValidators (by decide +kernel)
    (by decide +kernel)
  refine (hruns 5 _ (.of_eq (BatchEvent.callsFor_map_call fun c hc => (hkeys c hc).1))).1
    (by decide +kernel) ?_ (by decide +kernel)
  exact List.ne_nil_of_length_pos (by decide +kernel)

/-- The share of the second attester cannot be decrypted: the batch is to have three partial
signatures, two are pushed, and they never leave. -/
theorem committee_batch_incomplete :
    Sample.twoValidators.CommitteeIndexed Sample.storeEnv.sha256 ∧
    Sample.twoValidators.Covers Hash256.default (Sample.dutiesOf [0, 1]).attestingValidators
      [Sample.pubkeyOf 8, Sample.pubkeyOf 9] ∧
    Sample.twoValidators.Covers Hash256.default (Sample.dutiesOf [0, 1]).syncValidators
      [Sample.pubkeyOf 8] ∧
    Sample.twoValidators.committeeBatchSize (Sample.dutiesOf [0, 1]) Hash256.default = 3 ∧
    (Sample.callsOf [0, 1] [Sample.pubkeyOf 8, Sample.pubkeyOf 9]).length = 2 ∧
    (Machine.run BatchManager.step (BatchManager.new 5)
      ((Sample.callsOf [0, 1] [Sample.pubkeyOf 8, Sample.pubkeyOf 9]).map .call)).taken = [] :=
  ⟨Sample.committeeIndexed_twoValidators, by decide +kernel, by decide +kernel, by decide +kernel,
    by decide +kernel, by decide +kernel⟩

end Anchor
