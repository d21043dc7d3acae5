import Mathlib
import Anchor.Database.MultiIndex
import Anchor.Database.Sql

/-!
# The state in memory

The network state that the node works with, the updates that a committed block replays
into it, and the state that is built from the tables when the node starts.
-/

namespace Anchor

open Ssz

inductive PubkeyOrId where
  | pubkey (key : Bytes)
  | id (id : OperatorId)
deriving DecidableEq

/-- What the database needs from outside: the digests, and the check of a polynomial's values. -/
structure DatabaseEnv (C : Type) where
  operator : PubkeyOrId
  keccak256 : Bytes → C
  sha256 : Bytes → Hash256
  interpolates : PublicKeyBytes → List (BlsLagrange.KeyId × PublicKeyBytes) → ℕ → Bool

/-- Shares and validators, by public key; also by cluster, owner and committee. -/
abbrev ValidatorMap (C V : Type) :=
  MultiIndexMap .notUnique .notUnique .notUnique PublicKeyBytes C Address CommitteeId V

/-- Clusters, by their id; also by validator, owner and committee. -/
abbrev ClusterMap (C : Type) :=
  MultiIndexMap .unique .notUnique .notUnique C PublicKeyBytes Address CommitteeId (Cluster C)

structure Database.NetworkState (C : Type) where
  shares : ValidatorMap C (Share C)
  metadata : ValidatorMap C (ValidatorMetadata C)
  clusters : ClusterMap C
  id : Option OperatorId
  lastProcessedBlock : ℕ
  operators : OperatorId → Option Operator
  ownClusters : Finset C
  nonces : Address → Option ℕ
  maxOperatorIdSeen : Option UInt64

inductive StateUpdate (C : Type) where
  | setLastProcessedBlock (blockNumber : ℕ)
  | setMaxOperatorIdSeen (operatorId : UInt64)
  | insertOperator (operator : Operator) (isOwnOperator : Bool)
  | deleteOperator (operatorId : OperatorId)
  | insertValidator (cluster : Cluster C) (validator : ValidatorMetadata C)
      (ownShare : Option (Share C))
  | updateClusterStatus (clusterId : C) (liquidated : Bool)
  | deleteValidator (validatorPubkey : PublicKeyBytes)
  | setOwnerNonce (owner : Address) (nonce : ℕ)
  | updateFeeRecipient (owner feeRecipient : Address)

namespace Database.NetworkState

variable {C : Type} [DecidableEq C] (env : DatabaseEnv C)

def insertOperator (state : Database.NetworkState C) (operator : Operator) (isOwnOperator : Bool) :
    Database.NetworkState C :=
  { state with
    id := if state.id.isNone && isOwnOperator then some operator.id else state.id
    operators := Function.update state.operators operator.id (some operator) }

/-- The own share, if there is one, makes the cluster an own cluster. -/
def insertOwnShare (state : Database.NetworkState C) (cluster : Cluster C)
    (validator : ValidatorMetadata C) (ownShare : Option (Share C)) : Database.NetworkState C :=
  match ownShare with
  | none => state
  | some share =>
    { state with
      ownClusters := insert cluster.clusterId state.ownClusters
      shares := state.shares.insertOrUpdate validator.publicKey cluster.clusterId cluster.owner
        (cluster.committeeId env.sha256) share }

def insertValidator (state : Database.NetworkState C) (cluster : Cluster C)
    (validator : ValidatorMetadata C) (ownShare : Option (Share C)) : Database.NetworkState C :=
  let state := state.insertOwnShare env cluster validator ownShare
  { state with
    clusters := state.clusters.insertOrUpdate cluster.clusterId validator.publicKey cluster.owner
      (cluster.committeeId env.sha256) cluster
    metadata := state.metadata.insertOrUpdate validator.publicKey cluster.clusterId cluster.owner
      (cluster.committeeId env.sha256) validator }

def dropEmptyCluster (state : Database.NetworkState C) (clusterId : C) : Database.NetworkState C :=
  if (state.metadata.present (state.metadata.secondary clusterId)).Nonempty then state
  else
    { state with
      clusters := state.clusters.remove clusterId
      ownClusters := state.ownClusters.erase clusterId }

/-- Removing a validator that is not there is a panic. -/
def deleteValidator (state : Database.NetworkState C) (pubkey : PublicKeyBytes) :
    Option (Database.NetworkState C) :=
  match state.metadata.primary pubkey with
  | none => none
  | some metadata =>
    some ({ state with
      shares := state.shares.remove pubkey
      metadata := state.metadata.remove pubkey }.dropEmptyCluster metadata.clusterId)

end Database.NetworkState

/-- Replay an update; there is no result when an `expect` fails. -/
def StateUpdate.apply {C : Type} [DecidableEq C] (env : DatabaseEnv C)
    (state : Database.NetworkState C) : StateUpdate C → Option (Database.NetworkState C)
  | .setLastProcessedBlock blockNumber => some { state with lastProcessedBlock := blockNumber }
  | .setMaxOperatorIdSeen operatorId => some { state with maxOperatorIdSeen := some operatorId }
  | .insertOperator operator isOwnOperator => some (state.insertOperator operator isOwnOperator)
  | .deleteOperator operatorId =>
    some { state with operators := Function.update state.operators operatorId none }
  | .insertValidator cluster validator ownShare =>
    some (state.insertValidator env cluster validator ownShare)
  | .updateClusterStatus clusterId liquidated =>
    some { state with
      clusters := state.clusters.modify clusterId fun cluster => { cluster with liquidated } }
  | .deleteValidator pubkey => state.deleteValidator pubkey
  | .setOwnerNonce owner nonce =>
    some { state with nonces := Function.update state.nonces owner (some nonce) }
  | .updateFeeRecipient owner feeRecipient =>
    some { state with
      clusters := state.clusters.modifyAll (state.clusters.tertiary owner) fun cluster =>
        { cluster with feeRecipient } }

def Database.NetworkState.publish {C : Type} [DecidableEq C] (env : DatabaseEnv C)
    (state : Database.NetworkState C) (updates : List (StateUpdate C)) :
    Option (Database.NetworkState C) :=
  updates.foldlM (StateUpdate.apply env) state

/-! ## Starting from the tables -/

namespace Sql

variable {C : Type} [DecidableEq C] (env : DatabaseEnv C) (sql : Sql C)

def ownId : Option OperatorId :=
  match env.operator with
  | .pubkey key => sql.getOperatorId key
  | .id id => some id

/-- The clusters with their validators, in the order in which they are visited. -/
def clusterEntries : List (Cluster C × ValidatorMetadata C) :=
  sql.fetchClusters.flatMap fun cluster =>
    (sql.validators.rows.filter (·.clusterId = cluster.clusterId)).map (cluster, ·)

/-- The share of an operator in a validator, unless the validator's shares cannot be right. -/
def loadedShares (id : OperatorId) (entry : Cluster C × ValidatorMetadata C) : List (Share C) :=
  (sql.fetchShares id).filter fun share =>
    share.clusterId = entry.1.clusterId && share.validatorPubkey = entry.2.publicKey &&
      (validateSharePublicKeys env.interpolates entry.2.publicKey
        (sql.fetchCommitteeSharePubkeys id entry.2.publicKey)).isOk

def shareEntries : List ((Cluster C × ValidatorMetadata C) × Share C) :=
  match sql.ownId env with
  | none => []
  | some id =>
    sql.clusterEntries.flatMap fun entry => (sql.loadedShares env id entry).map (entry, ·)

end Sql

namespace Database.NetworkState

variable {C : Type} [DecidableEq C] (env : DatabaseEnv C)

def loadShares (entries : List ((Cluster C × ValidatorMetadata C) × Share C)) :
    ValidatorMap C (Share C) :=
  entries.foldl (fun map entry => map.insertOrUpdate entry.1.2.publicKey entry.1.1.clusterId
    entry.1.1.owner (entry.1.1.committeeId env.sha256) entry.2) MultiIndexMap.new

def loadMetadata (entries : List (Cluster C × ValidatorMetadata C)) :
    ValidatorMap C (ValidatorMetadata C) :=
  entries.foldl (fun map entry => map.insertOrUpdate entry.2.publicKey entry.1.clusterId
    entry.1.owner (entry.1.committeeId env.sha256) entry.2) MultiIndexMap.new

def loadClusters (entries : List (Cluster C × ValidatorMetadata C)) : ClusterMap C :=
  entries.foldl (fun map entry => map.insertOrUpdate entry.1.clusterId entry.2.publicKey
    entry.1.owner (entry.1.committeeId env.sha256) entry.1) MultiIndexMap.new

def loadState (sql : Sql C) : Database.NetworkState C where
  shares := loadShares env (sql.shareEntries env)
  metadata := loadMetadata env sql.clusterEntries
  clusters := loadClusters env sql.clusterEntries
  id := sql.ownId env
  lastProcessedBlock := sql.blockNumber
  operators := fun id => ((sql.operators.find? id).filter fun row => !row.removed).map
    fun row => ⟨row.operatorId, row.publicKey, row.ownerAddress⟩
  ownClusters :=
    (((sql.ownId env).elim [] sql.fetchShares).map fun share => share.clusterId).toFinset
  nonces := fun owner => (sql.owners.find? owner).bind fun row => row.nonce
  maxOperatorIdSeen := sql.maxOperatorIdSeen

/-- `new_with_state`; a cluster without validators is a panic, a nonce of more than 16 bits an
error. -/
def newWithState (sql : Sql C) : Option (Database.NetworkState C) :=
  if (sql.fetchClusters.all fun cluster =>
      sql.validators.rows.any (·.clusterId = cluster.clusterId)) &&
      sql.owners.rows.all fun row => row.nonce.all (· < 2 ^ 16) then
    some (loadState env sql)
  else none

end Database.NetworkState

end Anchor
