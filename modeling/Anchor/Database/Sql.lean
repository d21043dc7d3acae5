import Mathlib
import Anchor.Library.Table
import Anchor.SsvTypes.Cluster

/-!
# The tables of the database

The schema with its primary and foreign keys and its triggers, and the statements that
the operations on operators, clusters, validators and shares are made of.  A statement
that violates a constraint fails and changes nothing.
-/

namespace Anchor

open Ssz

structure OwnerRow where
  owner : Address
  feeRecipient : Option Address
  nonce : Option ℕ
deriving DecidableEq

structure OperatorRow where
  operatorId : OperatorId
  publicKey : Bytes
  ownerAddress : Address
  removed : Bool
deriving DecidableEq

structure ClusterRow (C : Type) where
  clusterId : C
  owner : Address
  liquidated : Bool
deriving DecidableEq

structure SkippedOperatorAdd where
  operatorId : OperatorId
  reason : String
deriving DecidableEq

def Share.key {C : Type} (share : Share C) : PublicKeyBytes × OperatorId :=
  (share.validatorPubkey, share.operatorId)

structure Sql (C : Type) where
  owners : Table OwnerRow.owner
  operators : Table OperatorRow.operatorId
  clusters : Table (ClusterRow.clusterId (C := C))
  clusterMembers : Table (id : ClusterMember C → ClusterMember C)
  validators : Table (ValidatorMetadata.publicKey (C := C))
  shares : Table (Share.key (C := C))
  skippedOperatorAdds : Table SkippedOperatorAdd.operatorId
  blockNumber : ℕ
  maxOperatorIdSeen : Option UInt64

inductive DatabaseError where
  | notFound (id : OperatorId)
  | alreadyInDatabase (id : OperatorId)
  | sqlError
deriving DecidableEq

inductive OperatorStatus where
  | active
  | softDeleted
  | notFound
deriving DecidableEq

namespace Sql

variable {C : Type}

/-- A new database has its metadata row and nothing else. -/
def new : Sql C where
  owners := Table.empty
  operators := Table.empty
  clusters := Table.empty
  clusterMembers := Table.empty
  validators := Table.empty
  shares := Table.empty
  skippedOperatorAdds := Table.empty
  blockNumber := 0
  maxOperatorIdSeen := some 0

/-! ## Owners -/

def feeRecipientForOwner (sql : Sql C) (owner : Address) : Option Address :=
  (sql.owners.find? owner).bind (·.feeRecipient)

def bumpNonce (sql : Sql C) (owner : Address) : Sql C :=
  { sql with
    owners := sql.owners.upsert ⟨owner, none, some 0⟩
      (fun row => { row with nonce := some ((row.nonce.map (· + 1)).getD 0) }) fun _ => rfl }

/-- `GET_NONCE`; the column is read as a 16-bit number. -/
def getNonce (sql : Sql C) (owner : Address) : Except DatabaseError ℕ :=
  match (sql.owners.find? owner).bind (·.nonce) with
  | some nonce => if nonce < 2 ^ 16 then .ok nonce else .error .sqlError
  | none => .error .sqlError

/-- `INSERT_OR_UPDATE_OWNER_FEE_RECIPIENT`. -/
def setFeeRecipient (sql : Sql C) (owner feeRecipient : Address) : Sql C :=
  { sql with
    owners := sql.owners.upsert ⟨owner, some feeRecipient, none⟩
      (fun row => { row with feeRecipient := some feeRecipient }) fun _ => rfl }

/-! ## Operators -/

/-- An operator id is stored as a signed 64-bit number. -/
def storable (id : OperatorId) : Bool := id.val.toNat < 2 ^ 63

def getOperatorStatus (sql : Sql C) (id : OperatorId) : Except DatabaseError OperatorStatus :=
  if !storable id then .error .sqlError
  else
    match sql.operators.find? id with
    | some row => .ok (if row.removed then .softDeleted else .active)
    | none => .ok .notFound

/-- `GET_OPERATOR_ID`: the operator with a key that is not removed. -/
def getOperatorId (sql : Sql C) (publicKey : Bytes) : Option OperatorId :=
  (sql.operators.rows.find? fun row => row.publicKey = publicKey && !row.removed).map (·.operatorId)

/-- `GET_ANY_OPERATOR_ID`, which also finds removed operators. -/
def getAnyOperatorId (sql : Sql C) (publicKey : Bytes) : Option OperatorId :=
  (sql.operators.rows.find? (·.publicKey = publicKey)).map (·.operatorId)

/-- `INSERT_OPERATOR`; ids and keys are unique. -/
def insertOperator (sql : Sql C) (operator : Operator) : Except DatabaseError (Sql C) :=
  if !storable operator.id then .error .sqlError
  else
    match sql.operators.insert? ⟨operator.id, operator.rsaPubkey, operator.owner, false⟩ with
    | some operators =>
      if (sql.getAnyOperatorId operator.rsaPubkey).isSome then .error .sqlError
      else .ok { sql with operators }
    | none => .error .sqlError

/-- `DELETE_OPERATOR`, and `MARK_OPERATOR_REMOVED` when that fails because the operator is still
a member of a cluster. -/
def deleteOperator (sql : Sql C) (id : OperatorId) : Sql C :=
  if sql.clusterMembers.rows.any (·.operatorId = id) then
    { sql with
      operators := sql.operators.update
        (fun row => if row.operatorId = id then { row with removed := true } else row) fun row => by
          split <;> rfl }
  else { sql with operators := sql.operators.delete (·.operatorId = id) }

def insertSkippedOperatorAdd (sql : Sql C) (id : OperatorId) (reason : String) : Sql C :=
  { sql with
    skippedOperatorAdds := sql.skippedOperatorAdds.upsert ⟨id, reason⟩
      (fun row => { row with reason }) fun _ => rfl }

def deleteSkippedOperatorAdd (sql : Sql C) (id : OperatorId) : Sql C :=
  { sql with skippedOperatorAdds := sql.skippedOperatorAdds.delete (·.operatorId = id) }

variable [DecidableEq C]

/-! ## Clusters -/

def fetchClusterMembers (sql : Sql C) (clusterId : C) : List OperatorId :=
  (sql.clusterMembers.rows.filter (·.clusterId = clusterId)).map (·.operatorId)

def toCluster (sql : Sql C) (row : ClusterRow C) : Cluster C where
  clusterId := row.clusterId
  owner := row.owner
  feeRecipient := (sql.feeRecipientForOwner row.owner).getD row.owner
  liquidated := row.liquidated
  clusterMembers := IndexSet.fromIter (sql.fetchClusterMembers row.clusterId)

/-- `GET_ALL_CLUSTERS`, which joins the clusters with their members. -/
def fetchClusters (sql : Sql C) : List (Cluster C) :=
  (sql.clusters.rows.filter fun row => !(sql.fetchClusterMembers row.clusterId).isEmpty).map
    sql.toCluster

def getClusterByValidator (sql : Sql C) (pubkey : PublicKeyBytes) : Option (Cluster C) :=
  ((sql.validators.find? pubkey).bind fun validator => sql.clusters.find? validator.clusterId).map
    sql.toCluster

def updateClusterStatus (sql : Sql C) (clusterId : C) (liquidated : Bool) : Sql C :=
  { sql with
    clusters := sql.clusters.update
      (fun row => if row.clusterId = clusterId then { row with liquidated } else row) fun row => by
        split <;> rfl }

/-! ## Validators and shares -/

/-- `INSERT_CLUSTER` and `INSERT_VALIDATOR`, and the owner if it is not there. -/
def insertClusterAndValidator (sql : Sql C) (cluster : Cluster C)
    (validator : ValidatorMetadata C) : Except DatabaseError (Sql C) :=
  match sql.validators.insert? { validator with clusterId := cluster.clusterId } with
  | some validators =>
    .ok { sql with
      clusters := sql.clusters.insertOrIgnore ⟨cluster.clusterId, cluster.owner, false⟩
      validators
      owners := sql.owners.insertOrIgnore ⟨cluster.owner, some cluster.owner, none⟩ }
  | none => .error .sqlError

def insertMemberAndShare (sql : Sql C) (share : Share C) : Except DatabaseError (Sql C) :=
  if (sql.clusters.find? share.clusterId).isNone || (sql.operators.find? share.operatorId).isNone ||
      (sql.validators.find? share.validatorPubkey).isNone then .error .sqlError
  else
    match sql.shares.insert? share with
    | some shares =>
      .ok { sql with
        clusterMembers := sql.clusterMembers.insertOrIgnore ⟨share.clusterId, share.operatorId⟩
        shares }
    | none => .error .sqlError

def insertMembersAndShares (sql : Sql C) : List (Share C) → Except DatabaseError (Sql C)
  | [] => .ok sql
  | share :: shares =>
    match sql.insertMemberAndShare share with
    | .ok sql' => insertMembersAndShares sql' shares
    | .error e => .error e

/-- The cluster of a deleted validator goes with its last validator (`delete_empty_clusters`),
its members and their shares go with it, and operators that are removed go with their last
membership (`delete_empty_removed_operators_after_delete`). -/
def deleteEmptyCluster (sql : Sql C) (clusterId : C) : Sql C :=
  if sql.validators.rows.any (·.clusterId = clusterId) then sql
  else
    let clusterMembers := sql.clusterMembers.delete (·.clusterId = clusterId)
    { sql with
      clusters := sql.clusters.delete (·.clusterId = clusterId)
      clusterMembers
      shares := sql.shares.delete (·.clusterId = clusterId)
      operators := sql.operators.delete fun row =>
        row.removed && sql.clusterMembers.rows.any (· = ⟨clusterId, row.operatorId⟩) &&
          !clusterMembers.rows.any (·.operatorId = row.operatorId) }

/-- `DELETE_VALIDATOR`; the shares of the validator go with it. -/
def deleteValidator (sql : Sql C) (pubkey : PublicKeyBytes) : Sql C :=
  match sql.validators.find? pubkey with
  | none => sql
  | some validator =>
    { sql with
      validators := sql.validators.delete (·.publicKey = pubkey)
      shares := sql.shares.delete (·.validatorPubkey = pubkey) }.deleteEmptyCluster
        validator.clusterId

def fetchShares (sql : Sql C) (id : OperatorId) : List (Share C) :=
  sql.shares.rows.filter (·.operatorId = id)

/-- `GET_COMMITTEE_SHARE_PUBKEYS`, for one validator. -/
def fetchCommitteeSharePubkeys (sql : Sql C) (id : OperatorId) (pubkey : PublicKeyBytes) :
    List (OperatorId × PublicKeyBytes) :=
  (sql.shares.rows.filter fun share =>
    share.validatorPubkey = pubkey && sql.clusterMembers.rows.any (· = ⟨share.clusterId, id⟩)).map
      fun share => (share.operatorId, share.sharePubkey)

end Sql

end Anchor
