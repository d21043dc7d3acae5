import Mathlib
import Anchor.Database.State
import Anchor.Library.Machine

/-!
# The event processor

Contract logs are applied to the tables one block at a time, each block in a transaction
of its own.  The matching updates of the state in memory are collected and replayed once
the block is committed.  A log whose contents are refused is skipped, but keeps what it
did before it was refused; a failing database ends the block without a trace.
-/

namespace Anchor

open Ssz

inductive Mode where
  | node
  | keySplit
deriving DecidableEq

/-- The code that the processor relies on: parsing an operator's key, and checking the owner's
signature over a nonce. -/
structure EventEnv (C : Type) extends DatabaseEnv C where
  mode : Mode
  parseOperatorPublicKey : Bytes → Except String Bytes
  verifySignature : Bytes → ℕ → Address → PublicKeyBytes → Bool

/-- A log as it is decoded; a log without a known topic or with other data is `unknown`. -/
inductive ContractLog where
  | operatorAdded (operatorId : OperatorId) (owner : Address) (publicKey : Bytes)
  | operatorRemoved (operatorId : OperatorId)
  | validatorAdded (owner : Address) (operatorIds : List OperatorId) (publicKey shares : Bytes)
  | validatorRemoved (owner : Address) (operatorIds : List OperatorId) (publicKey : Bytes)
  | clusterLiquidated (owner : Address) (operatorIds : List OperatorId)
  | clusterReactivated (owner : Address) (operatorIds : List OperatorId)
  | feeRecipientAddressUpdated (owner recipientAddress : Address)
  | validatorExited (owner : Address) (operatorIds : List OperatorId) (publicKey : Bytes)
      (hasTimestamp : Bool)
  | unknown

inductive InvalidEvent where
  | missingOperatorAdded (maxSeen : UInt64) (operatorId : OperatorId)
  | operatorKey (reason : String)
  | operatorKeyExists (existing : OperatorId)
  | validatorPublicKey
  | tooManyOperators (count : ℕ)
  | noOperators
  | noQuorum (count : ℕ)
  | duplicateOperators
  | shares (expected got : ℕ)
  | signature
  | sharePublicKeys (error : ShareValidationError)
  | differentOwner (expected got : Address)
  | differentCluster
  | validatorNotFound
  | noTimestamp
deriving DecidableEq

inductive MissingCommittedState where
  | operator (id : OperatorId)
  | validatorMetadata
  | cluster
deriving DecidableEq

inductive SkippedEvent where
  | operatorAddWasSkipped (id : OperatorId)
  | clusterLiquidated
deriving DecidableEq

inductive Duplicate where
  | operator (id : OperatorId)
  | validator
deriving DecidableEq

inductive ExecutionError where
  | invalidEvent (reason : InvalidEvent)
  | missingCommittedState (what : MissingCommittedState)
  | decodeError
  | skippedEvent (reason : SkippedEvent)
  | duplicate (what : Duplicate)
  | database (error : DatabaseError)
deriving DecidableEq

inductive LogErrorDisposition where
  | skipMalformed
  | skipExpected
  | skipAmbiguous
  | abortBatch
deriving DecidableEq

def ExecutionError.logDisposition : ExecutionError → LogErrorDisposition
  | invalidEvent _ | decodeError | duplicate _ => .skipMalformed
  | skippedEvent _ => .skipExpected
  | missingCommittedState _ => .skipAmbiguous
  | database _ => .abortBatch

/-- The open transaction: the tables as it sees them, and the updates collected so far. -/
structure Tx (C : Type) where
  sql : Sql C
  updates : List (StateUpdate C)

/-! ## Parsing -/

/-- `parse_shares`: a signature, then the public keys and then the encrypted keys of all
shares. -/
def parseShares {C : Type} (shares : Bytes) (operatorIds : List OperatorId) (clusterId : C)
    (validatorPubkey : PublicKeyBytes) : Except InvalidEvent (Bytes × List (Share C)) :=
  let expected := 96 + 48 * operatorIds.length + 256 * operatorIds.length
  if shares.length ≠ expected then .error (.shares expected shares.length)
  else
    let pubkeys := shares.drop 96
    let encrypted := shares.drop (96 + 48 * operatorIds.length)
    .ok (shares.take 96, operatorIds.zipIdx.filterMap fun (operatorId, i) => do
      let sharePubkey ← FixedBytes.new? ((pubkeys.drop (48 * i)).take 48)
      let encryptedPrivateKey ← FixedBytes.new? ((encrypted.drop (256 * i)).take 256)
      some ⟨validatorPubkey, operatorId, clusterId, sharePubkey, encryptedPrivateKey⟩)

def beBytes64 (n : UInt64) : Bytes := (leBytes 8 n.toNat).reverse

/-- The digest of the owner and of the sorted operator ids, each in 32 bytes. -/
def computeClusterId {C : Type} (keccak256 : Bytes → C) (owner : Address)
    (operatorIds : List OperatorId) : C :=
  keccak256 (owner.toList ++ (operatorIds.insertionSort (· ≤ ·)).flatMap fun id =>
    List.replicate 24 0 ++ beBytes64 id.val)

def graffitiDefault : Graffiti :=
  ⟨[65, 110, 99, 104, 111, 114, 45, 83, 83, 86] ++ List.replicate 22 0, by simp⟩

def constructValidatorMetadata {C : Type} (publicKey : PublicKeyBytes) (clusterId : C) :
    ValidatorMetadata C :=
  ⟨publicKey, clusterId, none, graffitiDefault⟩

def maxOperators : ℕ := 13

def checkOperatorsExist {C : Type} (sql : Sql C) : List OperatorId → Except ExecutionError Unit
  | [] => .ok ()
  | id :: ids =>
    match sql.getOperatorStatus id with
    | .error e => .error (.database e)
    | .ok status =>
      if status = .active then checkOperatorsExist sql ids
      else .error (.missingCommittedState (.operator id))

def validateOperators {C : Type} (sql : Sql C) (operatorIds : List OperatorId) :
    Except ExecutionError Unit :=
  if maxOperators < operatorIds.length then
    .error (.invalidEvent (.tooManyOperators operatorIds.length))
  else if operatorIds.length = 0 then .error (.invalidEvent .noOperators)
  else if !isValidCommitteeSize operatorIds.length then
    .error (.invalidEvent (.noQuorum operatorIds.length))
  else if ¬ operatorIds.Nodup then .error (.invalidEvent .duplicateOperators)
  else checkOperatorsExist sql operatorIds

namespace Tx

variable {C : Type} (tx : Tx C)

def push (update : StateUpdate C) : Tx C := { tx with updates := tx.updates ++ [update] }

abbrev Result (C : Type) := Tx C × Option ExecutionError

/-! ## Operations on operators -/

def setMaxOperatorIdSeenTx (operatorId : UInt64) : Tx C :=
  { tx with sql := { tx.sql with maxOperatorIdSeen := some operatorId } }.push
    (.setMaxOperatorIdSeen operatorId)

def insertSkippedOperatorAddTx (id : OperatorId) (reason : String) : Tx C :=
  { tx with sql := tx.sql.insertSkippedOperatorAdd id reason }

def isOwnOperator (env : DatabaseEnv C) (operator : Operator) : Bool :=
  match env.operator with
  | .pubkey key => operator.rsaPubkey = key
  | .id id => id = operator.id

def insertOperatorTx (env : DatabaseEnv C) (operator : Operator) : Except DatabaseError (Tx C) :=
  match tx.sql.getOperatorStatus operator.id with
  | .error e => .error e
  | .ok status =>
    if status = .active then .error (.alreadyInDatabase operator.id)
    else
      match tx.sql.insertOperator operator with
      | .error e => .error e
      | .ok sql =>
        .ok ({ tx with sql }.push (.insertOperator operator (isOwnOperator env operator)))

def deleteOperatorTx (id : OperatorId) : Except DatabaseError (Tx C) :=
  match tx.sql.getOperatorStatus id with
  | .error e => .error e
  | .ok status =>
    if status = .active then
      .ok ({ tx with sql := tx.sql.deleteOperator id }.push (.deleteOperator id))
    else .error (.notFound id)

def processOperatorAdded (env : EventEnv C) (operatorId : OperatorId) (owner : Address)
    (publicKey : Bytes) : Result C :=
  match tx.sql.getOperatorStatus operatorId with
  | .error e => (tx, some (.database e))
  | .ok status =>
    if status = .active then (tx, some (.duplicate (.operator operatorId)))
    else
      match tx.sql.maxOperatorIdSeen.filter (· ≠ operatorId.val - 1) with
      | some maxSeen => (tx, some (.invalidEvent (.missingOperatorAdded maxSeen operatorId)))
      | none =>
        let tx := tx.setMaxOperatorIdSeenTx operatorId.val
        match env.parseOperatorPublicKey publicKey with
        | .error reason =>
          (tx.insertSkippedOperatorAddTx operatorId reason,
            some (.invalidEvent (.operatorKey reason)))
        | .ok rsaPubkey =>
          match tx.sql.getAnyOperatorId rsaPubkey with
          | some existing =>
            (tx.insertSkippedOperatorAddTx operatorId
                s!"Operator public key already exists as operator {existing.val}",
              some (.invalidEvent (.operatorKeyExists existing)))
          | none =>
            match tx.insertOperatorTx env.toDatabaseEnv ⟨operatorId, rsaPubkey, owner⟩ with
            | .error e => (tx, some (.database e))
            | .ok tx => (tx, none)

/-- The removal of an operator whose addition was skipped is skipped as well. -/
def processOperatorRemoved (operatorId : OperatorId) : Result C :=
  if !Sql.storable operatorId then (tx, some (.database .sqlError))
  else if (tx.sql.skippedOperatorAdds.find? operatorId).isSome then
    ({ tx with sql := tx.sql.deleteSkippedOperatorAdd operatorId },
      some (.skippedEvent (.operatorAddWasSkipped operatorId)))
  else
    match tx.deleteOperatorTx operatorId with
    | .error e => (tx, some (.database e))
    | .ok tx => (tx, none)

/-! ## Operations on validators and clusters -/

def bumpAndGetNonceTx (owner : Address) : Except DatabaseError (Tx C × ℕ) :=
  let sql := tx.sql.bumpNonce owner
  match sql.getNonce owner with
  | .error e => .error e
  | .ok nonce => .ok ({ tx with sql }.push (.setOwnerNonce owner nonce), nonce)

def updateFeeRecipientTx (owner feeRecipient : Address) : Tx C :=
  { tx with sql := tx.sql.setFeeRecipient owner feeRecipient }.push
    (.updateFeeRecipient owner feeRecipient)

variable [DecidableEq C]

/-- The id that is published, or else the one by the tables. -/
def getOwnOperatorIdTx (env : DatabaseEnv C) (published : Database.NetworkState C) :
    Option OperatorId :=
  match published.id with
  | some id => some id
  | none => tx.sql.ownId env

def insertValidatorTx (env : DatabaseEnv C) (published : Database.NetworkState C)
    (cluster : Cluster C) (validator : ValidatorMetadata C) (shares : List (Share C)) :
    Except DatabaseError (Tx C) :=
  match tx.sql.insertClusterAndValidator cluster validator with
  | .error e => .error e
  | .ok sql =>
    match sql.insertMembersAndShares shares with
    | .error e => .error e
    | .ok sql =>
      let ownId := tx.getOwnOperatorIdTx env published
      .ok ({ tx with sql }.push (.insertValidator cluster validator
        (shares.reverse.find? fun share => ownId = some share.operatorId)))

def updateStatusTx (clusterId : C) (liquidated : Bool) : Tx C :=
  { tx with sql := tx.sql.updateClusterStatus clusterId liquidated }.push
    (.updateClusterStatus clusterId liquidated)

def deleteValidatorTx (pubkey : PublicKeyBytes) : Tx C :=
  { tx with sql := tx.sql.deleteValidator pubkey }.push (.deleteValidator pubkey)

def validateValidatorAddedConflict (owner : Address) (pubkey : PublicKeyBytes) (clusterId : C) :
    Except ExecutionError Unit :=
  match tx.sql.validators.find? pubkey with
  | none => .ok ()
  | some _ =>
    match tx.sql.getClusterByValidator pubkey with
    | none => .error (.missingCommittedState .cluster)
    | some existing =>
      if existing.owner ≠ owner then
        .error (.invalidEvent (.differentOwner existing.owner owner))
      else if existing.clusterId ≠ clusterId then .error (.invalidEvent .differentCluster)
      else .error (.duplicate .validator)

def checkValidatorAdded (env : EventEnv C) (nonce : ℕ) (owner : Address)
    (operatorIds : List OperatorId) (publicKey shares : Bytes) :
    Except ExecutionError (PublicKeyBytes × List (Share C)) :=
  match FixedBytes.new? publicKey with
  | none => .error (.invalidEvent .validatorPublicKey)
  | some pubkey =>
    let clusterId := computeClusterId env.keccak256 owner operatorIds
    match validateOperators tx.sql operatorIds with
    | .error e => .error e
    | .ok () =>
      match parseShares shares operatorIds clusterId pubkey with
      | .error e => .error (.invalidEvent e)
      | .ok (signature, shares) =>
        if !env.verifySignature signature nonce owner pubkey then
          .error (.invalidEvent .signature)
        else
          match validateSharePublicKeys env.interpolates pubkey
              (shares.map fun share => (share.operatorId, share.sharePubkey)) with
          | .error e => .error (.invalidEvent (.sharePublicKeys e))
          | .ok () =>
            match tx.validateValidatorAddedConflict owner pubkey clusterId with
            | .error e => .error e
            | .ok () => .ok (pubkey, shares)

/-- The cluster of an added validator; it is active, whatever it was. -/
def addedCluster (env : EventEnv C) (owner : Address) (operatorIds : List OperatorId) :
    Cluster C where
  clusterId := computeClusterId env.keccak256 owner operatorIds
  owner
  feeRecipient := (tx.sql.feeRecipientForOwner owner).getD owner
  liquidated := false
  clusterMembers := IndexSet.fromIter operatorIds

/-- The nonce is bumped even when the event is malformed. -/
def processValidatorAdded (env : EventEnv C) (published : Database.NetworkState C) (owner : Address)
    (operatorIds : List OperatorId) (publicKey shares : Bytes) : Result C :=
  match tx.bumpAndGetNonceTx owner with
  | .error e => (tx, some (.database e))
  | .ok (tx, nonce) =>
    if env.mode = .keySplit then (tx, none)
    else
      match tx.checkValidatorAdded env nonce owner operatorIds publicKey shares with
      | .error e => (tx, some e)
      | .ok (pubkey, shares) =>
        let cluster := tx.addedCluster env owner operatorIds
        match tx.insertValidatorTx env.toDatabaseEnv published cluster
            (constructValidatorMetadata pubkey cluster.clusterId) shares with
        | .error e => (tx, some (.database e))
        | .ok tx => (tx, none)

def processValidatorRemoved (owner : Address) (publicKey : Bytes) : Result C :=
  match FixedBytes.new? publicKey with
  | none => (tx, some (.invalidEvent .validatorPublicKey))
  | some pubkey =>
    match tx.sql.validators.find? pubkey with
    | none => (tx, some (.missingCommittedState .validatorMetadata))
    | some _ =>
      match tx.sql.getClusterByValidator pubkey with
      | none => (tx, some (.missingCommittedState .cluster))
      | some cluster =>
        if owner ≠ cluster.owner then
          (tx, some (.invalidEvent (.differentOwner cluster.owner owner)))
        else (tx.deleteValidatorTx pubkey, none)

def processValidatorExited (env : EventEnv C) (owner : Address) (operatorIds : List OperatorId)
    (publicKey : Bytes) (hasTimestamp : Bool) : Option ExecutionError :=
  if env.mode = .keySplit then none
  else
    match FixedBytes.new? publicKey with
    | none => some (.invalidEvent .validatorPublicKey)
    | some pubkey =>
      match tx.sql.getClusterByValidator pubkey with
      | none => some (.invalidEvent .validatorNotFound)
      | some cluster =>
        if cluster.clusterId ≠ computeClusterId env.keccak256 owner operatorIds then
          some (.invalidEvent .differentCluster)
        else if cluster.liquidated then some (.skippedEvent .clusterLiquidated)
        else if cluster.owner ≠ owner then
          some (.invalidEvent (.differentOwner cluster.owner owner))
        else
          match validateOperators tx.sql operatorIds with
          | .error e => some e
          | .ok () => if hasTimestamp then none else some (.invalidEvent .noTimestamp)

def processLog (env : EventEnv C) (published : Database.NetworkState C) : ContractLog → Result C
  | .operatorAdded operatorId owner publicKey =>
    tx.processOperatorAdded env operatorId owner publicKey
  | .operatorRemoved operatorId => tx.processOperatorRemoved operatorId
  | .validatorAdded owner operatorIds publicKey shares =>
    tx.processValidatorAdded env published owner operatorIds publicKey shares
  | .validatorRemoved owner _ publicKey => tx.processValidatorRemoved owner publicKey
  | .clusterLiquidated owner operatorIds =>
    (tx.updateStatusTx (computeClusterId env.keccak256 owner operatorIds) true, none)
  | .clusterReactivated owner operatorIds =>
    (tx.updateStatusTx (computeClusterId env.keccak256 owner operatorIds) false, none)
  | .feeRecipientAddressUpdated owner recipientAddress =>
    (tx.updateFeeRecipientTx owner recipientAddress, none)
  | .validatorExited owner operatorIds publicKey hasTimestamp =>
    (tx, tx.processValidatorExited env owner operatorIds publicKey hasTimestamp)
  | .unknown => (tx, none)

def afterLog (env : EventEnv C) (published : Database.NetworkState C) (log : ContractLog) :
    Except ExecutionError (Tx C) :=
  match tx.processLog env published log with
  | (tx, none) => .ok tx
  | (tx, some e) => if e.logDisposition = .abortBatch then .error e else .ok tx

def afterLogs (env : EventEnv C) (published : Database.NetworkState C) (tx : Tx C) :
    List ContractLog → Except ExecutionError (Tx C)
  | [] => .ok tx
  | log :: logs =>
    match tx.afterLog env published log with
    | .error e => .error e
    | .ok tx => afterLogs env published tx logs

end Tx

structure NetworkDatabase (C : Type) where
  sql : Sql C
  state : Database.NetworkState C

namespace NetworkDatabase

variable {C : Type} [DecidableEq C] (env : EventEnv C)

/-- `process_block_logs`: a block that fails leaves nothing.  If the replay of its updates
panics, the tables are committed and the state is lost; it never does. -/
def processBlockLogs (db : NetworkDatabase C) (logs : List ContractLog) (blockNumber : ℕ) :
    Except ExecutionError (NetworkDatabase C) :=
  match Tx.afterLogs env db.state ⟨db.sql, []⟩ logs with
  | .error e => .error e
  | .ok tx =>
    let updates := tx.updates ++ [.setLastProcessedBlock blockNumber]
    .ok ⟨{ tx.sql with blockNumber }, (db.state.publish env.toDatabaseEnv updates).getD db.state⟩

end NetworkDatabase

end Anchor
