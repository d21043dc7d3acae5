import Mathlib
import Anchor.Library.Checks
import Anchor.Library.Pick
import Anchor.Qbft.MsgContainer

/-!
# The QBFT instance

The state machine of one consensus instance.  A handler takes the instance and
returns it updated together with its result, so an error keeps the updates made
before it.  Messages handed to the message sender are collected in `sent`.
-/

namespace Anchor

open Ssz

structure ValidData (D : Type) where
  hash : Hash256
  data : D

inductive MessageContent (D : Type) where
  | complete (data : ValidData D)
  | hashOnly (hash : Hash256)

inductive RcJustificationOutcome (D : Type) where
  | highestPrepared (data : ValidData D)
  | preparedExistsButDataMissing (hash : Hash256)
  | noPrepared

structure MessageData where
  dataRound : UInt64
  round : UInt64
  root : Hash256
  fullData : Bytes

inductive Fault where
  | error (e : QbftError)
  | panicked
deriving DecidableEq

structure Qbft (F D : Type) where
  config : Config F
  identifier : MessageId
  instanceHeight : UInt64
  startDataHash : Hash256
  startData : D
  validStartData : ValidData D
  data : Hash256 → Option D
  currentRound : Round
  state : InstanceState
  completed : Option (Completed Hash256)
  proposeContainer : MessageContainer
  prepareContainer : MessageContainer
  commitContainer : MessageContainer
  roundChangeContainer : MessageContainer
  proposalAcceptedForCurrentRound : Bool
  proposalRoot : Option Hash256
  lastPreparedRound : Option Round
  lastPreparedValue : Option Hash256
  aggregatedCommit : Option SignedSSVMessage
  /-- The messages given to the message sender, oldest first. -/
  sent : List UnsignedWrappedQbftMessage
  dataValidator : D → D → Bool

namespace Qbft

variable {F D : Type} [LeaderFunction F] [QbftData D]

/-! ## Checks -/

def checkLeader (q : Qbft F D) (operatorId : OperatorId) (round : Round) : Bool :=
  LeaderFunction.leaderFunction q.config.leaderFn operatorId round q.instanceHeight
    q.config.committeeMembers

def checkCommittee (q : Qbft F D) (operatorId : OperatorId) : Bool :=
  q.config.committeeMembers.contains operatorId

def uniqueOperators (q : Qbft F D) (msgs : List SignedSSVMessage) : Finset OperatorId :=
  ((msgs.flatMap fun m => m.operatorIds.toList).filter fun id => q.checkCommittee id).toFinset

def hasQuorum (q : Qbft F D) (msgs : List SignedSSVMessage) : Bool :=
  decide (q.config.quorumSize ≤ (q.uniqueOperators msgs).card)

def isProposalAccepted (q : Qbft F D) : Except QbftError Unit :=
  if q.proposalAcceptedForCurrentRound then .ok () else .error .proposalNotAccepted

def tryDecodeSignedSsvMessages {n : ℕ} (messages : ByteLists n 13) (decodeErr : QbftError) :
    Except QbftError (List SignedSSVMessage) :=
  match messages.toList.mapM fun bytes => SignedSSVMessage.fromSszBytes bytes.toList with
  | none => .error decodeErr
  | some decoded => .ok decoded

def tryEncodeSignedSsvMessage (n : ℕ) (innerErrorFn : ℕ → ℕ → QbftError)
    (msg : SignedSSVMessage) : Except QbftError (VariableList UInt8 n) :=
  match VariableList.new? msg.withoutFullData.asSszBytes with
  | none => .error (innerErrorFn msg.withoutFullData.asSszBytes.length n)
  | some bytes => .ok bytes

def tryEncodeSignedSsvMessages (n : ℕ) (messages : List SignedSSVMessage)
    (innerErrorFn outerErrorFn : ℕ → ℕ → QbftError) : Except QbftError (ByteLists n 13) :=
  match Checks.mapAll (tryEncodeSignedSsvMessage n innerErrorFn) messages with
  | .error e => .error e
  | .ok encoded =>
    match VariableList.new? encoded with
    | none => .error (outerErrorFn encoded.length 13)
    | some list => .ok list

/-- Whether the message is for a round in which it is acceptable: the current
one, a later one for proposals and round changes, any for decided messages. -/
def checkRound (q : Qbft F D) (wrappedMsg : WrappedQbftMessage) : Except QbftError Unit :=
  let msg := wrappedMsg.qbftMessage
  if msg.round < q.currentRound.toU64 ∧
      ¬ (msg.qbftMessageType = .commit ∧ q.hasQuorum [wrappedMsg.signedMessage]) then
    .error .pastRound
  else if msg.round > q.currentRound.toU64 then
    match msg.qbftMessageType with
    | .proposal | .roundChange => .ok ()
    | .commit => if q.hasQuorum [wrappedMsg.signedMessage] then .ok () else .error .wrongRound
    | .prepare => .error .wrongRound
  else .ok ()

def validateMessage (q : Qbft F D) (wrappedMsg : WrappedQbftMessage) :
    Except QbftError (MessageContent D × OperatorId) :=
  let signed := wrappedMsg.signedMessage
  let msg := wrappedMsg.qbftMessage
  match q.checkRound wrappedMsg with
  | .error e => .error e
  | .ok () =>
    if msg.height ≠ q.instanceHeight then .error .wrongHeight
    else if signed.operatorIds.toList.any fun signer => ! q.checkCommittee signer then
      .error .signerNotInCommittee
    else if signed.operatorIds.toList.length > 1 then .ok (.hashOnly msg.root, ⟨0⟩)
    else
      match signed.operatorIds.toList.head? with
      | none => .error .missingOperators
      | some signer =>
        if signed.fullData.toList.isEmpty ∨ msg.qbftMessageType = .roundChange then
          .ok (.hashOnly msg.root, signer)
        else
          match QbftData.fromSszBytes signed.fullData.toList with
          | none => .error .invalidFullData
          | some data =>
            if q.dataValidator data q.startData then
              .ok (.complete ⟨msg.root, data⟩, signer)
            else .error .dataValidationFailed

/-! ## Justifications -/

def isValidPrepareJustificationForRoundAndRoot (q : Qbft F D) (round : Round) (root : Hash256)
    (justification : SignedSSVMessage) : Except QbftError Unit :=
  match justification.operatorIds.toList with
  | [operatorId] =>
    if justification.signatures.toList.length ≠ 1 then .error .prepareJustificationMultiSigner
    else if ! q.checkCommittee operatorId then .error .signerNotInCommittee
    else
      match QbftMessage.fromSszBytes justification.ssvMessage.data.toList with
      | none => .error .prepareJustificationDecodeFailed
      | some prepare =>
        if prepare.qbftMessageType ≠ .prepare then .error .prepareJustificationNotPrepare
        else if prepare.height ≠ q.instanceHeight then .error .prepareJustificationWrongHeight
        else if prepare.round ≠ round.toU64 then .error .prepareJustificationWrongRound
        else if prepare.root ≠ root then .error .prepareJustificationRootMismatch
        else .ok ()
  | _ => .error .prepareJustificationMultiSigner

/-- The checks on one round change that justifies a proposal `msg`. -/
def validateRoundChangeJustification (q : Qbft F D) (msg : QbftMessage)
    (signedRoundChange : SignedSSVMessage) : Except QbftError QbftMessage :=
  if signedRoundChange.operatorIds.toList.length ≠ 1 ∨
      signedRoundChange.signatures.toList.length ≠ 1 then
    .error .roundChangeJustificationMultiSigner
  else if signedRoundChange.operatorIds.toList.any fun signer => ! q.checkCommittee signer then
    .error .roundChangeJustificationNotInCommittee
  else
    match QbftMessage.fromSszBytes signedRoundChange.ssvMessage.data.toList with
    | none => .error .roundChangeJustificationDecodeFailed
    | some roundChange =>
      if roundChange.qbftMessageType ≠ .roundChange then
        .error .roundChangeJustificationNotRoundChange
      else if roundChange.round ≠ msg.round then .error .roundChangeJustificationWrongRound
      else if roundChange.height ≠ q.instanceHeight then
        .error .roundChangeJustificationWrongHeight
      else if hprepared : 0 < roundChange.dataRound.toNat then
        if roundChange.dataRound ≥ roundChange.round then
          .error .roundChangeJustificationInvalidDataRound
        else if msg.root ≠ roundChange.root then
          .error .roundChangeJustificationInvalidPrepareRoot
        else
          match tryDecodeSignedSsvMessages roundChange.roundChangeJustification
              .roundChangeJustificationDecodeFailed with
          | .error e => .error e
          | .ok signedPrepares =>
            if ! q.hasQuorum signedPrepares then
              .error .roundChangeJustificationNoPrepareQuorum
            else
              match Checks.forEach (q.isValidPrepareJustificationForRoundAndRoot
                  (Round.ofU64 roundChange.dataRound hprepared) roundChange.root)
                  signedPrepares with
              | .error e => .error e
              | .ok () => .ok roundChange
      else .ok roundChange

/-- The loop over the round changes of a proposal.  It keeps the first round
change with the highest prepared round. -/
def validateRoundChangeJustifications (q : Qbft F D) (msg : QbftMessage) :
    Option QbftMessage → List SignedSSVMessage → Except QbftError (Option QbftMessage)
  | maxPreparedMsg, [] => .ok maxPreparedMsg
  | maxPreparedMsg, signedRoundChange :: rest =>
    match q.validateRoundChangeJustification msg signedRoundChange with
    | .error e => .error e
    | .ok roundChange =>
      if roundChange.dataRound > (maxPreparedMsg.map QbftMessage.dataRound).getD 0 then
        q.validateRoundChangeJustifications msg (some roundChange) rest
      else q.validateRoundChangeJustifications msg maxPreparedMsg rest

def validateProposalJustifications (q : Qbft F D) (msg : QbftMessage) : Except QbftError Unit :=
  match tryDecodeSignedSsvMessages msg.roundChangeJustification
      .roundChangeJustificationDecodeFailed with
  | .error e => .error e
  | .ok signedRoundChanges =>
    if ! q.hasQuorum signedRoundChanges then .error .proposalRoundChangeJustificationNoQuorum
    else
      match q.validateRoundChangeJustifications msg none signedRoundChanges with
      | .error e => .error e
      | .ok none => .ok ()
      | .ok (some maxPreparedMsg) =>
        match tryDecodeSignedSsvMessages msg.prepareJustification
            .prepareJustificationNoQuorum with
        | .error e => .error e
        | .ok signedPrepares =>
          if ! q.hasQuorum signedPrepares then .error .prepareJustificationNoQuorum
          else if msg.root ≠ maxPreparedMsg.root then .error .prepareJustificationRootMismatch
          else if hprepared : 0 < maxPreparedMsg.dataRound.toNat then
            Checks.forEach (q.isValidPrepareJustificationForRoundAndRoot
              (Round.ofU64 maxPreparedMsg.dataRound hprepared) maxPreparedMsg.root)
              signedPrepares
          else .ok ()

/-- The checks on a received round change: a prepared one needs a quorum of
prepares for its prepared round and root. -/
def checkRoundChange (q : Qbft F D) (msg : QbftMessage) : Except QbftError Unit :=
  if hprepared : 0 < msg.dataRound.toNat then
    match tryDecodeSignedSsvMessages msg.roundChangeJustification
        .roundChangeJustificationDecodeFailed with
    | .error e => .error e
    | .ok signedPrepares =>
      if ! q.hasQuorum signedPrepares then .error .roundChangeJustificationNoQuorum
      else if msg.dataRound ≥ msg.round then .error .invalidDataRound
      else
        Checks.forEach (q.isValidPrepareJustificationForRoundAndRoot
          (Round.ofU64 msg.dataRound hprepared) msg.root) signedPrepares
  else .ok ()

/-! ## Building and sending messages -/

def getMessageData (q : Qbft F D) (msgType : QbftMessageType) (dataHash : Hash256) : MessageData :=
  match msgType with
  | .roundChange =>
    match q.lastPreparedValue, q.lastPreparedRound with
    | some lastPreparedValue, some lastPreparedRound =>
      ⟨lastPreparedRound.toU64, q.currentRound.toU64, lastPreparedValue,
        ((q.data lastPreparedValue).map QbftData.asSszBytes).getD []⟩
    | _, _ => ⟨0, q.currentRound.toU64, Hash256.default, []⟩
  | .proposal =>
    ⟨0, q.currentRound.toU64, dataHash, ((q.data dataHash).map QbftData.asSszBytes).getD []⟩
  | .prepare | .commit => ⟨0, q.currentRound.toU64, dataHash, []⟩

def clearFullData (m : SignedSSVMessage) : Except QbftError SignedSSVMessage :=
  match m.setFullData [] with
  | .error _ => .error .invalidFullData
  | .ok m => .ok m

/-- The message around the given data; `SSVMessage.new_asSszBytes` is why the
`expect` of the source never fires. -/
def unsignedMessage (q : Qbft F D) (msgType : QbftMessageType) (data : MessageData)
    (roundChangeJustification : ByteLists roundChangeJustificationLength 13)
    (prepareJustification : ByteLists prepareJustificationLength 13) :
    UnsignedWrappedQbftMessage :=
  let qbftMessage : QbftMessage :=
    { qbftMessageType := msgType
      height := q.instanceHeight
      round := data.round
      identifier := q.identifier.toVariableList
      root := data.root
      dataRound := data.dataRound
      roundChangeJustification := roundChangeJustification
      prepareJustification := prepareJustification }
  ⟨⟨SSVMessage.consensus q.identifier qbftMessage, data.fullData⟩, qbftMessage⟩

def newUnsignedMessage (q : Qbft F D) (msgType : QbftMessageType) (dataHash : Hash256)
    (roundChangeJustification prepareJustification : List SignedSSVMessage) :
    Except QbftError UnsignedWrappedQbftMessage :=
  match Checks.mapAll clearFullData roundChangeJustification with
  | .error e => .error e
  | .ok roundChangeJustification =>
    match Checks.mapAll clearFullData prepareJustification with
    | .error e => .error e
    | .ok prepareJustification =>
      match tryEncodeSignedSsvMessages roundChangeJustificationLength roundChangeJustification
          .roundChangeJustificationTooBig .roundChangeJustificationListTooBig with
      | .error e => .error e
      | .ok roundChanges =>
        match tryEncodeSignedSsvMessages prepareJustificationLength prepareJustification
            .prepareJustificationTooBig .prepareJustificationListTooBig with
        | .error e => .error e
        | .ok prepares =>
          .ok (q.unsignedMessage msgType (q.getMessageData msgType dataHash)
            roundChanges prepares)

def send (q : Qbft F D) (msg : UnsignedWrappedQbftMessage) : Qbft F D :=
  { q with sent := q.sent ++ [msg] }

def getRoundChangeJustifications (q : Qbft F D) : List SignedSSVMessage :=
  if q.currentRound ≤ Round.default then []
  else if q.state = .awaitingProposal then
    let roundChanges := (q.roundChangeContainer.getMessagesForRound q.currentRound).map
      WrappedQbftMessage.signedMessage
    if q.hasQuorum roundChanges then roundChanges else []
  else []

def getRoundChangePrepareJustifications (q : Qbft F D) : List SignedSSVMessage :=
  match q.lastPreparedValue, q.lastPreparedRound with
  | some lastPreparedValue, some lastPreparedRound =>
    let filteredPrepares := ((q.prepareContainer.getMessagesForRound lastPreparedRound).filter
      fun m => m.qbftMessage.root = lastPreparedValue).map WrappedQbftMessage.signedMessage
    if q.hasQuorum filteredPrepares then filteredPrepares else []
  | _, _ => []

def highestPrepared : List WrappedQbftMessage → Option WrappedQbftMessage :=
  Pick.pick (fun rcMsg => 0 < rcMsg.qbftMessage.dataRound)
    fun rcMsg best => rcMsg.qbftMessage.dataRound > best.qbftMessage.dataRound

/-- The last of the messages with the highest prepared round, if any is prepared. -/
def lastHighestPrepared : List WrappedQbftMessage → Option WrappedQbftMessage :=
  Pick.pick (fun rcMsg => rcMsg.qbftMessage.dataRound ≠ 0)
    fun rcMsg best => best.qbftMessage.dataRound ≤ rcMsg.qbftMessage.dataRound

def getPrepareJustifications (q : Qbft F D) :
    Except QbftError (List SignedSSVMessage × Option Hash256) :=
  if q.currentRound = Round.default then .ok ([], none)
  else if q.state ≠ .awaitingProposal then .ok ([], none)
  else
    let potentialPrepareJust := q.getRoundChangePrepareJustifications
    if ! potentialPrepareJust.isEmpty then
      match q.lastPreparedValue with
      | some lastPrepared => .ok (potentialPrepareJust, some lastPrepared)
      | none => .error .missingLastPreparedValue
    else
      let roundChanges := q.roundChangeContainer.getMessagesForRound q.currentRound
      if ! q.hasQuorum (roundChanges.map WrappedQbftMessage.signedMessage) then .ok ([], none)
      else
        match highestPrepared roundChanges with
        | none => .ok ([], none)
        | some highestRc =>
          match tryDecodeSignedSsvMessages highestRc.qbftMessage.roundChangeJustification
              .roundChangeJustificationDecodeFailed with
          | .error e => .error e
          | .ok prepareMsgs =>
            if q.hasQuorum prepareMsgs then
              .ok (prepareMsgs, some highestRc.qbftMessage.root)
            else .ok ([], none)

def insertData (q : Qbft F D) (hash : Hash256) (d : D) : Qbft F D :=
  { q with data := Function.update q.data hash (some d) }

def sendProposal (q : Qbft F D) (hash : Hash256) (d : D) : Qbft F D × Except QbftError Unit :=
  let q := q.insertData hash d
  match q.getPrepareJustifications with
  | .error e => (q, .error e)
  | .ok (prepareJustifications, valueToPropose) =>
    match q.newUnsignedMessage .proposal (valueToPropose.getD hash)
        q.getRoundChangeJustifications prepareJustifications with
    | .error e => (q, .error e)
    | .ok msg => (q.send msg, .ok ())

def sendPrepare (q : Qbft F D) (dataHash : Hash256) : Qbft F D × Except QbftError Unit :=
  if (q.data dataHash).isNone then (q, .error .missingData)
  else
    match q.newUnsignedMessage .prepare dataHash [] [] with
    | .error e => (q, .error e)
    | .ok msg => (q.send msg, .ok ())

def sendCommit (q : Qbft F D) (dataHash : Hash256) : Qbft F D × Except QbftError Unit :=
  match q.newUnsignedMessage .commit dataHash [] [] with
  | .error e => (q, .error e)
  | .ok msg => (q.send msg, .ok ())

def sendRoundChange (q : Qbft F D) (dataHash : Hash256) : Qbft F D × Except QbftError Unit :=
  match q.newUnsignedMessage .roundChange dataHash q.getRoundChangePrepareJustifications [] with
  | .error e => (q, .error e)
  | .ok msg => ({ q with proposalAcceptedForCurrentRound := false }.send msg, .ok ())

/-! ## Rounds -/

def justifyRoundChangeQuorum (q : Qbft F D) : RcJustificationOutcome D :=
  let roundChangeMessages := q.roundChangeContainer.getMessagesForRound q.currentRound
  if ! q.hasQuorum (roundChangeMessages.map WrappedQbftMessage.signedMessage) then .noPrepared
  else
    match lastHighestPrepared roundChangeMessages with
    | none => .noPrepared
    | some highest =>
      let claimedHash := highest.qbftMessage.root
      if highest.signedMessage.fullData.toList.isEmpty then
        .preparedExistsButDataMissing claimedHash
      else
        match QbftData.fromSszBytes highest.signedMessage.fullData.toList with
        | none => .preparedExistsButDataMissing claimedHash
        | some d =>
          if QbftData.hash d ≠ claimedHash then .preparedExistsButDataMissing claimedHash
          else if ! q.dataValidator d q.startData then
            .preparedExistsButDataMissing claimedHash
          else .highestPrepared ⟨claimedHash, d⟩

def startRound (q : Qbft F D) : Qbft F D :=
  if q.state = .sentRoundChange then q
  else
    let q := { q with state := .awaitingProposal }
    if q.checkLeader q.config.operatorId q.currentRound then
      match q.justifyRoundChangeQuorum with
      | .highestPrepared validData => (q.sendProposal validData.hash validData.data).1
      | .noPrepared => (q.sendProposal q.validStartData.hash q.validStartData.data).1
      | .preparedExistsButDataMissing _ => q
    else q

def setRound (q : Qbft F D) (newRound : Round) : Qbft F D :=
  startRound { q with currentRound := newRound }

def initial (config : Config F) (startData : D) (dataValidator : D → D → Bool)
    (identifier : MessageId) : Qbft F D :=
  { config := config
    identifier := identifier
    instanceHeight := config.instanceHeight
    startDataHash := QbftData.hash startData
    startData := startData
    validStartData := ⟨QbftData.hash startData, startData⟩
    data := Function.update (fun _ => none) (QbftData.hash startData) (some startData)
    currentRound := config.round
    state := .awaitingProposal
    completed := none
    proposeContainer := MessageContainer.new config.quorumSize
    prepareContainer := MessageContainer.new config.quorumSize
    commitContainer := MessageContainer.new config.quorumSize
    roundChangeContainer := MessageContainer.new config.quorumSize
    proposalAcceptedForCurrentRound := false
    proposalRoot := none
    lastPreparedRound := none
    lastPreparedValue := none
    aggregatedCommit := none
    sent := []
    dataValidator := dataValidator }

def new (config : Config F) (startData : D) (dataValidator : D → D → Bool)
    (identifier : MessageId) : Qbft F D :=
  startRound (initial config startData dataValidator identifier)

/-! ## Handlers -/

def receivedPropose (q : Qbft F D) (validData : ValidData D) (operatorId : OperatorId)
    (round : Round) (wrappedMsg : WrappedQbftMessage) : Qbft F D × Except QbftError Unit :=
  if round = q.currentRound ∧ q.state ≠ .awaitingProposal then (q, .error .invalidState)
  else if ! q.checkLeader operatorId round then (q, .error .proposalNotFromLeader)
  else
    match if round > Round.default then q.validateProposalJustifications wrappedMsg.qbftMessage
        else .ok () with
    | .error e => (q, .error e)
    | .ok () =>
      let q := q.insertData validData.hash validData.data
      match q.proposeContainer.addMessage round operatorId wrappedMsg with
      | (_, false) => (q, .error .duplicateProposal)
      | (proposeContainer, true) =>
        let q := { q with proposeContainer := proposeContainer }
        if q.proposalAcceptedForCurrentRound ∧ round = q.currentRound then
          (q, .error .proposalAlreadyReceived)
        else
          { q with
            currentRound := if round > q.currentRound then round else q.currentRound
            proposalAcceptedForCurrentRound := true
            proposalRoot := some validData.hash
            state := .prepare validData.hash }.sendPrepare wrappedMsg.qbftMessage.root

def receivedPrepare (q : Qbft F D) (operatorId : OperatorId) (round : Round)
    (wrappedMsg : WrappedQbftMessage) : Qbft F D × Except QbftError Unit :=
  if q.completed.isSome then (q, .ok ())
  else if q.state.toU8 ≥ InstanceState.sentRoundChange.toU8 then (q, .error .invalidState)
  else if wrappedMsg.qbftMessage.qbftMessageType ≠ .prepare then (q, .error .wrongMessageType)
  else
    match q.prepareContainer.addMessage round operatorId wrappedMsg with
    | (_, false) => (q, .ok ())
    | (prepareContainer, true) =>
      let q := { q with prepareContainer := prepareContainer }
      match q.isProposalAccepted with
      | .error e => (q, .error e)
      | .ok () =>
        if q.proposalRoot.any fun acceptedRoot =>
            wrappedMsg.qbftMessage.root ≠ acceptedRoot then
          (q, .error .proposedDataMismatch)
        else
          match q.prepareContainer.hasQuorum round with
          | none => (q, .ok ())
          | some hash =>
            match q.state with
            | .prepare proposalRoot =>
              if hash ≠ proposalRoot then (q, .error .proposedDataMismatch)
              else
                { q with
                  state := .commit proposalRoot
                  lastPreparedValue := some hash
                  lastPreparedRound := some q.currentRound }.sendCommit hash
            | _ => (q, .ok ())

def aggregateCommitMessages (q : Qbft F D) :
    List WrappedQbftMessage → Except QbftError SignedSSVMessage
  | [] => .error .missingCommit
  | firstCommit :: rest =>
    if ! rest.all fun m => firstCommit.signedMessage.ssvMessage = m.signedMessage.ssvMessage then
      .error .commitQuorumMismatch
    else
      match firstCommit.signedMessage.aggregate (rest.map WrappedQbftMessage.signedMessage) with
      | .error e => .error (.failedToAggregate e)
      | .ok aggregatedCommit =>
        match q.data firstCommit.qbftMessage.root with
        | none => .error .missingData
        | some d =>
          match aggregatedCommit.setFullData (QbftData.asSszBytes d) with
          | .error e => .error (.signedSSVMessageError e)
          | .ok aggregatedCommit => .ok aggregatedCommit

def receivedCommit (q : Qbft F D) (operatorId : OperatorId) (round : Round)
    (wrappedMsg : WrappedQbftMessage) : Qbft F D × Except QbftError Unit :=
  if q.completed.isSome then (q, .ok ())
  else if q.state.toU8 ≥ InstanceState.sentRoundChange.toU8 then (q, .error .invalidState)
  else if wrappedMsg.qbftMessage.qbftMessageType ≠ .commit then (q, .error .wrongMessageType)
  else
    match q.isProposalAccepted with
    | .error e => (q, .error e)
    | .ok () =>
      match q.proposalRoot with
      | none => (q, .error .proposalNotFound)
      | some acceptedRoot =>
        if wrappedMsg.qbftMessage.root ≠ acceptedRoot then (q, .error .proposedDataMismatch)
        else
          match q.commitContainer.addMessage round operatorId wrappedMsg with
          | (_, false) => (q, .ok ())
          | (commitContainer, true) =>
            let q := { q with commitContainer := commitContainer }
            match q.commitContainer.hasQuorum round with
            | none => (q, .ok ())
            | some hash =>
              match q.state with
              | .prepare proposalRoot | .commit proposalRoot =>
                if hash ≠ proposalRoot then (q, .error .proposedDataMismatch)
                else
                  match q.aggregateCommitMessages
                      (q.commitContainer.getQuorumOfMessages round) with
                  | .error e => (q, .error e)
                  | .ok aggregatedCommit =>
                    ({ q with
                        aggregatedCommit := some aggregatedCommit
                        state := .complete
                        completed := some (.success hash) }, .ok ())
              | _ => (q, .error .invalidState)

def receivedRoundChange (q : Qbft F D) (operatorId : OperatorId) (round : Round)
    (wrappedMsg : WrappedQbftMessage) : Qbft F D × Except QbftError Unit :=
  if q.state.toU8 ≥ InstanceState.complete.toU8 then (q, .error .invalidState)
  else
    match q.checkRoundChange wrappedMsg.qbftMessage with
    | .error e => (q, .error e)
    | .ok () =>
      let hadQuorumBefore := q.roundChangeContainer.hasQuorumDisregardingRoot round
      let q := { q with
        roundChangeContainer :=
          (q.roundChangeContainer.addMessage round operatorId wrappedMsg).1 }
      if hadQuorumBefore then (q, .ok ())
      else if q.roundChangeContainer.hasQuorumDisregardingRoot round then
        ({ q with state := .roundChangeConsensus }.setRound round, .ok ())
      else
        match q.roundChangeContainer.lowestPartialQuorumAboveRound q.currentRound
            (getF q.config.committeeMembers.len + 1) with
        | none => (q, .ok ())
        | some newRound =>
          if newRound > q.currentRound then
            { q with
              state := .sentRoundChange
              currentRound := newRound
              proposalAcceptedForCurrentRound := false }.sendRoundChange Hash256.default
          else (q, .ok ())

def receivedDecided (q : Qbft F D) (wrappedMsg : WrappedQbftMessage) :
    Qbft F D × Except QbftError Unit :=
  if ! q.hasQuorum [wrappedMsg.signedMessage] then (q, .error .notEnoughSignatures)
  else
    match q.completed with
    | some (.success _) => (q, .ok ())
    | _ =>
      match QbftData.fromSszBytes wrappedMsg.signedMessage.fullData.toList with
      | none => (q, .error .invalidFullData)
      | some d =>
        if ! q.dataValidator d q.startData then (q, .error .invalidFullData)
        else
          ({ q.insertData wrappedMsg.qbftMessage.root d with
              state := .complete
              completed := some (.success wrappedMsg.qbftMessage.root)
              aggregatedCommit := some wrappedMsg.signedMessage }, .ok ())

def dispatch (q : Qbft F D) (content : MessageContent D) (signer : OperatorId) (round : Round)
    (wrappedMsg : WrappedQbftMessage) : Qbft F D × Except QbftError Unit :=
  match wrappedMsg.qbftMessage.qbftMessageType with
  | .proposal =>
    match content with
    | .complete validData => q.receivedPropose validData signer round wrappedMsg
    | .hashOnly _ => (q, .ok ())
  | .prepare => q.receivedPrepare signer round wrappedMsg
  | .commit =>
    if wrappedMsg.signedMessage.operatorIds.toList.length = 1 then
      q.receivedCommit signer round wrappedMsg
    else q.receivedDecided wrappedMsg
  | .roundChange => q.receivedRoundChange signer round wrappedMsg

/-- Receive a new message from the network.  The conversion of a zero round panics. -/
def receive (q : Qbft F D) (wrappedMsg : WrappedQbftMessage) : Qbft F D × Except Fault Unit :=
  match q.validateMessage wrappedMsg with
  | .error e => (q, .error (.error e))
  | .ok (content, signer) =>
    if hpos : 0 < wrappedMsg.qbftMessage.round.toNat then
      let result := q.dispatch content signer
        (Round.ofU64 wrappedMsg.qbftMessage.round hpos) wrappedMsg
      (result.1, result.2.mapError .error)
    else (q, .error .panicked)

def endRound (q : Qbft F D) : Qbft F D :=
  match q.currentRound.next with
  | none => { q with state := .complete, completed := some .timedOut }
  | some nextRound =>
    if nextRound.get > q.config.maxRounds then
      { q with state := .complete, completed := some .timedOut }
    else
      match { q with currentRound := nextRound, state := .sentRoundChange }.sendRoundChange
          Hash256.default with
      | (q, .error _) => q
      | (q, .ok ()) => q.startRound

def completedData (q : Qbft F D) : Option (Completed D) :=
  match q.completed with
  | none => none
  | some .timedOut => some .timedOut
  | some (.success hash) => (q.data hash).map .success

end Qbft

end Anchor
