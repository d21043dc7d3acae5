import Mathlib
import Anchor.Fork.Schedule
import Anchor.SsvTypes.PartialSig

/-!
# Why the validator refuses a message

The failures of the message validator, and how gossip treats a message that
failed: most failures blame the peer, some only mean that the message is of no
use to this node.
-/

namespace Anchor

open Ssz

structure MessageCounts where
  preConsensus : UInt8
  proposal : UInt8
  prepare : UInt8
  commit : UInt8
  roundChange : UInt8
  postConsensus : UInt8
deriving DecidableEq

inductive CountedPhase where
  | preConsensus
  | postConsensus
deriving DecidableEq

inductive ValidationFailure where
  | wrongDomain
  | noShareMetadata
  | unknownValidator
  | validatorRegistrationRetired
  | earlySlotMessage (got : ℕ)
  | lateSlotMessage (got : ℕ)
  | slotAlreadyAdvanced (got want : ℕ)
  | roundAlreadyAdvanced (got want : UInt64)
  | decidedWithSameSigners
  | incorrectTopic
  | topicForkMismatch
  | unknownMessageSlot
  | nonExistentCommitteeID
  | validatorIndexMismatch
  | noDuty
  | estimatedRoundNotInAllowedSpread (got : UInt64) (lowest highest sinceSlotStart : ℕ)
      (role : Role)
  | undecodableMessageData
  | invalidRole
  | signerNotInCommittee
  | wrongRSASignatureSize
  | noSigners
  | noSignatures
  | zeroSigner
  | duplicatedSigner
  | signersAndSignaturesWithDifferentLength
  | signerNotLeader (signer leader : OperatorId)
  | inconsistentSigners
  | emptyData
  | ssvDataTooBig
  | unexpectedFailure
  | partialSignatureTypeRoleMismatch
  | nonDecidedWithMultipleSigners (got want : ℕ)
  | decidedNotEnoughSigners (got want : ℕ)
  | differentProposalData
  | prepareOrCommitWithFullData
  | invalidHash
  | zeroRound
  | roundOverflow
  | unexpectedConsensusMessage
  | roundTooHigh
  | mismatchedIdentifier (got want : Bytes)
  | unexpectedPrepareJustifications
  | unexpectedRoundChangeJustifications
  | malformedJustifications
  | noPartialSignatureMessages
  | operatorNotFound (operatorId : OperatorId)
  | partialSigOneSigner
  | fullDataNotInConsensusMessage
  | tooManyValidatorIndexOccurrences (validatorIndex : UInt64) (got limit : ℕ)
  | duplicatedMessage (got : QbftMessageType) (having : MessageCounts)
  | invalidPartialSignatureTypeCount (got : CountedPhase) (having : MessageCounts)
  | tooManyDistinctSigningRoots (kind : PartialSignatureKind) (recorded added cap : ℕ)
  | relayedDuplicateMessage (kind : PartialSignatureKind)
  | tooManyPartialSignatureMessages (got limit : ℕ)
  | inconsistentValidatorIndices
  | slotStartTimeNotFound (slot : ℕ)
  | signatureCountMismatch
  | signatureVerificationFailed
  | excessiveDutyCount (got limit : ℕ) (role : Role)
  | syncCommitteePeriodCalculationFailure
  | roleNotActiveBeforeFork (role : Role) (currentFork minimumFork : Fork)
  | roleNotActiveAfterFork (role : Role) (currentFork deprecatedSinceFork : Fork)
  | roleNotActiveBeforeEthFork (role : Role) (currentFork minimumFork : ForkName)
  | roleNotActiveAfterEthFork (role : Role) (currentFork deprecatedSinceFork : ForkName)
deriving DecidableEq

namespace ValidationFailure

def ofSignedSSVMessageError : SignedSSVMessageError → ValidationFailure
  | .wrongRSASignatureSize _ _ _ => .wrongRSASignatureSize
  | .noSigners => .noSigners
  | .noSignatures => .noSignatures
  | .zeroSigner => .zeroSigner
  | .duplicatedSigner => .duplicatedSigner
  | .signersAndSignaturesWithDifferentLength => .signersAndSignaturesWithDifferentLength
  | .ssvMessageError .emptyData => .emptyData
  | .ssvMessageError (.ssvDataTooBig _ _) => .ssvDataTooBig
  | .tooManySignatures _ _ => .unexpectedFailure
  | .tooManyOperatorIDs _ _ => .unexpectedFailure
  | .fullDataTooLong _ _ => .unexpectedFailure

end ValidationFailure

end Anchor
