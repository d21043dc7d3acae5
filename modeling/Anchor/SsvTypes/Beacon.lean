import Mathlib
import Anchor.Fork.Schedule

/-!
# The objects of the beacon chain

Blocks, attestations, contributions and payload envelopes with the fields that the code of
this repository reads.  How they are laid out in bytes and hashed is not part of it, and
comes with the specification of the chain.
-/

namespace Anchor

open Ssz

/-- `BUILDER_INDEX_SELF_BUILD`: the proposer builds the payload itself. -/
def builderIndexSelfBuild : UInt64 := 18446744073709551615

structure Checkpoint where
  epoch : ℕ
  root : Hash256
deriving DecidableEq

structure AttestationData where
  slot : ℕ
  index : UInt64
  beaconBlockRoot : Hash256
  source : Checkpoint
  target : Checkpoint
deriving DecidableEq

structure BeaconBlockHeader where
  slot : ℕ
  proposerIndex : UInt64
  parentRoot : Hash256
  stateRoot : Hash256
  bodyRoot : Hash256
deriving DecidableEq

structure ExecutionPayloadBid where
  builderIndex : UInt64
  blockHash : Hash256
  executionRequestsRoot : Hash256
deriving DecidableEq

/-- A block, full or blinded; from Gloas on it commits to a bid. -/
structure BeaconBlock where
  forkName : ForkName
  header : BeaconBlockHeader
  bid : Option ExecutionPayloadBid
  isSome_bid : bid.isSome = forkName.gloasEnabled
deriving DecidableEq

structure BeaconBlockGloas where
  header : BeaconBlockHeader
  bid : ExecutionPayloadBid
deriving DecidableEq

inductive WireShape where
  | base
  | electra
  | gloas
deriving DecidableEq

/-- An attestation; its bits and its signature stay in bytes. -/
structure Attestation where
  shape : WireShape
  data : AttestationData
  contents : Bytes
deriving DecidableEq

structure AggregateAndProof where
  aggregatorIndex : UInt64
  aggregate : Attestation
  selectionProof : FixedBytes 96
deriving DecidableEq

structure SyncCommitteeContribution where
  slot : ℕ
  beaconBlockRoot : Hash256
  subcommitteeIndex : UInt64
  aggregationBits : Bytes
  signature : FixedBytes 96
deriving DecidableEq

structure ContributionAndProof where
  aggregatorIndex : UInt64
  contribution : SyncCommitteeContribution
  selectionProof : FixedBytes 96
deriving DecidableEq

/-- What proposers agree on from Gloas on.  The payload itself stays with its builder. -/
structure GloasProposalData where
  block : BeaconBlockGloas
  payloadRoot : Hash256
deriving DecidableEq

structure Contribution where
  selectionProofSig : FixedBytes 96
  contribution : SyncCommitteeContribution
deriving DecidableEq

inductive Domain where
  | beaconProposer
  | beaconBuilder
  | aggregateAndProof
  | contributionAndProof
deriving DecidableEq

/-- The chain: its schedule, its signature domains, and the hashing and the byte layout of its
objects. -/
structure EthSpec where
  slotsPerEpoch : ℕ
  forkNameAtSlot : ℕ → ForkName
  getDomain : ℕ → Domain → Hash256
  /-- The root of an object's root and a domain. -/
  signingData : Hash256 → Hash256 → Hash256
  aggregateAndProofRoot : AggregateAndProof → Hash256
  contributionAndProofRoot : ContributionAndProof → Hash256
  blindedBlock : (fork : ForkName) → Bytes → Option {block : BeaconBlock // block.forkName = fork}
  fullBlock : (fork : ForkName) → Bytes → Option {block : BeaconBlock // block.forkName = fork}
  gloasProposal : Bytes → Option GloasProposalData
  attestation : (shape : WireShape) → Bytes → Option {a : Attestation // a.shape = shape}
  aggregateAndProof :
    (shape : WireShape) → Bytes → Option {m : AggregateAndProof // m.aggregate.shape = shape}
  contributions : Bytes → Option (List Contribution)

namespace EthSpec

variable (spec : EthSpec)

def epoch (slot : ℕ) : ℕ := slot / spec.slotsPerEpoch

end EthSpec

end Anchor
