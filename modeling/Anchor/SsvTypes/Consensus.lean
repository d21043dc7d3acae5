import Mathlib
import Anchor.Library.Observation
import Anchor.SsvTypes.Beacon

/-!
# The values that proposers and aggregators agree on

The value of a round comes from its leader.  Every other operator checks it against the value
that it would have proposed itself, and decodes what it will sign from its bytes.
-/

namespace Anchor

open Ssz

inductive DecodeError where
  | noMatchingVariant
  | bytesInvalid (message : String)
  /-- The bytes are not an encoding of the type. -/
  | ssz
deriving DecidableEq

inductive ForkDecodeError where
  | decode (e : DecodeError)
  | unsupportedFork (name : ForkName)
deriving DecidableEq

def decodedWith {α ε : Type} (e : ε) (decoded : Option α) : Except ε α :=
  decoded.elim (.error e) .ok

/-! ## Versions -/

structure DataVersion where
  name : ForkName
deriving DecidableEq

namespace DataVersion

/-- Heze has no wire shape yet. -/
def wireShape (version : DataVersion) : Except ForkDecodeError WireShape :=
  match version.name with
  | .base | .altair | .bellatrix | .capella | .deneb => .ok .base
  | .electra | .fulu => .ok .electra
  | .gloas => .ok .gloas
  | .heze => .error (.unsupportedFork .heze)

def decodeAttestation (spec : EthSpec) (version : DataVersion) (bytes : Bytes) :
    Except ForkDecodeError Attestation := do
  let shape ← version.wireShape
  let decoded ← decodedWith (.decode .ssz) (spec.attestation shape bytes)
  pure decoded.val

def decodeAggregateAndProof (spec : EthSpec) (version : DataVersion) (bytes : Bytes) :
    Except ForkDecodeError AggregateAndProof := do
  let shape ← version.wireShape
  let decoded ← decodedWith (.decode .ssz) (spec.aggregateAndProof shape bytes)
  pure decoded.val

end DataVersion

/-! ## Values of a single validator -/

structure BeaconRole where
  value : UInt64
deriving DecidableEq

def beaconRoleAggregator : BeaconRole := ⟨1⟩

def beaconRoleProposer : BeaconRole := ⟨2⟩

def beaconRoleSyncCommitteeContribution : BeaconRole := ⟨4⟩

structure ValidatorDuty where
  type : BeaconRole
  pubKey : PublicKeyBytes
  slot : ℕ
  validatorIndex : UInt64
  committeeIndex : UInt64
  committeeLength : UInt64
  committeesAtSlot : UInt64
  validatorCommitteeIndex : UInt64
  validatorSyncCommitteeIndices : VariableList UInt64 13
deriving DecidableEq

structure ProposerConsensusData where
  duty : ValidatorDuty
  version : DataVersion
  dataSsz : VariableList UInt8 (2 ^ 23)
deriving DecidableEq

/-- A self-build bid comes with the root of its payload, any other bid with the zero root. -/
def GloasProposalData.validatePayloadRoot (proposal : GloasProposalData) :
    Except DecodeError Unit :=
  let selfBuild := decide (proposal.block.bid.builderIndex = builderIndexSelfBuild)
  if selfBuild = decide (proposal.payloadRoot = Hash256.default) then
    .error (.bytesInvalid "payload root must be nonzero exactly for a self-build bid")
  else .ok ()

namespace ProposerConsensusData

variable (spec : EthSpec) (data : ProposerConsensusData)

def decodeBlindedBlock : Except DecodeError BeaconBlock := do
  Checks.require (data.version.name < .gloas) .noMatchingVariant
  let decoded ← decodedWith .ssz (spec.blindedBlock data.version.name data.dataSsz.toList)
  pure decoded.val

def decodeBlockContents : Except DecodeError BeaconBlock := do
  let decoded ← decodedWith .ssz (spec.fullBlock data.version.name data.dataSsz.toList)
  pure decoded.val

def decodeGloasProposal : Except DecodeError GloasProposalData := do
  Checks.require (data.version.name = .gloas) .noMatchingVariant
  let proposal ← decodedWith .ssz (spec.gloasProposal data.dataSsz.toList)
  proposal.validatePayloadRoot
  pure proposal

/-- The bytes of a block before Gloas are tried as a blinded block first. -/
def decodeEarlierBlock : Except DecodeError BeaconBlock :=
  match data.decodeBlindedBlock spec with
  | .ok block => .ok block
  | .error _ => data.decodeBlockContents spec

end ProposerConsensusData

inductive DataValidationError (NotSafe : Type) where
  | decodeError (e : DecodeError)
  | forkDecode (e : ForkDecodeError)
  | invalidDutyType (type : BeaconRole)
  | slotMismatch (expected got : ℕ)
  | roleMismatch (expected got : BeaconRole)
  | pubKeyMismatch (expected got : PublicKeyBytes)
  | indexMismatch (expected got : UInt64)
  | versionMismatch (expected got : ForkName)
  | blockSlotMismatch (expected got : ℕ)
  | blockProposerIndexMismatch (expected got : UInt64)
  | slashableBlockProposal (reason : NotSafe)
deriving DecidableEq

structure ProposerConsensusDataValidator (NotSafe : Type) where
  preliminaryCheckBlockProposal :
    PublicKeyBytes → BeaconBlockHeader → Hash256 → Except NotSafe Unit
  disableSlashingProtection : Bool
  spec : EthSpec
  validatorPubkey : PublicKeyBytes

namespace ProposerConsensusDataValidator

variable {NotSafe : Type} (validator : ProposerConsensusDataValidator NotSafe)

def decodeHeader (value : ProposerConsensusData) : Except DecodeError BeaconBlockHeader :=
  if .gloas ≤ value.version.name then do
    let proposal ← value.decodeGloasProposal validator.spec
    pure proposal.block.header
  else do
    let block ← value.decodeEarlierBlock validator.spec
    pure block.header

def validateBlockProposal (value : ProposerConsensusData) :
    Except (DataValidationError NotSafe) Unit := do
  let expected := validator.spec.forkNameAtSlot value.duty.slot
  let fork := value.version.name
  Checks.require (fork = expected) (.versionMismatch expected fork)
  let header ← (validator.decodeHeader value).mapError .decodeError
  Checks.require (header.slot = value.duty.slot)
    (.blockSlotMismatch value.duty.slot header.slot)
  Checks.require (.gloas ≤ fork → header.proposerIndex = value.duty.validatorIndex)
    (.blockProposerIndexMismatch value.duty.validatorIndex header.proposerIndex)
  if validator.disableSlashingProtection then pure ()
  else
    (validator.preliminaryCheckBlockProposal validator.validatorPubkey header
      (validator.spec.getDomain (validator.spec.epoch header.slot) .beaconProposer)).mapError
      .slashableBlockProposal

/-- The version of a proposed aggregate selects the shape of the fork at the duty's slot. -/
def validateAggregate (value : ProposerConsensusData) :
    Except (DataValidationError NotSafe) Unit := do
  let expected := validator.spec.forkNameAtSlot value.duty.slot
  let expectedShape ← (DataVersion.mk expected).wireShape.mapError .forkDecode
  let proposedShape ← value.version.wireShape.mapError .forkDecode
  Checks.require (proposedShape = expectedShape) (.versionMismatch expected value.version.name)
  let _ ← (value.version.decodeAggregateAndProof validator.spec value.dataSsz.toList).mapError
    .forkDecode
  pure ()

def doValidation (value ourValue : ProposerConsensusData) :
    Except (DataValidationError NotSafe) Unit := do
  Checks.require (value.duty.slot = ourValue.duty.slot)
    (.slotMismatch ourValue.duty.slot value.duty.slot)
  Checks.require (value.duty.type = ourValue.duty.type)
    (.roleMismatch ourValue.duty.type value.duty.type)
  Checks.require (value.duty.pubKey = ourValue.duty.pubKey)
    (.pubKeyMismatch ourValue.duty.pubKey value.duty.pubKey)
  Checks.require (value.duty.validatorIndex = ourValue.duty.validatorIndex)
    (.indexMismatch ourValue.duty.validatorIndex value.duty.validatorIndex)
  if value.duty.type = beaconRoleAggregator then validator.validateAggregate value
  else if value.duty.type = beaconRoleProposer then validator.validateBlockProposal value
  else if value.duty.type = beaconRoleSyncCommitteeContribution then do
    let _ ← (decodedWith .ssz (validator.spec.contributions value.dataSsz.toList)).mapError
      .decodeError
    pure ()
  else .error (.invalidDutyType value.duty.type)

def validate (value ourValue : ProposerConsensusData) : Bool :=
  (validator.doValidation value ourValue).isOk

end ProposerConsensusDataValidator

/-! ## Values of a committee -/

structure AssignedAggregator where
  validatorIndex : UInt64
  selectionProof : FixedBytes 96
  /-- The beacon committee of an aggregator, the subcommittee of a contributor. -/
  committeeIndex : UInt64
deriving DecidableEq

structure AggregatorCommitteeConsensusData where
  version : DataVersion
  aggregators : VariableList AssignedAggregator 3000
  aggregatorCommitteeIndexes : VariableList UInt64 64
  aggregatedAttestations : VariableList (VariableList UInt8 131308) 64
  contributors : VariableList AssignedAggregator 2048
  syncCommitteeContributions : VariableList SyncCommitteeContribution 4
deriving DecidableEq

inductive AggregatorCommitteeValidationError where
  | committeeIndexCountMismatch (indexes attestations : ℕ)
  | duplicateCommitteeIndex (index : UInt64)
  | aggregatorCommitteeIndexMissing (index : UInt64)
  | aggregatorCommitteeUnusedIndex
  | duplicateSyncSubcommittee (index : UInt64)
  | contributorSubcommitteeMissing (index : UInt64)
  | syncSubcommitteeUnusedIndex
  | noValidatorsAssigned
  | attestationDecodeError (e : ForkDecodeError)
  | versionMismatch (expected got : ForkName)
deriving DecidableEq

namespace AggregatorCommitteeDataValidator

/-- No index comes twice; the error names the first one that does. -/
def noDuplicates {ε : Type} (duplicate : UInt64 → ε) :
    List UInt64 → List UInt64 → Except ε Unit
  | _, [] => .ok ()
  | seen, index :: rest =>
    if index ∈ seen then .error (duplicate index)
    else noDuplicates duplicate (seen ++ [index]) rest

/-- Mark the listed indexes that are assigned; the error names the first assignment that is not
listed. -/
def markUsed {ε : Type} (missing : UInt64 → ε) (listed : List UInt64) :
    List Bool → List UInt64 → Except ε (List Bool)
  | used, [] => .ok used
  | used, index :: rest =>
    match listed.findIdx? (· == index) with
    | some position => markUsed missing listed (used.set position true) rest
    | none => .error (missing index)

def validateEqualSet {ε : Type} (duplicate missing : UInt64 → ε) (unused : ε)
    (listed assigned : List UInt64) : Except ε Unit := do
  noDuplicates duplicate [] listed
  let used ← markUsed missing listed (List.replicate listed.length false) assigned
  Checks.require (∀ u ∈ used, u = true) unused

def doValidation (spec : EthSpec) (value : AggregatorCommitteeConsensusData) :
    Except AggregatorCommitteeValidationError Unit := do
  Checks.require (value.aggregators.toList ≠ [] ∨ value.contributors.toList ≠ [])
    .noValidatorsAssigned
  Checks.require (value.aggregatorCommitteeIndexes.toList.length =
      value.aggregatedAttestations.toList.length)
    (.committeeIndexCountMismatch value.aggregatorCommitteeIndexes.toList.length
      value.aggregatedAttestations.toList.length)
  validateEqualSet .duplicateCommitteeIndex .aggregatorCommitteeIndexMissing
    .aggregatorCommitteeUnusedIndex value.aggregatorCommitteeIndexes.toList
    (value.aggregators.toList.map (·.committeeIndex))
  Checks.forEach
    (fun bytes => do
      let _ ← (value.version.decodeAttestation spec bytes.toList).mapError
        .attestationDecodeError
      pure ())
    value.aggregatedAttestations.toList
  validateEqualSet .duplicateSyncSubcommittee .contributorSubcommitteeMissing
    .syncSubcommitteeUnusedIndex
    (value.syncCommitteeContributions.toList.map (·.subcommitteeIndex))
    (value.contributors.toList.map (·.committeeIndex))

/-- The version of a proposed value is that of the own one. -/
def validate (spec : EthSpec) (value ourValue : AggregatorCommitteeConsensusData) : Bool :=
  if value.version = ourValue.version then (doValidation spec value).isOk else false

/-! ## Validated values -/

theorem mem_of_markUsed {ε : Type} {missing : UInt64 → ε} {listed assigned : List UInt64}
    {used used' : List Bool} (h : markUsed missing listed used assigned = .ok used') :
    ∀ index ∈ assigned, index ∈ listed := by
  induction assigned generalizing used with
  | nil => simp
  | cons index rest ih =>
    simp only [markUsed] at h
    split at h
    · rename_i position hposition
      intro index' hindex'
      rcases List.mem_cons.mp hindex' with rfl | hindex'
      · obtain ⟨hlt, hfound, -⟩ := List.findIdx?_eq_some_iff_getElem.mp hposition
        rw [← beq_iff_eq.mp hfound]
        exact List.getElem_mem hlt
      · exact ih h index' hindex'
    · cases h

theorem mem_of_validateEqualSet {ε : Type} {duplicate missing : UInt64 → ε} {unused : ε}
    {listed assigned : List UInt64}
    (h : validateEqualSet duplicate missing unused listed assigned = .ok ()) :
    ∀ index ∈ assigned, index ∈ listed := by
  unfold validateEqualSet at h
  obtain ⟨-, -, h⟩ := Checks.bind_eq_ok.mp h
  obtain ⟨used, hused, -⟩ := Checks.bind_eq_ok.mp h
  exact mem_of_markUsed hused

def decidedAttestation (spec : EthSpec) (value : AggregatorCommitteeConsensusData)
    (aggregator : AssignedAggregator) : Option Attestation := do
  let position ← value.aggregatorCommitteeIndexes.toList.findIdx? (· == aggregator.committeeIndex)
  let bytes ← value.aggregatedAttestations.toList[position]?
  (value.version.decodeAttestation spec bytes.toList).toOption

/-- An accepted value has an attestation for every aggregator and a contribution for
every contributor. -/
theorem exists_of_doValidation {spec : EthSpec} {value : AggregatorCommitteeConsensusData}
    (h : doValidation spec value = .ok ()) :
    (∀ aggregator ∈ value.aggregators.toList,
      ∃ attestation, decidedAttestation spec value aggregator = some attestation) ∧
    ∀ contributor ∈ value.contributors.toList, ∃ contribution ∈
      value.syncCommitteeContributions.toList,
        contribution.subcommitteeIndex = contributor.committeeIndex := by
  unfold doValidation at h
  obtain ⟨-, -, h⟩ := Checks.bind_eq_ok.mp h
  obtain ⟨_, hlength, h⟩ := Checks.bind_eq_ok.mp h
  obtain ⟨_, hindexes, h⟩ := Checks.bind_eq_ok.mp h
  obtain ⟨_, hdecode, hcontributors⟩ := Checks.bind_eq_ok.mp h
  constructor
  · intro aggregator haggregator
    have hmem := mem_of_validateEqualSet hindexes _ (List.mem_map_of_mem haggregator)
    obtain ⟨position, hposition⟩ : ∃ position, value.aggregatorCommitteeIndexes.toList.findIdx?
        (· == aggregator.committeeIndex) = some position := by
      rw [← Option.isSome_iff_exists, List.findIdx?_isSome, List.any_eq_true]
      exact ⟨_, hmem, beq_self_eq_true _⟩
    obtain ⟨hlt, -, -⟩ := List.findIdx?_eq_some_iff_getElem.mp hposition
    rw [Checks.require_eq_ok_iff] at hlength
    rw [hlength] at hlt
    have hok := Checks.forEach_eq_ok_iff.mp hdecode _ (List.getElem_mem hlt)
    obtain ⟨attestation, hattestation, -⟩ := Checks.bind_eq_ok.mp hok
    refine ⟨attestation, ?_⟩
    cases hresult : value.version.decodeAttestation spec
        (value.aggregatedAttestations.toList[position]).toList with
    | error e =>
      rw [hresult] at hattestation
      cases hattestation
    | ok attestation' =>
      rw [hresult] at hattestation
      cases hattestation
      rw [decidedAttestation, hposition]
      simp only [bind, Option.bind, List.getElem?_eq_getElem hlt, hresult, Except.toOption]
  · intro contributor hcontributor
    have hmem := mem_of_validateEqualSet hcontributors _ (List.mem_map_of_mem hcontributor)
    obtain ⟨contribution, hcontribution, heq⟩ := List.mem_map.mp hmem
    exact ⟨contribution, hcontribution, heq⟩

end AggregatorCommitteeDataValidator

end Anchor
