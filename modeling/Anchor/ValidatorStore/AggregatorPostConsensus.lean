import Mathlib
import Anchor.Library.FirstWins
import Anchor.SsvTypes.Consensus
import Anchor.ValidatorStore.CommitteeSigning

/-!
# Signing what an aggregator committee decided

One decided value carries the aggregates and the sync contributions of a committee.
Everything that the operator can sign from it is collected in a worklist, under one
view of the database, and one signature collection is started for each entry.  The
database enumerates the validators of a committee in any order.
-/

namespace Anchor

open Ssz AggregatorCommitteeDataValidator

namespace EthSpec

def aggregateSigningRoot (spec : EthSpec) (message : AggregateAndProof) (domain : Hash256) :
    Hash256 :=
  spec.signingData (spec.aggregateAndProofRoot message) domain

def contributionSigningRoot (spec : EthSpec) (message : ContributionAndProof) (domain : Hash256) :
    Hash256 :=
  spec.signingData (spec.contributionAndProofRoot message) domain

end EthSpec

structure DutyRequest (C M : Type) extends SigningRequest C where
  dutyData : M

inductive ResolveError where
  | committeeIndexNotFound
  | attestationBytesNotFound
  | failedToDecode (e : ForkDecodeError)
  | aggregateSlotMismatch (aggregateSlot slot : ℕ)
  | contributionNotInData
  | contributionSlotMismatch (contributionSlot slot : ℕ)

structure DecidedWorklist (C : Type) where
  aggregates : Table (Prod.fst : UInt64 × DutyRequest C AggregateAndProof → UInt64)
  contributions :
    Table (Prod.fst : (UInt64 × UInt64) × DutyRequest C ContributionAndProof → UInt64 × UInt64)

structure RootCollection (C : Type) where
  batchSize : ℕ
  baseHash : Hash256
  validator : ValidatorMetadata C
  cluster : Cluster C
  signingRoot : Hash256
  slot : ℕ

structure PreparedRoot (C M : Type) where
  request : DutyRequest C M
  collection : RootCollection C

structure AggregatorPostConsensusOutcome (C : Type) where
  forkName : ForkName
  aggregates : List (UInt64 × PreparedRoot C AggregateAndProof)
  contributions : List ((UInt64 × UInt64) × PreparedRoot C ContributionAndProof)

section Model

variable {C : Type} (spec : EthSpec)

def resolveDecidedAggregate (decidedData : AggregatorCommitteeConsensusData)
    (decidedAggregator : AssignedAggregator) (validator : ValidatorMetadata C) (slot : ℕ)
    (domainHash : Hash256) : Except ResolveError (DutyRequest C AggregateAndProof) :=
  match decidedData.aggregatorCommitteeIndexes.toList.findIdx?
      (· == decidedAggregator.committeeIndex) with
  | none => .error .committeeIndexNotFound
  | some decidedAggregateIdx =>
    match decidedData.aggregatedAttestations.toList[decidedAggregateIdx]? with
    | none => .error .attestationBytesNotFound
    | some decidedAggregateBytes =>
      match decidedData.version.decodeAttestation spec decidedAggregateBytes.toList with
      | .error e => .error (.failedToDecode e)
      | .ok decidedAggregate =>
        if decidedAggregate.data.slot ≠ slot then
          .error (.aggregateSlotMismatch decidedAggregate.data.slot slot)
        else
          let message : AggregateAndProof :=
            ⟨decidedAggregator.validatorIndex, decidedAggregate,
              decidedAggregator.selectionProof⟩
          .ok ⟨⟨validator, spec.aggregateSigningRoot message domainHash⟩, message⟩

def resolveDecidedContribution (decidedData : AggregatorCommitteeConsensusData)
    (decidedContributor : AssignedAggregator) (validator : ValidatorMetadata C) (slot : ℕ)
    (domainHash : Hash256) : Except ResolveError (DutyRequest C ContributionAndProof) :=
  match decidedData.syncCommitteeContributions.toList.find?
      (·.subcommitteeIndex == decidedContributor.committeeIndex) with
  | none => .error .contributionNotInData
  | some decidedContribution =>
    if decidedContribution.slot ≠ slot then
      .error (.contributionSlotMismatch decidedContribution.slot slot)
    else
      let message : ContributionAndProof :=
        ⟨decidedContributor.validatorIndex, decidedContribution,
          decidedContributor.selectionProof⟩
      .ok ⟨⟨validator, spec.contributionSigningRoot message domainHash⟩, message⟩

def decidedIndices (decidedData : AggregatorCommitteeConsensusData) : List UInt64 :=
  (decidedData.aggregators.toList ++ decidedData.contributors.toList).map (·.validatorIndex)

namespace Database.NetworkState

variable (state : Database.NetworkState C)

def committeeCluster (order : List PublicKeyBytes) : Option (Cluster C) :=
  (order.filterMap state.metadata.primary).findSome? fun validator =>
    (state.clusters.primary validator.clusterId).filter fun cluster => ! cluster.liquidated

/-- The entry of a validator that this operator can sign for. -/
def localEntry (indices : List UInt64) (validator : ValidatorMetadata C) :
    Option (UInt64 × ValidatorMetadata C) := do
  let index ← validator.index.filter fun i => decide (i ∈ indices)
  let cluster ← state.clusters.primary validator.clusterId
  if cluster.liquidated then none
  else
    let _ ← state.shares.primary validator.publicKey
    some (index, validator)

/-- The validators that this operator can sign for, by index.  Of two validators with one
index the later one stays. -/
def locals (order : List PublicKeyBytes) (indices : List UInt64) (index : UInt64) :
    Option (ValidatorMetadata C) :=
  (((order.filterMap state.metadata.primary).filterMap (state.localEntry indices)).reverse.find?
    fun entry => entry.1 = index).map Prod.snd

variable (order : List PublicKeyBytes) (decidedData : AggregatorCommitteeConsensusData) (slot : ℕ)

def decidedAggregate (decidedAggregator : AssignedAggregator) :
    Option (DutyRequest C AggregateAndProof) :=
  match state.locals order (decidedIndices decidedData) decidedAggregator.validatorIndex with
  | none => none
  | some validator =>
    (resolveDecidedAggregate spec decidedData decidedAggregator validator slot
      (spec.getDomain (spec.epoch slot) .aggregateAndProof)).toOption

def decidedContribution (decidedContributor : AssignedAggregator) :
    Option (DutyRequest C ContributionAndProof) :=
  match state.locals order (decidedIndices decidedData) decidedContributor.validatorIndex with
  | none => none
  | some validator =>
    (resolveDecidedContribution spec decidedData decidedContributor validator slot
      (spec.getDomain (spec.epoch slot) .contributionAndProof)).toOption

def buildDecidedWorklist : DecidedWorklist C where
  aggregates := FirstWins.collect (·.validatorIndex)
    (state.decidedAggregate spec order decidedData slot) decidedData.aggregators.toList
  contributions := FirstWins.collect (fun entry => (entry.validatorIndex, entry.committeeIndex))
    (state.decidedContribution spec order decidedData slot) decidedData.contributors.toList

def prepareRoots {K M : Type} (requests : List (K × DutyRequest C M)) (batchSize : ℕ)
    (baseHash : Hash256) (cluster : Cluster C) (slot : ℕ) : List (K × PreparedRoot C M) :=
  requests.map fun entry => (entry.1, ⟨entry.2,
    ⟨batchSize, baseHash, entry.2.validator, cluster, entry.2.signingRoot, slot⟩⟩)

/-- Decide the value of the committee, then start a collection for every root that this
operator can sign from it.  The clusters and the worklist are read at two moments. -/
def runAggregatorPostConsensus {ε : Type} (hash : AggregatorCommitteeConsensusData → Hash256)
    (before after : Database.NetworkState C) (orderBefore orderAfter : List PublicKeyBytes)
    (slot : ℕ) (ourConsensusData : AggregatorCommitteeConsensusData)
    (consensus : Cluster C → Except ε AggregatorCommitteeConsensusData) :
    Except ε (AggregatorPostConsensusOutcome C) :=
  match before.committeeCluster orderBefore with
  | none => .ok ⟨ourConsensusData.version.name, [], []⟩
  | some cluster =>
    match consensus cluster with
    | .error e => .error e
    | .ok decidedData =>
      let worklist := after.buildDecidedWorklist spec orderAfter decidedData slot
      let batchSize := worklist.aggregates.rows.length + worklist.contributions.rows.length
      .ok ⟨decidedData.version.name,
        prepareRoots worklist.aggregates.rows batchSize (hash decidedData) cluster slot,
        prepareRoots worklist.contributions.rows batchSize (hash decidedData) cluster slot⟩

end Database.NetworkState

def AggregatorPostConsensusOutcome.collections (outcome : AggregatorPostConsensusOutcome C) :
    List (RootCollection C) :=
  outcome.aggregates.map (·.2.collection) ++ outcome.contributions.map (·.2.collection)

end Model

/-! ## What the worklist holds -/

section Worklist

variable {C : Type} {spec : EthSpec} {state : Database.NetworkState C} {committeeId : CommitteeId}
  {order : List PublicKeyBytes} {decidedData : AggregatorCommitteeConsensusData} {slot : ℕ}
  {validator : ValidatorMetadata C} {index : UInt64} {indices : List UInt64}

namespace Database.NetworkState

def Enumerates (state : Database.NetworkState C) (committeeId : CommitteeId)
    (order : List PublicKeyBytes) : Prop :=
  ∀ pubkey, pubkey ∈ order ↔ pubkey ∈ state.metadata.present (state.metadata.quaternary committeeId)

structure Local (state : Database.NetworkState C) (committeeId : CommitteeId) (index : UInt64)
    (validator : ValidatorMetadata C) : Prop where
  committee : ∃ pubkey ∈ state.metadata.quaternary committeeId,
    state.metadata.primary pubkey = some validator
  index_eq : validator.index = some index
  active : ∃ cluster, state.clusters.primary validator.clusterId = some cluster ∧
    cluster.liquidated = false
  share : ∃ share, state.shares.primary validator.publicKey = some share

variable {entry : UInt64 × ValidatorMetadata C}

theorem localEntry_eq_some :
    state.localEntry indices validator = some entry ↔
      entry.2 = validator ∧ entry.1 ∈ indices ∧ validator.index = some entry.1 ∧
      (∃ cluster, state.clusters.primary validator.clusterId = some cluster ∧
        cluster.liquidated = false) ∧
      ∃ share, state.shares.primary validator.publicKey = some share := by
  obtain ⟨index, validator'⟩ := entry
  simp only [localEntry, Option.bind_eq_bind, Option.bind_eq_some_iff, Option.filter_eq_some_iff,
    decide_eq_true_eq]
  constructor
  · rintro ⟨i, ⟨hindex, hmem⟩, cluster, hcluster, h⟩
    split_ifs at h with hliquidated
    obtain ⟨share, hshare, h⟩ := Option.bind_eq_some_iff.mp h
    cases h
    exact ⟨rfl, hmem, hindex, ⟨cluster, hcluster, by simpa using hliquidated⟩, share, hshare⟩
  · rintro ⟨rfl, hmem, hindex, ⟨cluster, hcluster, hliquidated⟩, share, hshare⟩
    refine ⟨index, ⟨hindex, hmem⟩, cluster, hcluster, ?_⟩
    rw [if_neg (by simp [hliquidated]), hshare]
    rfl

theorem mem_localEntries (horder : state.Enumerates committeeId order) :
    entry ∈ (order.filterMap state.metadata.primary).filterMap (state.localEntry indices) ↔
      entry.1 ∈ indices ∧ state.Local committeeId entry.1 entry.2 := by
  simp only [List.mem_filterMap, localEntry_eq_some]
  constructor
  · rintro ⟨validator, ⟨pubkey, hpubkey, hprimary⟩, rfl, hmem, hindex, hactive, hshare⟩
    have hfound := (horder pubkey).mp hpubkey
    rw [MultiIndexMap.present, Finset.mem_filter] at hfound
    exact ⟨hmem, ⟨pubkey, hfound.1, hprimary⟩, hindex, hactive, hshare⟩
  · rintro ⟨hmem, ⟨pubkey, hpubkey, hprimary⟩, hindex, hactive, hshare⟩
    refine ⟨entry.2, ⟨pubkey, (horder pubkey).mpr ?_, hprimary⟩, rfl, hmem, hindex, hactive, hshare⟩
    rw [MultiIndexMap.present, Finset.mem_filter]
    exact ⟨hpubkey, by simp [hprimary]⟩

theorem local_of_locals (horder : state.Enumerates committeeId order)
    (h : state.locals order indices index = some validator) :
    state.Local committeeId index validator := by
  obtain ⟨entry, hentry, rfl⟩ := Option.map_eq_some_iff.mp h
  have hmem := List.mem_reverse.mp (List.mem_of_find?_eq_some hentry)
  have hindex : entry.1 = index := by simpa using List.find?_some hentry
  exact hindex ▸ ((mem_localEntries horder).mp hmem).2

theorem exists_locals_iff (horder : state.Enumerates committeeId order) (hmem : index ∈ indices) :
    (∃ validator, state.locals order indices index = some validator) ↔
      ∃ validator, state.Local committeeId index validator := by
  constructor
  · rintro ⟨validator, h⟩
    exact ⟨validator, local_of_locals horder h⟩
  · rintro ⟨validator, h⟩
    rw [← Option.isSome_iff_exists, locals, Option.isSome_map, List.find?_isSome]
    refine ⟨(index, validator), List.mem_reverse.mpr ?_, by simp⟩
    exact (mem_localEntries horder).mpr ⟨hmem, h⟩

end Database.NetworkState

theorem DutyRequest.mk_eq_iff {M : Type} {request : DutyRequest C M} {message : M}
    (root : M → Hash256) :
    (⟨⟨validator, root message⟩, message⟩ : DutyRequest C M) = request ↔
      request.dutyData = message ∧ validator = request.validator ∧
        request.signingRoot = root request.dutyData := by
  constructor
  · rintro rfl
    exact ⟨rfl, rfl, rfl⟩
  · rintro ⟨rfl, rfl, hroot⟩
    rw [← hroot]

theorem toOption_eq_some {ε α : Type} {x : Except ε α} {a : α} :
    x.toOption = some a ↔ x = .ok a := by
  cases x <;> simp [Except.toOption]

namespace Database.NetworkState

variable {decided : AssignedAggregator}

theorem decidedAggregate_eq_some {request : DutyRequest C AggregateAndProof} :
    state.decidedAggregate spec order decidedData slot decided = some request ↔
      ∃ attestation, decidedAttestation spec decidedData decided = some attestation ∧
        attestation.data.slot = slot ∧
        request.dutyData = ⟨decided.validatorIndex, attestation, decided.selectionProof⟩ ∧
        state.locals order (decidedIndices decidedData) decided.validatorIndex =
          some request.validator ∧
        request.signingRoot = spec.aggregateSigningRoot request.dutyData
          (spec.getDomain (spec.epoch slot) .aggregateAndProof) := by
  unfold decidedAggregate resolveDecidedAggregate decidedAttestation
  cases state.locals order (decidedIndices decidedData) decided.validatorIndex with
  | none => simp
  | some validator =>
    cases decidedData.aggregatorCommitteeIndexes.toList.findIdx?
        (· == decided.committeeIndex) with
    | none => simp [toOption_eq_some]
    | some position =>
      cases hbytes : decidedData.aggregatedAttestations.toList[position]? with
      | none => simp [hbytes, toOption_eq_some]
      | some bytes =>
        cases hdecode : decidedData.version.decodeAttestation spec bytes.toList with
        | error e => simp [hbytes, hdecode, Except.toOption]
        | ok attestation =>
          by_cases hslot : attestation.data.slot = slot
          · simpa [hbytes, hdecode, hslot, Except.toOption] using
              DutyRequest.mk_eq_iff fun message => spec.aggregateSigningRoot message _
          · simp [hbytes, hdecode, hslot, Except.toOption]

theorem decidedContribution_eq_some {request : DutyRequest C ContributionAndProof} :
    state.decidedContribution spec order decidedData slot decided = some request ↔
      ∃ contribution, decidedData.syncCommitteeContributions.toList.find?
          (·.subcommitteeIndex == decided.committeeIndex) = some contribution ∧
        contribution.slot = slot ∧
        request.dutyData = ⟨decided.validatorIndex, contribution, decided.selectionProof⟩ ∧
        state.locals order (decidedIndices decidedData) decided.validatorIndex =
          some request.validator ∧
        request.signingRoot = spec.contributionSigningRoot request.dutyData
          (spec.getDomain (spec.epoch slot) .contributionAndProof) := by
  unfold decidedContribution resolveDecidedContribution
  cases state.locals order (decidedIndices decidedData) decided.validatorIndex with
  | none => simp
  | some validator =>
    cases decidedData.syncCommitteeContributions.toList.find?
        (·.subcommitteeIndex == decided.committeeIndex) with
    | none => simp [toOption_eq_some]
    | some contribution =>
      by_cases hslot : contribution.slot = slot
      · simpa [hslot, Except.toOption] using
          DutyRequest.mk_eq_iff fun message => spec.contributionSigningRoot message _
      · simp [hslot, Except.toOption]

end Database.NetworkState

/-- What the worklist of a decided value has to be, for any enumeration of the
validators. -/
structure DecidedWorklist.Faithful (spec : EthSpec) (state : Database.NetworkState C)
    (committeeId : CommitteeId) (order : List PublicKeyBytes)
    (decidedData : AggregatorCommitteeConsensusData) (slot : ℕ) (worklist : DecidedWorklist C) :
    Prop where
  /-- An aggregate is that of the first entry of its validator that resolves. -/
  aggregates_first : ∀ index request, (index, request) ∈ worklist.aggregates ↔
    FirstWins.First (·.validatorIndex) (state.decidedAggregate spec order decidedData slot)
      decidedData.aggregators.toList index request
  contributions_first : ∀ key request, (key, request) ∈ worklist.contributions ↔
    FirstWins.First (fun entry : AssignedAggregator => (entry.validatorIndex, entry.committeeIndex))
      (state.decidedContribution spec order decidedData slot) decidedData.contributors.toList key
      request
  /-- There is one for each local validator with an attestation of the slot. -/
  aggregates_iff : ∀ index, (∃! request, (index, request) ∈ worklist.aggregates) ↔
    (∃ validator, state.Local committeeId index validator) ∧
      ∃ entry ∈ decidedData.aggregators.toList, entry.validatorIndex = index ∧
        ∃ attestation, decidedAttestation spec decidedData entry = some attestation ∧
          attestation.data.slot = slot
  contributions_iff : ∀ index subcommittee,
    (∃! request, ((index, subcommittee), request) ∈ worklist.contributions) ↔
    (∃ validator, state.Local committeeId index validator) ∧
      (∃ entry ∈ decidedData.contributors.toList, entry.validatorIndex = index ∧
        entry.committeeIndex = subcommittee) ∧
      ∃ contribution, decidedData.syncCommitteeContributions.toList.find?
          (·.subcommitteeIndex == subcommittee) = some contribution ∧ contribution.slot = slot
  aggregate_ok : ∀ index request, (index, request) ∈ worklist.aggregates →
    state.Local committeeId index request.validator ∧
    request.dutyData.aggregatorIndex = index ∧ request.dutyData.aggregate.data.slot = slot ∧
    request.signingRoot = spec.aggregateSigningRoot request.dutyData
      (spec.getDomain (spec.epoch slot) .aggregateAndProof)
  contribution_ok : ∀ index subcommittee request,
    ((index, subcommittee), request) ∈ worklist.contributions →
    state.Local committeeId index request.validator ∧
    request.dutyData.aggregatorIndex = index ∧ request.dutyData.contribution.slot = slot ∧
    request.dutyData.contribution.subcommitteeIndex = subcommittee ∧
    request.signingRoot = spec.contributionSigningRoot request.dutyData
      (spec.getDomain (spec.epoch slot) .contributionAndProof)
  atMostFive : ∀ index,
    (worklist.aggregates.rows.filter (·.1 = index)).length +
      (worklist.contributions.rows.filter (·.1.1 = index)).length ≤ 5

section Build

variable (horder : state.Enumerates committeeId order)

include horder

theorem isSome_decidedAggregate_iff {entry : AssignedAggregator}
    (hentry : entry ∈ decidedData.aggregators.toList) :
    (state.decidedAggregate spec order decidedData slot entry).isSome = true ↔
      (∃ validator, state.Local committeeId entry.validatorIndex validator) ∧
        ∃ attestation, decidedAttestation spec decidedData entry = some attestation ∧
          attestation.data.slot = slot := by
  have hmem : entry.validatorIndex ∈ decidedIndices decidedData :=
    List.mem_map_of_mem (List.mem_append_left _ hentry)
  rw [← Database.NetworkState.exists_locals_iff horder hmem, Option.isSome_iff_exists]
  simp only [Database.NetworkState.decidedAggregate_eq_some]
  constructor
  · rintro ⟨request, attestation, hattestation, hslot, -, hlocal, -⟩
    exact ⟨⟨_, hlocal⟩, attestation, hattestation, hslot⟩
  · rintro ⟨⟨validator, hlocal⟩, attestation, hattestation, hslot⟩
    let message : AggregateAndProof := ⟨entry.validatorIndex, attestation, entry.selectionProof⟩
    exact ⟨⟨⟨validator, spec.aggregateSigningRoot message _⟩, message⟩, attestation, hattestation,
      hslot, rfl, hlocal, rfl⟩

theorem isSome_decidedContribution_iff {entry : AssignedAggregator}
    (hentry : entry ∈ decidedData.contributors.toList) :
    (state.decidedContribution spec order decidedData slot entry).isSome = true ↔
      (∃ validator, state.Local committeeId entry.validatorIndex validator) ∧
        ∃ contribution, decidedData.syncCommitteeContributions.toList.find?
          (·.subcommitteeIndex == entry.committeeIndex) = some contribution ∧
            contribution.slot = slot := by
  have hmem : entry.validatorIndex ∈ decidedIndices decidedData :=
    List.mem_map_of_mem (List.mem_append_right _ hentry)
  rw [← Database.NetworkState.exists_locals_iff horder hmem, Option.isSome_iff_exists]
  simp only [Database.NetworkState.decidedContribution_eq_some]
  constructor
  · rintro ⟨request, contribution, hcontribution, hslot, -, hlocal, -⟩
    exact ⟨⟨_, hlocal⟩, contribution, hcontribution, hslot⟩
  · rintro ⟨⟨validator, hlocal⟩, contribution, hcontribution, hslot⟩
    let message : ContributionAndProof :=
      ⟨entry.validatorIndex, contribution, entry.selectionProof⟩
    exact ⟨⟨⟨validator, spec.contributionSigningRoot message _⟩, message⟩, contribution,
      hcontribution, hslot, rfl, hlocal, rfl⟩

theorem faithful_buildDecidedWorklist :
    (state.buildDecidedWorklist spec order decidedData slot).Faithful spec state committeeId order
      decidedData slot where
  aggregates_first index request := FirstWins.mem_collect_iff
  contributions_first key request := FirstWins.mem_collect_iff
  aggregates_iff index := by
    refine FirstWins.existsUnique_mem_collect_iff.trans ?_
    constructor
    · rintro ⟨entry, hentry, rfl, hsome⟩
      obtain ⟨hlocal, hattestation⟩ := (isSome_decidedAggregate_iff horder hentry).mp hsome
      exact ⟨hlocal, entry, hentry, rfl, hattestation⟩
    · rintro ⟨hlocal, entry, hentry, rfl, hattestation⟩
      exact ⟨entry, hentry, rfl,
        (isSome_decidedAggregate_iff horder hentry).mpr ⟨hlocal, hattestation⟩⟩
  contributions_iff index subcommittee := by
    refine FirstWins.existsUnique_mem_collect_iff.trans ?_
    constructor
    · rintro ⟨entry, hentry, hkey, hsome⟩
      cases hkey
      obtain ⟨hlocal, hcontribution⟩ := (isSome_decidedContribution_iff horder hentry).mp hsome
      exact ⟨hlocal, ⟨entry, hentry, rfl, rfl⟩, hcontribution⟩
    · rintro ⟨hlocal, ⟨entry, hentry, rfl, rfl⟩, hcontribution⟩
      exact ⟨entry, hentry, rfl,
        (isSome_decidedContribution_iff horder hentry).mpr ⟨hlocal, hcontribution⟩⟩
  aggregate_ok index request h := by
    obtain ⟨before, entry, after, -, rfl, hresolve, -⟩ := FirstWins.mem_collect_iff.mp h
    obtain ⟨attestation, -, hslot, hdata, hlocal, hroot⟩ :=
      Database.NetworkState.decidedAggregate_eq_some.mp hresolve
    refine ⟨Database.NetworkState.local_of_locals horder hlocal, ?_, ?_, hroot⟩
    · rw [hdata]
    · rw [hdata]
      exact hslot
  contribution_ok index subcommittee request h := by
    obtain ⟨before, entry, after, -, hkey, hresolve, -⟩ := FirstWins.mem_collect_iff.mp h
    cases hkey
    obtain ⟨contribution, hfound, hslot, hdata, hlocal, hroot⟩ :=
      Database.NetworkState.decidedContribution_eq_some.mp hresolve
    refine ⟨Database.NetworkState.local_of_locals horder hlocal, ?_, ?_, ?_, hroot⟩
    · rw [hdata]
    · rw [hdata]
      exact hslot
    · rw [hdata]
      simpa using List.find?_some hfound
  atMostFive index := by
    have hone := Table.length_filter_le
      (state.buildDecidedWorklist spec order decidedData slot).aggregates (·.1 = index) [index]
      fun r _ hr => by simpa using hr
    have hfour := Table.length_filter_le
      (state.buildDecidedWorklist spec order decidedData slot).contributions (·.1.1 = index)
      (decidedData.syncCommitteeContributions.toList.map
        fun contribution => (index, contribution.subcommitteeIndex))
      fun r hr hindex => by
        obtain ⟨⟨i, subcommittee⟩, request⟩ := r
        obtain rfl : i = index := by simpa using hindex
        obtain ⟨before, entry, after, -, hkey, hresolve, -⟩ := FirstWins.mem_collect_iff.mp hr
        obtain ⟨contribution, hfound, -⟩ :=
          Database.NetworkState.decidedContribution_eq_some.mp hresolve
        cases hkey
        have hsub : contribution.subcommitteeIndex = entry.committeeIndex := by
          simpa using List.find?_some hfound
        exact List.mem_map.mpr ⟨contribution, List.mem_of_find?_eq_some hfound, by rw [hsub]⟩
    have hbound := decidedData.syncCommitteeContributions.length_le
    rw [List.length_map] at hfour
    rw [List.length_singleton] at hone
    omega

end Build

namespace Database.NetworkState

theorem map_request_prepareRoots {K M : Type} (requests : List (K × DutyRequest C M))
    (batchSize : ℕ) (baseHash : Hash256) (cluster : Cluster C) (slot : ℕ) :
    (prepareRoots requests batchSize baseHash cluster slot).map (fun e => (e.1, e.2.request)) =
      requests := by
  rw [prepareRoots, List.map_map]
  exact List.map_id requests

theorem collection_prepareRoots {K M : Type} {requests : List (K × DutyRequest C M)}
    {batchSize : ℕ} {baseHash : Hash256} {cluster : Cluster C} {slot : ℕ}
    {e : K × PreparedRoot C M} (he : e ∈ prepareRoots requests batchSize baseHash cluster slot) :
    e.2.collection = ⟨batchSize, baseHash, e.2.request.validator, cluster, e.2.request.signingRoot,
      slot⟩ := by
  obtain ⟨request, -, rfl⟩ := List.mem_map.mp he
  rfl

end Database.NetworkState

/-- The worklist of an accepted value holds one root for each identity that can be signed,
namely that of its first entry that resolves, only for local validators, at most five for
each of them, and for objects of the duty's slot with the index of their validator.  In an
accepted value only the slot can keep the entry of a local validator from resolving.  Every
entry of the worklist gets one collection, and the batch size is their number. -/
theorem decided_worklist_faithful {ourData : AggregatorCommitteeConsensusData}
    (horder : state.Enumerates committeeId order)
    (hvalid : AggregatorCommitteeDataValidator.validate spec decidedData ourData = true) :
    (state.buildDecidedWorklist spec order decidedData slot).Faithful spec state committeeId order
      decidedData slot ∧
    (∀ aggregator ∈ decidedData.aggregators.toList,
      ∃ attestation, decidedAttestation spec decidedData aggregator = some attestation) ∧
    (∀ contributor ∈ decidedData.contributors.toList, ∃ contribution ∈
      decidedData.syncCommitteeContributions.toList,
        contribution.subcommitteeIndex = contributor.committeeIndex) ∧
    ∀ {ε : Type} (hash : AggregatorCommitteeConsensusData → Hash256)
      (before : Database.NetworkState C) (orderBefore : List PublicKeyBytes)
      (consensus : Cluster C → Except ε AggregatorCommitteeConsensusData) (cluster : Cluster C),
      before.committeeCluster orderBefore = some cluster → consensus cluster = .ok decidedData →
      ∃ outcome, Database.NetworkState.runAggregatorPostConsensus spec hash before state
          orderBefore order slot ourData consensus = .ok outcome ∧
        outcome.aggregates.map (fun e => (e.1, e.2.request)) =
          (state.buildDecidedWorklist spec order decidedData slot).aggregates.rows ∧
        outcome.contributions.map (fun e => (e.1, e.2.request)) =
          (state.buildDecidedWorklist spec order decidedData slot).contributions.rows ∧
        (∀ e ∈ outcome.aggregates, e.2.collection = ⟨outcome.collections.length, hash decidedData,
          e.2.request.validator, cluster, e.2.request.signingRoot, slot⟩) ∧
        ∀ e ∈ outcome.contributions, e.2.collection = ⟨outcome.collections.length,
          hash decidedData, e.2.request.validator, cluster, e.2.request.signingRoot, slot⟩ := by
  have hok : doValidation spec decidedData = .ok () := by
    unfold AggregatorCommitteeDataValidator.validate at hvalid
    split_ifs at hvalid
    cases hresult : doValidation spec decidedData with
    | error e =>
      rw [hresult] at hvalid
      cases hvalid
    | ok u => rfl
  obtain ⟨haggregators, hcontributors⟩ := exists_of_doValidation hok
  refine ⟨faithful_buildDecidedWorklist horder, haggregators, hcontributors, ?_⟩
  intro ε hash before orderBefore consensus cluster hcluster hconsensus
  simp only [Database.NetworkState.runAggregatorPostConsensus, hcluster, hconsensus]
  refine ⟨_, rfl,
    Database.NetworkState.map_request_prepareRoots _ _ _ _ _,
    Database.NetworkState.map_request_prepareRoots _ _ _ _ _, ?_, ?_⟩
  · intro e he
    rw [Database.NetworkState.collection_prepareRoots he]
    simp [AggregatorPostConsensusOutcome.collections, Database.NetworkState.prepareRoots]
  · intro e he
    rw [Database.NetworkState.collection_prepareRoots he]
    simp [AggregatorPostConsensusOutcome.collections, Database.NetworkState.prepareRoots]

end Worklist

namespace Sample

def ethSpec : EthSpec where
  slotsPerEpoch := 8
  forkNameAtSlot _ := .electra
  getDomain _ _ := Hash256.default
  signingData root _ := root
  aggregateAndProofRoot _ := Hash256.default
  contributionAndProofRoot _ := Hash256.default
  blindedBlock _ _ := none
  fullBlock _ _ := none
  gloasProposal _ := none
  attestation shape bytes := bytes.head?.map fun b =>
    ⟨⟨shape, ⟨b.toNat, 0, Hash256.default, ⟨0, Hash256.default⟩, ⟨0, Hash256.default⟩⟩, []⟩, rfl⟩
  aggregateAndProof _ _ := none
  contributions _ := none

theorem length_proof : (List.replicate 96 (7 : UInt8)).length = 96 := rfl

def assigned (validatorIndex committeeIndex : UInt64) : AssignedAggregator :=
  ⟨validatorIndex, ⟨List.replicate 96 7, length_proof⟩, committeeIndex⟩

/-- The first validator aggregates in two beacon committees, of which the first has an
attestation of another slot, and contributes twice in one subcommittee; an unknown validator
aggregates as well. -/
def decidedValue : AggregatorCommitteeConsensusData where
  version := ⟨.electra⟩
  aggregators := ⟨[assigned 0 3, assigned 0 4, assigned 7 4], by decide⟩
  aggregatorCommitteeIndexes := ⟨[3, 4], by decide⟩
  aggregatedAttestations := ⟨[⟨[6], by decide⟩, ⟨[5], by decide⟩], by decide⟩
  contributors := ⟨[assigned 0 2, assigned 0 2], by decide⟩
  syncCommitteeContributions :=
    ⟨[⟨5, Hash256.default, 2, [], ⟨List.replicate 96 7, length_proof⟩⟩], by decide⟩

theorem decided_worklist_sample :
    (twoValidators.buildDecidedWorklist ethSpec [pubkeyOf 8, pubkeyOf 9] decidedValue
      5).Faithful ethSpec twoValidators Hash256.default [pubkeyOf 8, pubkeyOf 9] decidedValue 5 ∧
    (twoValidators.buildDecidedWorklist ethSpec [pubkeyOf 8, pubkeyOf 9] decidedValue
      5).aggregates.rows.map Prod.fst = [0] := by
  have horder : twoValidators.Enumerates Hash256.default [pubkeyOf 8, pubkeyOf 9] := by
    have hset : twoValidators.metadata.present
        (twoValidators.metadata.quaternary Hash256.default) = {pubkeyOf 8, pubkeyOf 9} := by
      decide +kernel
    intro pubkey
    rw [hset]
    simp
  have hvalid : AggregatorCommitteeDataValidator.validate ethSpec decidedValue decidedValue =
      true := by
    decide +kernel
  exact ⟨(decided_worklist_faithful horder hvalid).1, by decide +kernel⟩

end Sample

end Anchor
