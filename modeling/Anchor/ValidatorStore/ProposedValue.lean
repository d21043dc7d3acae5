import Mathlib
import Anchor.Qbft.Simulation
import Anchor.ValidatorStore.AggregatorPostConsensus

/-!
# The values of a single validator that an instance holds

Whoever leads, a value that an operator takes over from others is one for its own duty, and a block
in it is one that the operator may sign.
-/

namespace Anchor

open Ssz

theorem GloasProposalData.selfBuild_iff {proposal : GloasProposalData}
    (h : proposal.validatePayloadRoot = .ok ()) :
    proposal.block.bid.builderIndex = builderIndexSelfBuild ↔
      proposal.payloadRoot ≠ Hash256.default := by
  simp only [validatePayloadRoot] at h
  split_ifs at h with hsame
  rw [decide_eq_decide] at hsame
  tauto

namespace ProposerConsensusDataValidator

variable {NotSafe : Type}

/-- A block of the fork, the slot and, from Gloas on, the proposer of the duty, to which the
slashing database does not object. -/
structure Signable (validator : ProposerConsensusDataValidator NotSafe)
    (value : ProposerConsensusData) (header : BeaconBlockHeader) : Prop where
  decoded : validator.decodeHeader value = .ok header
  fork_eq : value.version.name = validator.spec.forkNameAtSlot value.duty.slot
  slot_eq : header.slot = value.duty.slot
  proposer_eq : .gloas ≤ value.version.name → header.proposerIndex = value.duty.validatorIndex
  payload : .gloas ≤ value.version.name → ∃ proposal,
    value.decodeGloasProposal validator.spec = .ok proposal ∧ proposal.block.header = header ∧
      (proposal.block.bid.builderIndex = builderIndexSelfBuild ↔
        proposal.payloadRoot ≠ Hash256.default)
  unslashable : validator.disableSlashingProtection = false →
    validator.preliminaryCheckBlockProposal validator.validatorPubkey header
      (validator.spec.getDomain (validator.spec.epoch header.slot) .beaconProposer) = .ok ()

def Readable (validator : ProposerConsensusDataValidator NotSafe)
    (value : ProposerConsensusData) : Prop :=
  value.version.wireShape =
      (DataVersion.mk (validator.spec.forkNameAtSlot value.duty.slot)).wireShape ∧
    ∃ aggregate, value.version.decodeAggregateAndProof validator.spec value.dataSsz.toList =
      .ok aggregate

/-- A value for the own duty, with a block that may be signed if that is the duty. -/
structure Bound (validator : ProposerConsensusDataValidator NotSafe)
    (value ourValue : ProposerConsensusData) : Prop where
  slot_eq : value.duty.slot = ourValue.duty.slot
  type_eq : value.duty.type = ourValue.duty.type
  pubKey_eq : value.duty.pubKey = ourValue.duty.pubKey
  validatorIndex_eq : value.duty.validatorIndex = ourValue.duty.validatorIndex
  block : value.duty.type = beaconRoleProposer → ∃ header, validator.Signable value header
  aggregate : value.duty.type = beaconRoleAggregator → validator.Readable value

variable {validator : ProposerConsensusDataValidator NotSafe}
  {value ourValue : ProposerConsensusData} {header : BeaconBlockHeader}

theorem payload_of_decodeHeader (h : validator.decodeHeader value = .ok header)
    (hgloas : .gloas ≤ value.version.name) : ∃ proposal,
    value.decodeGloasProposal validator.spec = .ok proposal ∧ proposal.block.header = header ∧
      (proposal.block.bid.builderIndex = builderIndexSelfBuild ↔
        proposal.payloadRoot ≠ Hash256.default) := by
  rw [decodeHeader, if_pos hgloas] at h
  obtain ⟨proposal, hproposal, hheader⟩ := Checks.bind_eq_ok.mp h
  refine ⟨proposal, hproposal, Except.ok.inj hheader, ?_⟩
  simp only [ProposerConsensusData.decodeGloasProposal, Checks.bind_eq_ok] at hproposal
  obtain ⟨_, -, _, -, _, hroot, heq⟩ := hproposal
  cases heq
  exact GloasProposalData.selfBuild_iff hroot

theorem exists_signable (h : validator.validateBlockProposal value = .ok ()) :
    ∃ header, validator.Signable value header := by
  simp only [validateBlockProposal, Checks.bind_eq_ok, Checks.require_eq_ok_iff,
    Checks.mapError_eq_ok_iff] at h
  obtain ⟨_, hfork, header, hdecoded, _, hslot, _, hproposer, hslashing⟩ := h
  refine ⟨header, hdecoded, hfork, hslot, hproposer, payload_of_decodeHeader hdecoded, ?_⟩
  intro henabled
  rwa [if_neg (by simp [henabled]), Checks.mapError_eq_ok_iff] at hslashing

theorem readable_of_validateAggregate (h : validator.validateAggregate value = .ok ()) :
    validator.Readable value := by
  simp only [validateAggregate, Checks.bind_eq_ok, Checks.require_eq_ok_iff,
    Checks.mapError_eq_ok_iff] at h
  obtain ⟨_, hexpected, _, hproposed, _, hsame, aggregate, hdecoded, -⟩ := h
  exact ⟨by rw [hproposed, hexpected, hsame], aggregate, hdecoded⟩

theorem bound_of_validate (h : validator.validate value ourValue = true) :
    validator.Bound value ourValue := by
  rw [validate, Checks.isOk_iff, doValidation] at h
  simp only [Checks.bind_unit_eq_ok, Checks.require_eq_ok_iff] at h
  obtain ⟨hslot, htype, hkey, hindex, hvalue⟩ := h
  refine ⟨hslot, htype, hkey, hindex, fun hproposer => exists_signable ?_,
    fun haggregator => readable_of_validateAggregate ?_⟩
  · rwa [if_neg (by rw [hproposer]; decide), if_pos hproposer] at hvalue
  · rwa [if_pos haggregator] at hvalue

end ProposerConsensusDataValidator

/-- Whatever a leader proposes, the instance of a validator's duty only ever holds its own value or
one for the same duty, with a block that the operator may sign if the duty is to propose one. -/
theorem held_values_bound {F K NotSafe : Type} [LeaderFunction F] [QbftData ProposerConsensusData]
    (ctx : ValidationContext K) (validator : ProposerConsensusDataValidator NotSafe)
    (q : Qbft F ProposerConsensusData) (hq : Qbft.Reachable ctx q)
    (hvalidator : q.dataValidator = validator.validate) (hash : Hash256)
    (value : ProposerConsensusData) (hvalue : q.data hash = some value) :
    value = q.startData ∨ validator.Bound value q.startData := by
  refine (hq.grounded.data_valid hvalue).imp_right fun hvalid => ?_
  rw [hvalidator] at hvalid
  exact ProposerConsensusDataValidator.bound_of_validate hvalid

namespace Sample

/-- Values of one duty, which differ in the bytes of their block. -/
def valueOf (dataSsz : VariableList UInt8 (2 ^ 23)) : ProposerConsensusData :=
  ⟨⟨beaconRoleProposer, ⟨List.replicate 48 0, length_zeroKey⟩, 8, 0, 0, 0, 0, 0,
    VariableList.empty⟩, ⟨.electra⟩, dataSsz⟩

instance : QbftData ProposerConsensusData :=
  ⟨fun value => value.dataSsz.toList, fun bytes => (VariableList.new? bytes).map valueOf,
    fun value => hashData value.dataSsz.toList⟩

/-- The bytes of a block are its slot and its proposer. -/
def blockSpec : EthSpec :=
  { ethSpec with
    fullBlock := fun fork bytes =>
      match bytes with
      | [slot, proposer] =>
        if h : fork.gloasEnabled = false then
          some ⟨⟨fork, ⟨slot.toNat, proposer.toUInt64, Hash256.default, Hash256.default,
            Hash256.default⟩, none, h.symm⟩, rfl⟩
        else none
      | _ => none }

def proposerValidator : ProposerConsensusDataValidator Unit :=
  ⟨fun _ header _ => if header.slot = 0 then .error () else .ok (), false, blockSpec,
    ⟨List.replicate 48 0, length_zeroKey⟩⟩

/-- Operator 2 has no block of its own and holds the one of operator 1. -/
theorem held_values_bound_proposed : ∃ q : Qbft DefaultLeaderFunction ProposerConsensusData,
    Qbft.Reachable ctx q ∧ q.startData = valueOf VariableList.empty ∧
      (∃ hash, q.data hash = some (valueOf ⟨[8, 5], by decide⟩)) ∧
      proposerValidator.Bound (valueOf ⟨[8, 5], by decide⟩) (valueOf VariableList.empty) := by
  obtain ⟨q, hq, hstart, hvalidator, hvalue⟩ := exists_reachable_of_firstProposal
    (valueOf VariableList.empty) (valueOf ⟨[8, 5], by decide⟩) proposerValidator.validate
    ⟨[8, 5], by decide⟩ (by decide +kernel)
  have hbound := held_values_bound ctx proposerValidator q hq hvalidator _ _ hvalue
  rw [hstart] at hbound
  exact ⟨q, hq, hstart, ⟨_, hvalue⟩, hbound.resolve_left (by decide)⟩

end Sample

end Anchor
