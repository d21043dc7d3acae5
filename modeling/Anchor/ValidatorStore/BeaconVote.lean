import Mathlib
import Anchor.Library.Checks
import Anchor.Qbft.Simulation
import Anchor.SsvTypes.Consensus

/-!
# The votes that committees agree on

The operators of a committee agree on one vote for all its attesters.  Each of them checks a
proposed vote against its own one and against what its attesters have signed before.
-/

namespace Anchor

open Ssz

structure BeaconVote where
  blockRoot : Hash256
  source : Checkpoint
  target : Checkpoint
deriving DecidableEq

structure GloasBeaconVote extends BeaconVote where
  attestationDataIndex : UInt64
deriving DecidableEq

inductive BeaconVoteValidationError (NotSafe : Type) where
  | farFutureTargetEpoch (current target : ℕ)
  | targetNotAfterSource (source target : ℕ)
  | checkpointMismatch (ours proposed : Checkpoint × Checkpoint)
  | epochMismatch (ours proposed : ℕ × ℕ)
  | slashableAttestation (reason : NotSafe)
  | indexOutOfRange (index : UInt64)
  | sameSlotFullIndex (blockRoot : Hash256)
deriving DecidableEq

/-- The slashing database is left out if protection is disabled.  The attesters come in the order
in which their map is iterated. -/
structure BeaconVoteValidator (NotSafe : Type) where
  slot : ℕ
  slotsPerEpoch : ℕ
  attesterDomain : ℕ → Hash256
  slashingDatabase : Option (PublicKeyBytes → AttestationData → Hash256 → Except NotSafe Unit)
  validatorAttestationCommittees : List (PublicKeyBytes × UInt64)
  strictMfp : Bool

namespace BeaconVoteValidator

variable {NotSafe : Type} (v : BeaconVoteValidator NotSafe) (value ourValue : BeaconVote)

def epoch : ℕ := v.slot / v.slotsPerEpoch

def checkEpochs : Except (BeaconVoteValidationError NotSafe) Unit := do
  Checks.require (value.target.epoch ≤ v.epoch + 1)
    (.farFutureTargetEpoch v.epoch value.target.epoch)
  Checks.require (value.source.epoch < value.target.epoch ∨
      value.source.epoch = 0 ∧ value.target.epoch = 0)
    (.targetNotAfterSource value.source.epoch value.target.epoch)

/-- `strict_majority_fork_protection` or `epoch_majority_fork_protection`. -/
def majorityForkProtection : Except (BeaconVoteValidationError NotSafe) Unit :=
  if v.strictMfp then
    Checks.require (value.source = ourValue.source ∧ value.target = ourValue.target)
      (.checkpointMismatch (ourValue.source, ourValue.target) (value.source, value.target))
  else
    Checks.require (value.source.epoch = ourValue.source.epoch ∧
        value.target.epoch = ourValue.target.epoch)
      (.epochMismatch (ourValue.source.epoch, ourValue.target.epoch)
        (value.source.epoch, value.target.epoch))

def attestationData (index : UInt64) : AttestationData :=
  ⟨v.slot, index, value.blockRoot, value.source, value.target⟩

/-- The index is that of the committee of an attester or, from Gloas on, the decided one. -/
def checkAttestationSlashing (index : UInt64 → UInt64) :
    Except (BeaconVoteValidationError NotSafe) Unit :=
  match v.slashingDatabase with
  | none => .ok ()
  | some preliminaryCheckAttestation =>
    Checks.forEach (fun attester =>
      (preliminaryCheckAttestation attester.1 (v.attestationData value (index attester.2))
        (v.attesterDomain v.epoch)).mapError .slashableAttestation)
      v.validatorAttestationCommittees

def doValidation : Except (BeaconVoteValidationError NotSafe) Unit := do
  v.checkEpochs value
  v.majorityForkProtection value ourValue
  v.checkAttestationSlashing value id

def validate : Bool := (v.doValidation value ourValue).isOk

end BeaconVoteValidator

structure GloasBeaconVoteValidator (NotSafe : Type) extends BeaconVoteValidator NotSafe where
  /-- The root of a head known to have the slot of the vote. -/
  sameSlotHeadRoot : Option Hash256

namespace GloasBeaconVoteValidator

variable {NotSafe : Type} (v : GloasBeaconVoteValidator NotSafe) (value ourValue : GloasBeaconVote)

def doValidation : Except (BeaconVoteValidationError NotSafe) Unit := do
  v.checkEpochs value.toBeaconVote
  Checks.require (value.attestationDataIndex < 2) (.indexOutOfRange value.attestationDataIndex)
  Checks.require (¬ (value.attestationDataIndex = 1 ∧ v.sameSlotHeadRoot = some value.blockRoot))
    (.sameSlotFullIndex value.blockRoot)
  v.majorityForkProtection value.toBeaconVote ourValue.toBeaconVote
  v.checkAttestationSlashing value.toBeaconVote fun _ => value.attestationDataIndex

def validate : Bool := (v.doValidation value ourValue).isOk

end GloasBeaconVoteValidator

/-! ## Accepted votes -/

namespace BeaconVoteValidator

variable {NotSafe : Type} {v : BeaconVoteValidator NotSafe} {value ourValue : BeaconVote}

/-- A vote for the epochs of the own one, in order, that no attester has a reason not to sign. -/
structure Safe (v : BeaconVoteValidator NotSafe) (index : UInt64 → UInt64)
    (value ourValue : BeaconVote) : Prop where
  target_le : value.target.epoch ≤ v.epoch + 1
  ordered : value.source.epoch < value.target.epoch ∨
    value.source.epoch = 0 ∧ value.target.epoch = 0
  source_eq : value.source.epoch = ourValue.source.epoch
  target_eq : value.target.epoch = ourValue.target.epoch
  strict : v.strictMfp = true → value.source = ourValue.source ∧ value.target = ourValue.target
  unslashable : ∀ check, v.slashingDatabase = some check →
    ∀ attester ∈ v.validatorAttestationCommittees,
      check attester.1 (v.attestationData value (index attester.2)) (v.attesterDomain v.epoch) =
        .ok ()

theorem safe_of_checks {index : UInt64 → UInt64} (hepochs : v.checkEpochs value = .ok ())
    (hfork : v.majorityForkProtection value ourValue = .ok ())
    (hslashing : v.checkAttestationSlashing value index = .ok ()) :
    v.Safe index value ourValue := by
  simp only [checkEpochs, Checks.bind_eq_ok, Checks.require_eq_ok_iff] at hepochs
  obtain ⟨-, htarget, hordered⟩ := hepochs
  have hsame : (value.source.epoch = ourValue.source.epoch ∧
      value.target.epoch = ourValue.target.epoch) ∧
      (v.strictMfp = true → value.source = ourValue.source ∧ value.target = ourValue.target) := by
    unfold majorityForkProtection at hfork
    split_ifs at hfork with hstrict
    · rw [Checks.require_eq_ok_iff] at hfork
      exact ⟨⟨by rw [hfork.1], by rw [hfork.2]⟩, fun _ => hfork⟩
    · exact ⟨Checks.require_eq_ok_iff.mp hfork, fun h => absurd h hstrict⟩
  refine ⟨htarget, hordered, hsame.1.1, hsame.1.2, hsame.2, fun check hcheck attester hmem => ?_⟩
  unfold checkAttestationSlashing at hslashing
  rw [hcheck] at hslashing
  exact Checks.mapError_eq_ok_iff.mp (Checks.forEach_eq_ok_iff.mp hslashing attester hmem)

theorem safe_of_validate (h : v.validate value ourValue = true) : v.Safe id value ourValue := by
  rw [validate, Checks.isOk_iff, doValidation] at h
  simp only [Checks.bind_unit_eq_ok] at h
  obtain ⟨hepochs, hfork, hslashing⟩ := h
  exact safe_of_checks hepochs hfork hslashing

end BeaconVoteValidator

theorem GloasBeaconVoteValidator.safe_of_validate {NotSafe : Type}
    {v : GloasBeaconVoteValidator NotSafe} {value ourValue : GloasBeaconVote}
    (h : v.validate value ourValue = true) :
    v.Safe (fun _ => value.attestationDataIndex) value.toBeaconVote ourValue.toBeaconVote ∧
      value.attestationDataIndex < 2 ∧
      ¬ (value.attestationDataIndex = 1 ∧ v.sameSlotHeadRoot = some value.blockRoot) := by
  rw [validate, Checks.isOk_iff, doValidation] at h
  simp only [Checks.bind_unit_eq_ok, Checks.require_eq_ok_iff] at h
  obtain ⟨hepochs, hindex, hhead, hfork, hslashing⟩ := h
  exact ⟨BeaconVoteValidator.safe_of_checks hepochs hfork hslashing, hindex, hhead⟩

/-! ## Votes of an instance -/

section Instance

variable {F K NotSafe : Type} [LeaderFunction F] (ctx : ValidationContext K)

/-- Whatever a leader proposes, an instance only ever holds its own vote or a vote with the same
source and target epochs that passed the slashing check for every attester, before and after
Gloas. -/
theorem held_votes_safe [QbftData BeaconVote] [QbftData GloasBeaconVote] :
    (∀ (v : BeaconVoteValidator NotSafe) (q : Qbft F BeaconVote), Qbft.Reachable ctx q →
      q.dataValidator = v.validate → ∀ hash value, q.data hash = some value →
        value = q.startData ∨ v.Safe id value q.startData) ∧
    ∀ (v : GloasBeaconVoteValidator NotSafe) (q : Qbft F GloasBeaconVote),
      Qbft.Reachable ctx q → q.dataValidator = v.validate →
      ∀ hash value, q.data hash = some value → value = q.startData ∨
        v.Safe (fun _ => value.attestationDataIndex) value.toBeaconVote
          q.startData.toBeaconVote ∧ value.attestationDataIndex < 2 ∧
        ¬ (value.attestationDataIndex = 1 ∧ v.sameSlotHeadRoot = some value.blockRoot) := by
  constructor
  · intro v q hq hvalidator hash value hvalue
    refine (hq.grounded.data_valid hvalue).imp_right fun hvalid => ?_
    rw [hvalidator] at hvalid
    exact BeaconVoteValidator.safe_of_validate hvalid
  · intro v q hq hvalidator hash value hvalue
    refine (hq.grounded.data_valid hvalue).imp_right fun hvalid => ?_
    rw [hvalidator] at hvalid
    exact GloasBeaconVoteValidator.safe_of_validate hvalid

end Instance

namespace Sample

def voteBytes (vote : BeaconVote) : Bytes :=
  vote.blockRoot.toList ++ encodeU64 (.ofNat vote.source.epoch) ++ vote.source.root.toList ++
    encodeU64 (.ofNat vote.target.epoch) ++ vote.target.root.toList

def parseVote (bytes : Bytes) : Option BeaconVote := do
  let blockRoot ← FixedBytes.new? (bytes.take 32)
  let sourceEpoch ← decodeU64 ((bytes.drop 32).take 8)
  let sourceRoot ← FixedBytes.new? ((bytes.drop 40).take 32)
  let targetEpoch ← decodeU64 ((bytes.drop 72).take 8)
  let targetRoot ← FixedBytes.new? (bytes.drop 80)
  some ⟨blockRoot, ⟨sourceEpoch.toNat, sourceRoot⟩, ⟨targetEpoch.toNat, targetRoot⟩⟩

instance : QbftData BeaconVote := ⟨voteBytes, parseVote, fun vote => hashData (voteBytes vote)⟩

instance : QbftData GloasBeaconVote where
  asSszBytes vote := voteBytes vote.toBeaconVote ++ encodeU64 vote.attestationDataIndex
  fromSszBytes bytes := do
    let vote ← parseVote (bytes.take 112)
    let index ← decodeU64 (bytes.drop 112)
    some ⟨vote, index⟩
  hash vote := hashData (voteBytes vote.toBeaconVote ++ encodeU64 vote.attestationDataIndex)

theorem length_blockRoot (root : UInt8) : (List.replicate 32 root).length = 32 :=
  List.length_replicate

def beaconVoteOf (root : UInt8) : BeaconVote :=
  ⟨⟨List.replicate 32 root, length_blockRoot root⟩, ⟨0, Hash256.default⟩, ⟨1, Hash256.default⟩⟩

/-- One attester, for whom a vote is slashable if its target is in the first epoch. -/
def voteValidator : GloasBeaconVoteValidator Unit where
  slot := 8
  slotsPerEpoch := 8
  attesterDomain _ := Hash256.default
  slashingDatabase := some fun _ data _ => if data.target.epoch = 0 then .error () else .ok ()
  validatorAttestationCommittees := [(⟨List.replicate 48 0, length_zeroKey⟩, 3)]
  strictMfp := false
  sameSlotHeadRoot := none

/-- Operator 2 holds the vote of operator 1 for another block. -/
theorem held_votes_safe_proposed :
    (∃ q : Qbft DefaultLeaderFunction BeaconVote, Qbft.Reachable ctx q ∧
      q.startData = beaconVoteOf 2 ∧ (∃ hash, q.data hash = some (beaconVoteOf 1)) ∧
      voteValidator.Safe id (beaconVoteOf 1) (beaconVoteOf 2)) ∧
    ∃ q : Qbft DefaultLeaderFunction GloasBeaconVote, Qbft.Reachable ctx q ∧
      q.startData = ⟨beaconVoteOf 2, 0⟩ ∧ (∃ hash, q.data hash = some ⟨beaconVoteOf 1, 1⟩) ∧
      voteValidator.Safe (fun _ => 1) (beaconVoteOf 1) (beaconVoteOf 2) := by
  constructor
  · obtain ⟨q, hq, hstart, hvalidator, hvalue⟩ := exists_reachable_of_firstProposal (beaconVoteOf 2)
      (beaconVoteOf 1) voteValidator.toBeaconVoteValidator.validate
      ⟨voteBytes (beaconVoteOf 1), by decide⟩ (by decide +kernel)
    have hsafe := (held_votes_safe ctx).1 voteValidator.toBeaconVoteValidator q hq hvalidator _ _
      hvalue
    rw [hstart] at hsafe
    exact ⟨q, hq, hstart, ⟨_, hvalue⟩, hsafe.resolve_left (by decide)⟩
  · obtain ⟨q, hq, hstart, hvalidator, hvalue⟩ := exists_reachable_of_firstProposal
      (⟨beaconVoteOf 2, 0⟩ : GloasBeaconVote) ⟨beaconVoteOf 1, 1⟩ voteValidator.validate
      ⟨voteBytes (beaconVoteOf 1) ++ encodeU64 1, by decide⟩ (by decide +kernel)
    have hsafe := (held_votes_safe ctx).2 voteValidator q hq hvalidator _ _ hvalue
    rw [hstart] at hsafe
    exact ⟨q, hq, hstart, ⟨_, hvalue⟩, (hsafe.resolve_left (by decide)).1⟩

end Sample

end Anchor
