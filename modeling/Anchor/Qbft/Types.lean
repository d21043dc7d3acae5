import Mathlib
import Anchor.SsvTypes.Message

/-!
# Types of the QBFT crate

Leader selection, the configuration of an instance, the messages it exchanges
with its surroundings and the errors it reports.  A `Config` carries what the
builder checked, so an instance is never built over an invalid committee.
-/

namespace Anchor

open Ssz

class QbftData (D : Type) where
  asSszBytes : D → Bytes
  fromSszBytes : Bytes → Option D
  hash : D → Hash256

/-- SSZ decoding of the data is canonical, and its hash is the digest of its encoding. -/
structure QbftData.Lawful (D : Type) [QbftData D] (hashData : Bytes → Hash256) : Prop where
  fromSszBytes_asSszBytes : ∀ d : D, fromSszBytes (asSszBytes d) = some d
  asSszBytes_of_fromSszBytes : ∀ {bs : Bytes} {d : D}, fromSszBytes bs = some d → asSszBytes d = bs
  fromSszBytes_nil : (fromSszBytes [] : Option D) = none
  hash_eq : ∀ d : D, hash d = hashData (asSszBytes d)

namespace QbftData.Lawful

variable {D : Type} [QbftData D] {hashData : Bytes → Hash256}

theorem asSszBytes_ne_nil (h : Lawful D hashData) (d : D) : asSszBytes d ≠ [] := by
  intro hnil
  have hd := h.fromSszBytes_asSszBytes d
  rw [hnil, h.fromSszBytes_nil] at hd
  cases hd

theorem hash_of_fromSszBytes (h : Lawful D hashData) {bs : Bytes} {d : D}
    (hd : fromSszBytes bs = some d) : hash d = hashData bs := by
  rw [h.hash_eq, h.asSszBytes_of_fromSszBytes hd]

theorem ne_nil_of_fromSszBytes (h : Lawful D hashData) {bs : Bytes} {d : D}
    (hd : fromSszBytes bs = some d) : bs ≠ [] := by
  rintro rfl
  rw [h.fromSszBytes_nil] at hd
  cases hd

end QbftData.Lawful

/-! ## Leader selection -/

class LeaderFunction (F : Type) where
  leaderFunction : F → OperatorId → Round → UInt64 → IndexSet OperatorId → Bool
  /-- A round has at most one leader. -/
  leader_unique : ∀ {f : F} {a b : OperatorId} {round : Round} {height : UInt64}
    {committee : IndexSet OperatorId}, leaderFunction f a round height committee = true →
      leaderFunction f b round height committee = true → a = b

structure DefaultLeaderFunction where
  slotsPerEpoch : UInt64
  slotsPerEpoch_ne_zero : slotsPerEpoch ≠ 0
  includeEpochShift : Bool

namespace DefaultLeaderFunction

/-- The leader; `none` only for an empty committee.  The sum is a machine word. -/
def leader (f : DefaultLeaderFunction) (round : Round) (height : UInt64)
    (committee : IndexSet OperatorId) : Option OperatorId :=
  let sortedCommittee := committee.toList.insertionSort (· ≤ ·)
  let ethEpoch := if f.includeEpochShift then height.toNat / f.slotsPerEpoch.toNat else 0
  let index :=
    (round.get - Round.default.get + height.toNat + ethEpoch) % 2 ^ 64 % sortedCommittee.length
  sortedCommittee[index]?

instance : LeaderFunction DefaultLeaderFunction where
  leaderFunction f operatorId round height committee :=
    decide (f.leader round height committee = some operatorId)
  leader_unique ha hb :=
    Option.some.inj ((of_decide_eq_true ha).symm.trans (of_decide_eq_true hb))

end DefaultLeaderFunction

/-! ## Configuration -/

inductive ConfigBuilderError where
  | noParticipants
  | zeroMaxRounds
  | exceedingStartingRound
  | invalidCommitteeSize
  | operatorNotParticipant
deriving DecidableEq

structure Config (F : Type) where
  operatorId : OperatorId
  instanceHeight : UInt64
  round : Round
  committeeMembers : IndexSet OperatorId
  maxRounds : ℕ
  leaderFn : F
  operatorId_mem : operatorId ∈ committeeMembers.toList
  isValidCommitteeSize_len : isValidCommitteeSize committeeMembers.len = true
  maxRounds_ne_zero : maxRounds ≠ 0
  round_le : round.get ≤ maxRounds

namespace Config

variable {F : Type} (config : Config F)

def quorumSize : ℕ := Anchor.quorumSize config.committeeMembers.len

def committee : Finset OperatorId := config.committeeMembers.toList.toFinset

def f : ℕ := getF config.committeeMembers.len

theorem card_committee : config.committee.card = 3 * config.f + 1 := by
  rw [committee, IndexSet.card_toFinset]
  exact eq_of_isValidCommitteeSize config.isValidCommitteeSize_len

theorem quorumSize_eq : config.quorumSize = 2 * config.f + 1 := Anchor.quorumSize_eq _

theorem one_le_f : 1 ≤ config.f := by
  have h := config.isValidCommitteeSize_len
  rcases (isValidCommitteeSize_iff _).mp h with h | h | h | h <;> simp [f, h, getF]

theorem card_committee_le : config.committee.card ≤ 13 := by
  rw [committee, IndexSet.card_toFinset]
  rcases (isValidCommitteeSize_iff _).mp config.isValidCommitteeSize_len with h | h | h | h <;>
    omega

end Config

structure ConfigBuilder (F : Type) where
  operatorId : OperatorId
  instanceHeight : UInt64
  committeeMembers : IndexSet OperatorId
  leaderFn : F
  round : Round
  maxRounds : ℕ

namespace ConfigBuilder

variable {F : Type}

def newWithLeaderFn (operatorId : OperatorId) (instanceHeight : UInt64)
    (committeeMembers : IndexSet OperatorId) (leaderFn : F) : ConfigBuilder F :=
  ⟨operatorId, instanceHeight, committeeMembers, leaderFn, Round.default, 4⟩

def withMaxRounds (b : ConfigBuilder F) (maxRounds : ℕ) : ConfigBuilder F :=
  { b with maxRounds := maxRounds }

def build (b : ConfigBuilder F) : Except ConfigBuilderError (Config F) :=
  if b.committeeMembers.len = 0 then .error .noParticipants
  else if hmem : b.operatorId ∈ b.committeeMembers.toList then
    if hsize : isValidCommitteeSize b.committeeMembers.len = true then
      if hmax : b.maxRounds = 0 then .error .zeroMaxRounds
      else if hround : b.round.get > b.maxRounds then .error .exceedingStartingRound
      else .ok ⟨b.operatorId, b.instanceHeight, b.round, b.committeeMembers, b.maxRounds,
        b.leaderFn, hmem, hsize, hmax, not_lt.mp hround⟩
    else .error .invalidCommitteeSize
  else .error .operatorNotParticipant

end ConfigBuilder

/-! ## Messages -/

structure WrappedQbftMessage where
  signedMessage : SignedSSVMessage
  qbftMessage : QbftMessage
deriving DecidableEq

structure UnsignedSSVMessage where
  ssvMessage : SSVMessage
  fullData : Bytes
deriving DecidableEq

structure UnsignedWrappedQbftMessage where
  unsignedMessage : UnsignedSSVMessage
  qbftMessage : QbftMessage
deriving DecidableEq

inductive InstanceState where
  | awaitingProposal
  | prepare (proposalRoot : Hash256)
  | commit (proposalRoot : Hash256)
  | sentRoundChange
  | complete
  | roundChangeConsensus
deriving DecidableEq

namespace InstanceState

def toU8 : InstanceState → ℕ
  | awaitingProposal => 0
  | prepare _ => 1
  | commit _ => 2
  | sentRoundChange => 4
  | complete => 5
  | roundChangeConsensus => 6

end InstanceState

inductive Completed (α : Type) where
  | timedOut
  | success (value : α)
deriving DecidableEq

/-! ## Errors -/

inductive QbftError where
  | signerNotInCommittee
  | wrongHeight
  | wrongRound
  | pastRound
  | invalidFullData
  | dataValidationFailed
  | missingOperators
  | invalidDataRound
  | wrongMessageType
  | notEnoughSignatures
  | proposalNotFromLeader
  | proposalAlreadyReceived
  | proposalNotAccepted
  | proposalNotFound
  | proposedDataMismatch
  | duplicateProposal
  | proposalRoundChangeJustificationNoQuorum
  | roundChangeJustificationNoQuorum
  | roundChangeJustificationWrongRound
  | roundChangeJustificationWrongHeight
  | roundChangeJustificationNotRoundChange
  | roundChangeJustificationInvalidDataRound
  | roundChangeJustificationDecodeFailed
  | roundChangeJustificationInvalidPrepareRoot
  | roundChangeJustificationNotInCommittee
  | roundChangeJustificationNoPrepareQuorum
  | roundChangeJustificationMultiSigner
  | roundChangeJustificationTooBig (provided max : ℕ)
  | roundChangeJustificationListTooBig (provided max : ℕ)
  | prepareJustificationWrongRound
  | prepareJustificationMultiSigner
  | prepareJustificationWrongHeight
  | prepareJustificationNoQuorum
  | prepareJustificationDecodeFailed
  | prepareJustificationNotPrepare
  | prepareJustificationRootMismatch
  | prepareJustificationTooBig (provided max : ℕ)
  | prepareJustificationListTooBig (provided max : ℕ)
  | missingLastPreparedValue
  | failedToAggregate (e : SignedSSVMessageError)
  | signedSSVMessageError (e : SignedSSVMessageError)
  | invalidState
  | missingData
  | commitQuorumMismatch
  | missingCommit
deriving DecidableEq

end Anchor
