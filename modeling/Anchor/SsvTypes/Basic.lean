import Mathlib
import Anchor.Library.Ssz

/-!
# Rounds, operators and committees

The small types of the `ssv_types` crate that the consensus code is built on:
rounds, operator ids, committees and their quorum sizes, message identifiers and
the role encoded in them.
-/

namespace Anchor

open Ssz

abbrev Hash256 := FixedBytes 32

def Hash256.default : Hash256 := ⟨List.replicate 32 0, by simp⟩

/-! ## Rounds -/

@[ext] structure Round where
  get : ℕ
  pos : 0 < get
  lt : get < 2 ^ 64
deriving DecidableEq

namespace Round

theorem get_injective : Function.Injective Round.get := fun _ _ h => Round.ext h

instance : LinearOrder Round := LinearOrder.lift' Round.get get_injective

theorem le_def {a b : Round} : a ≤ b ↔ a.get ≤ b.get := Iff.rfl

theorem lt_def {a b : Round} : a < b ↔ a.get < b.get := Iff.rfl

def default : Round := ⟨1, by decide, by decide⟩

/-- `Round::from(u64)`, which panics on zero. -/
def ofU64 (r : UInt64) (h : 0 < r.toNat) : Round := ⟨r.toNat, h, r.toNat_lt⟩

def toU64 (r : Round) : UInt64 := UInt64.ofNat r.get

def next (r : Round) : Option Round :=
  if h : r.get + 1 < 2 ^ 64 then some ⟨r.get + 1, Nat.succ_pos _, h⟩ else none

@[simp] theorem get_default : default.get = 1 := rfl

@[simp] theorem get_ofU64 (r : UInt64) (h : 0 < r.toNat) : (ofU64 r h).get = r.toNat := rfl

@[simp] theorem toNat_toU64 (r : Round) : r.toU64.toNat = r.get := by
  rw [toU64, UInt64.toNat_ofNat']
  exact Nat.mod_eq_of_lt r.lt

@[simp] theorem ofU64_toU64 (r : Round) (h : 0 < r.toU64.toNat) : ofU64 r.toU64 h = r :=
  Round.ext (toNat_toU64 r)

@[simp] theorem toU64_ofU64 (r : UInt64) (h : 0 < r.toNat) : (ofU64 r h).toU64 = r :=
  UInt64.toNat_inj.mp (toNat_toU64 _)

theorem toU64_injective : Function.Injective toU64 := by
  intro a b h
  apply Round.ext
  rw [← toNat_toU64 a, ← toNat_toU64 b, h]

theorem get_of_next {r s : Round} (h : r.next = some s) : s.get = r.get + 1 := by
  unfold next at h
  split at h
  · cases h
    rfl
  · cases h

theorem default_le (r : Round) : default ≤ r := r.pos

end Round

/-! ## Operators and committees -/

@[ext] structure OperatorId where
  val : UInt64
deriving DecidableEq

namespace OperatorId

theorem toNat_injective : Function.Injective fun a : OperatorId => a.val.toNat :=
  fun _ _ h => OperatorId.ext (UInt64.toNat_inj.mp h)

instance : LinearOrder OperatorId := LinearOrder.lift' (fun a => a.val.toNat) toNat_injective

end OperatorId

structure IndexSet (α : Type*) where
  toList : List α
  nodup : toList.Nodup

namespace IndexSet

variable {α : Type*}

def contains [DecidableEq α] (s : IndexSet α) (a : α) : Bool := decide (a ∈ s.toList)

def len (s : IndexSet α) : ℕ := s.toList.length

@[simp] theorem contains_iff [DecidableEq α] (s : IndexSet α) (a : α) :
    s.contains a = true ↔ a ∈ s.toList := by
  simp [contains]

theorem card_toFinset [DecidableEq α] (s : IndexSet α) : s.toList.toFinset.card = s.len :=
  List.toFinset_card_of_nodup s.nodup

end IndexSet

def maxSignatures : ℕ := 13

def rsaSignatureSize : ℕ := 256

def getF (members : ℕ) : ℕ := (members - 1) / 3

def quorumSize (committeeSize : ℕ) : ℕ := getF committeeSize * 2 + 1

/-- Canonical committee sizes are `3f + 1` with `f` from one to four. -/
def isValidCommitteeSize (committeeSize : ℕ) : Bool :=
  decide ((committeeSize - 1) % 3 = 0) &&
    decide (1 ≤ getF committeeSize) && decide (getF committeeSize ≤ getF maxSignatures)

theorem isValidCommitteeSize_iff (n : ℕ) :
    isValidCommitteeSize n = true ↔ n = 4 ∨ n = 7 ∨ n = 10 ∨ n = 13 := by
  simp only [isValidCommitteeSize, Bool.and_eq_true, decide_eq_true_eq]
  constructor
  · rintro ⟨⟨hmod, hlow⟩, hhigh⟩
    simp only [getF, maxSignatures] at hlow hhigh
    omega
  · rintro (rfl | rfl | rfl | rfl) <;> decide

theorem eq_of_isValidCommitteeSize {n : ℕ} (h : isValidCommitteeSize n = true) :
    n = 3 * getF n + 1 := by
  rcases (isValidCommitteeSize_iff n).mp h with rfl | rfl | rfl | rfl <;> rfl

theorem quorumSize_eq (n : ℕ) : quorumSize n = 2 * getF n + 1 := by
  unfold quorumSize
  omega

/-! ## Message identifiers -/

inductive Role where
  | committee
  | aggregator
  | proposer
  | syncCommittee
  | validatorRegistration
  | voluntaryExit
  | aggregatorCommittee
  | ptcAttester
  | proposerPreferences
deriving DecidableEq

namespace Role

def ofBytes : Bytes → Option Role
  | [0, 0, 0, 0] => some committee
  | [1, 0, 0, 0] => some aggregator
  | [2, 0, 0, 0] => some proposer
  | [3, 0, 0, 0] => some syncCommittee
  | [4, 0, 0, 0] => some validatorRegistration
  | [5, 0, 0, 0] => some voluntaryExit
  | [6, 0, 0, 0] => some aggregatorCommittee
  | [7, 0, 0, 0] => some ptcAttester
  | [8, 0, 0, 0] => some proposerPreferences
  | _ => none

/-- The last round a role's consensus may reach; `none` for the roles without consensus. -/
def maxRound : Role → Option UInt64
  | committee | aggregator | aggregatorCommittee => some 12
  | proposer => some 2
  | syncCommittee => some 6
  | validatorRegistration | voluntaryExit | ptcAttester | proposerPreferences => none

end Role

abbrev MessageId := FixedBytes 56

namespace MessageId

def role (id : MessageId) : Option Role := Role.ofBytes ((id.toList.drop 4).take 4)

def toVariableList (id : MessageId) : VariableList UInt8 56 := ⟨id.toList, id.length_eq.le⟩

end MessageId

end Anchor
