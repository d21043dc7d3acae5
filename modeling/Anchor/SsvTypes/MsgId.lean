import Mathlib
import Anchor.SsvTypes.Basic

/-!
# The layout of message identifiers

A message identifier names the domain, the role and the duty executor of a
message.  A validator's key fills the rest of the identifier; a committee id does
not, and the sixteen bytes in front of it name nothing.
-/

namespace Anchor

open Ssz

namespace Role

def toBytes : Role → Bytes
  | committee => [0, 0, 0, 0]
  | aggregator => [1, 0, 0, 0]
  | proposer => [2, 0, 0, 0]
  | syncCommittee => [3, 0, 0, 0]
  | validatorRegistration => [4, 0, 0, 0]
  | voluntaryExit => [5, 0, 0, 0]
  | aggregatorCommittee => [6, 0, 0, 0]
  | ptcAttester => [7, 0, 0, 0]
  | proposerPreferences => [8, 0, 0, 0]

@[simp] theorem length_toBytes (role : Role) : role.toBytes.length = 4 := by
  cases role <;> rfl

@[simp] theorem ofBytes_toBytes (role : Role) : ofBytes role.toBytes = some role := by
  cases role <;> rfl

theorem toBytes_of_ofBytes {bs : Bytes} {role : Role} (h : ofBytes bs = some role) :
    role.toBytes = bs := by
  unfold ofBytes at h
  split at h <;> cases h <;> rfl

def isCommitteeRole : Role → Bool
  | committee | aggregatorCommittee => true
  | _ => false

/-- The roles whose signers advance through slots one at a time. -/
def monotonicSlotRole (role : Role) : Bool :=
  !role.isCommitteeRole && decide (role ≠ proposerPreferences)

end Role

abbrev CommitteeId := FixedBytes 32

abbrev PublicKeyBytes := FixedBytes 48

abbrev DomainType := FixedBytes 4

namespace CommitteeId

/-- `CommitteeId::from(&[OperatorId])`: the digest of the ids in the given order,
each cut to 32 bits. -/
def ofSlice (sha256 : Bytes → Hash256) (operatorIds : List OperatorId) : CommitteeId :=
  sha256 (operatorIds.flatMap fun id => leBytes 4 id.val.toNat)

/-- `CommitteeId::from(Vec<OperatorId>)`, which sorts first. -/
def ofVec (sha256 : Bytes → Hash256) (operatorIds : List OperatorId) : CommitteeId :=
  ofSlice sha256 (operatorIds.insertionSort (· ≤ ·))

end CommitteeId

inductive DutyExecutor where
  | committee (committeeId : CommitteeId)
  | validator (publicKey : PublicKeyBytes)
deriving DecidableEq

namespace MessageId

def new (domain : DomainType) (role : Role) (dutyExecutor : DutyExecutor) : MessageId :=
  match dutyExecutor with
  | .committee committeeId =>
    ⟨domain.toList ++ role.toBytes ++ List.replicate 16 0 ++ committeeId.toList, by
      simp [domain.length_eq, committeeId.length_eq]⟩
  | .validator publicKey =>
    ⟨domain.toList ++ role.toBytes ++ publicKey.toList, by
      simp [domain.length_eq, publicKey.length_eq]⟩

def domain (id : MessageId) : DomainType := ⟨id.toList.take 4, by simp [id.length_eq]⟩

def dutyExecutor (id : MessageId) : Option DutyExecutor :=
  id.role.map fun role =>
    if role.isCommitteeRole then .committee ⟨id.toList.drop 24, by simp [id.length_eq]⟩
    else .validator ⟨id.toList.drop 8, by simp [id.length_eq]⟩

def padding (id : MessageId) : Bytes := (id.toList.drop 8).take 16

theorem toList_eq (id : MessageId) :
    id.toList = id.domain.toList ++ (id.toList.drop 4).take 4 ++ id.toList.drop 8 := by
  have hrest : id.toList.drop 4 = (id.toList.drop 4).take 4 ++ id.toList.drop 8 := by
    conv_lhs => rw [← List.take_append_drop 4 (id.toList.drop 4), List.drop_drop]
  rw [List.append_assoc, ← hrest]
  exact (List.take_append_drop 4 id.toList).symm

theorem drop_eq (id : MessageId) : id.toList.drop 8 = id.padding ++ id.toList.drop 24 := by
  conv_lhs => rw [← List.take_append_drop 16 (id.toList.drop 8), List.drop_drop]
  rfl

/-- Two identifiers of one domain, role and executor differ at most in the padding
of a committee's identifier. -/
theorem eq_iff_padding {a b : MessageId} {role : Role} (ha : a.role = some role)
    (hb : b.role = some role) (hdomain : a.domain = b.domain)
    (hexecutor : a.dutyExecutor = b.dutyExecutor) :
    a = b ↔ (role.isCommitteeRole = true → a.padding = b.padding) := by
  constructor
  · rintro rfl _
    rfl
  intro hpadding
  have hrole : (a.toList.drop 4).take 4 = (b.toList.drop 4).take 4 :=
    (Role.toBytes_of_ofBytes ha).symm.trans (Role.toBytes_of_ofBytes hb)
  have hrest : a.toList.drop 8 = b.toList.drop 8 := by
    simp only [dutyExecutor, ha, hb, Option.map_some, Option.some.injEq] at hexecutor
    split_ifs at hexecutor with hcommittee
    · have hid := congrArg FixedBytes.toList (DutyExecutor.committee.inj hexecutor)
      rw [drop_eq a, drop_eq b, hpadding hcommittee]
      exact congrArg _ hid
    · exact congrArg FixedBytes.toList (DutyExecutor.validator.inj hexecutor)
  apply FixedBytes.ext
  rw [toList_eq a, toList_eq b, hdomain, hrole, hrest]

@[simp] theorem domain_new (domain : DomainType) (role : Role) (executor : DutyExecutor) :
    (new domain role executor).domain = domain := by
  cases executor <;> simp [new, MessageId.domain, domain.length_eq]

@[simp] theorem role_new (domain : DomainType) (role : Role) (executor : DutyExecutor) :
    (new domain role executor).role = some role := by
  cases executor <;> simp [new, MessageId.role, domain.length_eq]

theorem dutyExecutor_new {domain : DomainType} {role : Role} {executor : DutyExecutor}
    (h : role.isCommitteeRole = true ↔ ∃ committeeId, executor = .committee committeeId) :
    (new domain role executor).dutyExecutor = some executor := by
  rw [dutyExecutor, role_new, Option.map_some, Option.some.injEq]
  cases executor with
  | committee committeeId =>
    rw [if_pos (h.mpr ⟨_, rfl⟩), DutyExecutor.committee.injEq]
    have hdomain : domain.toList.drop 24 = [] :=
      List.drop_eq_nil_of_le (by simp [domain.length_eq])
    have hrole : role.toBytes.drop 20 = [] := List.drop_eq_nil_of_le (by simp)
    apply FixedBytes.ext
    simp [new, List.drop_append, domain.length_eq, hdomain, hrole]
  | validator publicKey =>
    rw [if_neg fun hrole => by simpa using h.mp hrole, DutyExecutor.validator.injEq]
    apply FixedBytes.ext
    simp [new, List.drop_append, domain.length_eq]

end MessageId

theorem Sample.length_zeroKey : (List.replicate 48 (0 : UInt8)).length = 48 :=
  List.length_replicate

end Anchor
