import Mathlib
import Anchor.Validator.Entries

/-!
# The way of a message to its instance

The manager hands a validated consensus message to an instance that it finds by the
role and the executor of the identifier and by the height.  The validator keeps its
duty state under the whole identifier.  The two agree up to the bytes in front of a
committee id.
-/

namespace Anchor

open Ssz

namespace QbftManager

structure CommitteeInstanceId where
  committee : CommitteeId
  instanceHeight : ℕ
deriving DecidableEq

inductive ValidatorDutyKind where
  | proposal
  | aggregator
  | syncCommitteeAggregator
deriving DecidableEq

structure ProposerInstanceId where
  validator : PublicKeyBytes
  duty : ValidatorDutyKind
  instanceHeight : ℕ
deriving DecidableEq

/-- An instance of the manager: the kind of data it decides on and its id. -/
inductive InstanceKey where
  | proposerConsensusData (id : ProposerInstanceId)
  | beaconVote (id : CommitteeInstanceId)
  | gloasBeaconVote (id : CommitteeInstanceId)
  | aggregatorCommitteeConsensusData (id : CommitteeInstanceId)
deriving DecidableEq

inductive RoutingError where
  | inconsistentMessageId
  | roleNotActive
deriving DecidableEq

def validatorDutyKind : Role → Option ValidatorDutyKind
  | .proposer => some .proposal
  | .aggregator => some .aggregator
  | .syncCommittee => some .syncCommitteeAggregator
  | .committee | .aggregatorCommittee | .validatorRegistration | .voluntaryExit | .ptcAttester
  | .proposerPreferences => none

def committeeInstance (chain : Chain) (role : Option Role) (id : CommitteeInstanceId) :
    Except RoutingError InstanceKey :=
  match role with
  | some .committee =>
    if (chain.spec.forkNameAtEpoch (chain.epochOf id.instanceHeight)).gloasEnabled then
      .ok (.gloasBeaconVote id)
    else .ok (.beaconVote id)
  | some .aggregatorCommittee =>
    if chain.forkSchedule.activeFork (chain.epochOf id.instanceHeight) < .boole then
      .error .roleNotActive
    else .ok (.aggregatorCommitteeConsensusData id)
  | _ => .error .inconsistentMessageId

def receiveData (chain : Chain) (msgId : MessageId) (m : QbftMessage) :
    Except RoutingError InstanceKey :=
  match msgId.dutyExecutor with
  | some (.validator validator) =>
    match msgId.role.bind validatorDutyKind with
    | some duty => .ok (.proposerConsensusData ⟨validator, duty, m.height.toNat⟩)
    | none => .error .inconsistentMessageId
  | some (.committee committee) =>
    committeeInstance chain msgId.role ⟨committee, m.height.toNat⟩
  | none => .error .inconsistentMessageId

namespace InstanceKey

def role : InstanceKey → Role
  | proposerConsensusData ⟨_, .proposal, _⟩ => .proposer
  | proposerConsensusData ⟨_, .aggregator, _⟩ => .aggregator
  | proposerConsensusData ⟨_, .syncCommitteeAggregator, _⟩ => .syncCommittee
  | beaconVote _ | gloasBeaconVote _ => .committee
  | aggregatorCommitteeConsensusData _ => .aggregatorCommittee

def dutyExecutor : InstanceKey → DutyExecutor
  | proposerConsensusData id => .validator id.validator
  | beaconVote id | gloasBeaconVote id | aggregatorCommitteeConsensusData id =>
    .committee id.committee

def height : InstanceKey → ℕ
  | proposerConsensusData id => id.instanceHeight
  | beaconVote id | gloasBeaconVote id | aggregatorCommitteeConsensusData id => id.instanceHeight

/-- An instance fixes the role, the executor and the height of its messages. -/
structure Names (key : InstanceKey) (msgId : MessageId) (height : ℕ) : Prop where
  role_eq : msgId.role = some key.role
  dutyExecutor_eq : msgId.dutyExecutor = some key.dutyExecutor
  height_eq : height = key.height

end InstanceKey

theorem names_of_committeeInstance {chain : Chain} {msgId : MessageId} {id : CommitteeInstanceId}
    {key : InstanceKey} (hexecutor : msgId.dutyExecutor = some (.committee id.committee))
    (h : committeeInstance chain msgId.role id = .ok key) :
    key.Names msgId id.instanceHeight := by
  unfold committeeInstance at h
  split at h
  · rename_i hrole
    split_ifs at h <;> cases h <;> exact ⟨hrole, hexecutor, rfl⟩
  · rename_i hrole
    split_ifs at h
    cases h
    exact ⟨hrole, hexecutor, rfl⟩
  · cases h

theorem names_of_receiveData {chain : Chain} {msgId : MessageId} {m : QbftMessage}
    {key : InstanceKey} (h : receiveData chain msgId m = .ok key) :
    key.Names msgId m.height.toNat := by
  unfold receiveData at h
  split at h
  · rename_i validator hexecutor
    split at h
    · rename_i duty hduty
      cases h
      obtain ⟨role, hrole, hkind⟩ := Option.bind_eq_some_iff.mp hduty
      refine ⟨?_, hexecutor, rfl⟩
      rw [hrole]
      cases role <;> cases hkind <;> rfl
    · cases h
  · rename_i committee hexecutor
    exact names_of_committeeInstance hexecutor h
  · cases h

end QbftManager

namespace Validator

variable {K : Type} {cfg : ValidatorConfig K}

theorem extractSlot_of_accepts {v : Validator cfg} {r : Reception K} {signed : SignedSSVMessage}
    {ctx : DutyContext K} {m : QbftMessage} (h : v.Accepts r signed ctx (.qbftMessage m)) :
    signed.ssvMessage.extractSlot cfg.chain.isSignature = some m.height.toNat := by
  rw [← (contextOf_eq_ok h.context_eq).2.2.2.1]
  exact (DutyContext.slot_of_verdict h.verdict_eq).1

theorem domain_of_contextOf {r : Reception K} {signed : SignedSSVMessage} {ctx : DutyContext K}
    {slot : ℕ} (h : cfg.contextOf r signed = .ok ctx) (htopic : r.topic ≠ .skipValidation)
    (hslot : signed.ssvMessage.extractSlot cfg.chain.isSignature = some slot) :
    cfg.chain.forkSchedule.domainType
      (cfg.chain.forkSchedule.activeFork (cfg.chain.epochOf slot)) =
        some signed.ssvMessage.msgId.domain := by
  simp only [ValidatorConfig.contextOf, Checks.bind_eq_ok] at h
  obtain ⟨role, -, info, -, ⟨⟩, hdomain, -⟩ := h
  unfold ValidatorConfig.validateTopicAndDomain at hdomain
  split at hdomain
  · rename_i hskip
    exact absurd hskip htopic
  · simp only [hslot, Option.elim_some, Checks.bind_eq_ok, Checks.require_eq_ok_iff] at hdomain
    obtain ⟨slot', heq, subnet, -, ⟨⟩, -, ⟨⟩, -, domain, hfork, hmatches⟩ := hdomain
    cases heq
    cases hexpected : cfg.chain.forkSchedule.domainType
        (cfg.chain.forkSchedule.activeFork (cfg.chain.epochOf slot)) with
    | none =>
      rw [hexpected] at hfork
      cases hfork
    | some expected =>
      rw [hexpected] at hfork
      cases hfork
      rw [hmatches]

/-- Two identifiers of accepted messages with the same domain, role and executor, or
with messages for the same instance, are equal exactly if the bytes in front of a
committee id agree. -/
theorem accepted_ids_eq_iff_padding (v v' : Validator cfg) (r r' : Reception K)
    (signed signed' : SignedSSVMessage) (x x' : ValidatedSSVMessage) (role : Role)
    (haccepted : v.answer r signed = .ok x) (haccepted' : v'.answer r' signed' = .ok x')
    (hrole : signed.ssvMessage.msgId.role = some role) :
    (signed'.ssvMessage.msgId.domain = signed.ssvMessage.msgId.domain →
      signed'.ssvMessage.msgId.role = some role →
      signed'.ssvMessage.msgId.dutyExecutor = signed.ssvMessage.msgId.dutyExecutor →
      (signed'.ssvMessage.msgId = signed.ssvMessage.msgId ↔ (role.isCommitteeRole = true →
        signed'.ssvMessage.msgId.padding = signed.ssvMessage.msgId.padding))) ∧
    ∀ m m' key, x = .qbftMessage m → x' = .qbftMessage m' →
      r.topic ≠ .skipValidation → r'.topic ≠ .skipValidation →
      QbftManager.receiveData cfg.chain signed.ssvMessage.msgId m = .ok key →
      QbftManager.receiveData cfg.chain signed'.ssvMessage.msgId m' = .ok key →
      (signed'.ssvMessage.msgId = signed.ssvMessage.msgId ↔ (role.isCommitteeRole = true →
        signed'.ssvMessage.msgId.padding = signed.ssvMessage.msgId.padding)) := by
  refine ⟨fun hdomain hrole' hexecutor =>
    MessageId.eq_iff_padding hrole' hrole hdomain hexecutor, ?_⟩
  rintro m m' key rfl rfl htopic htopic' hroute hroute'
  obtain ⟨ctx, haccepts⟩ := answer_eq_ok_iff.mp haccepted
  obtain ⟨ctx', haccepts'⟩ := answer_eq_ok_iff.mp haccepted'
  have hnames := QbftManager.names_of_receiveData hroute
  have hnames' := QbftManager.names_of_receiveData hroute'
  -- one instance means one height, hence one fork and one domain
  have hdomain := domain_of_contextOf haccepts.context_eq htopic (extractSlot_of_accepts haccepts)
  have hdomain' := domain_of_contextOf haccepts'.context_eq htopic'
    (extractSlot_of_accepts haccepts')
  rw [hnames.height_eq] at hdomain
  rw [hnames'.height_eq] at hdomain'
  apply MessageId.eq_iff_padding
  · rw [hnames'.role_eq, ← hnames.role_eq, hrole]
  · exact hrole
  · exact Option.some.inj (hdomain'.symm.trans hdomain)
  · rw [hnames'.dutyExecutor_eq, hnames.dutyExecutor_eq]

end Validator

namespace Sample

/-- The identifier of the sample instance with other bytes in front of the
committee id. -/
def paddedIdentifier : MessageId :=
  ⟨List.replicate 8 0 ++ List.replicate 16 1 ++ List.replicate 32 0, rfl⟩

def voteFor (id : MessageId) (t : QbftMessageType) : SignedSSVMessage :=
  signedBy ⟨[⟨1⟩], length_first_le⟩ (SSVMessage.consensus id
    { message t 1 Hash256.default with identifier := id.toVariableList })

/-- Two votes under the identifier of the sample instance. -/
theorem accepted_ids_eq_iff_padding_votes :
    (Validator.new validatorConfig).answer (reception 1) (voteFor identifier .prepare) =
      .ok (.qbftMessage (message .prepare 1 Hash256.default)) ∧
    (Validator.new validatorConfig).answer (reception 1) (voteFor identifier .commit) =
      .ok (.qbftMessage (message .commit 1 Hash256.default)) ∧
    (identifier = identifier ↔
      (Role.committee.isCommitteeRole = true → identifier.padding = identifier.padding)) := by
  have hprepare : (Validator.new validatorConfig).answer (reception 1)
      (voteFor identifier .prepare) =
        .ok (.qbftMessage (message .prepare 1 Hash256.default)) := by
    decide +kernel
  have hcommit : (Validator.new validatorConfig).answer (reception 1)
      (voteFor identifier .commit) =
        .ok (.qbftMessage (message .commit 1 Hash256.default)) := by
    decide +kernel
  exact ⟨hprepare, hcommit, (Validator.accepted_ids_eq_iff_padding _ _ _ _ _ _ _ _ .committee
    hprepare hcommit (by decide)).2 _ _ (.gloasBeaconVote ⟨⟨List.replicate 32 0, rfl⟩, 0⟩) rfl rfl
    (by decide) (by decide) (by decide) (by decide)⟩

/-- The same prepare under two identifiers: both are accepted, one after the other,
and both go to the same instance. -/
theorem accepted_twice_padded :
    (Validator.new validatorConfig).answer (reception 1) (voteFor identifier .prepare) =
      .ok (.qbftMessage (message .prepare 1 Hash256.default)) ∧
    ((Validator.new validatorConfig).run
        [.receive (reception 1) (voteFor identifier .prepare)]).answer (reception 2)
        (voteFor paddedIdentifier .prepare) =
      .ok (.qbftMessage { message .prepare 1 Hash256.default with
        identifier := paddedIdentifier.toVariableList }) ∧
    paddedIdentifier ≠ identifier ∧ paddedIdentifier.domain = identifier.domain ∧
    paddedIdentifier.role = identifier.role ∧
    paddedIdentifier.dutyExecutor = identifier.dutyExecutor ∧
    QbftManager.receiveData chain identifier (message .prepare 1 Hash256.default) =
      .ok (.gloasBeaconVote ⟨⟨List.replicate 32 0, rfl⟩, 0⟩) ∧
    QbftManager.receiveData chain paddedIdentifier { message .prepare 1 Hash256.default with
        identifier := paddedIdentifier.toVariableList } =
      .ok (.gloasBeaconVote ⟨⟨List.replicate 32 0, rfl⟩, 0⟩) := by
  decide +kernel

end Sample

end Anchor
