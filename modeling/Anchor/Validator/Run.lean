import Mathlib
import Anchor.Qbft.Simulation
import Anchor.Validator.Verdict

/-!
# Runs of the validator

The validator keeps one duty state per message identifier.  A message is looked
at in the surroundings of its reception: the network state, the duties, the clock
and the topic it came on.  Between messages the cleaner drops duty states that
have been idle for long.  What a validator shows of its duty states decides all its
answers, so a message that is refused leaves no trace.
-/

namespace Anchor

open Ssz

/-! ## Surroundings -/

structure CommitteeInfo where
  committeeMembers : IndexSet OperatorId
  validatorIndices : List UInt64

structure NetworkState (K : Type) where
  committeeInfoByCommitteeId : CommitteeId → Option CommitteeInfo
  committeeInfoByValidatorPk : PublicKeyBytes → Option CommitteeInfo
  operatorKey : OperatorId → Option K

structure ParsedTopic where
  subnetId : ℕ
  fork : Fork
deriving DecidableEq

inductive TopicContext where
  | skipValidation
  | validate (parsed : ParsedTopic)
deriving DecidableEq

structure Reception (K : Type) where
  networkState : NetworkState K
  duties : DutiesProvider
  receivedAt : ℕ
  currentSlot : Option ℕ
  topic : TopicContext

/-- What is fixed for a validator.  `subnetFor` is the subnet of a committee with
its operators at a slot. -/
structure ValidatorConfig (K : Type) where
  crypto : Crypto K
  chain : Chain
  subnetFor : CommitteeId → List OperatorId → ℕ → Option ℕ

def SSVMessage.extractSlot (m : SSVMessage) (isSignature : Bytes → Bool) : Option ℕ :=
  match m.msgType with
  | .ssvConsensusMsgType => (QbftMessage.fromSszBytes m.data.toList).map (·.height.toNat)
  | .ssvPartialSignatureMsgType =>
    (PartialSignatureMessages.fromSszBytes isSignature m.data.toList).map (·.slot.toNat)

namespace ValidatorConfig

variable {K : Type} (cfg : ValidatorConfig K)

def slotCount (id : MessageId) : ℕ :=
  match id.role with
  | none => 1
  | some role => cfg.chain.storedSlotCount role

instance (id : MessageId) : NeZero (cfg.slotCount id) := by
  unfold slotCount
  split <;> infer_instance

def committeeInfo (networkState : NetworkState K) (role : Role) (id : MessageId) :
    Except ValidationFailure CommitteeInfo :=
  if role.isCommitteeRole then
    match id.dutyExecutor with
    | some (.committee committeeId) =>
      (networkState.committeeInfoByCommitteeId committeeId).elim
        (.error .nonExistentCommitteeID) .ok
    | _ => .error .nonExistentCommitteeID
  else
    match id.dutyExecutor with
    | some (.validator publicKey) =>
      (networkState.committeeInfoByValidatorPk publicKey).elim (.error .unknownValidator) .ok
    | _ => .error .unknownValidator

def topicCommittee (id : MessageId) (operatorIds : List OperatorId) : CommitteeId :=
  match id.dutyExecutor with
  | some (.committee committeeId) => committeeId
  | _ => CommitteeId.ofVec cfg.crypto.hashData operatorIds

def validateTopicAndDomain (topic : TopicContext) (operatorIds : List OperatorId)
    (m : SSVMessage) : Except ValidationFailure Unit :=
  match topic with
  | .skipValidation => .ok ()
  | .validate parsed => do
      let slot ← (m.extractSlot cfg.chain.isSignature).elim (.error .unknownMessageSlot) .ok
      let expectedSubnet ← (cfg.subnetFor (cfg.topicCommittee m.msgId operatorIds) operatorIds
        slot).elim (.error .incorrectTopic) .ok
      Checks.require (parsed.subnetId = expectedSubnet) .incorrectTopic
      let expectedFork := cfg.chain.forkSchedule.activeFork (cfg.chain.epochOf slot)
      Checks.require (parsed.fork = expectedFork) .topicForkMismatch
      let expectedDomain ← (cfg.chain.forkSchedule.domainType expectedFork).elim
        (.error .wrongDomain) .ok
      Checks.require (m.msgId.domain = expectedDomain) .wrongDomain

def contextOf (r : Reception K) (signed : SignedSSVMessage) :
    Except ValidationFailure (DutyContext K) := do
  let role ← validateStructureAndRole signed
  let info ← committeeInfo r.networkState role signed.ssvMessage.msgId
  cfg.validateTopicAndDomain r.topic info.committeeMembers.toList signed.ssvMessage
  return {
    crypto := cfg.crypto
    committeeMembers := info.committeeMembers
    operatorPubKeys := fun i =>
      if info.committeeMembers.contains i then r.networkState.operatorKey i else none
    chain := cfg.chain
    role := role
    validatorIndices := info.validatorIndices
    receivedAt := r.receivedAt
    currentSlot := r.currentSlot
    duties := r.duties }

end ValidatorConfig

/-! ## The validator -/

structure Validator {K : Type} (cfg : ValidatorConfig K) where
  dutyStateMap : (id : MessageId) → Option (DutyState (cfg.slotCount id))

namespace Validator

variable {K : Type} {cfg : ValidatorConfig K}

def new (cfg : ValidatorConfig K) : Validator cfg := ⟨fun _ => none⟩

def getDutyState (v : Validator cfg) (id : MessageId) : DutyState (cfg.slotCount id) :=
  (v.dutyStateMap id).getD (DutyState.new _)

def validateDecodedMessage (v : Validator cfg) (r : Reception K) (signed : SignedSSVMessage) :
    Except ValidationFailure ValidatedSSVMessage × Validator cfg :=
  match cfg.contextOf r signed with
  | .error e => (.error e, v)
  | .ok ctx =>
    let id := signed.ssvMessage.msgId
    let answer := (ctx.validateSsvMessage signed).runOn (v.getDutyState id)
    (answer.1, ⟨Function.update v.dutyStateMap id (some answer.2)⟩)

/-- The cleaner's pass over the map, limited to some identifiers. -/
def retain (v : Validator cfg) (now : ℕ) (among : MessageId → Bool) : Validator cfg :=
  ⟨fun id => (v.dutyStateMap id).filter fun d => ! (among id && d.outdated now)⟩

inductive Event (K : Type) where
  | receive (r : Reception K) (signed : SignedSSVMessage)
  | clean (time : ℕ) (among : MessageId → Bool)

def Event.time : Event K → ℕ
  | .receive r _ => r.receivedAt
  | .clean time _ => time

def answer (v : Validator cfg) (r : Reception K) (signed : SignedSSVMessage) :
    Except ValidationFailure ValidatedSSVMessage :=
  (v.validateDecodedMessage r signed).1

/-- The cleaner does nothing while it cannot read the slot. -/
def step (v : Validator cfg) : Event K → Validator cfg
  | .receive r signed => (v.validateDecodedMessage r signed).2
  | .clean time among =>
    match cfg.chain.slotClock.slotOf time with
    | none => v
    | some now => v.retain now among

def run (v : Validator cfg) (es : List (Event K)) : Validator cfg := es.foldl step v

@[simp] theorem run_nil (v : Validator cfg) : v.run [] = v := rfl

theorem run_append (v : Validator cfg) (es fs : List (Event K)) :
    v.run (es ++ fs) = (v.run es).run fs :=
  List.foldl_append

/-! ## What a step shows -/

def observed (v : Validator cfg) (id : MessageId) : Observed := (v.getDutyState id).observed

structure Accepts (v : Validator cfg) (r : Reception K) (signed : SignedSSVMessage)
    (ctx : DutyContext K) (x : ValidatedSSVMessage) : Prop where
  context_eq : cfg.contextOf r signed = .ok ctx
  verdict_eq : ctx.verdict signed (v.observed signed.ssvMessage.msgId) = .ok x

theorem answer_eq (v : Validator cfg) (r : Reception K) (signed : SignedSSVMessage) :
    v.answer r signed = (cfg.contextOf r signed >>= fun ctx =>
      ctx.verdict signed (v.observed signed.ssvMessage.msgId)) := by
  unfold answer validateDecodedMessage
  cases cfg.contextOf r signed with
  | error e => rfl
  | ok ctx => exact (ctx.runOn_validateSsvMessage signed _).1

variable {v : Validator cfg} {r : Reception K} {signed : SignedSSVMessage}

theorem answer_eq_ok_iff
    {x : ValidatedSSVMessage} :
    v.answer r signed = .ok x ↔ ∃ ctx, v.Accepts r signed ctx x := by
  rw [answer_eq, Checks.bind_eq_ok]
  exact ⟨fun ⟨ctx, hctx, hx⟩ => ⟨ctx, hctx, hx⟩, fun ⟨ctx, h⟩ => ⟨ctx, h.1, h.2⟩⟩

theorem observed_of_dutyStateMap {v v' : Validator cfg} {id : MessageId}
    (h : v'.dutyStateMap id = v.dutyStateMap id) : v'.observed id = v.observed id := by
  rw [observed, observed, getDutyState, getDutyState, h]

theorem observed_receive_of_ne (v : Validator cfg) (r : Reception K)
    {id : MessageId} (hid : id ≠ signed.ssvMessage.msgId) :
    (v.step (.receive r signed)).observed id = v.observed id := by
  apply observed_of_dutyStateMap
  simp only [step, validateDecodedMessage]
  cases cfg.contextOf r signed with
  | error e => rfl
  | ok ctx => exact Function.update_of_ne hid _ _

theorem observed_receive_of_error {e : ValidationFailure} (h : v.answer r signed = .error e) :
    (v.step (.receive r signed)).observed = v.observed := by
  funext id
  by_cases hid : id = signed.ssvMessage.msgId
  · subst hid
    rw [answer_eq] at h
    cases hctx : cfg.contextOf r signed with
    | error e => simp only [step, validateDecodedMessage, hctx]
    | ok ctx =>
      rw [hctx] at h
      have hrun := (ctx.runOn_validateSsvMessage signed
        (v.getDutyState signed.ssvMessage.msgId)).2
      rw [show ctx.verdict signed (v.getDutyState signed.ssvMessage.msgId).observed = .error e
        from h] at hrun
      simpa only [step, validateDecodedMessage, hctx, observed, getDutyState,
        Function.update_self, Option.getD_some] using hrun
  · exact v.observed_receive_of_ne r hid

theorem observed_receive_of_accepts {ctx : DutyContext K} {x : ValidatedSSVMessage}
    (h : v.Accepts r signed ctx x) :
    (v.step (.receive r signed)).observed signed.ssvMessage.msgId =
      ctx.record signed (cfg.slotCount signed.ssvMessage.msgId)
        (v.observed signed.ssvMessage.msgId) x := by
  have hrun := (ctx.runOn_validateSsvMessage signed (v.getDutyState signed.ssvMessage.msgId)).2
  rw [show ctx.verdict signed (v.getDutyState signed.ssvMessage.msgId).observed = .ok x
    from h.verdict_eq] at hrun
  simpa only [step, validateDecodedMessage, h.context_eq, observed, getDutyState,
    Function.update_self, Option.getD_some] using hrun

end Validator

/-! ## What the cleaner shows -/

/-- A view is dropped if all operators have been idle for longer than the ring
reaches back. -/
def Observed.Outdated (n now : ℕ) (o : Observed) : Prop := ∀ i, o.maxSlot i < now - n

namespace DutyState

variable {n : ℕ} {d : DutyState n}

theorem observed_new (n : ℕ) : (DutyState.new n).observed = Observed.empty := by
  refine Observed.ext (fun i slot => ?_) fun i => rfl
  change ((OperatorState.new n).getSignerState slot).map SignerState.allocated = none
  rw [OperatorState.getSignerState, OperatorState.new, RingBuffer.get_new, Option.map_none]

theorem operator_of_mem {i : OperatorId} {o : OperatorState n} (h : (i, o) ∈ d.operators.entries) :
    d.operator i = o := by
  rw [operator, SortedMap.get?_eq_some_iff.mpr h, Option.getD_some]

theorem outdated_of_observed {now : ℕ} (h : d.observed.Outdated n now) :
    d.outdated now = true := by
  rw [outdated, List.all_eq_true]
  rintro ⟨i, o⟩ hmem
  have hi : (d.operator i).maxSlot < now - n := h i
  rw [operator_of_mem hmem] at hi
  exact decide_eq_true hi

theorem observed_of_outdated {now : ℕ} (h : d.outdated now = true) :
    d.observed.Outdated n now ∨ d.observed = Observed.empty := by
  rw [outdated, List.all_eq_true] at h
  rcases hentries : d.operators.entries with _ | ⟨e, es⟩
  · right
    have hd : d = DutyState.new n := by
      cases d with
      | mk operators =>
        cases operators with
        | mk entries sorted =>
          subst hentries
          rfl
    rw [hd, observed_new]
  · left
    have hpos : 0 < now - n :=
      (Nat.zero_le _).trans_lt (of_decide_eq_true (h e (by rw [hentries]; simp)))
    intro i
    cases hget : d.operators.get? i with
    | none =>
      have hnew : d.operator i = OperatorState.new n := by rw [operator, hget, Option.getD_none]
      rw [maxSlot_observed, hnew]
      exact hpos
    | some o =>
      have hmem := SortedMap.get?_eq_some_iff.mp hget
      have hmax := of_decide_eq_true (h _ hmem)
      rw [maxSlot_observed, operator_of_mem hmem]
      exact hmax

end DutyState

namespace Validator

variable {K : Type} {cfg : ValidatorConfig K}

theorem observed_of_none {v : Validator cfg} {id : MessageId} (h : v.dutyStateMap id = none) :
    v.observed id = Observed.empty := by
  rw [observed, getDutyState, h, Option.getD_none, DutyState.observed_new]

open Classical in
theorem observed_retain (v : Validator cfg) (now : ℕ) (among : MessageId → Bool) (id : MessageId) :
    (v.retain now among).observed id =
      if among id = true ∧ (v.observed id).Outdated (cfg.slotCount id) now then Observed.empty
      else v.observed id := by
  have hmap : (v.retain now among).dutyStateMap id =
      (v.dutyStateMap id).filter fun d => ! (among id && d.outdated now) := rfl
  cases hstate : v.dutyStateMap id with
  | none =>
    rw [hstate, Option.filter_none] at hmap
    rw [observed_of_none hmap, observed_of_none hstate, ite_self]
  | some d =>
    have hd : v.observed id = d.observed := by
      rw [observed, getDutyState, hstate, Option.getD_some]
    rw [hstate] at hmap
    by_cases hdrop : among id = true ∧ d.outdated now = true
    · have hnone : (v.retain now among).dutyStateMap id = none := by
        rw [hmap, Option.filter_some, hdrop.1, hdrop.2]
        rfl
      rw [observed_of_none hnone]
      split_ifs with houtdated
      · rfl
      · rcases DutyState.observed_of_outdated hdrop.2 with hidle | hempty
        · exact absurd ⟨hdrop.1, hd ▸ hidle⟩ houtdated
        · rw [hd, hempty]
    · have hkeep : (v.retain now among).dutyStateMap id = v.dutyStateMap id := by
        rw [hmap, hstate, Option.filter_some, if_pos]
        simpa [imp_iff_not_or] using hdrop
      rw [observed_of_dutyStateMap hkeep, if_neg]
      rintro ⟨hamong, houtdated⟩
      exact hdrop ⟨hamong, DutyState.outdated_of_observed (hd ▸ houtdated)⟩

/-! ## Refused messages -/

variable {v w : Validator cfg}

theorem answer_congr (h : v.observed = w.observed) (r : Reception K)
    (signed : SignedSSVMessage) : v.answer r signed = w.answer r signed := by
  rw [answer_eq, answer_eq, h]

theorem observed_step_congr (h : v.observed = w.observed) (e : Event K) :
    (v.step e).observed = (w.step e).observed := by
  cases e with
  | clean time among =>
    simp only [step]
    cases cfg.chain.slotClock.slotOf time with
    | none => exact h
    | some now =>
      funext id
      rw [observed_retain, observed_retain, h]
  | receive r signed =>
    cases hanswer : v.answer r signed with
    | error e =>
      rw [observed_receive_of_error hanswer, h,
        observed_receive_of_error ((answer_congr h r signed).symm.trans hanswer)]
    | ok x =>
      obtain ⟨ctx, hv⟩ := answer_eq_ok_iff.mp hanswer
      have hw : w.Accepts r signed ctx x := ⟨hv.context_eq, h ▸ hv.verdict_eq⟩
      funext id
      by_cases hid : id = signed.ssvMessage.msgId
      · rw [hid, observed_receive_of_accepts hv, observed_receive_of_accepts hw, h]
      · rw [v.observed_receive_of_ne r hid, w.observed_receive_of_ne r hid, h]

theorem observed_run_congr (h : v.observed = w.observed)
    (es : List (Event K)) : (v.run es).observed = (w.run es).observed := by
  induction es generalizing v w with
  | nil => exact h
  | cons e es ih => exact ih (observed_step_congr h e)

/-- A message that is refused leaves no trace: whatever happens later, with it and
without it the validator answers every message in the same way. -/
theorem refused_leaves_no_trace (before later : List (Event K)) (r : Reception K)
    (signed : SignedSSVMessage) (e : ValidationFailure)
    (hrefused : ((new cfg).run before).answer r signed = .error e) :
    ((new cfg).run (before ++ [.receive r signed])).observed = ((new cfg).run before).observed ∧
      ∀ r' signed', ((new cfg).run (before ++ [.receive r signed] ++ later)).answer r' signed' =
        ((new cfg).run (before ++ later)).answer r' signed' := by
  have hobserved : ((new cfg).run (before ++ [.receive r signed])).observed =
      ((new cfg).run before).observed := by
    rw [run_append]
    exact observed_receive_of_error hrefused
  refine ⟨hobserved, fun r' signed' => ?_⟩
  rw [run_append, run_append _ before later]
  exact answer_congr (observed_run_congr hobserved later) r' signed'

end Validator

/-! ## A sample chain -/

namespace Sample

def chain : Chain where
  slotsPerEpoch := 8
  epochsPerSyncCommitteePeriod := 256
  syncCommitteeSize := 512
  slotClock := ⟨0, 0, 12000000000, 4294967296, by decide⟩
  forkSchedule := ⟨[⟨.alan, 0, ⟨List.replicate 4 0, rfl⟩⟩], List.pairwise_singleton _ _,
    ⟨_, List.mem_singleton_self _, rfl⟩⟩
  spec := ⟨1, some 0, fun _ => .gloas⟩
  isSignature bytes := bytes.length = 96
  slotsPerEpoch_pos := by decide

def validatorConfig : ValidatorConfig OperatorId := ⟨crypto, chain, fun _ _ _ => some 0⟩

def networkState : NetworkState OperatorId where
  committeeInfoByCommitteeId _ := some ⟨members, [0, 1]⟩
  committeeInfoByValidatorPk _ := some ⟨members, [0]⟩
  operatorKey := some

def duties : DutiesProvider where
  isValidatorInSyncCommittee _ _ := false
  isEpochKnownForProposers _ := true
  isValidatorProposerAtSlot _ _ := true
  getVoluntaryExitDutyCount _ _ := 1
  proposerAssignmentAtSlot _ _ := .unknown
  localProposerAssignmentAtSlot _ _ := false
  ptcAssignmentAtSlot _ _ := .unknown

def reception (time : ℕ) : Reception OperatorId where
  networkState := networkState
  duties := duties
  receivedAt := time
  currentSlot := chain.slotClock.slotOf time
  topic := .validate ⟨0, .alan⟩

def signedBy (signers : VariableList OperatorId 13) (m : SSVMessage) : SignedSSVMessage :=
  ⟨⟨signers.toList.map fun i => sign i m.asSszBytes, by
      rw [List.length_map]; exact signers.length_le⟩, signers, m, VariableList.empty⟩

def vote (t : QbftMessageType) (round : UInt64) (signers : VariableList OperatorId 13) :
    SignedSSVMessage :=
  signedBy signers (SSVMessage.consensus identifier (message t round Hash256.default))

def partialSignature (signer : OperatorId) (root : UInt8) : PartialSignatureMessage :=
  ⟨⟨List.replicate 96 0, length_zeroSignature⟩, ⟨List.replicate 32 root, by simp⟩, signer, 0⟩

theorem length_first_le : [(⟨1⟩ : OperatorId)].length ≤ 13 := by
  decide

theorem length_firstSignature_le :
    [partialSignature ⟨1⟩ 7].length ≤ partialSignatureMessagesLen := by
  simp [partialSignatureMessagesLen]

def packet (id : MessageId) (kind : PartialSignatureKind) (slot : UInt64) (signer : OperatorId)
    (root : UInt8) : SignedSSVMessage :=
  let p : PartialSignatureMessages := ⟨kind, slot, ⟨[partialSignature signer root], by
    simp [partialSignatureMessagesLen]⟩⟩
  signedBy ⟨[signer], SignedSSVMessage.length_singleton_le signer⟩
    ⟨.ssvPartialSignatureMsgType, id, (VariableList.new? p.asSszBytes).getD VariableList.empty⟩

def validatorId (role : Role) : MessageId :=
  MessageId.new ⟨List.replicate 4 0, rfl⟩ role (.validator ⟨List.replicate 48 0, length_zeroKey⟩)

def requestAuth (root : UInt8) : SignedSSVMessage :=
  packet (validatorId .proposerPreferences) .requestAuth 0 ⟨1⟩ root

/-- A packet whose signing root is recorded already is refused by its budget only. -/
theorem refused_leaves_no_trace_requestAuth :
    ((Validator.new validatorConfig).run [.receive (reception 1) (requestAuth 7)]).answer
        (reception 2) (requestAuth 7) = .error (.relayedDuplicateMessage .requestAuth) ∧
      ((Validator.new validatorConfig).run [.receive (reception 1) (requestAuth 7),
        .receive (reception 2) (requestAuth 7), .clean 3 fun _ => true]).answer
          (reception 4) (requestAuth 8) =
        ((Validator.new validatorConfig).run [.receive (reception 1) (requestAuth 7),
          .clean 3 fun _ => true]).answer (reception 4) (requestAuth 8) := by
  have hrefused : ((Validator.new validatorConfig).run
      [.receive (reception 1) (requestAuth 7)]).answer (reception 2) (requestAuth 7) =
        .error (.relayedDuplicateMessage .requestAuth) := by
    decide +kernel
  exact ⟨hrefused, (Validator.refused_leaves_no_trace [.receive (reception 1) (requestAuth 7)]
    [.clean 3 fun _ => true] (reception 2) (requestAuth 7) _ hrefused).2 (reception 4)
    (requestAuth 8)⟩

end Sample

end Anchor
