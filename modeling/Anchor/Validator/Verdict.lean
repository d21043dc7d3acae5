import Mathlib
import Anchor.Validator.PartialSignature
import Anchor.Validator.QbftLogic

/-!
# The verdict of the validator

The verdict on a message is a function of the context and of what the duty state
shows, and only an accepted message changes what it shows.  Everything that is
proved about runs of the validator goes through these two facts.
-/

namespace Anchor

open Ssz

inductive ValidatedSSVMessage where
  | qbftMessage (m : QbftMessage)
  | partialSignatureMessages (p : PartialSignatureMessages)
deriving DecidableEq

namespace DutyState

variable {n : ℕ}

theorem reads_operator {check : OperatorState n → Except ValidationFailure Unit}
    {seen : Observed → Except ValidationFailure Unit} {i : OperatorId}
    (h : ∀ d : DutyState n, check (d.operator i) = seen d.observed) :
    Checks.Reads observed (do let o ← getOrCreateOperator i; check o) seen :=
  ⟨h, fun d => observed_create d i⟩

theorem put_of_signerState {d : DutyState n} {i : OperatorId} {slot : ℕ} {st : SignerState}
    (h : d.observed.signerState i slot = some st) : d.observed.put n i st = d.observed := by
  obtain ⟨st', hst', rfl⟩ := Option.map_eq_some_iff.mp h
  have hslot : st'.slot = slot := OperatorState.slot_of_getSignerState hst'
  refine Observed.ext (fun j k => ?_) fun j => ?_
  · by_cases hj : j = i
    · subst hj
      rw [Observed.signerState_put_self, SignerState.slot_allocated, hslot]
      split_ifs with hk hmod
      · rw [hk, h]
      · cases hget : (d.operator j).getSignerState k with
        | none => simp [observed, hget]
        | some old => exact absurd (RingBuffer.eq_of_get hget hst' hmod) hk
      · rfl
    · exact Observed.signerState_put_ne hj k
  · by_cases hj : j = i
    · subst hj
      rw [Observed.maxSlot_put_self, SignerState.slot_allocated, hslot]
      exact max_eq_left ((d.operator j).slot_le hst')
    · exact Observed.maxSlot_put_ne hj

theorem getDutyCount_eq (d : DutyState n) (i : OperatorId) (epoch slotsPerEpoch : ℕ) :
    (d.operator i).getDutyCount epoch slotsPerEpoch =
      d.observed.dutyCount i epoch slotsPerEpoch := by
  simp [OperatorState.getDutyCount, Observed.dutyCount, observed]

end DutyState

namespace DutyContext

variable {K : Type} (ctx : DutyContext K)

/-! ## Consensus messages -/

section Verdict

variable (signed : SignedSSVMessage) (m : QbftMessage) (o : Observed)

def qbftLogic : Except ValidationFailure Unit := do
  ctx.validateLeader signed m
  Checks.forEach (fun i => ctx.validateSigner signed m (o.signerState i m.height.toNat))
    signed.operatorIds.toList
  ctx.validateSpread signed m

def slotAdvance : Except ValidationFailure Unit :=
  if ctx.role.isCommitteeRole then .ok ()
  else Checks.forEach (fun i => validateAdvance m (o.maxSlot i)) signed.operatorIds.toList

def dutyCountRule (msgId : MessageId) (slot : ℕ) (i : OperatorId) : Except ValidationFailure Unit :=
  ctx.checkDutyCount msgId slot (o.signerState i slot).isNone
    (o.dutyCount i (ctx.chain.epochOf slot) ctx.chain.slotsPerEpoch)

def dutyLogic : Except ValidationFailure Unit := do
  ctx.slotAdvance signed m o
  ctx.validateBeaconDuty signed.ssvMessage.msgId m.height.toNat false
  ctx.validateSlotTime m.height.toNat
  Checks.forEach (ctx.dutyCountRule o signed.ssvMessage.msgId m.height.toNat)
    signed.operatorIds.toList

omit m

def consensusVerdict : Except ValidationFailure QbftMessage := do
  match QbftMessage.fromSszBytes signed.ssvMessage.data.toList with
  | none => throw .undecodableMessageData
  | some m =>
    ctx.validateRoleForFork m.height.toNat
    ctx.validateConsensusMessageSemantics signed m
    ctx.qbftLogic signed m o
    ctx.dutyLogic signed m o
    ctx.verifyMessageSignatures signed
    return m

end Verdict

variable {n : ℕ} (signed : SignedSSVMessage) (m : QbftMessage)

theorem validateSigner_map_allocated (st : Option SignerState) :
    ctx.validateSigner signed m (st.map SignerState.allocated) =
      ctx.validateSigner signed m st := by
  cases st <;> rfl

theorem reads_validateQbftLogic :
    Checks.Reads DutyState.observed (ctx.validateQbftLogic (n := n) signed m)
      (ctx.qbftLogic signed m) :=
  (Checks.Reads.lift _).bind fun _ => (Checks.Reads.forM _ fun _ =>
    DutyState.reads_operator fun _ => (ctx.validateSigner_map_allocated signed m _).symm).bind
      fun _ => Checks.Reads.lift _

theorem reads_validateSlotAdvance :
    Checks.Reads DutyState.observed (ctx.validateSlotAdvance (n := n) signed m)
      (ctx.slotAdvance signed m) := by
  unfold validateSlotAdvance slotAdvance
  split_ifs
  · exact Checks.Reads.lift _
  · exact Checks.Reads.forM _ fun _ => DutyState.reads_operator fun _ => rfl

theorem validateDutyCount_eq (msgId : MessageId) (slot : ℕ) (d : DutyState n) (i : OperatorId) :
    ctx.validateDutyCount msgId slot (d.operator i) =
      ctx.dutyCountRule d.observed msgId slot i := by
  rw [validateDutyCount, dutyCountRule, DutyState.getDutyCount_eq]
  simp [OperatorState.isFirstMessageForDuty, DutyState.observed]

theorem reads_validateQbftMessageByDutyLogic :
    Checks.Reads DutyState.observed (ctx.validateQbftMessageByDutyLogic (n := n) signed m)
      (ctx.dutyLogic signed m) :=
  (ctx.reads_validateSlotAdvance signed m).bind fun _ => (Checks.Reads.lift _).bind fun _ =>
    (Checks.Reads.lift _).bind fun _ => Checks.Reads.forM _ fun _ =>
      DutyState.reads_operator fun d => ctx.validateDutyCount_eq _ _ d _

theorem reads_checkConsensusMessage :
    Checks.Reads DutyState.observed (ctx.checkConsensusMessage (n := n) signed)
      (ctx.consensusVerdict signed) := by
  unfold checkConsensusMessage consensusVerdict
  cases QbftMessage.fromSszBytes signed.ssvMessage.data.toList with
  | none => exact Checks.Reads.lift _
  | some m =>
    exact (Checks.Reads.lift _).bind fun _ => (Checks.Reads.lift _).bind fun _ =>
      (ctx.reads_validateQbftLogic signed m).bind fun _ =>
        (ctx.reads_validateQbftMessageByDutyLogic signed m).bind fun _ =>
          (Checks.Reads.lift _).bind fun _ => Checks.Reads.lift _

theorem runOn_validateConsensusMessage [NeZero n] (d : DutyState n) :
    ((ctx.validateConsensusMessage signed).runOn d).1 = ctx.consensusVerdict signed d.observed ∧
      ((ctx.validateConsensusMessage signed).runOn d).2.observed =
        match ctx.consensusVerdict signed d.observed with
        | .ok m => d.observed.recordConsensus n ctx.crypto.hashData signed m
        | .error _ => d.observed := by
  rcases (ctx.reads_checkConsensusMessage (n := n) signed).bind_cases
      (fun m => do
        modify (DutyState.updateForConsensusMessage ctx.crypto.hashData signed m)
        return m)
      d with ⟨e, d', hverdict, hview, hrun⟩ | ⟨m, d', hverdict, hview, hrun⟩
  · rw [validateConsensusMessage, hrun, hverdict]
    exact ⟨rfl, hview⟩
  · rw [validateConsensusMessage, hrun, hverdict, ← hview]
    exact ⟨rfl, DutyState.observed_updateForConsensusMessage _ _ _ d'⟩

/-! ## Packets of partial signatures -/

section Verdict

variable (o : Observed)

def operatorRules (p : PartialSignatureMessages) (i : OperatorId) :
    Except ValidationFailure Unit := do
  ctx.validateMonotonicSlot p (o.maxSlot i)
  ctx.validateBeaconDuty signed.ssvMessage.msgId p.slot.toNat (p.kind = .randaoPartialSig)
  validateCounts p (o.signerState i p.slot.toNat)
  ctx.validateSlotTime p.slot.toNat
  ctx.dutyCountRule o signed.ssvMessage.msgId p.slot.toNat i
  ctx.validateMessageCount p

def packetRules : Except ValidationFailure (PartialSignatureMessages × OperatorId) := do
  match PartialSignatureMessages.fromSszBytes ctx.chain.isSignature
      signed.ssvMessage.data.toList with
  | none => throw .undecodableMessageData
  | some p =>
    ctx.validateRoleForFork p.slot.toNat
    let signer ← ctx.validatePartialSignatureMessageSemantics signed p
    ctx.validateRegistration
    ctx.operatorRules signed o p signer
    ctx.verifySingleSigner signed signer
    return (p, signer)

def partialVerdict : Except ValidationFailure (PartialSignatureMessages × OperatorId) := do
  let (p, signer) ← ctx.packetRules signed o
  (o.entry signer p.slot.toNat).checkRoots p
  return (p, signer)

end Verdict

theorem reads_validateOperator (p : PartialSignatureMessages) (i : OperatorId) :
    Checks.Reads DutyState.observed
      (ctx.validatePartialSigMessagesByDutyLogic (n := n) signed p i)
      fun o => ctx.operatorRules signed o p i := by
  apply DutyState.reads_operator
  intro d
  have hcounts : validateCounts p ((d.operator i).getSignerState p.slot.toNat) =
      validateCounts p (d.observed.signerState i p.slot.toNat) := by
    simp only [DutyState.observed]
    cases (d.operator i).getSignerState p.slot.toNat <;> rfl
  rw [validateOperator, operatorRules, hcounts, ctx.validateDutyCount_eq]
  rfl

theorem reads_checkPartialSignatureMessage :
    Checks.Reads DutyState.observed (ctx.checkPartialSignatureMessage (n := n) signed)
      (ctx.packetRules signed) := by
  unfold checkPartialSignatureMessage packetRules
  cases PartialSignatureMessages.fromSszBytes ctx.chain.isSignature
      signed.ssvMessage.data.toList with
  | none => exact Checks.Reads.lift _
  | some p =>
    exact (Checks.Reads.lift _).bind fun _ => (Checks.Reads.lift _).bind fun i =>
      (Checks.Reads.lift _).bind fun _ => (ctx.reads_validateOperator signed p i).bind fun _ =>
        (Checks.Reads.lift _).bind fun _ => Checks.Reads.lift _

variable {o : Observed} {p : PartialSignatureMessages} {i : OperatorId}

theorem packetRules_eq_ok_iff :
    ctx.packetRules signed o = .ok (p, i) ↔
      PartialSignatureMessages.fromSszBytes ctx.chain.isSignature
        signed.ssvMessage.data.toList = some p ∧
      ctx.validateRoleForFork p.slot.toNat = .ok () ∧
      ctx.validatePartialSignatureMessageSemantics signed p = .ok i ∧
      ctx.validateRegistration = .ok () ∧ ctx.operatorRules signed o p i = .ok () ∧
      ctx.verifySingleSigner signed i = .ok () := by
  unfold packetRules
  cases PartialSignatureMessages.fromSszBytes ctx.chain.isSignature
      signed.ssvMessage.data.toList with
  | none => simp [throw, throwThe, MonadExceptOf.throw]
  | some p' =>
    simp only [Checks.bind_unit_eq_ok, Option.some.injEq]
    constructor
    · rintro ⟨hrole, hrest⟩
      obtain ⟨i', hsemantics, hrest⟩ := Checks.bind_eq_ok.mp hrest
      simp only [Checks.bind_unit_eq_ok] at hrest
      obtain ⟨hregistration, hrules, hverify, heq⟩ := hrest
      cases heq
      exact ⟨rfl, hrole, hsemantics, hregistration, hrules, hverify⟩
    · rintro ⟨rfl, hrole, hsemantics, hregistration, hrules, hverify⟩
      refine ⟨hrole, Checks.bind_eq_ok.mpr ⟨i, hsemantics, ?_⟩⟩
      simp only [Checks.bind_unit_eq_ok]
      exact ⟨hregistration, hrules, hverify, rfl⟩

theorem ne_nil_of_packetSigner
    (h : packetSigner p = .ok i) : p.messages.toList ≠ [] := by
  unfold packetSigner at h
  split at h
  · cases h
  · cases h
  · cases h
  · rename_i signer hvalidate
    exact PartialSignatureMessages.ne_nil_of_validate hvalidate

theorem semantics_eq_ok
    (h : ctx.validatePartialSignatureMessageSemantics signed p = .ok i) :
    signed.operatorIds.toList = [i] ∧ p.messages.toList ≠ [] ∧
      partialSignatureTypeMatchesRole p.kind ctx.role = true := by
  unfold validatePartialSignatureMessageSemantics at h
  split at h
  · rename_i signer hsigners
    simp only [Checks.bind_eq_ok, Checks.require_eq_ok_iff] at h
    obtain ⟨⟨⟩, -, ⟨⟩, htype, inner, hinner, -, -, -, -, -, -, heq⟩ := h
    cases heq
    exact ⟨hsigners, ne_nil_of_packetSigner hinner, htype⟩
  · cases h

theorem role_of_rootCap {kind : PartialSignatureKind} {role : Role} {cap : ℕ}
    (hcap : kind.rootCap = some cap) (htype : partialSignatureTypeMatchesRole kind role = true) :
    role = .proposerPreferences := by
  cases kind <;> cases role <;> first | rfl | (cases htype; done) | cases hcap

theorem length_le_rootCap {cap : ℕ}
    (hcap : p.kind.rootCap = some cap)
    (htype : partialSignatureTypeMatchesRole p.kind ctx.role = true)
    (hcount : p.messages.toList.length ≤ ctx.maxMessageCount p) :
    p.messages.toList.length ≤ cap := by
  have hrole := role_of_rootCap hcap htype
  refine hcount.trans ?_
  simp only [maxMessageCount, hrole, isRequestAuthBatchRoleKind]
  cases hkind : p.kind <;> rw [hkind] at hcap <;> cases hcap <;> decide

theorem checkRoots_fresh (hne : p.messages.toList ≠ [])
    (htype : partialSignatureTypeMatchesRole p.kind ctx.role = true)
    (hcount : p.messages.toList.length ≤ ctx.maxMessageCount p) (slot : ℕ) (round : UInt64) :
    (SignerState.new slot round).allocated.checkRoots p = .ok () := by
  unfold SignerState.checkRoots
  split
  · rfl
  · rename_i cap hcap
    have hseen : (SignerState.new slot round).allocated.seenRoots p.kind = ∅ := by
      simp [SignerState.seenRoots, SignerState.allocated, SignerState.new,
        SigningRootBudgets.default, SigningRootBudgets.roots]
    have hnew : (SignerState.new slot round).allocated.newRoots p =
        (p.messages.toList.map PartialSignatureMessage.signingRoot).toFinset := by
      rw [SignerState.newRoots, hseen, Finset.sdiff_empty]
    have hpos : (p.messages.toList.map PartialSignatureMessage.signingRoot).toFinset.card ≠ 0 := by
      simpa using hne
    have hle : (p.messages.toList.map PartialSignatureMessage.signingRoot).toFinset.card ≤ cap := by
      refine (List.toFinset_card_le _).trans ?_
      rw [List.length_map]
      exact ctx.length_le_rootCap hcap htype hcount
    simp only [hseen, hnew, Finset.card_empty, Nat.zero_add]
    rw [if_neg (by simpa using hne), if_neg hpos, if_neg (not_lt.mpr hle)]

theorem operatorRules_eq_ok_iff :
    ctx.operatorRules signed o p i = .ok () ↔
      ctx.validateMonotonicSlot p (o.maxSlot i) = .ok () ∧
      ctx.validateBeaconDuty signed.ssvMessage.msgId p.slot.toNat
        (p.kind = .randaoPartialSig) = .ok () ∧
      validateCounts p (o.signerState i p.slot.toNat) = .ok () ∧
      ctx.validateSlotTime p.slot.toNat = .ok () ∧
      ctx.dutyCountRule o signed.ssvMessage.msgId p.slot.toNat i = .ok () ∧
      ctx.validateMessageCount p = .ok () := by
  simp only [operatorRules, Checks.bind_unit_eq_ok]

theorem length_le_of_validateMessageCount
    (h : ctx.validateMessageCount p = .ok ()) :
    p.messages.toList.length ≤ ctx.maxMessageCount p := by
  simp only [validateMessageCount, Checks.bind_eq_ok, Checks.require_eq_ok_iff] at h
  obtain ⟨-, hle, -⟩ := h
  exact hle

theorem checkRoots_of_packetRules
    (h : ctx.packetRules signed o = .ok (p, i)) (hnone : o.signerState i p.slot.toNat = none) :
    (o.entry i p.slot.toNat).checkRoots p = .ok () := by
  obtain ⟨-, -, hsemantics, -, hrules, -⟩ := (ctx.packetRules_eq_ok_iff signed).mp h
  obtain ⟨-, hne, htype⟩ := ctx.semantics_eq_ok signed hsemantics
  obtain ⟨-, -, -, -, -, hcount⟩ := (ctx.operatorRules_eq_ok_iff signed).mp hrules
  rw [Observed.entry, hnone]
  exact ctx.checkRoots_fresh hne htype (ctx.length_le_of_validateMessageCount hcount) _ _

theorem partialVerdict_of_packetRules (h : ctx.packetRules signed o = .ok (p, i)) :
    ctx.partialVerdict signed o =
      match (o.entry i p.slot.toNat).checkRoots p with
      | .ok () => .ok (p, i)
      | .error e => .error e := by
  rw [partialVerdict, h]
  change ((o.entry i p.slot.toNat).checkRoots p >>= fun _ => _) = _
  cases (o.entry i p.slot.toNat).checkRoots p <;> rfl

/-- A packet that is refused changes nothing that shows, also when only its
signing roots exceed their budget. -/
theorem runOn_validatePartialSignatureMessage [NeZero n] (d : DutyState n) :
    ((ctx.validatePartialSignatureMessage signed).runOn d).1 =
        (ctx.partialVerdict signed d.observed).map Prod.fst ∧
      ((ctx.validatePartialSignatureMessage signed).runOn d).2.observed =
        match ctx.partialVerdict signed d.observed with
        | .ok (p, i) => d.observed.recordPartial n p i
        | .error _ => d.observed := by
  rcases (ctx.reads_checkPartialSignatureMessage (n := n) signed).bind_cases
      (fun x => do DutyState.updateForPartialSignature x.1 x.2; return x.1)
      d with ⟨e, d', hrules, hview, hrun⟩ | ⟨⟨p, i⟩, d', hrules, hview, hrun⟩
  · rw [validatePartialSignatureMessage, hrun, partialVerdict, hrules]
    exact ⟨rfl, hview⟩
  have hupdate := DutyState.runOn_updateForPartialSignature_observed d' p i
  rw [hview] at hupdate
  rw [validatePartialSignatureMessage, hrun, ctx.partialVerdict_of_packetRules signed hrules,
    Checks.runOn_bind]
  rcases hrecord : (DutyState.updateForPartialSignature p i).runOn d' with ⟨x, d''⟩
  rw [hrecord] at hupdate
  obtain ⟨rfl, hobserved⟩ := hupdate
  cases hcheck : (d.observed.entry i p.slot.toNat).checkRoots p with
  | ok u =>
    rw [hcheck] at hobserved
    exact ⟨rfl, hobserved⟩
  | error e =>
    rw [hcheck] at hobserved
    -- the entry of a refused packet was there before: a fresh one would have had room
    cases hst : d.observed.signerState i p.slot.toNat with
    | none =>
      rw [ctx.checkRoots_of_packetRules signed hrules hst] at hcheck
      cases hcheck
    | some st =>
      rw [Observed.entry, hst] at hobserved
      exact ⟨rfl, hobserved.trans (DutyState.put_of_signerState hst)⟩

/-! ## All messages -/

/-- Signers outside the committee are turned away before they can create state. -/
def validateCommittee : Except ValidationFailure Unit :=
  Checks.require (signed.operatorIds.toList.all ctx.committeeMembers.contains) .signerNotInCommittee

def validateByType [NeZero n] :
    Checks.Stateful (DutyState n) ValidationFailure ValidatedSSVMessage :=
  match signed.ssvMessage.msgType with
  | .ssvConsensusMsgType => do
      let m ← ctx.validateConsensusMessage signed
      return .qbftMessage m
  | .ssvPartialSignatureMsgType => do
      let p ← ctx.validatePartialSignatureMessage signed
      return .partialSignatureMessages p

def validateSsvMessage [NeZero n] :
    Checks.Stateful (DutyState n) ValidationFailure ValidatedSSVMessage := do
  ctx.validateCommittee signed
  ctx.validateByType signed

def verdictByType (o : Observed) : Except ValidationFailure ValidatedSSVMessage :=
  match signed.ssvMessage.msgType with
  | .ssvConsensusMsgType => (ctx.consensusVerdict signed o).map .qbftMessage
  | .ssvPartialSignatureMsgType =>
    (ctx.partialVerdict signed o).map fun x => .partialSignatureMessages x.1

def verdict (o : Observed) : Except ValidationFailure ValidatedSSVMessage := do
  ctx.validateCommittee signed
  ctx.verdictByType signed o

def record (n : ℕ) (o : Observed) : ValidatedSSVMessage → Observed
  | .qbftMessage m => o.recordConsensus n ctx.crypto.hashData signed m
  | .partialSignatureMessages p => signed.operatorIds.toList.foldl (Observed.recordPartial n p) o

theorem partialVerdict_eq_ok_iff :
    ctx.partialVerdict signed o = .ok (p, i) ↔ ctx.packetRules signed o = .ok (p, i) ∧
      (o.entry i p.slot.toNat).checkRoots p = .ok () := by
  unfold partialVerdict
  rw [Checks.bind_eq_ok]
  constructor
  · rintro ⟨⟨p', i'⟩, hrules, hrest⟩
    obtain ⟨⟨⟩, hroots, heq⟩ := Checks.bind_eq_ok.mp hrest
    cases heq
    exact ⟨hrules, hroots⟩
  · rintro ⟨hrules, hroots⟩
    exact ⟨(p, i), hrules, Checks.bind_unit_eq_ok.mpr ⟨hroots, rfl⟩⟩

theorem signers_of_partialVerdict
    (h : ctx.partialVerdict signed o = .ok (p, i)) :
    ctx.packetRules signed o = .ok (p, i) ∧ signed.operatorIds.toList = [i] := by
  obtain ⟨hrules, -⟩ := (ctx.partialVerdict_eq_ok_iff signed).mp h
  obtain ⟨-, -, hsemantics, -⟩ := (ctx.packetRules_eq_ok_iff signed).mp hrules
  exact ⟨hrules, (ctx.semantics_eq_ok signed hsemantics).1⟩

theorem runOn_validateByType [NeZero n] (d : DutyState n) :
    ((ctx.validateByType signed).runOn d).1 = ctx.verdictByType signed d.observed ∧
      ((ctx.validateByType signed).runOn d).2.observed =
        match ctx.verdictByType signed d.observed with
        | .ok x => ctx.record signed n d.observed x
        | .error _ => d.observed := by
  unfold validateByType verdictByType
  cases signed.ssvMessage.msgType with
  | ssvConsensusMsgType =>
    obtain ⟨hanswer, hobserved⟩ := ctx.runOn_validateConsensusMessage (n := n) signed d
    simp only [Checks.runOn_map, hanswer, hobserved]
    cases ctx.consensusVerdict signed d.observed <;> exact ⟨trivial, rfl⟩
  | ssvPartialSignatureMsgType =>
    obtain ⟨hanswer, hobserved⟩ := ctx.runOn_validatePartialSignatureMessage (n := n) signed d
    simp only [Checks.runOn_map, hanswer, hobserved]
    cases hverdict : ctx.partialVerdict signed d.observed with
    | error e => exact ⟨rfl, rfl⟩
    | ok x =>
      refine ⟨rfl, ?_⟩
      simp only [Except.map, record, (ctx.signers_of_partialVerdict signed hverdict).2]
      rfl

theorem runOn_validateSsvMessage [NeZero n] (d : DutyState n) :
    ((ctx.validateSsvMessage signed).runOn d).1 = ctx.verdict signed d.observed ∧
      ((ctx.validateSsvMessage signed).runOn d).2.observed =
        match ctx.verdict signed d.observed with
        | .ok x => ctx.record signed n d.observed x
        | .error _ => d.observed := by
  have hcommittee : Checks.Reads (DutyState.observed (n := n)) _ _ :=
    Checks.Reads.lift (ctx.validateCommittee signed)
  rcases hcommittee.bind_cases (fun _ => ctx.validateByType signed) d with
    ⟨e, d', hcheck, hview, hrun⟩ | ⟨u, d', hcheck, hview, hrun⟩
  · rw [validateSsvMessage, hrun, verdict, hcheck]
    exact ⟨rfl, hview⟩
  · rw [validateSsvMessage, hrun, verdict, hcheck, ← hview]
    exact ctx.runOn_validateByType signed d'

/-! ## When a message is accepted -/

variable {m : QbftMessage}

theorem qbftLogic_eq_ok_iff :
    ctx.qbftLogic signed m o = .ok () ↔ ctx.validateLeader signed m = .ok () ∧
      (∀ i ∈ signed.operatorIds.toList,
        ctx.validateSigner signed m (o.signerState i m.height.toNat) = .ok ()) ∧
      ctx.validateSpread signed m = .ok () := by
  simp only [qbftLogic, Checks.bind_unit_eq_ok, Checks.forEach_eq_ok_iff]

theorem dutyLogic_eq_ok_iff :
    ctx.dutyLogic signed m o = .ok () ↔ ctx.slotAdvance signed m o = .ok () ∧
      ctx.validateBeaconDuty signed.ssvMessage.msgId m.height.toNat false = .ok () ∧
      ctx.validateSlotTime m.height.toNat = .ok () ∧
      ∀ i ∈ signed.operatorIds.toList,
        ctx.dutyCountRule o signed.ssvMessage.msgId m.height.toNat i = .ok () := by
  simp only [dutyLogic, Checks.bind_unit_eq_ok, Checks.forEach_eq_ok_iff]

theorem consensusVerdict_eq_ok_iff :
    ctx.consensusVerdict signed o = .ok m ↔
      QbftMessage.fromSszBytes signed.ssvMessage.data.toList = some m ∧
      ctx.validateRoleForFork m.height.toNat = .ok () ∧
      ctx.validateConsensusMessageSemantics signed m = .ok () ∧
      ctx.qbftLogic signed m o = .ok () ∧ ctx.dutyLogic signed m o = .ok () ∧
      ctx.verifyMessageSignatures signed = .ok () := by
  unfold consensusVerdict
  cases QbftMessage.fromSszBytes signed.ssvMessage.data.toList with
  | none => simp [throw, throwThe, MonadExceptOf.throw]
  | some m' =>
    simp only [Checks.bind_unit_eq_ok, Option.some.injEq]
    constructor
    · rintro ⟨hrole, hsemantics, hqbft, hduty, hverify, heq⟩
      cases heq
      exact ⟨rfl, hrole, hsemantics, hqbft, hduty, hverify⟩
    · rintro ⟨rfl, hrole, hsemantics, hqbft, hduty, hverify⟩
      exact ⟨hrole, hsemantics, hqbft, hduty, hverify, rfl⟩

theorem verdict_qbftMessage_iff :
    ctx.verdict signed o = .ok (.qbftMessage m) ↔ ctx.validateCommittee signed = .ok () ∧
      signed.ssvMessage.msgType = .ssvConsensusMsgType ∧ ctx.consensusVerdict signed o = .ok m := by
  unfold verdict verdictByType
  rw [Checks.bind_unit_eq_ok]
  cases signed.ssvMessage.msgType with
  | ssvConsensusMsgType => cases ctx.consensusVerdict signed o <;> simp [Except.map]
  | ssvPartialSignatureMsgType => cases ctx.partialVerdict signed o <;> simp [Except.map]

theorem verdict_partialSignatureMessages_iff :
    ctx.verdict signed o = .ok (.partialSignatureMessages p) ↔
      ctx.validateCommittee signed = .ok () ∧
      signed.ssvMessage.msgType = .ssvPartialSignatureMsgType ∧
      ∃ i, ctx.partialVerdict signed o = .ok (p, i) := by
  unfold verdict verdictByType
  rw [Checks.bind_unit_eq_ok]
  cases signed.ssvMessage.msgType with
  | ssvConsensusMsgType => cases ctx.consensusVerdict signed o <;> simp [Except.map]
  | ssvPartialSignatureMsgType =>
    cases ctx.partialVerdict signed o with
    | error e => simp [Except.map]
    | ok x => simp [Except.map, Prod.ext_iff]

end DutyContext

end Anchor
