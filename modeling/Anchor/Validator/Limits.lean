import Mathlib
import Anchor.Validator.Entries

/-!
# Limits of what a signer may send

The rules against repetition look at the entry of the signer in the slot.  They
bind for as long as the entry lasts: one message of each type in a round, without
exception.  Decided messages and packets of partial signatures are remembered in
the same entry although their limits are meant for the whole duty, so a higher
round lifts them.
-/

namespace Anchor

open Ssz

/-! ## Views with something forgotten -/

namespace Observed

def mapEntries (f : SignerState → SignerState) (o : Observed) : Observed where
  signerState i slot := (o.signerState i slot).map f
  maxSlot := o.maxSlot

variable (f : SignerState → SignerState) (o : Observed)

theorem signerState_mapEntries (i : OperatorId) (slot : ℕ) :
    (o.mapEntries f).signerState i slot = (o.signerState i slot).map f := rfl

theorem dutyCount_mapEntries (i : OperatorId) (epoch slotsPerEpoch : ℕ) :
    (o.mapEntries f).dutyCount i epoch slotsPerEpoch = o.dutyCount i epoch slotsPerEpoch := by
  simp [dutyCount, signerState_mapEntries]

/-- What would be shown if decided messages left no signers. -/
def forgetDecided : Observed := o.mapEntries fun st => { st with seenSigners := ∅ }

/-- What would be shown if partial signatures were not counted. -/
def forgetCounted : Observed := o.mapEntries fun st =>
  { st with messageCounts := { st.messageCounts with preConsensus := 0, postConsensus := 0 } }

end Observed

namespace DutyContext

variable {K : Type} (ctx : DutyContext K) (signed : SignedSSVMessage)

theorem dutyCountRule_mapEntries (f : SignerState → SignerState) (o : Observed) (msgId : MessageId)
    (slot : ℕ) (i : OperatorId) :
    ctx.dutyCountRule (o.mapEntries f) msgId slot i = ctx.dutyCountRule o msgId slot i := by
  rw [dutyCountRule, dutyCountRule, Observed.dutyCount_mapEntries, Observed.signerState_mapEntries,
    Option.isNone_map]

theorem dutyLogic_mapEntries (f : SignerState → SignerState) (o : Observed) (m : QbftMessage) :
    ctx.dutyLogic signed m (o.mapEntries f) = ctx.dutyLogic signed m o := by
  have hcount : ctx.dutyCountRule (o.mapEntries f) signed.ssvMessage.msgId m.height.toNat =
      ctx.dutyCountRule o signed.ssvMessage.msgId m.height.toNat :=
    funext (ctx.dutyCountRule_mapEntries f o _ _)
  rw [dutyLogic, dutyLogic, hcount]
  rfl

/-! ## One message of each type in a round -/

theorem counted_entryAfter {o : Observed} {m : QbftMessage} {i : OperatorId}
    (hsigners : signed.operatorIds.toList = [i])
    (h : ctx.verdict signed o = .ok (.qbftMessage m)) :
    (ctx.entryAfter signed o i (.qbftMessage m)).round = m.round ∧
      (ctx.entryAfter signed o i (.qbftMessage m)).messageCounts.ofType m.qbftMessageType = 1 := by
  have hi : i ∈ signed.operatorIds.toList := by simp [hsigners]
  have hlength : signed.operatorIds.toList.length = 1 := by simp [hsigners]
  rcases entryAfter_cases (List.ne_nil_of_mem hi) h hi with ⟨m', heq, -, hentry⟩ |
    ⟨m', st, heq, hst, hround, hzero, hentry⟩ | ⟨p, heq, -⟩
  · cases heq
    rw [hentry]
    refine ⟨rfl, ?_⟩
    simp only [SignerState.update, MessageCounts.ofType_recordConsensusMessage]
    rw [if_pos ⟨trivial, fun _ => hlength⟩]
    change MessageCounts.default.ofType m.qbftMessageType + 1 = 1
    rw [MessageCounts.ofType_default]
    rfl
  · cases heq
    obtain ⟨-, -, hverdict⟩ := (ctx.verdict_qbftMessage_iff signed).mp h
    obtain ⟨-, -, -, hlogic, -, -⟩ := (ctx.consensusVerdict_eq_ok_iff signed).mp hverdict
    have hsigner := ((ctx.qbftLogic_eq_ok_iff signed).mp hlogic).2.1 i hi
    rw [show o.signerState i m.height.toNat = some st from hst] at hsigner
    have hle := ((validateSignerState_eq_ok hsigner).1 hlength).1
    rw [hentry]
    refine ⟨UInt64.le_antisymm hle hround, ?_⟩
    simp only [SignerState.update, MessageCounts.ofType_recordConsensusMessage]
    rw [if_pos ⟨trivial, fun _ => hlength⟩, hzero fun _ => hlength]
    rfl
  · cases heq

theorem entry_of_verdict {o : Observed} {m : QbftMessage} {i : OperatorId} {st : SignerState}
    (hsigners : signed.operatorIds.toList = [i])
    (h : ctx.verdict signed o = .ok (.qbftMessage m))
    (hst : o.signerState i m.height.toNat = some st) :
    st.round ≤ m.round ∧
      (m.round = st.round → st.messageCounts.ofType m.qbftMessageType = 0) := by
  obtain ⟨-, -, hverdict⟩ := (ctx.verdict_qbftMessage_iff signed).mp h
  obtain ⟨-, -, -, hlogic, -, -⟩ := (ctx.consensusVerdict_eq_ok_iff signed).mp hverdict
  have hsigner := ((ctx.qbftLogic_eq_ok_iff signed).mp hlogic).2.1 i (by simp [hsigners])
  rw [hst] at hsigner
  exact (validateSignerState_eq_ok hsigner).1 (by simp [hsigners])

end DutyContext

namespace Validator

variable {K : Type} {cfg : ValidatorConfig K}

theorem limited_getSignerState (es : List (Event K)) {id : MessageId} {i : OperatorId} {slot : ℕ}
    {st : SignerState}
    (hst : ((((new cfg).run es).getDutyState id).operator i).getSignerState slot = some st) :
    st.Limited := by
  have hentry : ((new cfg).run es).entryOf id i slot = some st.allocated := by
    rw [entryOf, observed, DutyState.signerState_observed, hst, Option.map_some]
  obtain ⟨htype, hphase⟩ := limited_run es hentry
  exact ⟨htype, hphase⟩

/-- While an entry is retained, the accepted messages of its signer never step back
to a lower round and repeat no type in a round; and no counter exceeds one. -/
theorem one_message_of_each_type (before : List (Event K)) :
    (∀ id i slot st,
      ((((new cfg).run before).getDutyState id).operator i).getSignerState slot = some st →
        (∀ t, st.messageCounts.ofType t ≤ 1) ∧ ∀ phase, st.messageCounts.ofPhase phase ≤ 1) ∧
    ∀ r signed m i later r' signed' m',
      ((new cfg).run before).answer r signed = .ok (.qbftMessage m) →
      signed.operatorIds.toList = [i] →
      ((new cfg).run (before ++ [.receive r signed])).Throughout
        (fun v => (v.entryOf signed.ssvMessage.msgId i m.height.toNat).isSome) later →
      ((new cfg).run (before ++ [.receive r signed] ++ later)).answer r' signed' =
        .ok (.qbftMessage m') →
      signed'.operatorIds.toList = [i] →
      signed'.ssvMessage.msgId = signed.ssvMessage.msgId → m'.height = m.height →
        m.round ≤ m'.round ∧ (m'.round = m.round → m'.qbftMessageType ≠ m.qbftMessageType) := by
  refine ⟨fun id i slot st hst => ?_, ?_⟩
  · obtain ⟨htype, hphase⟩ := limited_getSignerState before hst
    exact ⟨htype, hphase⟩
  intro r signed m i later r' signed' m' hfirst hsigners hretained hsecond hsigners' hid hheight
  obtain ⟨ctx, haccepts⟩ := answer_eq_ok_iff.mp hfirst
  obtain ⟨ctx', haccepts'⟩ := answer_eq_ok_iff.mp hsecond
  obtain ⟨hround, hcount⟩ := ctx.counted_entryAfter signed hsigners haccepts.verdict_eq
  have hentry := entryOf_of_accepts haccepts (show i ∈ signed.operatorIds.toList by simp [hsigners])
  rw [run_append] at hretained
  obtain ⟨st, hst, hevolves⟩ := evolves_run hretained hentry
  have hlast : (((new cfg).run (before ++ [.receive r signed] ++ later)).observed
      signed'.ssvMessage.msgId).signerState i m'.height.toNat = some st := by
    rw [run_append, run_append, hid, hheight]
    exact hst
  obtain ⟨hle, hzero⟩ := ctx'.entry_of_verdict signed' hsigners' haccepts'.verdict_eq hlast
  refine ⟨hround ▸ UInt64.le_trans hevolves.round_le hle, fun hsame htype => ?_⟩
  -- the second message meets the round of the first, so the entry has only grown
  have hst_round : st.round = (ctx.entryAfter signed _ i (.qbftMessage m)).round :=
    UInt64.le_antisymm (hround.symm ▸ hsame ▸ hle) hevolves.round_le
  have hgrown := (hevolves.grows hst_round).ofType_le m.qbftMessageType
  rw [hcount, ← htype, hzero (hsame.trans (hround.symm.trans hst_round.symm))] at hgrown
  exact absurd hgrown (by decide)

end Validator

namespace Sample

def ownVote (t : QbftMessageType) (round : UInt64) : SignedSSVMessage :=
  vote t round ⟨[⟨1⟩], length_first_le⟩

/-- A prepare and then a commit of operator 1 in the first round. -/
theorem one_message_of_each_type_prepare :
    (Validator.new validatorConfig).answer (reception 1) (ownVote .prepare 1) =
      .ok (.qbftMessage (message .prepare 1 Hash256.default)) ∧
    ((Validator.new validatorConfig).run [.receive (reception 1) (ownVote .prepare 1)]).answer
        (reception 2) (ownVote .commit 1) =
      .ok (.qbftMessage (message .commit 1 Hash256.default)) ∧
    (message .prepare 1 Hash256.default).round ≤ (message .commit 1 Hash256.default).round := by
  have hfirst : (Validator.new validatorConfig).answer (reception 1) (ownVote .prepare 1) =
      .ok (.qbftMessage (message .prepare 1 Hash256.default)) := by
    decide +kernel
  have hsecond : ((Validator.new validatorConfig).run
      [.receive (reception 1) (ownVote .prepare 1)]).answer (reception 2) (ownVote .commit 1) =
      .ok (.qbftMessage (message .commit 1 Hash256.default)) := by
    decide +kernel
  exact ⟨hfirst, hsecond, ((Validator.one_message_of_each_type []).2 _ _ _ ⟨1⟩ [] _ _ _ hfirst rfl
    (by decide +kernel) hsecond rfl rfl rfl).1⟩

end Sample

/-! ## Decided messages -/

namespace DutyContext

variable {K : Type} (ctx : DutyContext K) (signed : SignedSSVMessage)

variable {m : QbftMessage}

theorem validateSigner_decided_iff {st : Option SignerState}
    (hmulti : 1 < signed.operatorIds.toList.length) :
    ctx.validateSigner signed m st = .ok () ↔ ∀ s, st = some s →
      s.hasSeenSigners ctx.crypto.hashData signed.operatorIds.toList = false := by
  cases st with
  | none => simp [validateSigner]
  | some s =>
    simp only [validateSigner, validateSignerState, if_neg hmulti.ne', Option.some.injEq,
      forall_eq']
    split_ifs with hseen
    · simp [hseen.2]
    · simpa [hmulti] using hseen

theorem verdict_decided_iff {o : Observed}
    (hmulti : 1 < signed.operatorIds.toList.length) :
    ctx.verdict signed o = .ok (.qbftMessage m) ↔
      (∀ i ∈ signed.operatorIds.toList, ∀ st, o.signerState i m.height.toNat = some st →
        st.hasSeenSigners ctx.crypto.hashData signed.operatorIds.toList = false) ∧
      ctx.verdict signed o.forgetDecided = .ok (.qbftMessage m) := by
  have hforget : ∀ i ∈ signed.operatorIds.toList, ctx.validateSigner signed m
      (o.forgetDecided.signerState i m.height.toNat) = .ok () := by
    intro i hi
    rw [ctx.validateSigner_decided_iff signed hmulti]
    intro st hst
    obtain ⟨st', -, rfl⟩ := Option.map_eq_some_iff.mp hst
    simp [SignerState.hasSeenSigners]
  have hlogic : ctx.dutyLogic signed m o.forgetDecided = ctx.dutyLogic signed m o :=
    ctx.dutyLogic_mapEntries signed _ o m
  simp only [verdict_qbftMessage_iff, consensusVerdict_eq_ok_iff, qbftLogic_eq_ok_iff, hlogic,
    ctx.validateSigner_decided_iff signed hmulti] at hforget ⊢
  tauto

theorem hasSeenSigners_entryAfter (o : Observed) (i : OperatorId)
    (hmulti : 1 < signed.operatorIds.toList.length) :
    CommitteeId.ofSlice ctx.crypto.hashData signed.operatorIds.toList ∈
      (ctx.entryAfter signed o i (.qbftMessage m)).seenSigners := by
  have hupdate : ∀ st : SignerState, CommitteeId.ofSlice ctx.crypto.hashData
      signed.operatorIds.toList ∈ (st.update ctx.crypto.hashData signed m).seenSigners := by
    intro st
    simp only [SignerState.update, if_pos hmulti]
    exact Finset.mem_insert_self _ _
  simp only [entryAfter, Observed.next]
  split
  · exact hupdate _
  · split_ifs
    · exact hupdate _
    · exact hupdate _

end DutyContext

namespace Validator

variable {K : Type} {cfg : ValidatorConfig K}

/-- The entry of one of the signers has seen the signers of a decided message, in
the order in which the message lists them. -/
def RemembersSigners (v : Validator cfg) (signed : SignedSSVMessage) (m : QbftMessage) : Prop :=
  ∃ i ∈ signed.operatorIds.toList, ∃ st,
    v.entryOf signed.ssvMessage.msgId i m.height.toNat = some st ∧
    st.hasSeenSigners cfg.crypto.hashData signed.operatorIds.toList = true

/-- The message would be accepted if decided messages left no signers behind. -/
def AllowedButForDecided (v : Validator cfg) (r : Reception K) (signed : SignedSSVMessage)
    (m : QbftMessage) : Prop :=
  ∃ ctx, cfg.contextOf r signed = .ok ctx ∧
    ctx.verdict signed (v.observed signed.ssvMessage.msgId).forgetDecided = .ok (.qbftMessage m)

theorem decided_accepted_iff (v : Validator cfg) (r : Reception K) {signed : SignedSSVMessage}
    (m : QbftMessage) (hmulti : 1 < signed.operatorIds.toList.length) :
    v.answer r signed = .ok (.qbftMessage m) ↔
      ¬ v.RemembersSigners signed m ∧ v.AllowedButForDecided r signed m := by
  rw [answer_eq_ok_iff]
  constructor
  · rintro ⟨ctx, hctx, hverdict⟩
    obtain ⟨hseen, hrest⟩ := (ctx.verdict_decided_iff signed hmulti).mp hverdict
    refine ⟨?_, ctx, hctx, hrest⟩
    rintro ⟨i, hi, st, hst, hsigners⟩
    rw [← (contextOf_eq_ok hctx).2.2.1, hseen i hi st hst] at hsigners
    cases hsigners
  · rintro ⟨hseen, ctx, hctx, hrest⟩
    refine ⟨ctx, hctx, (ctx.verdict_decided_iff signed hmulti).mpr ⟨fun i hi st hst => ?_, hrest⟩⟩
    by_contra hsigners
    rw [Bool.not_eq_false, (contextOf_eq_ok hctx).2.2.1] at hsigners
    exact hseen ⟨i, hi, st, hst, hsigners⟩

theorem grows_run {v : Validator cfg} {es : List (Event K)} {id : MessageId} {i : OperatorId}
    {slot : ℕ} {st : SignerState}
    {round : UInt64}
    (hkept : v.Throughout (fun w => (w.entryOf id i slot).map SignerState.round = some round) es)
    (hst : v.entryOf id i slot = some st) :
    ∃ st', (v.run es).entryOf id i slot = some st' ∧ st.Grows st' := by
  have hretained : v.Throughout (fun w => (w.entryOf id i slot).isSome) es :=
    hkept.imp fun w hw => Option.isSome_map (f := SignerState.round) ▸ hw ▸ rfl
  obtain ⟨st', hst', hevolves⟩ := evolves_run hretained hst
  have hfirst := hkept.first
  have hlast := hkept.last
  rw [hst, Option.map_some, Option.some.injEq] at hfirst
  rw [hst', Option.map_some, Option.some.injEq] at hlast
  exact ⟨st', hst', hevolves.grows (hlast.trans hfirst.symm)⟩

/-- When a message with the signers of an accepted decided message is accepted: all
other rules must allow it, and the signers must be forgotten or listed in another
order.  They are not forgotten while the entry of one of them keeps its round. -/
theorem decided_replay_accepted_iff (before later : List (Event K)) (r r' : Reception K)
    (signed signed' : SignedSSVMessage) (m m' : QbftMessage)
    (haccepted : ((new cfg).run before).answer r signed = .ok (.qbftMessage m))
    (hmulti : 1 < signed.operatorIds.toList.length)
    (hid : signed'.ssvMessage.msgId = signed.ssvMessage.msgId) (hheight : m'.height = m.height)
    (hperm : signed'.operatorIds.toList.Perm signed.operatorIds.toList) :
    (((new cfg).run (before ++ [.receive r signed] ++ later)).answer r' signed' =
        .ok (.qbftMessage m') ↔
      ¬ ((new cfg).run (before ++ [.receive r signed] ++ later)).RemembersSigners signed' m' ∧
      ((new cfg).run (before ++ [.receive r signed] ++ later)).AllowedButForDecided r' signed' m') ∧
    (CommitteeId.ofSlice cfg.crypto.hashData signed'.operatorIds.toList =
        CommitteeId.ofSlice cfg.crypto.hashData signed.operatorIds.toList →
      (∃ i ∈ signed.operatorIds.toList, ∃ round,
        ((new cfg).run (before ++ [.receive r signed])).Throughout (fun v =>
          (v.entryOf signed.ssvMessage.msgId i m.height.toNat).map SignerState.round = some round)
          later) →
      ((new cfg).run (before ++ [.receive r signed] ++ later)).RemembersSigners signed' m') := by
  refine ⟨decided_accepted_iff _ r' m' (hperm.length_eq ▸ hmulti), ?_⟩
  rintro hdigest ⟨i, hi, round, hkept⟩
  obtain ⟨ctx, haccepts⟩ := answer_eq_ok_iff.mp haccepted
  have hentry := entryOf_of_accepts haccepts hi
  have hseen := ctx.hasSeenSigners_entryAfter (m := m) signed
    (((new cfg).run before).observed signed.ssvMessage.msgId) i hmulti
  rw [run_append] at hkept
  obtain ⟨st, hst, hgrows⟩ := grows_run hkept hentry
  refine ⟨i, hperm.mem_iff.mpr hi, st, ?_, ?_⟩
  · rw [run_append, run_append, hid, hheight]
    exact hst
  · rw [SignerState.hasSeenSigners, hdigest, decide_eq_true_iff,
      ← (contextOf_eq_ok haccepts.context_eq).2.2.1]
    exact hgrows.seenSigners_subset hseen

end Validator

namespace Sample

def decided (signers : VariableList OperatorId 13) : SignedSSVMessage := vote .commit 1 signers

/-- The same signers in the same order, right after. -/
theorem decided_replay_accepted_iff_ordered :
    (Validator.new validatorConfig).answer (reception 1) (decided ⟨[⟨1⟩, ⟨2⟩, ⟨3⟩], by decide⟩) =
      .ok (.qbftMessage (message .commit 1 Hash256.default)) ∧
    ((Validator.new validatorConfig).run
      [.receive (reception 1) (decided ⟨[⟨1⟩, ⟨2⟩, ⟨3⟩], by decide⟩)]).RemembersSigners
        (decided ⟨[⟨1⟩, ⟨2⟩, ⟨3⟩], by decide⟩) (message .commit 1 Hash256.default) := by
  have haccepted : (Validator.new validatorConfig).answer (reception 1)
      (decided ⟨[⟨1⟩, ⟨2⟩, ⟨3⟩], by decide⟩) =
        .ok (.qbftMessage (message .commit 1 Hash256.default)) := by
    decide +kernel
  exact ⟨haccepted, (Validator.decided_replay_accepted_iff [] [] _ (reception 2) _ _ _ _ haccepted
    (by decide) rfl rfl (List.Perm.refl _)).2 rfl ⟨⟨1⟩, by decide, 1, by decide +kernel⟩⟩

/-- The same signers in another order: both messages are accepted. -/
theorem decided_replay_accepted_reordered :
    (Validator.new validatorConfig).answer (reception 1) (decided ⟨[⟨1⟩, ⟨2⟩, ⟨3⟩], by decide⟩) =
      .ok (.qbftMessage (message .commit 1 Hash256.default)) ∧
    ((Validator.new validatorConfig).run
      [.receive (reception 1) (decided ⟨[⟨1⟩, ⟨2⟩, ⟨3⟩], by decide⟩)]).answer (reception 2)
        (decided ⟨[⟨2⟩, ⟨1⟩, ⟨3⟩], by decide⟩) =
      .ok (.qbftMessage (message .commit 1 Hash256.default)) := by
  decide +kernel

end Sample

/-! ## Packets of partial signatures -/

namespace DutyContext

variable {K : Type} (ctx : DutyContext K) (signed : SignedSSVMessage)

variable {p : PartialSignatureMessages} {phase : CountedPhase}

theorem validateCounts_eq_ok_iff {st : Option SignerState} (hphase : p.kind.phase = some phase) :
    validateCounts p st = .ok () ↔ ∀ s, st = some s → s.messageCounts.ofPhase phase = 0 := by
  cases st with
  | none => simp [validateCounts]
  | some s => simp [validateCounts, MessageCounts.validatePartialSignatureMessage_eq_ok, hphase]

theorem checkRoots_forgetCounted (o : Observed) (i : OperatorId) (slot : ℕ)
    (p : PartialSignatureMessages) :
    (o.forgetCounted.entry i slot).checkRoots p = (o.entry i slot).checkRoots p := by
  rw [Observed.entry, Observed.entry, Observed.forgetCounted, Observed.signerState_mapEntries]
  cases o.signerState i slot <;> rfl

theorem ofPhase_forgetCounted {o : Observed} {i : OperatorId} {slot : ℕ} {st : SignerState}
    (h : o.forgetCounted.signerState i slot = some st) (phase : CountedPhase) :
    st.messageCounts.ofPhase phase = 0 := by
  obtain ⟨st', -, rfl⟩ := Option.map_eq_some_iff.mp h
  cases phase <;> rfl

theorem partialVerdict_iff_forgetCounted {i : OperatorId}
    {o : Observed} (hphase : p.kind.phase = some phase) :
    ctx.partialVerdict signed o = .ok (p, i) ↔
      (∀ st, o.signerState i p.slot.toNat = some st → st.messageCounts.ofPhase phase = 0) ∧
      ctx.partialVerdict signed o.forgetCounted = .ok (p, i) := by
  have hforget : ∀ st, o.forgetCounted.signerState i p.slot.toNat = some st →
      st.messageCounts.ofPhase phase = 0 := fun st hst => ofPhase_forgetCounted hst phase
  have hduty : ctx.dutyCountRule o.forgetCounted signed.ssvMessage.msgId p.slot.toNat i =
      ctx.dutyCountRule o signed.ssvMessage.msgId p.slot.toNat i :=
    ctx.dutyCountRule_mapEntries _ o _ _ i
  have hmax : o.forgetCounted.maxSlot i = o.maxSlot i := rfl
  simp only [partialVerdict_eq_ok_iff, packetRules_eq_ok_iff, operatorRules_eq_ok_iff, hduty, hmax,
    checkRoots_forgetCounted, validateCounts_eq_ok_iff hphase]
  tauto

theorem counted_recordPartialSignature (st : SignerState) (hphase : p.kind.phase = some phase)
    (hzero : st.messageCounts.ofPhase phase = 0) :
    (st.recordPartialSignature p).allocated.messageCounts.ofPhase phase = 1 := by
  change (st.messageCounts.recordPartialSignature p.kind).ofPhase phase = 1
  rw [MessageCounts.ofPhase_recordPartialSignature, if_pos hphase, hzero]
  rfl

end DutyContext

namespace Validator

variable {K : Type} {cfg : ValidatorConfig K}

def CountsPacket (v : Validator cfg) (id : MessageId) (i : OperatorId) (slot : ℕ)
    (phase : CountedPhase) : Prop :=
  ∃ st, v.entryOf id i slot = some st ∧ st.messageCounts.ofPhase phase ≠ 0

/-- The packet would be accepted if packets were not counted. -/
def AllowedButForCounts (v : Validator cfg) (r : Reception K) (signed : SignedSSVMessage)
    (p : PartialSignatureMessages) : Prop :=
  ∃ ctx, cfg.contextOf r signed = .ok ctx ∧
    ctx.verdict signed (v.observed signed.ssvMessage.msgId).forgetCounted =
      .ok (.partialSignatureMessages p)

theorem packet_accepted_iff (v : Validator cfg) (r : Reception K) {signed : SignedSSVMessage}
    {p : PartialSignatureMessages} {i : OperatorId} {phase : CountedPhase}
    (hsigners : signed.operatorIds.toList = [i]) (hphase : p.kind.phase = some phase) :
    v.answer r signed = .ok (.partialSignatureMessages p) ↔
      ¬ v.CountsPacket signed.ssvMessage.msgId i p.slot.toNat phase ∧
        v.AllowedButForCounts r signed p := by
  have hsigner : ∀ {ctx : DutyContext K} {o : Observed} {j : OperatorId},
      ctx.partialVerdict signed o = .ok (p, j) → j = i := by
    intro ctx o j h
    have hj := (ctx.signers_of_partialVerdict signed h).2
    rw [hsigners] at hj
    exact (List.singleton_injective hj).symm
  rw [answer_eq_ok_iff]
  constructor
  · rintro ⟨ctx, hctx, hverdict⟩
    obtain ⟨hcommittee, htype, j, hpartial⟩ :=
      (ctx.verdict_partialSignatureMessages_iff signed).mp hverdict
    cases hsigner hpartial
    obtain ⟨hcounts, hrest⟩ := (ctx.partialVerdict_iff_forgetCounted signed hphase).mp hpartial
    refine ⟨fun ⟨st, hst, hne⟩ => hne (hcounts st hst), ctx, hctx, ?_⟩
    exact (ctx.verdict_partialSignatureMessages_iff signed).mpr ⟨hcommittee, htype, i, hrest⟩
  · rintro ⟨hcounts, ctx, hctx, hverdict⟩
    obtain ⟨hcommittee, htype, j, hrest⟩ :=
      (ctx.verdict_partialSignatureMessages_iff signed).mp hverdict
    cases hsigner hrest
    refine ⟨ctx, hctx, (ctx.verdict_partialSignatureMessages_iff signed).mpr
      ⟨hcommittee, htype, i, (ctx.partialVerdict_iff_forgetCounted signed hphase).mpr
        ⟨fun st hst => ?_, hrest⟩⟩⟩
    by_contra hne
    exact hcounts ⟨st, hst, hne⟩

/-- When a second packet of a signer, slot and phase is accepted: all other rules
must allow it, and the first must be forgotten.  It is not forgotten while the entry
of the signer keeps its round. -/
theorem second_packet_accepted_iff (before later : List (Event K)) (r r' : Reception K)
    (signed signed' : SignedSSVMessage) (p p' : PartialSignatureMessages) (i : OperatorId)
    (phase : CountedPhase)
    (haccepted : ((new cfg).run before).answer r signed = .ok (.partialSignatureMessages p))
    (hsigners : signed.operatorIds.toList = [i]) (hphase : p.kind.phase = some phase)
    (hid : signed'.ssvMessage.msgId = signed.ssvMessage.msgId) (hslot : p'.slot = p.slot)
    (hsigners' : signed'.operatorIds.toList = [i]) (hphase' : p'.kind.phase = some phase) :
    (((new cfg).run (before ++ [.receive r signed] ++ later)).answer r' signed' =
        .ok (.partialSignatureMessages p') ↔
      ¬ ((new cfg).run (before ++ [.receive r signed] ++ later)).CountsPacket
          signed.ssvMessage.msgId i p.slot.toNat phase ∧
      ((new cfg).run (before ++ [.receive r signed] ++ later)).AllowedButForCounts
          r' signed' p') ∧
    ((∃ round, ((new cfg).run (before ++ [.receive r signed])).Throughout (fun v =>
        (v.entryOf signed.ssvMessage.msgId i p.slot.toNat).map SignerState.round = some round)
        later) →
      ((new cfg).run (before ++ [.receive r signed] ++ later)).CountsPacket
        signed.ssvMessage.msgId i p.slot.toNat phase) := by
  refine ⟨hid ▸ hslot ▸ packet_accepted_iff _ r' hsigners' hphase', ?_⟩
  rintro ⟨round, hkept⟩
  obtain ⟨ctx, haccepts⟩ := answer_eq_ok_iff.mp haccepted
  have hi : i ∈ signed.operatorIds.toList := by simp [hsigners]
  have hentry := entryOf_of_accepts haccepts hi
  rw [run_append] at hkept
  obtain ⟨st, hst, hgrows⟩ := grows_run hkept hentry
  refine ⟨st, ?_, ?_⟩
  · rw [run_append, run_append]
    exact hst
  · rcases DutyContext.entryAfter_cases haccepts.signers_ne_nil haccepts.verdict_eq hi with
      ⟨m, heq, -⟩ | ⟨m, st', heq, -⟩ | ⟨q, heq, hzero, hafter⟩
    · cases heq
    · cases heq
    · cases heq
      have hle := hgrows.ofPhase_le phase
      rw [hafter, DutyContext.counted_recordPartialSignature _ hphase (hzero phase hphase)] at hle
      intro hne
      rw [hne] at hle
      exact absurd hle (by decide)

end Validator

namespace Sample

def postConsensus : SignedSSVMessage := packet identifier .postConsensus 0 ⟨1⟩ 7

def postConsensusMessages : PartialSignatureMessages :=
  ⟨.postConsensus, 0, ⟨[partialSignature ⟨1⟩ 7], length_firstSignature_le⟩⟩

/-- The same packet right after. -/
theorem second_packet_accepted_iff_postConsensus :
    (Validator.new validatorConfig).answer (reception 1) postConsensus =
      .ok (.partialSignatureMessages postConsensusMessages) ∧
    ((Validator.new validatorConfig).run [.receive (reception 1) postConsensus]).CountsPacket
      identifier ⟨1⟩ 0 .postConsensus := by
  have haccepted : (Validator.new validatorConfig).answer (reception 1) postConsensus =
      .ok (.partialSignatureMessages postConsensusMessages) := by
    decide +kernel
  exact ⟨haccepted, (Validator.second_packet_accepted_iff [] [] _ (reception 2) _ postConsensus _
    postConsensusMessages ⟨1⟩ .postConsensus haccepted rfl rfl rfl rfl rfl rfl).2
    ⟨1, by decide +kernel⟩⟩

/-- A round change lies between two packets: both are accepted. -/
theorem second_packet_accepted_roundChange :
    (Validator.new validatorConfig).answer (reception 1) postConsensus =
      .ok (.partialSignatureMessages postConsensusMessages) ∧
    ((Validator.new validatorConfig).run [.receive (reception 1) postConsensus,
        .receive (reception 2) (ownVote .roundChange 2)]).answer (reception 3) postConsensus =
      .ok (.partialSignatureMessages postConsensusMessages) := by
  decide +kernel

end Sample

end Anchor
