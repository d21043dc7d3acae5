import Mathlib
import Anchor.Validator.DutyCount

/-!
# The cleaner

A run with cleaning and the run of the same messages without it are compared.  The
cleaned validator lacks entries of stale slots only, and its highest slots differ
only where they are stale.  No rule asks about these for a message that is not late,
so both validators accept the same messages; a late message is refused by both, but
not always for the same reason.
-/

namespace Anchor

open Ssz

/-! ## What a verdict reads -/

/-- Two views give the same answers about the epoch of a slot, and do not differ in
whether an operator is past the slot. -/
structure Observed.AgreeAt (chain : Chain) (slot : ℕ) (o o' : Observed) : Prop where
  signerState_eq : ∀ i s, chain.epochOf s = chain.epochOf slot →
    o.signerState i s = o'.signerState i s
  maxSlot : ∀ i, o.maxSlot i = o'.maxSlot i ∨ o.maxSlot i ≤ slot ∧ o'.maxSlot i ≤ slot

namespace DutyContext

variable {K : Type} (ctx : DutyContext K) (signed : SignedSSVMessage) {o o' : Observed}

theorem validateAdvance_congr {m : QbftMessage} {a b : ℕ}
    (h : a = b ∨ a ≤ m.height.toNat ∧ b ≤ m.height.toNat) :
    validateAdvance m a = validateAdvance m b := by
  rcases h with rfl | ⟨ha, hb⟩
  · rfl
  · rw [validateAdvance, validateAdvance, Checks.require, Checks.require, if_pos ha, if_pos hb]

theorem validateMonotonicSlot_congr {p : PartialSignatureMessages} {a b : ℕ}
    (h : a = b ∨ a ≤ p.slot.toNat ∧ b ≤ p.slot.toNat) :
    ctx.validateMonotonicSlot p a = ctx.validateMonotonicSlot p b := by
  rcases h with rfl | ⟨ha, hb⟩
  · rfl
  · rw [validateMonotonicSlot, validateMonotonicSlot, Checks.require, Checks.require,
      if_pos fun h => absurd h.2.2 (not_lt.mpr ha), if_pos fun h => absurd h.2.2 (not_lt.mpr hb)]

theorem dutyCountRule_congr {slot : ℕ} (h : o.AgreeAt ctx.chain slot o') (msgId : MessageId)
    (i : OperatorId) : ctx.dutyCountRule o msgId slot i = ctx.dutyCountRule o' msgId slot i := by
  have hcount : o.dutyCount i (ctx.chain.epochOf slot) ctx.chain.slotsPerEpoch =
      o'.dutyCount i (ctx.chain.epochOf slot) ctx.chain.slotsPerEpoch := by
    rw [Observed.dutyCount, Observed.dutyCount]
    congr 1
    apply List.filter_congr
    intro k hk
    rw [h.signerState_eq i]
    rw [Chain.epochOf, mul_comm, Nat.mul_add_div ctx.chain.slotsPerEpoch_pos,
      Nat.div_eq_of_lt (List.mem_range.mp hk), Nat.add_zero]
  rw [dutyCountRule, dutyCountRule, hcount, h.signerState_eq i slot rfl]

theorem consensusVerdict_congr
    (h : ∀ m, QbftMessage.fromSszBytes signed.ssvMessage.data.toList = some m →
      o.AgreeAt ctx.chain m.height.toNat o') :
    ctx.consensusVerdict signed o = ctx.consensusVerdict signed o' := by
  unfold consensusVerdict
  cases hdecode : QbftMessage.fromSszBytes signed.ssvMessage.data.toList with
  | none => rfl
  | some m =>
    have hagree := h m hdecode
    have hlogic : ctx.qbftLogic signed m o = ctx.qbftLogic signed m o' := by
      simp only [qbftLogic, hagree.signerState_eq _ _ rfl]
    have hadvance : ctx.slotAdvance signed m o = ctx.slotAdvance signed m o' := by
      simp only [slotAdvance, fun i => validateAdvance_congr (hagree.maxSlot i)]
    have hcount : ctx.dutyCountRule o signed.ssvMessage.msgId m.height.toNat =
        ctx.dutyCountRule o' signed.ssvMessage.msgId m.height.toNat :=
      funext (ctx.dutyCountRule_congr hagree _)
    simp only [hlogic, dutyLogic, hadvance, hcount]

theorem partialVerdict_congr
    (h : ∀ p, PartialSignatureMessages.fromSszBytes ctx.chain.isSignature
      signed.ssvMessage.data.toList = some p → o.AgreeAt ctx.chain p.slot.toNat o') :
    ctx.partialVerdict signed o = ctx.partialVerdict signed o' := by
  have hrules : ctx.packetRules signed o = ctx.packetRules signed o' := by
    unfold packetRules
    cases hdecode : PartialSignatureMessages.fromSszBytes ctx.chain.isSignature
        signed.ssvMessage.data.toList with
    | none => rfl
    | some p =>
      have hagree := h p hdecode
      have hoperator : ctx.operatorRules signed o p = ctx.operatorRules signed o' p := by
        funext i
        rw [operatorRules, operatorRules,
          ctx.validateMonotonicSlot_congr (hagree.maxSlot i), hagree.signerState_eq i _ rfl,
          ctx.dutyCountRule_congr hagree]
      simp only [hoperator]
  cases hok : ctx.packetRules signed o' with
  | error e => rw [partialVerdict, partialVerdict, hrules, hok]; rfl
  | ok x =>
    obtain ⟨p, i⟩ := x
    have hdecode := ((ctx.packetRules_eq_ok_iff signed).mp hok).1
    rw [ctx.partialVerdict_of_packetRules signed (hrules.trans hok),
      ctx.partialVerdict_of_packetRules signed hok, Observed.entry, Observed.entry,
      (h p hdecode).signerState_eq i _ rfl]

theorem verdict_congr (h : ∀ slot, signed.ssvMessage.extractSlot ctx.chain.isSignature = some slot →
    o.AgreeAt ctx.chain slot o') : ctx.verdict signed o = ctx.verdict signed o' := by
  unfold verdict verdictByType
  unfold SSVMessage.extractSlot at h
  cases htype : signed.ssvMessage.msgType with
  | ssvConsensusMsgType =>
    simp only [htype] at h
    rw [ctx.consensusVerdict_congr signed fun m hm => h _ (by rw [hm, Option.map_some])]
  | ssvPartialSignatureMsgType =>
    simp only [htype] at h
    rw [ctx.partialVerdict_congr signed fun p hp => h _ (by rw [hp, Option.map_some])]

variable {ctx signed}

theorem entryAfter_congr {x : ValidatedSSVMessage} {i : OperatorId}
    (h : o.signerState i x.slot = o'.signerState i x.slot) :
    ctx.entryAfter signed o i x = ctx.entryAfter signed o' i x := by
  cases x with
  | qbftMessage m =>
    simp only [entryAfter, Observed.next,
      show o.signerState i m.height.toNat = o'.signerState i m.height.toNat from h]
  | partialSignatureMessages p =>
    simp only [entryAfter, Observed.entry,
      show o.signerState i p.slot.toNat = o'.signerState i p.slot.toNat from h]

end DutyContext

/-! ## The two runs -/

namespace Validator

variable {K : Type} {cfg : ValidatorConfig K}

def Event.isReceive : Event K → Bool
  | .receive _ _ => true
  | .clean _ _ => false

/-- At a time, what `v` shows of an identifier is what `w` shows, up to stale
slots. -/
structure Shadows (v w : Validator cfg) (id : MessageId) (role : Role) (time : ℕ) : Prop where
  entry : ∀ i slot, v.entryOf id i slot = w.entryOf id i slot ∨
    v.entryOf id i slot = none ∧ Stale K cfg.chain role time slot
  maxSlot : ∀ i, (v.observed id).maxSlot i = (w.observed id).maxSlot i ∨
    (v.observed id).maxSlot i = 0 ∧ Stale K cfg.chain role time ((w.observed id).maxSlot i)

namespace Shadows

variable {v w : Validator cfg} {id : MessageId} {role : Role} {time time' : ℕ}

theorem mono (h : v.Shadows w id role time) (htime : time ≤ time') :
    v.Shadows w id role time' where
  entry i slot := (h.entry i slot).imp_right fun hstale => ⟨hstale.1, hstale.2.mono htime⟩
  maxSlot i := (h.maxSlot i).imp_right fun hstale => ⟨hstale.1, hstale.2.mono htime⟩

theorem congr {v' w' : Validator cfg} (h : v.Shadows w id role time)
    (hv : v'.observed id = v.observed id) (hw : w'.observed id = w.observed id) :
    v'.Shadows w' id role time where
  entry i slot := by
    rw [entryOf, entryOf, hv, hw]
    exact h.entry i slot
  maxSlot i := by
    rw [hv, hw]
    exact h.maxSlot i

variable {ctx : DutyContext K}

theorem agreeAt (h : v.Shadows w id role time) {slot : ℕ}
    (hchain : ctx.chain = cfg.chain) (hrole : ctx.role = role) (htime : time ≤ ctx.receivedAt)
    (hlate : ctx.NotLate slot) : (v.observed id).AgreeAt ctx.chain slot (w.observed id) where
  signerState_eq i s hepoch := by
    rcases h.entry i s with heq | ⟨-, hstale⟩
    · exact heq
    · have hlt := hstale ctx slot hchain hrole htime hlate
      rw [hchain] at hepoch
      rw [← hepoch] at hlt
      exact absurd (cfg.chain.epochStart_le s) (not_le.mpr hlt)
  maxSlot i := by
    rcases h.maxSlot i with heq | ⟨hzero, hstale⟩
    · exact Or.inl heq
    · have hlt := hstale ctx slot hchain hrole htime hlate
      have hle := cfg.chain.epochStart_le slot
      exact Or.inr ⟨by omega, by omega⟩

variable {r : Reception K} {signed : SignedSSVMessage} {x : ValidatedSSVMessage}

theorem accepts_iff (h : v.Shadows w signed.ssvMessage.msgId role r.receivedAt)
    (hrole : signed.ssvMessage.msgId.role = some role) :
    v.Accepts r signed ctx x ↔ w.Accepts r signed ctx x := by
  have hverdict : cfg.contextOf r signed = .ok ctx → ctx.NotLate x.slot →
      signed.ssvMessage.extractSlot ctx.chain.isSignature = some x.slot →
      ctx.verdict signed (v.observed signed.ssvMessage.msgId) =
        ctx.verdict signed (w.observed signed.ssvMessage.msgId) := by
    intro hctx hlate hslot
    obtain ⟨-, hctxRole, -, hchain, htime⟩ := contextOf_eq_ok hctx
    refine ctx.verdict_congr signed fun slot heq => ?_
    rw [hslot, Option.some.injEq] at heq
    subst heq
    exact h.agreeAt hchain (Option.some.inj (hctxRole.symm.trans hrole)) htime.ge hlate
  constructor
  · intro haccepts
    refine ⟨haccepts.context_eq, ?_⟩
    rw [← hverdict haccepts.context_eq haccepts.slotTime.2
      (DutyContext.slot_of_verdict haccepts.verdict_eq).1]
    exact haccepts.verdict_eq
  · intro haccepts
    refine ⟨haccepts.context_eq, ?_⟩
    rw [hverdict haccepts.context_eq haccepts.slotTime.2
      (DutyContext.slot_of_verdict haccepts.verdict_eq).1]
    exact haccepts.verdict_eq

theorem answer_iff
    (h : v.Shadows w signed.ssvMessage.msgId role r.receivedAt)
    (hrole : signed.ssvMessage.msgId.role = some role) :
    v.answer r signed = .ok x ↔ w.answer r signed = .ok x := by
  rw [answer_eq_ok_iff, answer_eq_ok_iff]
  exact exists_congr fun ctx => h.accepts_iff hrole

theorem of_outdated {v' : Validator cfg} {now : ℕ} (h : v.Shadows w id role time)
    (hepoch : 2 ≤ cfg.chain.slotsPerEpoch)
    (hduration : 3050000000 < 3 * cfg.chain.slotClock.slotDuration) (hrole : id.role = some role)
    (hnow : cfg.chain.slotClock.slotOf time = some now)
    (houtdated : (v.observed id).Outdated (cfg.slotCount id) now)
    (hempty : v'.observed id = Observed.empty) : v'.Shadows w id role time := by
  rw [slotCount_of_role hrole] at houtdated
  refine ⟨fun i slot => ?_, fun i => Or.inr ⟨by rw [hempty]; rfl, ?_⟩⟩
  · rw [entryOf, hempty]
    rcases h.entry i slot with heq | ⟨-, hstale⟩
    · cases hst : w.entryOf id i slot with
      | none => exact Or.inl rfl
      | some st =>
        have hle := (v.coherent_observed id).slot_le (heq.trans hst)
        exact Or.inr ⟨rfl, Stale.of_outdated hepoch hduration hnow (hle.trans_lt (houtdated i))⟩
    · exact Or.inr ⟨rfl, hstale⟩
  · rcases h.maxSlot i with heq | ⟨-, hstale⟩
    · rw [← heq]
      exact Stale.of_outdated hepoch hduration hnow (houtdated i)
    · exact hstale

theorem of_accepts (h : v.Shadows w signed.ssvMessage.msgId role r.receivedAt)
    (hrole : signed.ssvMessage.msgId.role = some role) (hv : v.Accepts r signed ctx x) :
    (v.step (.receive r signed)).Shadows (w.step (.receive r signed)) signed.ssvMessage.msgId role
      r.receivedAt := by
  have hw := (h.accepts_iff hrole).mp hv
  obtain ⟨hwf, -, -, hchain, htime⟩ := contextOf_eq_ok hv.context_eq
  have hagree := h.agreeAt hchain (hv.role_eq hrole) htime.ge hv.slotTime.2
  have hspec := ctx.record_spec signed hwf.nodup (cfg.slotCount signed.ssvMessage.msgId)
  refine ⟨fun i slot => ?_, fun i => ?_⟩
  · rw [entryOf, entryOf, observed_receive_of_accepts hv, observed_receive_of_accepts hw,
      (hspec _ x i).1, (hspec _ x i).1]
    split_ifs with hi
    · rw [Observed.signerState_put_self, Observed.signerState_put_self,
        DutyContext.entryAfter_congr (hagree.signerState_eq i x.slot rfl),
        ctx.slot_entryAfter signed (w.coherent_observed _)]
      split_ifs with hslot hmod
      · exact Or.inl rfl
      · exact Or.inl rfl
      · exact h.entry i slot
    · exact h.entry i slot
  · rw [observed_receive_of_accepts hv, observed_receive_of_accepts hw, (hspec _ x i).2,
      (hspec _ x i).2]
    split_ifs with hi
    · rw [Observed.maxSlot_put_self, Observed.maxSlot_put_self,
        ctx.slot_entryAfter signed (v.coherent_observed _),
        ctx.slot_entryAfter signed (w.coherent_observed _)]
      rcases hagree.maxSlot i with heq | ⟨hle, hle'⟩
      · exact Or.inl (by rw [heq])
      · exact Or.inl (by rw [max_eq_right hle, max_eq_right hle'])
    · exact h.maxSlot i

end Shadows

section Run

variable {id : MessageId} {role : Role}

theorem shadows_receive {v w : Validator cfg} {r : Reception K} (signed : SignedSSVMessage)
    (hrole : id.role = some role) (h : v.Shadows w id role r.receivedAt) :
    (v.step (.receive r signed)).Shadows (w.step (.receive r signed)) id role r.receivedAt := by
  by_cases hid : id = signed.ssvMessage.msgId
  · subst hid
    cases hanswer : v.answer r signed with
    | ok x =>
      obtain ⟨ctx, hv⟩ := answer_eq_ok_iff.mp hanswer
      exact h.of_accepts hrole hv
    | error e =>
      cases hanswer' : w.answer r signed with
      | ok x =>
        rw [← h.answer_iff hrole, hanswer] at hanswer'
        cases hanswer'
      | error e' =>
        exact h.congr (congrFun (observed_receive_of_error hanswer) _)
          (congrFun (observed_receive_of_error hanswer') _)
  · exact h.congr (v.observed_receive_of_ne r hid) (w.observed_receive_of_ne r hid)

theorem shadows_clean {v w : Validator cfg} {time : ℕ} (among : MessageId → Bool)
    (hepoch : 2 ≤ cfg.chain.slotsPerEpoch)
    (hduration : 3050000000 < 3 * cfg.chain.slotClock.slotDuration) (hrole : id.role = some role)
    (h : v.Shadows w id role time) : (v.step (.clean time among)).Shadows w id role time := by
  simp only [step]
  cases hnow : cfg.chain.slotClock.slotOf time with
  | none => exact h
  | some now =>
    have hretain := v.observed_retain now among id
    split_ifs at hretain with hdrop
    · exact h.of_outdated hepoch hduration hrole hnow hdrop.2 hretain
    · exact h.congr hretain rfl

theorem shadows_run (hepoch : 2 ≤ cfg.chain.slotsPerEpoch)
    (hduration : 3050000000 < 3 * cfg.chain.slotClock.slotDuration) (hrole : id.role = some role)
    {es : List (Event K)} (htimes : es.Pairwise fun a b => a.time ≤ b.time) {time : ℕ}
    (htime : ∀ e ∈ es, e.time ≤ time) :
    ((new cfg).run es).Shadows ((new cfg).run (es.filter Event.isReceive)) id role time := by
  induction es using List.reverseRecOn generalizing time with
  | nil => exact ⟨fun i slot => Or.inl rfl, fun i => Or.inl rfl⟩
  | append_singleton es e ih =>
    obtain ⟨hbefore, -, hlast⟩ := List.pairwise_append.mp htimes
    have hshadows : ((new cfg).run es).Shadows ((new cfg).run (es.filter Event.isReceive)) id role
        e.time :=
      ih hbefore fun d hd => hlast d hd e (List.mem_singleton_self e)
    rw [run_append, List.filter_append, run_append]
    refine Shadows.mono ?_ (htime e (by simp))
    cases e with
    | receive r signed => exact shadows_receive signed hrole hshadows
    | clean t among => exact shadows_clean among hepoch hduration hrole hshadows

end Run

/-- Cleaning outdated states at any moments changes neither which messages are
accepted nor the answer to any message that is not late. -/
theorem cleaning_changes_late_errors_only (hepoch : 2 ≤ cfg.chain.slotsPerEpoch)
    (hduration : 3050000000 < 3 * cfg.chain.slotClock.slotDuration) (es : List (Event K))
    (htimes : es.Pairwise fun a b => a.time ≤ b.time) (r : Reception K)
    (signed : SignedSSVMessage) (htime : ∀ e ∈ es, e.time ≤ r.receivedAt) :
    (∀ x, ((new cfg).run es).answer r signed = .ok x ↔
      ((new cfg).run (es.filter Event.isReceive)).answer r signed = .ok x) ∧
    ((∀ ctx slot, cfg.contextOf r signed = .ok ctx →
        signed.ssvMessage.extractSlot cfg.chain.isSignature = some slot → ctx.NotLate slot) →
      ((new cfg).run es).answer r signed =
        ((new cfg).run (es.filter Event.isReceive)).answer r signed) := by
  cases hctx : cfg.contextOf r signed with
  | error e =>
    have hsame : ((new cfg).run es).answer r signed =
        ((new cfg).run (es.filter Event.isReceive)).answer r signed := by
      rw [answer_eq, answer_eq, hctx]
      rfl
    exact ⟨fun x => by rw [hsame], fun _ => hsame⟩
  | ok ctx =>
    obtain ⟨-, hrole, -, hchain, hreceived⟩ := contextOf_eq_ok hctx
    have hshadows : ((new cfg).run es).Shadows ((new cfg).run (es.filter Event.isReceive)) _ _
        r.receivedAt :=
      shadows_run hepoch hduration hrole htimes htime
    refine ⟨fun x => hshadows.answer_iff hrole, fun hlate => ?_⟩
    rw [answer_eq, answer_eq, hctx]
    refine ctx.verdict_congr signed fun slot hslot => ?_
    exact hshadows.agreeAt hchain rfl hreceived.ge (hlate ctx slot rfl (hchain ▸ hslot))

end Validator

namespace Sample

def cleanedRun : List (Validator.Event OperatorId) :=
  [.receive (reception 1) (vote .prepare 1 ⟨[⟨1⟩], length_first_le⟩),
    .clean 240000000000 fun _ => true]

/-- A packet of operator 1 for slot 20 is accepted with and without the cleaning. -/
theorem cleaning_changes_late_errors_only_packet :
    ((Validator.new validatorConfig).run (cleanedRun.filter Validator.Event.isReceive)).answer
        (reception 240000000001) (packet identifier .postConsensus 20 ⟨1⟩ 7) =
      .ok (.partialSignatureMessages ⟨.postConsensus, 20, ⟨[partialSignature ⟨1⟩ 7], by
        simp [partialSignatureMessagesLen]⟩⟩) ∧
    ((Validator.new validatorConfig).run cleanedRun).answer
        (reception 240000000001) (packet identifier .postConsensus 20 ⟨1⟩ 7) =
      .ok (.partialSignatureMessages ⟨.postConsensus, 20, ⟨[partialSignature ⟨1⟩ 7], by
        simp [partialSignatureMessagesLen]⟩⟩) := by
  have haccepted : ((Validator.new validatorConfig).run
      (cleanedRun.filter Validator.Event.isReceive)).answer (reception 240000000001)
        (packet identifier .postConsensus 20 ⟨1⟩ 7) =
      .ok (.partialSignatureMessages ⟨.postConsensus, 20, ⟨[partialSignature ⟨1⟩ 7], by
        simp [partialSignatureMessagesLen]⟩⟩) := by
    decide +kernel
  exact ⟨haccepted, ((Validator.cleaning_changes_late_errors_only (by decide) (by decide)
    cleanedRun (by decide) (reception 240000000001) (packet identifier .postConsensus 20 ⟨1⟩ 7)
    (by decide)).1 _).mpr haccepted⟩

/-- The same prepare again, far too late: only the validator that did not clean
knows it as a duplicate. -/
theorem cleaning_changes_error :
    ((Validator.new validatorConfig).run cleanedRun).answer (reception 240000000001)
        (vote .prepare 1 ⟨[⟨1⟩], by decide⟩) = .error (.lateSlotMessage 117000000001) ∧
      ((Validator.new validatorConfig).run
        (cleanedRun.filter Validator.Event.isReceive)).answer (reception 240000000001)
          (vote .prepare 1 ⟨[⟨1⟩], by decide⟩) =
        .error (.duplicatedMessage .prepare ⟨0, 0, 1, 0, 0, 0⟩) := by
  decide +kernel

end Sample

end Anchor
