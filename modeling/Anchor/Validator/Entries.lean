import Mathlib
import Anchor.Validator.Run

/-!
# The entry of a signer in a slot

The limits of the validator are kept in one entry per signer and slot.  An accepted
message writes the entry of each of its signers; the entry either grows, in its
round, or makes room for one of a higher round.  As long as an entry is in the ring
this is all that can happen to it.
-/

namespace Anchor

open Ssz

/-! ## Writing entries -/

def ValidatedSSVMessage.slot : ValidatedSSVMessage → ℕ
  | .qbftMessage m => m.height.toNat
  | .partialSignatureMessages p => p.slot.toNat

namespace Observed

/-- What a ring can show: entries under their own slots, up to the highest slot,
and one in each cell. -/
structure Coherent (n : ℕ) (o : Observed) : Prop where
  slot_eq : ∀ {i slot st}, o.signerState i slot = some st → st.slot = slot
  slot_le : ∀ {i slot st}, o.signerState i slot = some st → slot ≤ o.maxSlot i
  eq_of_mod_eq : ∀ {i slot slot' st st'}, o.signerState i slot = some st →
    o.signerState i slot' = some st' → slot % n = slot' % n → slot = slot'

theorem foldl_put {n : ℕ} {f : Observed → OperatorId → SignerState}
    (hf : ∀ o i j st, i ≠ j → f (o.put n j st) i = f o i) {signers : List OperatorId}
    (hnodup : signers.Nodup) (o : Observed) (j : OperatorId) :
    (signers.foldl (fun o i => o.put n i (f o i)) o).signerState j =
        (if j ∈ signers then (o.put n j (f o j)).signerState j else o.signerState j) ∧
      (signers.foldl (fun o i => o.put n i (f o i)) o).maxSlot j =
        if j ∈ signers then (o.put n j (f o j)).maxSlot j else o.maxSlot j := by
  induction signers generalizing o with
  | nil => simp
  | cons i signers ih =>
    obtain ⟨hi, hrest⟩ := List.nodup_cons.mp hnodup
    obtain ⟨hstate, hmax⟩ := ih hrest (o.put n i (f o i))
    rw [List.foldl_cons, hstate, hmax]
    by_cases hj : j = i
    · subst hj
      simp [hi]
    · have hput : ∀ st, ((o.put n i (f o i)).put n j st).signerState j =
          (o.put n j st).signerState j := by
        intro st
        funext slot
        rw [signerState_put_self, signerState_put_self, signerState_put_ne hj]
      have hputMax : ∀ st, ((o.put n i (f o i)).put n j st).maxSlot j =
          (o.put n j st).maxSlot j := by
        intro st
        rw [maxSlot_put_self, maxSlot_put_self, maxSlot_put_ne hj]
      have hstay : (o.put n i (f o i)).signerState j = o.signerState j :=
        funext (signerState_put_ne hj)
      simp only [List.mem_cons, hj, false_or, hput, hputMax, hf _ _ _ _ hj, hstay,
        maxSlot_put_ne hj]
      exact ⟨trivial, trivial⟩

theorem next_put_ne {n : ℕ} (sha256 : Bytes → Hash256) (signed : SignedSSVMessage)
    (m : QbftMessage) (o : Observed) {i j : OperatorId} (st : SignerState) (h : i ≠ j) :
    (o.put n j st).next sha256 signed m i = o.next sha256 signed m i := by
  rw [next, next, signerState_put_ne h]

theorem entry_put_ne {n : ℕ} (o : Observed) {i j : OperatorId} (st : SignerState) (h : i ≠ j)
    (slot : ℕ) : (o.put n j st).entry i slot = o.entry i slot := by
  rw [entry, entry, signerState_put_ne h]

end Observed

theorem DutyState.coherent_observed {n : ℕ} (d : DutyState n) : d.observed.Coherent n where
  slot_eq h := by
    obtain ⟨st, hst, rfl⟩ := Option.map_eq_some_iff.mp h
    rw [SignerState.slot_allocated, OperatorState.slot_of_getSignerState hst]
  slot_le h := by
    obtain ⟨st, hst, rfl⟩ := Option.map_eq_some_iff.mp h
    exact (d.operator _).slot_le hst
  eq_of_mod_eq h h' hmod := by
    obtain ⟨st, hst, rfl⟩ := Option.map_eq_some_iff.mp h
    obtain ⟨st', hst', rfl⟩ := Option.map_eq_some_iff.mp h'
    exact RingBuffer.eq_of_get hst hst' hmod

namespace DutyContext

variable {K : Type} (ctx : DutyContext K) (signed : SignedSSVMessage)

def entryAfter (o : Observed) (i : OperatorId) : ValidatedSSVMessage → SignerState
  | .qbftMessage m => o.next ctx.crypto.hashData signed m i
  | .partialSignatureMessages p => ((o.entry i p.slot.toNat).recordPartialSignature p).allocated

theorem record_eq_foldl (n : ℕ) (o : Observed) (x : ValidatedSSVMessage) :
    ctx.record signed n o x = signed.operatorIds.toList.foldl
      (fun o i => o.put n i (ctx.entryAfter signed o i x)) o := by
  cases x <;> rfl

theorem entryAfter_put_ne {n : ℕ} (o : Observed) {i j : OperatorId} (st : SignerState)
    (x : ValidatedSSVMessage) (h : i ≠ j) :
    ctx.entryAfter signed (o.put n j st) i x = ctx.entryAfter signed o i x := by
  cases x with
  | qbftMessage m => exact o.next_put_ne _ _ _ st h
  | partialSignatureMessages p => rw [entryAfter, entryAfter, o.entry_put_ne st h]

theorem record_spec (hnodup : signed.operatorIds.toList.Nodup) (n : ℕ) (o : Observed)
    (x : ValidatedSSVMessage) (i : OperatorId) :
    (ctx.record signed n o x).signerState i =
        (if i ∈ signed.operatorIds.toList then
          (o.put n i (ctx.entryAfter signed o i x)).signerState i else o.signerState i) ∧
      (ctx.record signed n o x).maxSlot i =
        if i ∈ signed.operatorIds.toList then
          (o.put n i (ctx.entryAfter signed o i x)).maxSlot i else o.maxSlot i := by
  rw [record_eq_foldl]
  exact Observed.foldl_put (fun o i j st h => ctx.entryAfter_put_ne signed o st x h) hnodup o i

theorem slot_entryAfter {n : ℕ} {o : Observed} (ho : o.Coherent n) (i : OperatorId)
    (x : ValidatedSSVMessage) : (ctx.entryAfter signed o i x).slot = x.slot := by
  cases x with
  | qbftMessage m => exact Observed.slot_next _ _ _ fun st hst => ho.slot_eq hst
  | partialSignatureMessages p =>
    rw [entryAfter, SignerState.slot_allocated, SignerState.slot_recordPartialSignature,
      Observed.entry]
    cases hst : o.signerState i p.slot.toNat with
    | none => rfl
    | some st => exact ho.slot_eq hst

end DutyContext

theorem DutyContext.slot_of_verdict {K : Type} {ctx : DutyContext K} {signed : SignedSSVMessage}
    {o : Observed} {x : ValidatedSSVMessage} (h : ctx.verdict signed o = .ok x) :
    signed.ssvMessage.extractSlot ctx.chain.isSignature = some x.slot ∧
      ctx.validateSlotTime x.slot = .ok () ∧ ∀ i ∈ signed.operatorIds.toList,
        ctx.dutyCountRule o signed.ssvMessage.msgId x.slot i = .ok () := by
  cases x with
  | qbftMessage m =>
    obtain ⟨-, htype, hverdict⟩ := (ctx.verdict_qbftMessage_iff signed).mp h
    obtain ⟨hdecode, -, -, -, hduty, -⟩ := (ctx.consensusVerdict_eq_ok_iff signed).mp hverdict
    obtain ⟨-, -, htime, hcount⟩ := (ctx.dutyLogic_eq_ok_iff signed).mp hduty
    refine ⟨?_, htime, hcount⟩
    simp only [SSVMessage.extractSlot, htype, hdecode, Option.map_some, ValidatedSSVMessage.slot]
  | partialSignatureMessages p =>
    obtain ⟨-, htype, j, hverdict⟩ := (ctx.verdict_partialSignatureMessages_iff signed).mp h
    obtain ⟨hrules, hsigners⟩ := ctx.signers_of_partialVerdict signed hverdict
    obtain ⟨hdecode, -, -, -, hoperator, -⟩ := (ctx.packetRules_eq_ok_iff signed).mp hrules
    obtain ⟨-, -, -, htime, hcount, -⟩ := (ctx.operatorRules_eq_ok_iff signed).mp hoperator
    refine ⟨?_, htime, fun i hi => ?_⟩
    · simp only [SSVMessage.extractSlot, htype, hdecode, Option.map_some,
        ValidatedSSVMessage.slot]
    · rw [hsigners, List.mem_singleton] at hi
      exact hi ▸ hcount

namespace Validator

variable {K : Type} {cfg : ValidatorConfig K}

theorem coherent_observed (v : Validator cfg) (id : MessageId) :
    (v.observed id).Coherent (cfg.slotCount id) :=
  (v.getDutyState id).coherent_observed

theorem contextOf_eq_ok {r : Reception K} {signed : SignedSSVMessage} {ctx : DutyContext K}
    (h : cfg.contextOf r signed = .ok ctx) :
    signed.WellFormed ∧ signed.ssvMessage.msgId.role = some ctx.role ∧ ctx.crypto = cfg.crypto ∧
      ctx.chain = cfg.chain ∧ ctx.receivedAt = r.receivedAt := by
  simp only [ValidatorConfig.contextOf, Checks.bind_eq_ok] at h
  obtain ⟨role, hrole, info, -, ⟨⟩, -, heq⟩ := h
  cases heq
  unfold validateStructureAndRole at hrole
  split at hrole
  · cases hrole
  · rename_i hvalidate
    split at hrole
    · cases hrole
    · rename_i role' hrole'
      cases hrole
      exact ⟨SignedSSVMessage.wellFormed_of_validate hvalidate, hrole', rfl, rfl, rfl⟩

def admitted (v : Validator cfg) (id : MessageId) (i : OperatorId) : Event K → Finset ℕ
  | .clean _ _ => ∅
  | .receive r signed =>
    match v.answer r signed with
    | .error _ => ∅
    | .ok x =>
      if signed.ssvMessage.msgId = id ∧ i ∈ signed.operatorIds.toList then {x.slot} else ∅

/-- All that a step can do to what is shown of an operator: nothing, the cleaner
empties the view, or an accepted message of the operator writes its entry. -/
theorem observed_step_cases (v : Validator cfg) (e : Event K) (id : MessageId) (i : OperatorId) :
    (v.admitted id i e = ∅ ∧
      ((v.step e).observed id).signerState i = (v.observed id).signerState i ∧
        ((v.step e).observed id).maxSlot i = (v.observed id).maxSlot i) ∨
      (v.admitted id i e = ∅ ∧ ∃ time among now, e = .clean time among ∧
        cfg.chain.slotClock.slotOf time = some now ∧
        (v.observed id).Outdated (cfg.slotCount id) now ∧
        (v.step e).observed id = Observed.empty) ∨
      ∃ r signed ctx x, e = .receive r signed ∧ signed.ssvMessage.msgId = id ∧
        v.Accepts r signed ctx x ∧ i ∈ signed.operatorIds.toList ∧ v.admitted id i e = {x.slot} ∧
        ((v.step e).observed id).signerState i = ((v.observed id).put (cfg.slotCount id) i
          (ctx.entryAfter signed (v.observed id) i x)).signerState i ∧
        ((v.step e).observed id).maxSlot i = max ((v.observed id).maxSlot i) x.slot := by
  cases e with
  | clean time among =>
    simp only [step]
    cases hnow : cfg.chain.slotClock.slotOf time with
    | none => exact Or.inl ⟨rfl, rfl, rfl⟩
    | some now =>
      simp only [observed_retain]
      split_ifs with hdrop
      · exact Or.inr (Or.inl ⟨rfl, time, among, now, rfl, hnow, hdrop.2, rfl⟩)
      · exact Or.inl ⟨rfl, rfl, rfl⟩
  | receive r signed =>
    cases hanswer : v.answer r signed with
    | error e =>
      left
      rw [observed_receive_of_error hanswer, admitted, hanswer]
      exact ⟨rfl, rfl, rfl⟩
    | ok x =>
      have hadmitted : v.admitted id i (.receive r signed) =
          if signed.ssvMessage.msgId = id ∧ i ∈ signed.operatorIds.toList then {x.slot}
          else ∅ := by
        rw [admitted, hanswer]
      obtain ⟨ctx, haccepts⟩ := answer_eq_ok_iff.mp hanswer
      have hnodup := (contextOf_eq_ok haccepts.context_eq).1.nodup
      by_cases hid : id = signed.ssvMessage.msgId
      · subst hid
        obtain ⟨hstate, hmax⟩ := ctx.record_spec signed hnodup
          (cfg.slotCount signed.ssvMessage.msgId) (v.observed signed.ssvMessage.msgId) x i
        rw [← observed_receive_of_accepts haccepts] at hstate hmax
        by_cases hi : i ∈ signed.operatorIds.toList
        · rw [if_pos hi] at hstate hmax
          rw [Observed.maxSlot_put_self,
            ctx.slot_entryAfter signed (v.coherent_observed _)] at hmax
          rw [if_pos ⟨rfl, hi⟩] at hadmitted
          exact Or.inr (Or.inr
            ⟨r, signed, ctx, x, rfl, rfl, haccepts, hi, hadmitted, hstate, hmax⟩)
        · rw [if_neg hi] at hstate hmax
          rw [if_neg fun h => hi h.2] at hadmitted
          exact Or.inl ⟨hadmitted, hstate, hmax⟩
      · rw [if_neg fun h => hid h.1.symm] at hadmitted
        left
        rw [v.observed_receive_of_ne r hid]
        exact ⟨hadmitted, rfl, rfl⟩

end Validator

/-! ## How an entry evolves -/

namespace SignerState

structure Limited (st : SignerState) : Prop where
  ofType_le : ∀ t, st.messageCounts.ofType t ≤ 1
  ofPhase_le : ∀ phase, st.messageCounts.ofPhase phase ≤ 1

structure Grows (st st' : SignerState) : Prop where
  round_eq : st'.round = st.round
  ofType_le : ∀ t, st.messageCounts.ofType t ≤ st'.messageCounts.ofType t
  ofPhase_le : ∀ phase, st.messageCounts.ofPhase phase ≤ st'.messageCounts.ofPhase phase
  seenSigners_subset : st.seenSigners ⊆ st'.seenSigners

/-- An entry grows, or it makes room for one of a higher round. -/
def Evolves (st st' : SignerState) : Prop := st.round < st'.round ∨ st.Grows st'

theorem Grows.trans {a b c : SignerState} (hab : a.Grows b) (hbc : b.Grows c) : a.Grows c where
  round_eq := hbc.round_eq.trans hab.round_eq
  ofType_le t := UInt8.le_trans (hab.ofType_le t) (hbc.ofType_le t)
  ofPhase_le phase := UInt8.le_trans (hab.ofPhase_le phase) (hbc.ofPhase_le phase)
  seenSigners_subset := hab.seenSigners_subset.trans hbc.seenSigners_subset

theorem Grows.refl (st : SignerState) : st.Grows st where
  round_eq := rfl
  ofType_le _ := UInt8.le_refl _
  ofPhase_le _ := UInt8.le_refl _
  seenSigners_subset := Finset.Subset.refl _

theorem Evolves.trans {a b c : SignerState} (hab : a.Evolves b) (hbc : b.Evolves c) :
    a.Evolves c := by
  rcases hab with hlt | hgrows
  · rcases hbc with hlt' | hgrows'
    · exact Or.inl (UInt64.lt_trans hlt hlt')
    · exact Or.inl (hgrows'.round_eq ▸ hlt)
  · rcases hbc with hlt | hgrows'
    · exact Or.inl (hgrows.round_eq ▸ hlt)
    · exact Or.inr (hgrows.trans hgrows')

theorem Evolves.round_le {st st' : SignerState} (h : st.Evolves st') : st.round ≤ st'.round := by
  rcases h with hlt | hgrows
  · exact UInt64.le_of_lt hlt
  · exact hgrows.round_eq ▸ UInt64.le_refl _

theorem Evolves.grows {st st' : SignerState} (h : st.Evolves st') (hround : st'.round = st.round) :
    st.Grows st' := by
  rcases h with hlt | hgrows
  · rw [hround] at hlt
    exact absurd hlt (UInt64.lt_irrefl _)
  · exact hgrows

theorem limited_new (slot : ℕ) (round : UInt64) : (new slot round).allocated.Limited where
  ofType_le t := by
    change MessageCounts.default.ofType t ≤ 1
    simp
  ofPhase_le phase := by
    change MessageCounts.default.ofPhase phase ≤ 1
    simp

section Update

variable (sha256 : Bytes → Hash256) (signed : SignedSSVMessage) {m : QbftMessage}
  {st : SignerState}

theorem limited_update (hst : st.Limited)
    (hzero : (m.qbftMessageType = .commit → signed.operatorIds.toList.length = 1) →
      st.messageCounts.ofType m.qbftMessageType = 0) :
    (st.update sha256 signed m).Limited where
  ofType_le t := by
    simp only [update, MessageCounts.ofType_recordConsensusMessage]
    split_ifs with h
    · rw [h.1, hzero h.2]
      decide
    · exact hst.ofType_le t
  ofPhase_le phase := by
    simp only [update, MessageCounts.ofPhase_recordConsensusMessage]
    exact hst.ofPhase_le phase

theorem grows_update (hzero : (m.qbftMessageType = .commit →
      signed.operatorIds.toList.length = 1) → st.messageCounts.ofType m.qbftMessageType = 0) :
    st.Grows (st.update sha256 signed m) where
  round_eq := rfl
  ofType_le t := by
    simp only [update, MessageCounts.ofType_recordConsensusMessage]
    split_ifs with h
    · rw [h.1, hzero h.2]
      decide
    · exact UInt8.le_refl _
  ofPhase_le phase := by
    simp only [update, MessageCounts.ofPhase_recordConsensusMessage]
    exact UInt8.le_refl _
  seenSigners_subset := by
    simp only [update]
    split_ifs
    · exact Finset.subset_insert _ _
    · exact Finset.Subset.refl _

end Update

section Partial

variable {p : PartialSignatureMessages} {st : SignerState}

theorem limited_recordPartialSignature (hst : st.Limited)
    (hzero : ∀ phase, p.kind.phase = some phase → st.messageCounts.ofPhase phase = 0) :
    (st.recordPartialSignature p).allocated.Limited where
  ofType_le t := by
    simp only [allocated, recordPartialSignature, MessageCounts.ofType_recordPartialSignature]
    exact hst.ofType_le t
  ofPhase_le phase := by
    simp only [allocated, recordPartialSignature, MessageCounts.ofPhase_recordPartialSignature]
    split_ifs with h
    · rw [hzero phase h]
      decide
    · exact hst.ofPhase_le phase

theorem grows_recordPartialSignature
    (hzero : ∀ phase, p.kind.phase = some phase → st.messageCounts.ofPhase phase = 0) :
    st.Grows (st.recordPartialSignature p).allocated where
  round_eq := rfl
  ofType_le t := by
    simp only [allocated, recordPartialSignature, MessageCounts.ofType_recordPartialSignature]
    exact UInt8.le_refl _
  ofPhase_le phase := by
    simp only [allocated, recordPartialSignature, MessageCounts.ofPhase_recordPartialSignature]
    split_ifs with h
    · rw [hzero phase h]
      decide
    · exact UInt8.le_refl _
  seenSigners_subset := Finset.Subset.refl _

end Partial

end SignerState

namespace DutyContext

variable {K : Type} {ctx : DutyContext K} {signed : SignedSSVMessage} {m : QbftMessage}
  {o : Observed} {i : OperatorId} {st : SignerState}

theorem commit_of_multiple (h : ctx.validateConsensusMessageSemantics signed m = .ok ())
    (hlength : signed.operatorIds.toList.length > 1) : m.qbftMessageType = .commit := by
  by_contra hcommit
  unfold ValidationContext.validateConsensusMessageSemantics
    ValidationContext.validateSignersAndFullData at h
  simp [hlength, hcommit] at h

theorem validateSignerState_eq_ok (h : ctx.validateSignerState signed m st = .ok ()) :
    (signed.operatorIds.toList.length = 1 → st.round ≤ m.round ∧
      (m.round = st.round → st.messageCounts.ofType m.qbftMessageType = 0)) ∧
    (1 < signed.operatorIds.toList.length →
      st.hasSeenSigners ctx.crypto.hashData signed.operatorIds.toList = false) := by
  unfold validateSignerState at h
  simp only at h
  split_ifs at h with hsingle hlt heq hdata hseen
  · refine ⟨fun _ => ⟨heq ▸ UInt64.le_refl _, fun _ => ?_⟩, fun hmulti => by omega⟩
    exact MessageCounts.validateConsensusMessageLimits_eq_ok.mp h fun _ => hsingle
  · exact ⟨fun _ => ⟨UInt64.not_lt.mp hlt, fun h' => absurd h' heq⟩, fun hmulti => by omega⟩
  · refine ⟨fun h' => absurd h' hsingle, fun hmulti => ?_⟩
    simpa [hmulti] using hseen

theorem ofType_eq_zero (hsemantics : ctx.validateConsensusMessageSemantics signed m = .ok ())
    (hne : signed.operatorIds.toList ≠ [])
    (hsigner : ctx.validateSignerState signed m st = .ok ()) (hround : m.round ≤ st.round)
    (hcounted : m.qbftMessageType = .commit → signed.operatorIds.toList.length = 1) :
    st.messageCounts.ofType m.qbftMessageType = 0 := by
  have hlength : signed.operatorIds.toList.length = 1 := by
    have hpos := List.length_pos_iff.mpr hne
    by_contra hmulti
    exact hmulti (hcounted (commit_of_multiple hsemantics (by omega)))
  obtain ⟨hle, hzero⟩ := (validateSignerState_eq_ok hsigner).1 hlength
  exact hzero (UInt64.le_antisymm hround hle)

variable {x : ValidatedSSVMessage}

variable (hne : signed.operatorIds.toList ≠ []) (h : ctx.verdict signed o = .ok x)
  (hi : i ∈ signed.operatorIds.toList)
include hne h hi

theorem entryAfter_cases :
    (∃ m, x = .qbftMessage m ∧
      (∀ st, o.signerState i x.slot = some st → st.round < m.round) ∧
      ctx.entryAfter signed o i x =
        (SignerState.new x.slot m.round).allocated.update ctx.crypto.hashData signed m) ∨
    (∃ m st, x = .qbftMessage m ∧ o.signerState i x.slot = some st ∧ m.round ≤ st.round ∧
      ((m.qbftMessageType = .commit → signed.operatorIds.toList.length = 1) →
        st.messageCounts.ofType m.qbftMessageType = 0) ∧
      ctx.entryAfter signed o i x = st.update ctx.crypto.hashData signed m) ∨
    ∃ p, x = .partialSignatureMessages p ∧
      (∀ phase, p.kind.phase = some phase → (o.entry i x.slot).messageCounts.ofPhase phase = 0) ∧
      ctx.entryAfter signed o i x = ((o.entry i x.slot).recordPartialSignature p).allocated := by
  cases x with
  | qbftMessage m =>
    obtain ⟨-, -, hverdict⟩ := (ctx.verdict_qbftMessage_iff signed).mp h
    obtain ⟨-, -, hsemantics, hlogic, -, -⟩ := (ctx.consensusVerdict_eq_ok_iff signed).mp hverdict
    have hsigner := ((ctx.qbftLogic_eq_ok_iff signed).mp hlogic).2.1 i hi
    simp only [entryAfter, Observed.next, ValidatedSSVMessage.slot]
    cases hst : o.signerState i m.height.toNat with
    | none => exact Or.inl ⟨m, rfl, fun st hst => (by cases hst), rfl⟩
    | some st =>
      rw [hst] at hsigner
      simp only
      split_ifs with hround
      · exact Or.inl ⟨m, rfl, fun st' hst' => Option.some.inj hst' ▸ hround, rfl⟩
      · have hle := UInt64.not_lt.mp hround
        exact Or.inr (Or.inl ⟨m, st, rfl, rfl, hle,
          ofType_eq_zero hsemantics hne hsigner hle, rfl⟩)
  | partialSignatureMessages p =>
    obtain ⟨-, -, j, hverdict⟩ := (ctx.verdict_partialSignatureMessages_iff signed).mp h
    obtain ⟨hrules, hsigners⟩ := ctx.signers_of_partialVerdict signed hverdict
    obtain ⟨-, -, -, -, hoperator, -⟩ := (ctx.packetRules_eq_ok_iff signed).mp hrules
    obtain ⟨-, -, hcounts, -⟩ := (ctx.operatorRules_eq_ok_iff signed).mp hoperator
    rw [hsigners, List.mem_singleton] at hi
    subst hi
    refine Or.inr (Or.inr ⟨p, rfl, fun phase hphase => ?_, rfl⟩)
    rw [Observed.entry, ValidatedSSVMessage.slot]
    cases hst : o.signerState i p.slot.toNat with
    | none => exact MessageCounts.ofPhase_default phase
    | some st =>
      rw [hst] at hcounts
      exact MessageCounts.validatePartialSignatureMessage_eq_ok.mp hcounts phase hphase

theorem evolves_entryAfter
    (hst : o.signerState i x.slot = some st) : st.Evolves (ctx.entryAfter signed o i x) := by
  rcases entryAfter_cases hne h hi with ⟨m, -, hround, heq⟩ | ⟨m, st', -, hst', -, hzero, heq⟩ |
    ⟨p, -, hzero, heq⟩
  · rw [heq]
    exact Or.inl (hround st hst)
  · rw [heq, Option.some.inj (hst.symm.trans hst')]
    exact Or.inr (SignerState.grows_update _ _ hzero)
  · have hentry : o.entry i x.slot = st := by rw [Observed.entry, hst, Option.getD_some]
    rw [hentry] at hzero heq
    rw [heq]
    exact Or.inr (SignerState.grows_recordPartialSignature hzero)

theorem limited_entryAfter (hlimited : ∀ st, o.signerState i x.slot = some st → st.Limited) :
    (ctx.entryAfter signed o i x).Limited := by
  rcases entryAfter_cases hne h hi with ⟨m, -, -, heq⟩ | ⟨m, st, -, hst, -, hzero, heq⟩ |
    ⟨p, -, hzero, heq⟩
  · rw [heq]
    exact SignerState.limited_update _ _ (SignerState.limited_new _ _)
      fun _ => MessageCounts.ofType_default _
  · rw [heq]
    exact SignerState.limited_update _ _ (hlimited st hst) hzero
  · rw [heq]
    refine SignerState.limited_recordPartialSignature ?_ hzero
    rw [Observed.entry]
    cases hst : o.signerState i x.slot with
    | none => exact SignerState.limited_new _ _
    | some st => exact hlimited st hst

end DutyContext

/-! ## Entries along a run -/

namespace Validator

variable {K : Type} {cfg : ValidatorConfig K}

/-- A property of all states of a run, the first and the last included. -/
def Throughout (P : Validator cfg → Prop) : Validator cfg → List (Event K) → Prop
  | v, [] => P v
  | v, e :: es => P v ∧ Throughout P (v.step e) es

instance Throughout.decidable (P : Validator cfg → Prop) [DecidablePred P] :
    ∀ (v : Validator cfg) (es : List (Event K)), Decidable (v.Throughout P es)
  | v, [] => inferInstanceAs (Decidable (P v))
  | v, e :: es =>
    have := Throughout.decidable P (v.step e) es
    inferInstanceAs (Decidable (P v ∧ Throughout P (v.step e) es))

variable {v : Validator cfg} {es : List (Event K)}

theorem Throughout.first {P : Validator cfg → Prop}
    (h : v.Throughout P es) : P v := by
  cases es with
  | nil => exact h
  | cons e es => exact h.1

theorem Throughout.imp {P Q : Validator cfg → Prop}
    (h : v.Throughout P es) (hPQ : ∀ w, P w → Q w) : v.Throughout Q es := by
  induction es generalizing v with
  | nil => exact hPQ v h
  | cons e es ih => exact ⟨hPQ v h.1, ih h.2⟩

theorem Throughout.last {P : Validator cfg → Prop}
    (h : v.Throughout P es) : P (v.run es) := by
  induction es generalizing v with
  | nil => exact h
  | cons e es ih => exact ih h.2

/-- What holds at the start of a run and is kept by the steps between states with
`P` holds at its end. -/
theorem Throughout.invariant {P Q : Validator cfg → Prop} (h : v.Throughout P es) (hstart : Q v)
    (hstep : ∀ w e, P (w.step e) → Q w → Q (w.step e)) : Q (v.run es) := by
  induction es generalizing v with
  | nil => exact hstart
  | cons e es ih => exact ih h.2 (hstep v e h.2.first hstart)

theorem run_invariant {Q : Validator cfg → Prop} (hstart : Q v)
    (hstep : ∀ w e, Q w → Q (w.step e)) (es : List (Event K)) : Q (v.run es) := by
  induction es generalizing v with
  | nil => exact hstart
  | cons e es ih => exact ih (hstep v e hstart)

theorem Accepts.signers_ne_nil {r : Reception K} {signed : SignedSSVMessage}
    {ctx : DutyContext K} {x : ValidatedSSVMessage} (h : v.Accepts r signed ctx x) :
    signed.operatorIds.toList ≠ [] :=
  (contextOf_eq_ok h.context_eq).1.operatorIds_ne_nil

def entryOf (v : Validator cfg) (id : MessageId) (i : OperatorId) (slot : ℕ) : Option SignerState :=
  (v.observed id).signerState i slot

theorem entryOf_step_cases (v : Validator cfg) (e : Event K) (id : MessageId) (i : OperatorId)
    (slot : ℕ) :
    (v.step e).entryOf id i slot = v.entryOf id i slot ∨ (v.step e).entryOf id i slot = none ∨
      ∃ r signed ctx x, e = .receive r signed ∧ signed.ssvMessage.msgId = id ∧
        v.Accepts r signed ctx x ∧ i ∈ signed.operatorIds.toList ∧ x.slot = slot ∧
        (v.step e).entryOf id i slot = some (ctx.entryAfter signed (v.observed id) i x) := by
  unfold entryOf
  rcases v.observed_step_cases e id i with ⟨-, hsame, -⟩ |
    ⟨-, time, among, now, -, -, -, hempty⟩ | ⟨r, signed, ctx, x, rfl, rfl, haccepts, hi, -, hput, -⟩
  · exact Or.inl (congrFun hsame slot)
  · exact Or.inr (Or.inl (by rw [hempty]; rfl))
  · rw [hput, Observed.signerState_put_self, ctx.slot_entryAfter signed (v.coherent_observed _)]
    split_ifs with hslot hmod
    · exact Or.inr (Or.inr ⟨r, signed, ctx, x, rfl, rfl, haccepts, hi, hslot.symm, rfl⟩)
    · exact Or.inr (Or.inl rfl)
    · exact Or.inl rfl

variable {id : MessageId} {i : OperatorId} {slot : ℕ}

theorem limited_step
    (h : ∀ st, v.entryOf id i slot = some st → st.Limited) (e : Event K) :
    ∀ st, (v.step e).entryOf id i slot = some st → st.Limited := by
  intro st hst
  rcases v.entryOf_step_cases e id i slot with hsame | hnone |
    ⟨r, signed, ctx, x, rfl, rfl, haccepts, hi, rfl, hentry⟩
  · exact h st (hsame ▸ hst)
  · rw [hnone] at hst
    cases hst
  · rw [hentry] at hst
    cases hst
    exact DutyContext.limited_entryAfter haccepts.signers_ne_nil haccepts.verdict_eq hi h

variable {st : SignerState}

theorem limited_run (es : List (Event K)) (hst : ((new cfg).run es).entryOf id i slot = some st) :
    st.Limited := by
  refine run_invariant (Q := fun v => ∀ st, v.entryOf id i slot = some st → st.Limited) ?_
    (fun w e h => limited_step h e) es st hst
  intro st hst
  rw [entryOf, observed_of_none rfl] at hst
  cases hst

theorem evolves_step {e : Event K} (hst : v.entryOf id i slot = some st)
    (hsome : ((v.step e).entryOf id i slot).isSome) :
    ∃ st', (v.step e).entryOf id i slot = some st' ∧ st.Evolves st' := by
  rcases v.entryOf_step_cases e id i slot with hsame | hnone |
    ⟨r, signed, ctx, x, rfl, rfl, haccepts, hi, rfl, hentry⟩
  · exact ⟨st, hsame.trans hst, Or.inr (SignerState.Grows.refl st)⟩
  · rw [hnone] at hsome
    cases hsome
  · exact ⟨_, hentry, DutyContext.evolves_entryAfter haccepts.signers_ne_nil
      haccepts.verdict_eq hi hst⟩

theorem evolves_run
    (hretained : v.Throughout (fun w => (w.entryOf id i slot).isSome) es)
    (hst : v.entryOf id i slot = some st) :
    ∃ st', (v.run es).entryOf id i slot = some st' ∧ st.Evolves st' := by
  refine hretained.invariant (Q := fun w => ∃ st', w.entryOf id i slot = some st' ∧ st.Evolves st')
    ⟨st, hst, Or.inr (SignerState.Grows.refl st)⟩ ?_
  rintro w e hsome ⟨st', hst', hevolves⟩
  obtain ⟨st'', hst'', hevolves'⟩ := evolves_step hst' hsome
  exact ⟨st'', hst'', hevolves.trans hevolves'⟩

theorem entryOf_of_accepts {r : Reception K} {signed : SignedSSVMessage}
    {ctx : DutyContext K} {x : ValidatedSSVMessage}
    (h : v.Accepts r signed ctx x) (hi : i ∈ signed.operatorIds.toList) :
    (v.step (.receive r signed)).entryOf signed.ssvMessage.msgId i x.slot =
      some (ctx.entryAfter signed (v.observed signed.ssvMessage.msgId) i x) := by
  obtain ⟨hstate, -⟩ := ctx.record_spec signed (contextOf_eq_ok h.context_eq).1.nodup
    (cfg.slotCount signed.ssvMessage.msgId) (v.observed signed.ssvMessage.msgId) x i
  rw [entryOf, observed_receive_of_accepts h, hstate, if_pos hi, Observed.signerState_put_self,
    ctx.slot_entryAfter signed (v.coherent_observed _), if_pos rfl]

end Validator

end Anchor
