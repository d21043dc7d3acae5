import Mathlib
import Anchor.Validator.Window

/-!
# The duty count is exact

The validator limits the duties of an operator in an epoch, and it counts them by
looking for entries in the operator's ring.  An entry is lost only when its slot is
before the epoch of every slot that can still be asked about, so the count is the
number of slots that were accepted.
-/

namespace Anchor

theorem Observed.dutyCount_eq_card {o : Observed} {i : OperatorId} {epoch slotsPerEpoch : ℕ}
    {slots : Finset ℕ} (hpos : 0 < slotsPerEpoch)
    (h : ∀ slot, slot / slotsPerEpoch = epoch →
      ((o.signerState i slot).isSome ↔ slot ∈ slots)) :
    o.dutyCount i epoch slotsPerEpoch =
      (slots.filter fun slot => slot / slotsPerEpoch = epoch).card := by
  have hdiv : ∀ k < slotsPerEpoch, (epoch * slotsPerEpoch + k) / slotsPerEpoch = epoch := by
    intro k hk
    rw [mul_comm, Nat.mul_add_div hpos, Nat.div_eq_of_lt hk, Nat.add_zero]
  have himage : (slots.filter fun slot => slot / slotsPerEpoch = epoch) =
      (((List.range slotsPerEpoch).filter fun k =>
        (o.signerState i (epoch * slotsPerEpoch + k)).isSome).map
          (epoch * slotsPerEpoch + ·)).toFinset := by
    ext slot
    simp only [Finset.mem_filter, List.mem_toFinset, List.mem_map, List.mem_filter, List.mem_range]
    constructor
    · rintro ⟨hslot, hepoch⟩
      have hmod := Nat.div_add_mod slot slotsPerEpoch
      rw [hepoch, mul_comm] at hmod
      refine ⟨slot % slotsPerEpoch, ⟨Nat.mod_lt _ hpos, ?_⟩, hmod⟩
      rw [hmod]
      exact (h slot hepoch).mpr hslot
    · rintro ⟨k, ⟨hk, hsome⟩, rfl⟩
      exact ⟨(h _ (hdiv k hk)).mp hsome, hdiv k hk⟩
  have hnodup : (((List.range slotsPerEpoch).filter fun k =>
      (o.signerState i (epoch * slotsPerEpoch + k)).isSome).map
        (epoch * slotsPerEpoch + ·)).Nodup :=
    (List.nodup_range.filter _).map fun a b hab => Nat.add_left_cancel hab
  rw [himage, List.toFinset_card_of_nodup hnodup, List.length_map, dutyCount]

namespace Validator

variable {K : Type} {cfg : ValidatorConfig K}

def acceptedSlots (id : MessageId) (i : OperatorId) : Validator cfg → List (Event K) → Finset ℕ
  | _, [] => ∅
  | v, e :: es => v.admitted id i e ∪ acceptedSlots id i (v.step e) es

theorem acceptedSlots_append_singleton (id : MessageId) (i : OperatorId) (v : Validator cfg)
    (es : List (Event K)) (e : Event K) :
    acceptedSlots id i v (es ++ [e]) = acceptedSlots id i v es ∪ (v.run es).admitted id i e := by
  induction es generalizing v with
  | nil => simp [acceptedSlots]
  | cons d es ih =>
    rw [List.cons_append, acceptedSlots, ih, acceptedSlots, Finset.union_assoc]
    rfl

/-- At a time, the entries of an operator are accepted slots, and an accepted slot
without an entry is stale. -/
structure Tracks (v : Validator cfg) (id : MessageId) (i : OperatorId) (role : Role) (time : ℕ)
    (accepted : Finset ℕ) : Prop where
  notEarly : ∀ slot ∈ accepted, ∃ ctx : DutyContext K, ctx.chain = cfg.chain ∧ ctx.role = role ∧
    ctx.receivedAt ≤ time ∧ ctx.NotEarly slot
  mem_of_entry : ∀ slot, (v.entryOf id i slot).isSome → slot ∈ accepted
  entry_or_stale : ∀ slot ∈ accepted,
    (v.entryOf id i slot).isSome ∨ Stale K cfg.chain role time slot

namespace Tracks

variable {v : Validator cfg} {id : MessageId} {i : OperatorId} {role : Role} {time time' : ℕ}
  {accepted : Finset ℕ}

theorem mono (h : v.Tracks id i role time accepted) (htime : time ≤ time') :
    v.Tracks id i role time' accepted where
  notEarly slot hslot := by
    obtain ⟨ctx, hchain, hrole, hle, hearly⟩ := h.notEarly slot hslot
    exact ⟨ctx, hchain, hrole, hle.trans htime, hearly⟩
  mem_of_entry := h.mem_of_entry
  entry_or_stale slot hslot := (h.entry_or_stale slot hslot).imp_right fun hstale =>
    hstale.mono htime

theorem entry_iff (h : v.Tracks id i role time accepted) {ctx : DutyContext K} {slot slot' : ℕ}
    (hchain : ctx.chain = cfg.chain) (hrole : ctx.role = role) (htime : time ≤ ctx.receivedAt)
    (hlate : ctx.NotLate slot') (hepoch : cfg.chain.epochOf slot = cfg.chain.epochOf slot') :
    (v.entryOf id i slot).isSome ↔ slot ∈ accepted := by
  refine ⟨h.mem_of_entry slot, fun hslot => ?_⟩
  rcases h.entry_or_stale slot hslot with hsome | hstale
  · exact hsome
  · have hlt := hstale ctx slot' hchain hrole htime hlate
    rw [← hepoch] at hlt
    exact absurd (cfg.chain.epochStart_le slot) (not_le.mpr hlt)

theorem dutyCount_eq (h : v.Tracks id i role time accepted) {ctx : DutyContext K} {slot : ℕ}
    (hchain : ctx.chain = cfg.chain) (hrole : ctx.role = role) (htime : time ≤ ctx.receivedAt)
    (hlate : ctx.NotLate slot) :
    (v.observed id).dutyCount i (cfg.chain.epochOf slot) cfg.chain.slotsPerEpoch =
      (accepted.filter fun s => cfg.chain.epochOf s = cfg.chain.epochOf slot).card :=
  Observed.dutyCount_eq_card cfg.chain.slotsPerEpoch_pos fun _ hepoch =>
    h.entry_iff hchain hrole htime hlate hepoch

end Tracks

theorem slotCount_of_role {id : MessageId} {role : Role} (hrole : id.role = some role) :
    cfg.slotCount id = cfg.chain.storedSlotCount role := by
  rw [ValidatorConfig.slotCount, hrole]

theorem Accepts.slotTime {v : Validator cfg} {r : Reception K} {signed : SignedSSVMessage}
    {ctx : DutyContext K} {x : ValidatedSSVMessage} (h : v.Accepts r signed ctx x) :
    ctx.NotEarly x.slot ∧ ctx.NotLate x.slot :=
  DutyContext.validateSlotTime_eq_ok_iff.mp (DutyContext.slot_of_verdict h.verdict_eq).2.1

theorem Accepts.role_eq {v : Validator cfg} {r : Reception K} {signed : SignedSSVMessage}
    {ctx : DutyContext K} {x : ValidatedSSVMessage} {role : Role} (h : v.Accepts r signed ctx x)
    (hrole : signed.ssvMessage.msgId.role = some role) : ctx.role = role :=
  Option.some.inj ((contextOf_eq_ok h.context_eq).2.1.symm.trans hrole)

section Run

variable {id : MessageId} {i : OperatorId} {role : Role}

variable {accepted : Finset ℕ}

theorem Tracks.of_outdated {v w : Validator cfg} {time now : ℕ}
    (h : v.Tracks id i role time accepted) (hepoch : 2 ≤ cfg.chain.slotsPerEpoch)
    (hduration : 3050000000 < 3 * cfg.chain.slotClock.slotDuration) (hrole : id.role = some role)
    (hnow : cfg.chain.slotClock.slotOf time = some now)
    (houtdated : (v.observed id).Outdated (cfg.slotCount id) now)
    (hempty : w.observed id = Observed.empty) : w.Tracks id i role time accepted where
  notEarly := h.notEarly
  mem_of_entry slot hsome := by
    rw [entryOf, hempty] at hsome
    cases hsome
  entry_or_stale slot hslot := by
    right
    rcases h.entry_or_stale slot hslot with hsome | hstale
    · obtain ⟨st, hst⟩ := Option.isSome_iff_exists.mp hsome
      have hle := (v.coherent_observed id).slot_le hst
      have hlt := houtdated i
      rw [slotCount_of_role hrole] at hlt
      exact Stale.of_outdated hepoch hduration hnow (hle.trans_lt hlt)
    · exact hstale

theorem Tracks.of_accepts {v w : Validator cfg} {r : Reception K} {signed : SignedSSVMessage}
    {ctx : DutyContext K} {x : ValidatedSSVMessage}
    (h : v.Tracks id i role r.receivedAt accepted) (hepoch : 2 ≤ cfg.chain.slotsPerEpoch)
    (hduration : 2050000000 < cfg.chain.slotClock.slotDuration)
    (haccepts : v.Accepts r signed ctx x) (hrole : signed.ssvMessage.msgId.role = some role)
    (hentry : ∀ slot, (w.entryOf id i slot).isSome ↔ slot = x.slot ∨
      slot % cfg.chain.storedSlotCount role ≠ x.slot % cfg.chain.storedSlotCount role ∧
        (v.entryOf id i slot).isSome) :
    w.Tracks id i role r.receivedAt (accepted ∪ {x.slot}) := by
  obtain ⟨hearly, hlate⟩ := haccepts.slotTime
  obtain ⟨-, -, -, hchain, htime⟩ := contextOf_eq_ok haccepts.context_eq
  have hctxRole := haccepts.role_eq hrole
  refine ⟨fun slot hslot => ?_, fun slot hsome => ?_, fun slot hslot => ?_⟩
  · rcases Finset.mem_union.mp hslot with hslot | hslot
    · exact h.notEarly slot hslot
    · rw [Finset.mem_singleton.mp hslot]
      exact ⟨ctx, hchain, hctxRole, htime.le, hearly⟩
  · rcases (hentry slot).mp hsome with rfl | ⟨-, hold⟩
    · exact Finset.mem_union_right _ (Finset.mem_singleton_self _)
    · exact Finset.mem_union_left _ (h.mem_of_entry slot hold)
  · by_cases heq : slot = x.slot
    · exact Or.inl ((hentry slot).mpr (Or.inl heq))
    have hold : slot ∈ accepted := by simpa [heq] using hslot
    by_cases hmod : slot % cfg.chain.storedSlotCount role = x.slot % cfg.chain.storedSlotCount role
    · -- the cell is taken over by another slot
      obtain ⟨ctx', hchain', hrole', htime', hearly'⟩ := h.notEarly slot hold
      have hstale := Stale.of_overwritten (hchain ▸ hepoch) (hchain ▸ hduration)
        (hchain'.trans hchain.symm) (hrole'.trans hctxRole.symm) (htime ▸ htime') hearly' hearly
        hlate heq (by rw [hchain, hctxRole]; exact hmod)
      rw [hchain, hctxRole, htime] at hstale
      exact Or.inr hstale
    · exact (h.entry_or_stale slot hold).imp_left fun hsome =>
        (hentry slot).mpr (Or.inr ⟨hmod, hsome⟩)

theorem tracks_step (hepoch : 2 ≤ cfg.chain.slotsPerEpoch)
    (hduration : 2050000000 < cfg.chain.slotClock.slotDuration) (hrole : id.role = some role)
    {v : Validator cfg} {e : Event K}
    (h : v.Tracks id i role e.time accepted) :
    (v.step e).Tracks id i role e.time (accepted ∪ v.admitted id i e) := by
  rcases v.observed_step_cases e id i with ⟨hadmitted, hsame, -⟩ |
    ⟨hadmitted, time, among, now, rfl, hnow, houtdated, hempty⟩ |
    ⟨r, signed, ctx, x, rfl, rfl, haccepts, hi, hadmitted, hput, -⟩
  · rw [hadmitted, Finset.union_empty]
    have hentry : (v.step e).entryOf id i = v.entryOf id i := hsame
    exact ⟨h.notEarly, hentry ▸ h.mem_of_entry, hentry ▸ h.entry_or_stale⟩
  · rw [hadmitted, Finset.union_empty]
    exact h.of_outdated hepoch (by omega) hrole hnow houtdated hempty
  · rw [hadmitted]
    refine h.of_accepts hepoch hduration haccepts hrole fun slot => ?_
    rw [entryOf, hput, Observed.signerState_put_self,
      ctx.slot_entryAfter signed (v.coherent_observed _), slotCount_of_role hrole]
    split_ifs with hslot hmod <;> simp [entryOf, *]

theorem tracks_run (hepoch : 2 ≤ cfg.chain.slotsPerEpoch)
    (hduration : 2050000000 < cfg.chain.slotClock.slotDuration) (hrole : id.role = some role)
    {es : List (Event K)} (htimes : es.Pairwise fun a b => a.time ≤ b.time) {time : ℕ}
    (htime : ∀ e ∈ es, e.time ≤ time) :
    ((new cfg).run es).Tracks id i role time (acceptedSlots id i (new cfg) es) := by
  induction es using List.reverseRecOn generalizing time with
  | nil =>
    refine ⟨fun slot hslot => by simp [acceptedSlots] at hslot, fun slot hsome => ?_,
      fun slot hslot => by simp [acceptedSlots] at hslot⟩
    rw [run_nil, entryOf, observed_of_none rfl] at hsome
    cases hsome
  | append_singleton es e ih =>
    obtain ⟨hbefore, -, hlast⟩ := List.pairwise_append.mp htimes
    have htracks := tracks_step (e := e) hepoch hduration hrole
      (ih hbefore fun d hd => hlast d hd e (List.mem_singleton_self e))
    rw [run_append, acceptedSlots_append_singleton]
    exact htracks.mono (htime e (by simp))

theorem dutyCount_lt_of_accepts {v : Validator cfg} {r : Reception K} {signed : SignedSSVMessage}
    {ctx : DutyContext K} {x : ValidatedSSVMessage} {limit : ℕ}
    (h : v.Accepts r signed ctx x) (hi : i ∈ signed.operatorIds.toList)
    (hlimit : ctx.dutyLimit signed.ssvMessage.msgId x.slot = .ok (some limit))
    (hnone : v.entryOf signed.ssvMessage.msgId i x.slot = none) :
    (v.observed signed.ssvMessage.msgId).dutyCount i (cfg.chain.epochOf x.slot)
      cfg.chain.slotsPerEpoch < limit := by
  have hrule := (DutyContext.slot_of_verdict h.verdict_eq).2.2 i hi
  rw [DutyContext.dutyCountRule, DutyContext.checkDutyCount, hlimit,
    (contextOf_eq_ok h.context_eq).2.2.2.1] at hrule
  refine Checks.require_eq_ok_iff.mp hrule ?_
  rw [show (v.observed signed.ssvMessage.msgId).signerState i x.slot = none from hnone]
  rfl

/-- What is overwritten in the ring of an operator is the entry of a slot that is not
acceptable any more; the duties counted in the epoch of an acceptable slot are the
accepted ones; and a duty is admitted only within the limit in force. -/
theorem duty_count_exact (hepoch : 2 ≤ cfg.chain.slotsPerEpoch)
    (hduration : 2050000000 < cfg.chain.slotClock.slotDuration) (es : List (Event K))
    (htimes : es.Pairwise fun a b => a.time ≤ b.time) (id : MessageId) (i : OperatorId)
    (role : Role) (hrole : id.role = some role) :
    (∀ r signed slot, (∀ e ∈ es, e.time ≤ r.receivedAt) →
      (((((new cfg).run es).getDutyState id).operator i).getSignerState slot).isSome →
      ((((new cfg).run (es ++ [.receive r signed])).getDutyState id).operator i).getSignerState
        slot = none →
      ∀ ctx : DutyContext K, ctx.chain = cfg.chain → ctx.role = role →
        r.receivedAt ≤ ctx.receivedAt → ctx.validateSlotTime slot ≠ .ok ()) ∧
    (∀ (ctx : DutyContext K) slot, ctx.chain = cfg.chain → ctx.role = role →
      (∀ e ∈ es, e.time ≤ ctx.receivedAt) → ctx.validateSlotTime slot = .ok () →
      ((((new cfg).run es).getDutyState id).operator i).getDutyCount (cfg.chain.epochOf slot)
          cfg.chain.slotsPerEpoch =
        ((acceptedSlots id i (new cfg) es).filter fun s =>
          cfg.chain.epochOf s = cfg.chain.epochOf slot).card) ∧
    ∀ r signed ctx x limit, (∀ e ∈ es, e.time ≤ r.receivedAt) →
      ((new cfg).run es).Accepts r signed ctx x → signed.ssvMessage.msgId = id →
      i ∈ signed.operatorIds.toList → x.slot ∉ acceptedSlots id i (new cfg) es →
      ctx.dutyLimit id x.slot = .ok (some limit) →
      ((acceptedSlots id i (new cfg) (es ++ [.receive r signed])).filter fun s =>
        cfg.chain.epochOf s = cfg.chain.epochOf x.slot).card ≤ limit := by
  have htracks {time : ℕ} (htime : ∀ e ∈ es, e.time ≤ time) :
      ((new cfg).run es).Tracks id i role time (acceptedSlots id i (new cfg) es) :=
    tracks_run hepoch hduration hrole htimes htime
  refine ⟨?_, ?_, ?_⟩
  · intro r signed slot htime hsome hnone ctx hchain hctxRole hle hslot
    have hentry : (((new cfg).run es).entryOf id i slot).isSome := by
      rw [entryOf, observed, DutyState.signerState_observed, Option.isSome_map]
      exact hsome
    have hmem := (htracks htime).mem_of_entry slot hentry
    have hnext := tracks_step (e := .receive r signed) hepoch hduration hrole (htracks htime)
    rw [run_append] at hnone
    -- the slot is still tracked as accepted, so it would have its entry
    have hsome' := (hnext.entry_iff hchain hctxRole hle
      (DutyContext.validateSlotTime_eq_ok_iff.mp hslot).2 rfl).mpr (Finset.mem_union_left _ hmem)
    rw [entryOf, observed, DutyState.signerState_observed, Option.isSome_map] at hsome'
    rw [show (((((new cfg).run es).step (.receive r signed)).getDutyState id).operator
      i).getSignerState slot = none from hnone] at hsome'
    cases hsome'
  · intro ctx slot hchain hctxRole htime hslot
    rw [DutyState.getDutyCount_eq]
    exact (htracks htime).dutyCount_eq hchain hctxRole le_rfl
      (DutyContext.validateSlotTime_eq_ok_iff.mp hslot).2
  · rintro r signed ctx x limit htime haccepts rfl hi hnew hlimit
    obtain ⟨-, -, -, hchain, hreceived⟩ := contextOf_eq_ok haccepts.context_eq
    have hctxRole := haccepts.role_eq hrole
    have hlate := haccepts.slotTime.2
    have hnone : ((new cfg).run es).entryOf signed.ssvMessage.msgId i x.slot = none := by
      rw [← Option.not_isSome_iff_eq_none]
      exact fun hsome => hnew ((htracks htime).mem_of_entry x.slot hsome)
    have hcount := dutyCount_lt_of_accepts haccepts hi hlimit hnone
    rw [(htracks htime).dutyCount_eq hchain hctxRole hreceived.ge hlate] at hcount
    have hadmitted : ((new cfg).run es).admitted signed.ssvMessage.msgId i (.receive r signed) =
        {x.slot} := by
      rw [admitted, answer_eq_ok_iff.mpr ⟨ctx, haccepts⟩]
      exact if_pos ⟨rfl, hi⟩
    rw [acceptedSlots_append_singleton, hadmitted, Finset.filter_union]
    refine (Finset.card_union_le _ _).trans ?_
    have hone : (({x.slot} : Finset ℕ).filter fun s =>
        cfg.chain.epochOf s = cfg.chain.epochOf x.slot).card ≤ 1 :=
      (Finset.card_filter_le _ _).trans (Finset.card_singleton _).le
    omega

end Run

end Validator

namespace Sample

def dutyContext (time : ℕ) : DutyContext OperatorId where
  toValidationContext := ctx
  chain := chain
  role := .committee
  validatorIndices := [0, 1]
  receivedAt := time
  currentSlot := chain.slotClock.slotOf time
  duties := duties

/-- One duty of operator 1 in the first epoch. -/
theorem duty_count_exact_prepare :
    (dutyContext 2).validateSlotTime 0 = .ok () ∧
    ((((Validator.new validatorConfig).run
        [.receive (reception 1) (vote .prepare 1 ⟨[⟨1⟩], by decide⟩)]).getDutyState
          identifier).operator ⟨1⟩).getDutyCount 0 8 =
      ((Validator.acceptedSlots identifier ⟨1⟩ (Validator.new validatorConfig)
        [.receive (reception 1) (vote .prepare 1 ⟨[⟨1⟩], by decide⟩)]).filter fun s =>
          s / 8 = 0).card := by
  have hslot : (dutyContext 2).validateSlotTime 0 = .ok () := by decide +kernel
  exact ⟨hslot, (Validator.duty_count_exact (by decide) (by decide)
    [.receive (reception 1) (vote .prepare 1 ⟨[⟨1⟩], by decide⟩)] (List.pairwise_singleton _ _)
    identifier ⟨1⟩ .committee (by decide)).2.1 (dutyContext 2) 0 rfl rfl (by decide) hslot⟩

end Sample

end Anchor
