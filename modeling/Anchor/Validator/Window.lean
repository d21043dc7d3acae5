import Mathlib
import Anchor.Validator.Entries

/-!
# The window of acceptable slots

A message is accepted in a window around its slot.  The ring of an operator is long
enough for the window: two slots that can still matter never share a cell, and what
the cleaner drops lies before the epoch of every slot that is not late.
-/

namespace Anchor

/-! ## Windows -/

namespace SlotClock

variable {clock : SlotClock}

theorem eq_of_startOf {slot start : ℕ} (h : clock.startOf slot = some start) :
    clock.genesisSlot ≤ slot ∧
      start = clock.genesisTime + (slot - clock.genesisSlot) * clock.slotDuration := by
  unfold startOf at h
  split_ifs at h with hslot
  cases h
  exact ⟨hslot.1, rfl⟩

theorem lt_of_startOf {slot slot' start start' k : ℕ} (h : clock.startOf slot = some start)
    (h' : clock.startOf slot' = some start') (hlt : start < start' + k * clock.slotDuration) :
    slot < slot' + k := by
  obtain ⟨hslot, rfl⟩ := eq_of_startOf h
  obtain ⟨hslot', rfl⟩ := eq_of_startOf h'
  have hmul : (slot - clock.genesisSlot) * clock.slotDuration <
      (slot' - clock.genesisSlot + k) * clock.slotDuration := by
    rw [add_mul]
    omega
  have := Nat.lt_of_mul_lt_mul_right hmul
  omega

theorem lt_of_slotOf {time now slot start k : ℕ} (hnow : clock.slotOf time = some now)
    (h : clock.startOf slot = some start) (hlt : time < start + k * clock.slotDuration) :
    now < slot + k := by
  unfold slotOf at hnow
  split_ifs at hnow with htime
  cases hnow
  obtain ⟨hslot, rfl⟩ := eq_of_startOf h
  have hmul : (time - clock.genesisTime) / clock.slotDuration < slot - clock.genesisSlot + k := by
    rw [Nat.div_lt_iff_lt_mul clock.slotDuration_pos, add_mul]
    omega
  omega

end SlotClock

namespace DutyContext

variable {K : Type} {ctx ctx' : DutyContext K} {slot slot' : ℕ}

def NotEarly (ctx : DutyContext K) (slot : ℕ) : Prop :=
  ∃ earliness, ctx.messageEarliness slot = .ok earliness ∧
    earliness ≤ clockErrorTolerance + earlyMessageMargin

def NotLate (ctx : DutyContext K) (slot : ℕ) : Prop :=
  ∃ lateness, ctx.messageLateness slot = .ok lateness ∧ lateness ≤ clockErrorTolerance

theorem validateSlotTime_eq_ok_iff :
    ctx.validateSlotTime slot = .ok () ↔ ctx.NotEarly slot ∧ ctx.NotLate slot := by
  simp only [validateSlotTime, Checks.bind_eq_ok, Checks.require_eq_ok_iff, NotEarly, NotLate]
  constructor
  · rintro ⟨earliness, hearliness, ⟨⟩, hle, lateness, hlateness, hle'⟩
    exact ⟨⟨earliness, hearliness, hle⟩, lateness, hlateness, hle'⟩
  · rintro ⟨⟨earliness, hearliness, hle⟩, lateness, hlateness, hle'⟩
    exact ⟨earliness, hearliness, (), hle, lateness, hlateness, hle'⟩

theorem NotEarly.start_le (h : ctx.NotEarly slot) :
    ∃ start, ctx.chain.slotClock.startOf (ctx.earliestSlot slot) = some start ∧
      start ≤ ctx.receivedAt + 1050000000 := by
  obtain ⟨earliness, hearliness, hle⟩ := h
  unfold messageEarliness at hearliness
  split at hearliness
  · cases hearliness
  · rename_i start hstart
    rw [← Except.ok.inj hearliness, earlyMessageMargin, clockErrorTolerance] at hle
    exact ⟨start, hstart, by omega⟩

theorem NotLate.le_deadline (h : ctx.NotLate slot) :
    ∃ deadline, ctx.chain.slotClock.startOf (slot + ctx.ttl) = some deadline ∧
      ctx.receivedAt ≤ deadline + 3050000000 := by
  obtain ⟨lateness, hlateness, hle⟩ := h
  unfold messageLateness at hlateness
  split at hlateness
  · cases hlateness
  · rename_i deadline hdeadline
    rw [← Except.ok.inj hlateness, lateMessageMargin, clockErrorTolerance] at hle
    exact ⟨deadline, hdeadline, by omega⟩

theorem ttl_congr (hchain : ctx'.chain = ctx.chain) (hrole : ctx'.role = ctx.role) :
    ctx'.ttl = ctx.ttl := by
  rw [ttl, ttl, hchain, hrole]

theorem le_storedSlotCount (hepoch : 2 ≤ ctx.chain.slotsPerEpoch) (slot : ℕ) :
    slot + ctx.chain.slotsPerEpoch + ctx.ttl + 1 ≤
      ctx.earliestSlot slot + ctx.chain.storedSlotCount ctx.role := by
  by_cases hrole : ctx.role = .proposerPreferences
  · simp only [ttl, earliestSlot, Chain.storedSlotCount, hrole, if_true, Chain.epochOf,
      Chain.lateSlotAllowance]
    have hmod := Nat.div_add_mod slot ctx.chain.slotsPerEpoch
    have hlt := Nat.mod_lt slot ctx.chain.slotsPerEpoch_pos
    have hsub : slot / ctx.chain.slotsPerEpoch * ctx.chain.slotsPerEpoch ≤
        (slot / ctx.chain.slotsPerEpoch - ctx.chain.spec.minSeedLookahead) *
          ctx.chain.slotsPerEpoch +
        ctx.chain.spec.minSeedLookahead * ctx.chain.slotsPerEpoch := by
      rw [← add_mul]
      exact Nat.mul_le_mul_right _ (by omega)
    rw [mul_comm ctx.chain.slotsPerEpoch] at hmod
    rw [add_mul 1]
    omega
  · have hearliest : ctx.earliestSlot slot = slot := if_neg hrole
    rw [hearliest]
    unfold ttl Chain.storedSlotCount Chain.lateSlotAllowance
    cases hcase : ctx.role <;> simp only <;> first | omega | exact absurd hcase hrole

theorem ttl_lt_storedSlotCount (hepoch : 2 ≤ ctx.chain.slotsPerEpoch) :
    ctx.chain.slotsPerEpoch + ctx.ttl + 1 ≤ ctx.chain.storedSlotCount ctx.role := by
  have h := ctx.le_storedSlotCount hepoch 0
  have hzero : ctx.earliestSlot 0 = 0 := by
    unfold earliestSlot Chain.epochOf
    split_ifs <;> simp
  omega

/-- A slot that was not early is less than a ring, and by an epoch, ahead of a slot
that is not late then or later. -/
theorem window (hepoch : 2 ≤ ctx.chain.slotsPerEpoch)
    (hduration : 2050000000 < ctx.chain.slotClock.slotDuration)
    (hchain : ctx'.chain = ctx.chain) (hrole : ctx'.role = ctx.role)
    (htime : ctx.receivedAt ≤ ctx'.receivedAt) (hearly : ctx.NotEarly slot)
    (hlate : ctx'.NotLate slot') :
    slot + ctx.chain.slotsPerEpoch ≤ slot' + ctx.chain.storedSlotCount ctx.role := by
  obtain ⟨start, hstart, hle⟩ := hearly.start_le
  obtain ⟨deadline, hdeadline, hle'⟩ := hlate.le_deadline
  rw [hchain, ttl_congr hchain hrole] at hdeadline
  have hlt := SlotClock.lt_of_startOf (k := 2) hstart hdeadline (by omega)
  have := ctx.le_storedSlotCount hepoch slot
  omega

theorem window_clock {time now : ℕ} (hepoch : 2 ≤ ctx.chain.slotsPerEpoch)
    (hduration : 3050000000 < 3 * ctx.chain.slotClock.slotDuration)
    (hnow : ctx.chain.slotClock.slotOf time = some now) (htime : time ≤ ctx.receivedAt)
    (hlate : ctx.NotLate slot) :
    now + ctx.chain.slotsPerEpoch ≤ slot + ctx.chain.storedSlotCount ctx.role + 1 := by
  obtain ⟨deadline, hdeadline, hle⟩ := hlate.le_deadline
  have hlt := SlotClock.lt_of_slotOf (k := 3) hnow hdeadline (by omega)
  have := ttl_lt_storedSlotCount hepoch
  omega

end DutyContext

/-! ## Slots that no longer matter -/

/-- From a time on, a slot lies before the epoch of every slot that is not late. -/
def Stale (K : Type) (chain : Chain) (role : Role) (time slot : ℕ) : Prop :=
  ∀ (ctx : DutyContext K) (slot' : ℕ), ctx.chain = chain → ctx.role = role →
    time ≤ ctx.receivedAt → ctx.NotLate slot' →
      slot < chain.epochOf slot' * chain.slotsPerEpoch

theorem Chain.epochStart_le (chain : Chain) (slot : ℕ) :
    chain.epochOf slot * chain.slotsPerEpoch ≤ slot :=
  Nat.div_mul_le_self _ _

theorem Chain.lt_epochStart_add (chain : Chain) (slot : ℕ) :
    slot < chain.epochOf slot * chain.slotsPerEpoch + chain.slotsPerEpoch :=
  Nat.lt_div_mul_add chain.slotsPerEpoch_pos

namespace Stale

variable {K : Type} {chain : Chain} {role : Role} {time time' slot : ℕ}

theorem mono (h : Stale K chain role time slot) (htime : time ≤ time') :
    Stale K chain role time' slot :=
  fun ctx slot' hchain hrole hle => h ctx slot' hchain hrole (htime.trans hle)

theorem of_outdated {now : ℕ} (hepoch : 2 ≤ chain.slotsPerEpoch)
    (hduration : 3050000000 < 3 * chain.slotClock.slotDuration)
    (hnow : chain.slotClock.slotOf time = some now)
    (hslot : slot < now - chain.storedSlotCount role) : Stale K chain role time slot := by
  rintro ctx slot' rfl rfl htime hlate
  have hwindow := DutyContext.window_clock hepoch hduration hnow htime hlate
  have := ctx.chain.lt_epochStart_add slot'
  omega

theorem of_overwritten {ctx ctx' : DutyContext K} {slot' : ℕ}
    (hepoch : 2 ≤ ctx'.chain.slotsPerEpoch)
    (hduration : 2050000000 < ctx'.chain.slotClock.slotDuration)
    (hchain : ctx.chain = ctx'.chain) (hrole : ctx.role = ctx'.role)
    (htime : ctx.receivedAt ≤ ctx'.receivedAt) (hslot : ctx.NotEarly slot)
    (hearly : ctx'.NotEarly slot') (hlate : ctx'.NotLate slot') (hne : slot ≠ slot')
    (hmod : slot % ctx'.chain.storedSlotCount ctx'.role =
      slot' % ctx'.chain.storedSlotCount ctx'.role) :
    Stale K ctx'.chain ctx'.role ctx'.receivedAt slot := by
  rintro ctx'' slot'' hchain'' hrole'' htime'' hlate''
  by_contra hge
  -- the overwriting slot is close to the window of `slot''` and to the overwritten slot
  have hahead := DutyContext.window hepoch hduration hchain'' hrole'' htime'' hearly hlate''
  have hbehind := DutyContext.window (hchain ▸ hepoch) (hchain ▸ hduration) hchain.symm hrole.symm
    htime hslot hlate
  have hstart := ctx'.chain.lt_epochStart_add slot''
  rw [hchain, hrole] at hbehind
  have hpos := ctx'.chain.slotsPerEpoch_pos
  exact hne (RingBuffer.eq_of_mod_eq hmod (by omega) (by omega))

end Stale

end Anchor
