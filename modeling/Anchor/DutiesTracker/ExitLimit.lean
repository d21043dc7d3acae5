import Mathlib
import Anchor.DutiesTracker.Retention

/-!
# How many exits the validator admits

The limit for an exit is the number of exits announced for its slot.  It is compared with the
number of slots of the whole epoch that were accepted, so an earlier exit of the epoch can keep
a later one out.
-/

namespace Anchor

/-! ## Slots that are recorded -/

namespace Validator

variable {K : Type} {cfg : ValidatorConfig K}

/-- The slots accepted for an operator since the duty state of the identifier was last dropped. -/
def recordedSlots (id : MessageId) (i : OperatorId) :
    Validator cfg → Finset ℕ → List (Event K) → Finset ℕ
  | _, slots, [] => slots
  | v, slots, e :: es =>
    recordedSlots id i (v.step e)
      (if ((v.step e).dutyStateMap id).isNone then ∅ else slots ∪ v.admitted id i e) es

def InOrder (id : MessageId) (i : OperatorId) : Validator cfg → Finset ℕ → List (Event K) → Prop
  | _, _, [] => True
  | v, slots, e :: es =>
    (∀ slot ∈ slots, ∀ slot' ∈ v.admitted id i e, slot ≤ slot') ∧
      InOrder id i (v.step e) (slots ∪ v.admitted id i e) es

/-- An entry is there for every recorded slot whose cell was not taken by a later one. -/
def Remembers (v : Validator cfg) (id : MessageId) (i : OperatorId) (slots : Finset ℕ) : Prop :=
  ∀ slot, (v.entryOf id i slot).isSome = true ↔
    slot ∈ slots ∧ ∀ s ∈ slots, s % cfg.slotCount id = slot % cfg.slotCount id → s ≤ slot

variable {v : Validator cfg} {id : MessageId} {i : OperatorId} {slots : Finset ℕ}

theorem remembers_of_none (h : v.dutyStateMap id = none) : v.Remembers id i ∅ := by
  intro slot
  rw [entryOf, observed_of_none h]
  simp [Observed.empty]

theorem dutyStateMap_clean (v : Validator cfg) (time : ℕ) (among : MessageId → Bool)
    (id : MessageId) :
    (v.step (.clean time among)).dutyStateMap id = none ∨
      (v.step (.clean time among)).dutyStateMap id = v.dutyStateMap id := by
  simp only [step]
  split
  · exact Or.inr rfl
  · simp only [retain]
    cases v.dutyStateMap id with
    | none => exact Or.inl rfl
    | some d =>
      rw [Option.filter_some]
      split
      · exact Or.inr rfl
      · exact Or.inl rfl

theorem Remembers.step (h : v.Remembers id i slots) {e : Event K}
    (horder : ∀ slot ∈ slots, ∀ slot' ∈ v.admitted id i e, slot ≤ slot') :
    (v.step e).Remembers id i
      (if ((v.step e).dutyStateMap id).isNone then ∅ else slots ∪ v.admitted id i e) := by
  cases hstate : (v.step e).dutyStateMap id with
  | none => exact remembers_of_none hstate
  | some d =>
    rw [Option.isNone_some, if_neg Bool.false_ne_true]
    rcases v.observed_step_cases e id i with ⟨hadmitted, hsame, -⟩ |
      ⟨hadmitted, time, among, now, rfl, -⟩ |
      ⟨r, signed, ctx, x, rfl, rfl, haccepts, hi, hadmitted, hput, -⟩
    · rw [hadmitted, Finset.union_empty]
      intro slot
      rw [entryOf, hsame]
      exact h slot
    · rw [hadmitted, Finset.union_empty]
      have hkept : (v.step (.clean time among)).dutyStateMap id = v.dutyStateMap id := by
        rcases v.dutyStateMap_clean time among id with hnone | hkept
        · rw [hnone] at hstate
          cases hstate
        · exact hkept
      intro slot
      rw [entryOf, observed_of_dutyStateMap hkept]
      exact h slot
    · rw [hadmitted] at horder ⊢
      intro slot
      rw [entryOf, hput, Observed.signerState_put_self,
        ctx.slot_entryAfter signed (v.coherent_observed _)]
      have hlast : ∀ s ∈ slots, s ≤ x.slot := by simpa using horder
      by_cases hslot : slot = x.slot
      · subst hslot
        simpa using fun s hs _ => hlast s hs
      rw [if_neg hslot]
      by_cases hmod : slot % cfg.slotCount signed.ssvMessage.msgId =
          x.slot % cfg.slotCount signed.ssvMessage.msgId
      · -- the cell of the slot is taken by the slot of the packet
        rw [if_pos hmod]
        refine iff_of_false (by simp) ?_
        rintro ⟨hmem, hle⟩
        have hmem' : slot ∈ slots := by simpa [hslot] using hmem
        have hge := hle x.slot (by simp) hmod.symm
        exact hslot (le_antisymm (hlast slot hmem') hge)
      · rw [if_neg hmod]
        refine (h slot).trans ?_
        simp [hslot, Ne.symm hmod]

theorem remembers_run (es : List (Event K)) {slots accepted : Finset ℕ}
    (h : v.Remembers id i slots) (hslots : slots ⊆ accepted) (horder : v.InOrder id i accepted es) :
    (v.run es).Remembers id i (recordedSlots id i v slots es) := by
  induction es generalizing v slots accepted with
  | nil => exact h
  | cons e es ih =>
    refine ih (h.step fun slot hslot => horder.1 slot (hslots hslot)) ?_ horder.2
    split
    · exact Finset.empty_subset _
    · exact Finset.union_subset_union_left hslots

theorem Remembers.entry_iff (h : v.Remembers id i slots) {slot : ℕ}
    (hlast : ∀ s ∈ slots, s ≤ slot) (hlength : cfg.chain.slotsPerEpoch ≤ cfg.slotCount id) {s : ℕ}
    (hepoch : cfg.chain.epochOf s = cfg.chain.epochOf slot) :
    (v.entryOf id i s).isSome = true ↔ s ∈ slots := by
  rw [h s, and_iff_left_of_imp]
  intro hs s' hs' hmod
  by_contra hlt
  -- A later slot in the same cell is at least a ring away, but the epoch is shorter.
  have hring : s + cfg.slotCount id ≤ s' := by
    have hdvd : cfg.slotCount id ∣ s' - s := (Nat.modEq_iff_dvd' (by omega)).mp hmod.symm
    have := Nat.le_of_dvd (by omega) hdvd
    omega
  have hwithin : slot < s + cfg.chain.slotsPerEpoch := by
    have hdiv := Nat.div_add_mod slot cfg.chain.slotsPerEpoch
    have hdiv' := Nat.div_add_mod s cfg.chain.slotsPerEpoch
    have hmod := Nat.mod_lt slot cfg.chain.slotsPerEpoch_pos
    unfold Chain.epochOf at hepoch
    rw [← hepoch] at hdiv
    omega
  have := hlast s' hs'
  omega

theorem recordedSlots_subset (es : List (Event K)) {slots accepted : Finset ℕ}
    (h : slots ⊆ accepted) :
    recordedSlots id i v slots es ⊆ accepted ∪ acceptedSlots id i v es := by
  induction es generalizing v slots accepted with
  | nil => simpa [recordedSlots, acceptedSlots] using h
  | cons e es ih =>
    rw [recordedSlots, acceptedSlots, ← Finset.union_assoc]
    refine ih ?_
    split
    · exact Finset.empty_subset _
    · exact Finset.union_subset_union_left h

/-! ## Exits -/

theorem dutyLimit_of_exit {ctx : DutyContext K} (hrole : ctx.role = .voluntaryExit)
    {pubkey : PublicKeyBytes} (hkey : id.dutyExecutor = some (.validator pubkey))
    (d : DutiesTracker) (slot : ℕ) :
    (ctx.knowing d).dutyLimit id slot =
      .ok (some (d.voluntaryExitTracker.getDutyCount slot pubkey)) := by
  simp only [DutyContext.dutyLimit, DutyContext.knowing, hrole, DutyContext.validatorPublicKey,
    hkey]
  rfl

/-- The packet of an exit is not refused by the duty count exactly if its slot is recorded, or
fewer slots of its epoch are recorded than exits are announced for the slot. -/
theorem exit_within_duty_count_iff (es : List (Event K)) (id : MessageId) (i : OperatorId)
    (horder : (new cfg).InOrder id i ∅ es) (slot : ℕ)
    (hslot : ∀ s ∈ acceptedSlots id i (new cfg) es, s ≤ slot) (ctx : DutyContext K)
    (hchain : ctx.chain = cfg.chain) (hrole : ctx.role = .voluntaryExit)
    (hid : id.role = some .voluntaryExit) (pubkey : PublicKeyBytes)
    (hkey : id.dutyExecutor = some (.validator pubkey)) (d : DutiesTracker) :
    (ctx.knowing d).validateDutyCount id slot
        ((((new cfg).run es).getDutyState id).operator i) = .ok () ↔
      slot ∈ recordedSlots id i (new cfg) ∅ es ∨
        ((recordedSlots id i (new cfg) ∅ es).filter fun s =>
          cfg.chain.epochOf s = cfg.chain.epochOf slot).card <
            d.voluntaryExitTracker.getDutyCount slot pubkey := by
  have hremembers : ((new cfg).run es).Remembers id i (recordedSlots id i (new cfg) ∅ es) :=
    remembers_run es (remembers_of_none rfl) (Finset.Subset.refl _) horder
  have hlast : ∀ s ∈ recordedSlots id i (new cfg) ∅ es, s ≤ slot := by
    intro s hs
    have hmem := recordedSlots_subset es (Finset.Subset.refl ∅) hs
    rw [Finset.empty_union] at hmem
    exact hslot s hmem
  have hlength : cfg.chain.slotsPerEpoch ≤ cfg.slotCount id := by
    rw [slotCount_of_role hid, Chain.storedSlotCount]
    omega
  have hentry {s : ℕ} (hepoch : cfg.chain.epochOf s = cfg.chain.epochOf slot) :
      (((new cfg).run es).entryOf id i s).isSome = true ↔
        s ∈ recordedSlots id i (new cfg) ∅ es :=
    hremembers.entry_iff hlast hlength hepoch
  have hcount : ((((new cfg).run es).getDutyState id).operator i).getDutyCount
      (cfg.chain.epochOf slot) cfg.chain.slotsPerEpoch =
      ((recordedSlots id i (new cfg) ∅ es).filter fun s =>
        cfg.chain.epochOf s = cfg.chain.epochOf slot).card := by
    rw [DutyState.getDutyCount_eq]
    exact Observed.dutyCount_eq_card cfg.chain.slotsPerEpoch_pos fun s hepoch => hentry hepoch
  have hfirst : ((((new cfg).run es).getDutyState id).operator i).isFirstMessageForDuty slot =
      true ↔ slot ∉ recordedSlots id i (new cfg) ∅ es := by
    rw [← hentry rfl, entryOf, observed, DutyState.signerState_observed, Option.isSome_map,
      OperatorState.isFirstMessageForDuty]
    simp
  rw [DutyContext.validateDutyCount, DutyContext.checkDutyCount, dutyLimit_of_exit hrole hkey]
  refine Checks.require_eq_ok_iff.trans ?_
  rw [hfirst, or_iff_not_imp_left]
  simp only [DutyContext.knowing, hchain, hcount]

end Validator

namespace Sample

def exitTracker (slots : List ℕ) : DutiesTracker :=
  DutiesTracker.run chain
    (slots.map fun slot => .addExit slot ⟨List.replicate 48 0, length_zeroKey⟩ 7 false)

def exitReception (slots : List ℕ) (time : ℕ) : Reception OperatorId :=
  { reception time with duties := (exitTracker slots).provider duties }

def exitPacket (slot : UInt64) : SignedSSVMessage :=
  packet (validatorId .voluntaryExit) .voluntaryExit slot ⟨1⟩ 5

/-- After an exit in slot 8, two exits in slot 9 are within the limit. -/
theorem exit_within_duty_count_sample :
    ((trackerContext .voluntaryExit (9 * 12000000000)).knowing
      (exitTracker [8, 9, 9])).validateDutyCount (validatorId .voluntaryExit) 9
        ((((Validator.new validatorConfig).run [.receive (exitReception [8, 9, 9] (8 * 12000000000))
          (exitPacket 8)]).getDutyState (validatorId .voluntaryExit)).operator ⟨1⟩) = .ok () := by
  have haccepted : Validator.acceptedSlots (validatorId .voluntaryExit) ⟨1⟩
      (Validator.new validatorConfig)
      [.receive (exitReception [8, 9, 9] (8 * 12000000000)) (exitPacket 8)] = {8} := by
    decide +kernel
  refine (Validator.exit_within_duty_count_iff
    [.receive (exitReception [8, 9, 9] (8 * 12000000000)) (exitPacket 8)]
    (validatorId .voluntaryExit) ⟨1⟩ ⟨by simp, trivial⟩ 9 (by rw [haccepted]; decide) _ rfl rfl
    (by decide) ⟨List.replicate 48 0, length_zeroKey⟩ (by decide) (exitTracker [8, 9, 9])).mpr
    (Or.inr ?_)
  decide +kernel

/-- One exit in slot 8 and one in slot 9 of the same epoch: the second packet is refused. -/
theorem second_exit_of_epoch_refused :
    (∃ x, (Validator.new validatorConfig).answer (exitReception [8, 9] (8 * 12000000000))
      (exitPacket 8) = .ok x) ∧
    ((Validator.new validatorConfig).run
      [.receive (exitReception [8, 9] (8 * 12000000000)) (exitPacket 8)]).answer
        (exitReception [8, 9] (9 * 12000000000)) (exitPacket 9) =
      .error (.excessiveDutyCount 1 1 .voluntaryExit) := by
  have hfirst : ((Validator.new validatorConfig).answer (exitReception [8, 9] (8 * 12000000000))
      (exitPacket 8)).toBool = true := by
    decide +kernel
  refine ⟨?_, by decide +kernel⟩
  cases hanswer : (Validator.new validatorConfig).answer (exitReception [8, 9] (8 * 12000000000))
      (exitPacket 8) with
  | error e =>
    rw [hanswer] at hfirst
    cases hfirst
  | ok x => exact ⟨x, rfl⟩

end Sample

end Anchor
