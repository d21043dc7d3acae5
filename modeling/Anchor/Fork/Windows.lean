import Mathlib
import Anchor.Fork.Lifecycle

/-!
# The windows of a lifecycle

The configurations that a lifecycle names are those of the forks around a slot, and which
lifecycle it is depends on the windows before and after their activation in which the slot
lies.
-/

namespace Anchor

def ForkConfig.activationSlot (c : ForkConfig) (slotsPerEpoch : ℕ) : ℕ := c.epoch * slotsPerEpoch

namespace ForkSchedule

structure LastActivated (schedule : ForkSchedule) (slotsPerEpoch slot : ℕ) (c : ForkConfig) :
    Prop where
  mem : c ∈ schedule.configs
  activated : c.activationSlot slotsPerEpoch ≤ slot
  last : ∀ d ∈ schedule.configs, d.activationSlot slotsPerEpoch ≤ slot →
    d.activationSlot slotsPerEpoch ≤ c.activationSlot slotsPerEpoch ∧ d.fork ≤ c.fork

structure NextToActivate (schedule : ForkSchedule) (slotsPerEpoch slot : ℕ) (c : ForkConfig) :
    Prop where
  mem : c ∈ schedule.configs
  ahead : slot < c.activationSlot slotsPerEpoch
  first : ∀ d ∈ schedule.configs, slot < d.activationSlot slotsPerEpoch →
    c.activationSlot slotsPerEpoch ≤ d.activationSlot slotsPerEpoch ∧ c.fork ≤ d.fork

def InPreparationWindow (slotsPerEpoch : ℕ) (upcoming : ForkConfig) (slot : ℕ) : Prop :=
  upcoming.activationSlot slotsPerEpoch - forkPreparationEpochs * slotsPerEpoch ≤ slot ∧
    slot < upcoming.activationSlot slotsPerEpoch

def InSubsequentWindow (slotsPerEpoch : ℕ) (current : ForkConfig) (slot : ℕ) : Prop :=
  current.activationSlot slotsPerEpoch ≤ slot ∧
    slot < current.activationSlot slotsPerEpoch + subsequentWindowSlots

def Preparing (schedule : ForkSchedule) (slotsPerEpoch slot : ℕ) : Prop :=
  ∃ upcoming, schedule.NextToActivate slotsPerEpoch slot upcoming ∧
    InPreparationWindow slotsPerEpoch upcoming slot

variable {schedule : ForkSchedule} {slotsPerEpoch slot : ℕ} {c d : ForkConfig}

theorem eq_of_fork_eq (hc : c ∈ schedule.configs) (hd : d ∈ schedule.configs)
    (h : c.fork = d.fork) : c = d :=
  List.inj_on_of_nodup_map
    (List.pairwise_map.mpr (schedule.sorted.imp fun hlt => ne_of_lt hlt)) hc hd h

theorem LastActivated.unique (hc : schedule.LastActivated slotsPerEpoch slot c)
    (hd : schedule.LastActivated slotsPerEpoch slot d) : c = d :=
  eq_of_fork_eq hc.mem hd.mem
    (le_antisymm (hd.last c hc.mem hc.activated).2 (hc.last d hd.mem hd.activated).2)

theorem NextToActivate.unique (hc : schedule.NextToActivate slotsPerEpoch slot c)
    (hd : schedule.NextToActivate slotsPerEpoch slot d) : c = d :=
  eq_of_fork_eq hc.mem hd.mem
    (le_antisymm (hc.first d hd.mem hd.ahead).2 (hd.first c hc.mem hc.ahead).2)

inductive Describes (schedule : ForkSchedule) (slotsPerEpoch slot : ℕ) : ForkLifecycle → Prop where
  | warmUp {current upcoming : ForkConfig}
      (hcurrent : schedule.LastActivated slotsPerEpoch slot current)
      (hupcoming : schedule.NextToActivate slotsPerEpoch slot upcoming)
      (hwindow : InPreparationWindow slotsPerEpoch upcoming slot) :
      Describes schedule slotsPerEpoch slot (.warmUp current upcoming)
  | gracePeriod {current previous : ForkConfig}
      (hcurrent : schedule.LastActivated slotsPerEpoch slot current)
      (hnot : ¬schedule.Preparing slotsPerEpoch slot) (hepoch : 0 < current.epoch)
      (hwindow : InSubsequentWindow slotsPerEpoch current slot)
      (hprevious : schedule.LastActivated slotsPerEpoch
        (current.activationSlot slotsPerEpoch - 1) previous) :
      Describes schedule slotsPerEpoch slot (.gracePeriod current previous)
  | normal {current : ForkConfig}
      (hcurrent : schedule.LastActivated slotsPerEpoch slot current)
      (hnot : ¬schedule.Preparing slotsPerEpoch slot)
      (hnot' : ¬(0 < current.epoch ∧ InSubsequentWindow slotsPerEpoch current slot)) :
      Describes schedule slotsPerEpoch slot (.normal current)

theorem Describes.unique {l l' : ForkLifecycle} (h : schedule.Describes slotsPerEpoch slot l)
    (h' : schedule.Describes slotsPerEpoch slot l') : l = l' := by
  cases h with
  | warmUp hcurrent hupcoming hwindow =>
    cases h' with
    | warmUp hcurrent' hupcoming' hwindow' =>
      rw [hcurrent.unique hcurrent', hupcoming.unique hupcoming']
    | gracePeriod hcurrent' hnot hepoch hwindow' hprevious =>
      exact absurd ⟨_, hupcoming, hwindow⟩ hnot
    | normal hcurrent' hnot hnot' => exact absurd ⟨_, hupcoming, hwindow⟩ hnot
  | gracePeriod hcurrent hnot hepoch hwindow hprevious =>
    cases h' with
    | warmUp hcurrent' hupcoming' hwindow' => exact absurd ⟨_, hupcoming', hwindow'⟩ hnot
    | gracePeriod hcurrent' hnot' hepoch' hwindow' hprevious' =>
      obtain rfl := hcurrent.unique hcurrent'
      rw [hprevious.unique hprevious']
    | normal hcurrent' hnot₁ hnot₂ =>
      obtain rfl := hcurrent.unique hcurrent'
      exact absurd ⟨hepoch, hwindow⟩ hnot₂
  | normal hcurrent hnot hnot' =>
    cases h' with
    | warmUp hcurrent' hupcoming' hwindow' => exact absurd ⟨_, hupcoming', hwindow'⟩ hnot
    | gracePeriod hcurrent' hnot₁ hepoch' hwindow' hprevious' =>
      obtain rfl := hcurrent.unique hcurrent'
      exact absurd ⟨hepoch', hwindow'⟩ hnot'
    | normal hcurrent' hnot₁ hnot₂ => rw [hcurrent.unique hcurrent']

/-! ## Both forks -/

section Boole

variable {domainType domainType' : DomainType} {epoch : ℕ}
  (h : schedule.configs = [⟨.alan, 0, domainType⟩, ⟨.boole, epoch, domainType'⟩])

include h

theorem lastActivated_alan (hslot : slot < epoch * slotsPerEpoch) :
    schedule.LastActivated slotsPerEpoch slot ⟨.alan, 0, domainType⟩ := by
  refine ⟨by simp [h], by simp [ForkConfig.activationSlot], fun d hd hact => ?_⟩
  rw [h, List.mem_pair] at hd
  rcases hd with rfl | rfl
  · exact ⟨le_rfl, le_rfl⟩
  · exact absurd hact (not_le.mpr hslot)

theorem lastActivated_boole (hslot : epoch * slotsPerEpoch ≤ slot) :
    schedule.LastActivated slotsPerEpoch slot ⟨.boole, epoch, domainType'⟩ := by
  refine ⟨by simp [h], hslot, fun d hd _ => ?_⟩
  rw [h, List.mem_pair] at hd
  rcases hd with rfl | rfl
  · exact ⟨by simp [ForkConfig.activationSlot], show Fork.alan ≤ .boole by decide⟩
  · exact ⟨le_rfl, le_rfl⟩

theorem nextToActivate_iff_boole :
    schedule.NextToActivate slotsPerEpoch slot c ↔
      c = ⟨.boole, epoch, domainType'⟩ ∧ slot < epoch * slotsPerEpoch := by
  constructor
  · rintro ⟨hmem, hahead, -⟩
    rw [h, List.mem_pair] at hmem
    rcases hmem with rfl | rfl
    · exact absurd hahead (by simp [ForkConfig.activationSlot])
    · exact ⟨rfl, hahead⟩
  · rintro ⟨rfl, hahead⟩
    refine ⟨by simp [h], hahead, fun d hd hslot => ?_⟩
    rw [h, List.mem_pair] at hd
    rcases hd with rfl | rfl
    · exact absurd hslot (by simp [ForkConfig.activationSlot])
    · exact ⟨le_rfl, le_rfl⟩

theorem describes_lifecycleAt_of_boole (hslots : 1 ≤ slotsPerEpoch)
    (hfits : epoch * slotsPerEpoch + subsequentWindowSlots < 2 ^ 64) (slot : ℕ) :
    schedule.Describes slotsPerEpoch slot (schedule.lifecycleAt slot slotsPerEpoch) := by
  have hstart : preparationStartSlot slotsPerEpoch ⟨.boole, epoch, domainType'⟩ =
      epoch * slotsPerEpoch - forkPreparationEpochs * slotsPerEpoch := by
    have hlt : epoch * slotsPerEpoch - forkPreparationEpochs * slotsPerEpoch < 2 ^ 64 := by omega
    rw [preparationStartSlot, Nat.sub_mul, Nat.mod_eq_of_lt hlt]
  have hend : graceEndSlot slotsPerEpoch ⟨.boole, epoch, domainType'⟩ =
      epoch * slotsPerEpoch + subsequentWindowSlots := by
    have hlt : epoch * slotsPerEpoch < 2 ^ 64 := by omega
    rw [graceEndSlot, Nat.mod_eq_of_lt hlt, Nat.mod_eq_of_lt hfits]
  rw [lifecycleAt_of_boole h]
  simp only [Nat.div_lt_iff_lt_mul (Nat.lt_of_succ_le hslots), hstart, hend]
  split_ifs with hbefore hprepared hgrace
  · exact .warmUp (lastActivated_alan h hbefore)
      ((nextToActivate_iff_boole h).mpr ⟨rfl, hbefore⟩) ⟨hprepared, hbefore⟩
  · refine .normal (lastActivated_alan h hbefore) ?_ fun hpos => absurd hpos.1 (lt_irrefl 0)
    rintro ⟨upcoming, hnext, hwindow⟩
    obtain ⟨rfl, -⟩ := (nextToActivate_iff_boole h).mp hnext
    exact hprepared hwindow.1
  · have hnot : ¬schedule.Preparing slotsPerEpoch slot := by
      rintro ⟨upcoming, hnext, -⟩
      exact hbefore ((nextToActivate_iff_boole h).mp hnext).2
    rw [activeForkConfig_of_boole h, if_neg (by omega)]
    refine .gracePeriod (lastActivated_boole h (not_lt.mp hbefore)) hnot hgrace.1
      ⟨not_lt.mp hbefore, hgrace.2⟩ (lastActivated_alan h (Nat.sub_lt ?_ one_pos))
    exact Nat.mul_pos hgrace.1 hslots
  · refine .normal (lastActivated_boole h (not_lt.mp hbefore)) ?_ fun hwindow =>
      hgrace ⟨hwindow.1, hwindow.2.2⟩
    rintro ⟨upcoming, hnext, -⟩
    exact hbefore ((nextToActivate_iff_boole h).mp hnext).2

end Boole

theorem describes_lifecycleAt_of_alan {domainType : DomainType}
    (h : schedule.configs = [⟨.alan, 0, domainType⟩]) (slot : ℕ) :
    schedule.Describes slotsPerEpoch slot (schedule.lifecycleAt slot slotsPerEpoch) := by
  rw [lifecycleAt_of_alan h]
  refine .normal ⟨by simp [h], by simp [ForkConfig.activationSlot], fun d hd _ => ?_⟩ ?_
    fun hpos => absurd hpos.1 (lt_irrefl 0)
  · rw [h, List.mem_singleton] at hd
    subst hd
    exact ⟨le_rfl, le_rfl⟩
  · rintro ⟨upcoming, hnext, -⟩
    have hmem := hnext.mem
    rw [h, List.mem_singleton] at hmem
    subst hmem
    exact absurd hnext.ahead (by simp [ForkConfig.activationSlot])

/-- The lifecycle of a slot is the one that describes it, and each lifecycle is taken on an
interval of slots. -/
theorem lifecycle_windows {rawConfigs : SortedMap Fork (ℕ × DomainType)}
    (haccepted : fromForkConfigs rawConfigs = .ok schedule) (hslots : 1 ≤ slotsPerEpoch)
    (hfits : ∀ c ∈ schedule.configs,
      c.activationSlot slotsPerEpoch + subsequentWindowSlots < 2 ^ 64) :
    (∀ slot lifecycle, schedule.lifecycleAt slot slotsPerEpoch = lifecycle ↔
      schedule.Describes slotsPerEpoch slot lifecycle) ∧
    ∀ a b c, a ≤ b → b ≤ c →
      schedule.lifecycleAt a slotsPerEpoch = schedule.lifecycleAt c slotsPerEpoch →
      schedule.lifecycleAt b slotsPerEpoch = schedule.lifecycleAt a slotsPerEpoch := by
  have haccepts : schedule.Accepted := .fromForkConfigs haccepted
  have hdescribes : ∀ slot, schedule.Describes slotsPerEpoch slot
      (schedule.lifecycleAt slot slotsPerEpoch) := by
    obtain ⟨domainType, hconfigs | ⟨epoch, domainType', hconfigs⟩⟩ := haccepts.configs_eq
    · exact describes_lifecycleAt_of_alan hconfigs
    · exact describes_lifecycleAt_of_boole hconfigs hslots
        (hfits ⟨.boole, epoch, domainType'⟩ (by simp [hconfigs]))
  refine ⟨fun slot lifecycle => ⟨?_, (hdescribes slot).unique⟩,
    fun a b c hab hbc heq => (haccepts.staged slotsPerEpoch).eq_of_between hab hbc heq⟩
  rintro rfl
  exact hdescribes slot

end ForkSchedule

namespace Sample

def twoForks : SortedMap Fork (ℕ × DomainType) where
  entries := [(.alan, 0, ⟨List.replicate 4 7, rfl⟩), (.boole, 2, ⟨List.replicate 4 8, rfl⟩)]
  sorted := by decide

/-- In slot 40 of epochs of 32 slots, Boole is prepared for. -/
theorem lifecycle_windows_twoForks : ∃ schedule, ForkSchedule.fromForkConfigs twoForks =
      .ok schedule ∧ schedule.Describes 32 40 (.warmUp ⟨.alan, 0, ⟨List.replicate 4 7, rfl⟩⟩
        ⟨.boole, 2, ⟨List.replicate 4 8, rfl⟩⟩) := by
  refine ⟨_, rfl, ?_⟩
  exact ((ForkSchedule.lifecycle_windows
    (show ForkSchedule.fromForkConfigs twoForks = .ok _ from rfl) (show 1 ≤ 32 by decide)
    (by decide)).1 40 _).mp rfl

end Sample

end Anchor
