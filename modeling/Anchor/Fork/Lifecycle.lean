import Mathlib
import Anchor.Fork.Schedule
import Anchor.Library.SortedMap
import Anchor.Library.Staged

/-!
# The lifecycle of a fork

A schedule that is read from a configuration is checked first.  From it follows, for
every slot, whether the node runs on one fork, prepares for the next one or still
listens to the previous one.  Slots are machine words, so are the products and sums
of the window computation.

The lifecycles of an accepted schedule follow each other in stages that are never
entered twice.
-/

namespace Anchor

/-! ## Accepted schedules -/

inductive ForkScheduleError where
  | alanNotAtGenesis
  | alanMissing
  | scheduledBefore (fork : Fork) (epoch previous : ℕ)
  | domainReused (fork : Fork) (domainType : DomainType) (previousFork : Fork)
deriving DecidableEq

namespace ForkSchedule

def allForks : List Fork := [.alan, .boole]

theorem pairwise_allForks : allForks.Pairwise (· < ·) := by
  decide

theorem alan_mem_takeWhile (fork : Fork) : .alan ∈ allForks.takeWhile (· ≤ fork) := by
  cases fork <;> decide

/-- All forks up to one are active from the first epoch on. -/
def new (fork : Fork) (baselineDomainType : DomainType) : ForkSchedule where
  configs := (allForks.takeWhile (· ≤ fork)).map fun fork => ⟨fork, 0, baselineDomainType⟩
  sorted := List.pairwise_map.mpr (pairwise_allForks.sublist (List.takeWhile_sublist _))
  genesis := ⟨_, List.mem_map_of_mem (alan_mem_takeWhile fork), rfl⟩

/-- The loop over the configurations, in the order of the forks.  Later forks have later epochs,
except for those that are active from the first epoch on. -/
def checkConfigs : Option ℕ → List (DomainType × Fork) → List (Fork × ℕ × DomainType) →
    Except ForkScheduleError Unit
  | _, _, [] => .ok ()
  | prevEpoch, domains, (fork, epoch, domainType) :: rest =>
    if prevEpoch.any (epoch ≤ ·) ∧ epoch ≠ 0 then
      .error (.scheduledBefore fork epoch (prevEpoch.getD 0))
    else
      match domains.find? (·.1 = domainType) with
      | some (_, previousFork) => .error (.domainReused fork domainType previousFork)
      | none => checkConfigs (some epoch) ((domainType, fork) :: domains) rest

theorem genesis_of_get? {rawConfigs : SortedMap Fork (ℕ × DomainType)} {domainType : DomainType}
    (h : rawConfigs.get? .alan = some (0, domainType)) :
    ⟨.alan, 0, domainType⟩ ∈ rawConfigs.entries.map fun e => (⟨e.1, e.2.1, e.2.2⟩ : ForkConfig) :=
  List.mem_map.mpr ⟨_, SortedMap.get?_eq_some_iff.mp h, rfl⟩

def fromForkConfigs (rawConfigs : SortedMap Fork (ℕ × DomainType)) :
    Except ForkScheduleError ForkSchedule :=
  match h : rawConfigs.get? .alan with
  | none => .error .alanMissing
  | some (_ + 1, _) => .error .alanNotAtGenesis
  | some (0, _) =>
    match checkConfigs none [] rawConfigs.entries with
    | .error e => .error e
    | .ok () => .ok
      ⟨rawConfigs.entries.map fun e => ⟨e.1, e.2.1, e.2.2⟩,
        List.pairwise_map.mpr rawConfigs.sorted, ⟨_, genesis_of_get? h, rfl⟩⟩

inductive Accepted : ForkSchedule → Prop where
  | new (fork : Fork) (baselineDomainType : DomainType) : Accepted (new fork baselineDomainType)
  | fromForkConfigs {rawConfigs : SortedMap Fork (ℕ × DomainType)} {schedule : ForkSchedule}
      (h : fromForkConfigs rawConfigs = .ok schedule) : Accepted schedule

variable {schedule : ForkSchedule}

theorem Accepted.exists_alan (h : schedule.Accepted) :
    ∃ domainType, ⟨.alan, 0, domainType⟩ ∈ schedule.configs := by
  cases h with
  | new fork baselineDomainType =>
    exact ⟨baselineDomainType, List.mem_map_of_mem (alan_mem_takeWhile fork)⟩
  | fromForkConfigs h =>
    rename_i rawConfigs
    unfold ForkSchedule.fromForkConfigs at h
    split at h
    · cases h
    · cases h
    · rename_i domainType hget
      split at h
      · cases h
      · cases h
        exact ⟨domainType, genesis_of_get? hget⟩

theorem Accepted.configs_eq (h : schedule.Accepted) :
    ∃ domainType, schedule.configs = [⟨.alan, 0, domainType⟩] ∨
      ∃ epoch domainType', schedule.configs =
        [⟨.alan, 0, domainType⟩, ⟨.boole, epoch, domainType'⟩] := by
  obtain ⟨domainType, hmem⟩ := h.exists_alan
  have hsorted := schedule.sorted
  have hmin : ∀ fork : Fork, ¬ fork < .alan := by
    intro fork
    cases fork <;> decide
  have hlast : ∀ fork fork' : Fork, .alan < fork → ¬ fork < fork' := by
    intro fork fork'
    cases fork <;> cases fork' <;> decide
  refine ⟨domainType, ?_⟩
  rcases hconfigs : schedule.configs with _ | ⟨first, rest⟩
  · rw [hconfigs] at hmem
    cases hmem
  rw [hconfigs] at hmem hsorted
  obtain ⟨hfirst, hrest⟩ := List.pairwise_cons.mp hsorted
  have halan : first = ⟨.alan, 0, domainType⟩ := by
    rcases List.mem_cons.mp hmem with heq | hmem
    · exact heq.symm
    · exact absurd (hfirst _ hmem) (hmin _)
  subst halan
  rcases rest with _ | ⟨⟨fork, epoch, domainType'⟩, rest⟩
  · exact Or.inl rfl
  · have hfork := hfirst _ (List.mem_cons_self ..)
    obtain rfl : fork = .boole := by
      cases fork with
      | alan => exact absurd hfork (hmin _)
      | boole => rfl
    rcases rest with _ | ⟨third, rest⟩
    · exact Or.inr ⟨epoch, domainType', rfl⟩
    · exact absurd ((List.pairwise_cons.mp hrest).1 third (List.mem_cons_self ..))
        (hlast _ _ hfork)

end ForkSchedule

/-! ## Lifecycles -/

inductive ForkLifecycle where
  | normal (current : ForkConfig)
  | warmUp (current upcoming : ForkConfig)
  | gracePeriod (current previous : ForkConfig)
deriving DecidableEq

namespace ForkSchedule

def forkPreparationEpochs : ℕ := 1

def subsequentWindowSlots : ℕ := 32

variable (schedule : ForkSchedule)

/-- The first of the next forks to activate; its configuration stands for its fork and epoch. -/
def nextForkAfter (epoch : ℕ) : Option ForkConfig :=
  (schedule.configs.filter (epoch < ·.epoch)).argmin (·.epoch)

def preparationStartSlot (slotsPerEpoch : ℕ) (upcoming : ForkConfig) : ℕ :=
  (upcoming.epoch - forkPreparationEpochs) * slotsPerEpoch % 2 ^ 64

/-- The first slot in which the node is done with the fork before. -/
def graceEndSlot (slotsPerEpoch : ℕ) (current : ForkConfig) : ℕ :=
  (current.epoch * slotsPerEpoch % 2 ^ 64 + subsequentWindowSlots) % 2 ^ 64

/-- The lifecycle in a slot, once no fork is to be prepared for. -/
def settledAt (slot slotsPerEpoch : ℕ) : ForkLifecycle :=
  let current := schedule.activeForkConfig (slot / slotsPerEpoch)
  if current.epoch > 0 ∧ slot < graceEndSlot slotsPerEpoch current then
    .gracePeriod current (schedule.activeForkConfig (current.epoch - 1))
  else .normal current

def lifecycleAt (slot slotsPerEpoch : ℕ) : ForkLifecycle :=
  match schedule.nextForkAfter (slot / slotsPerEpoch) with
  | some upcoming =>
    if preparationStartSlot slotsPerEpoch upcoming ≤ slot then
      .warmUp (schedule.activeForkConfig (slot / slotsPerEpoch)) upcoming
    else schedule.settledAt slot slotsPerEpoch
  | none => schedule.settledAt slot slotsPerEpoch

theorem find?_of_mem {config : ForkConfig} (hmem : config ∈ schedule.configs) :
    schedule.configs.find? (·.fork = config.fork) = some config := by
  have hnodup : (schedule.configs.map ForkConfig.fork).Nodup :=
    List.pairwise_map.mpr (schedule.sorted.imp fun hlt => ne_of_lt hlt)
  obtain ⟨found, hfound⟩ : ∃ found,
      schedule.configs.find? (·.fork = config.fork) = some found :=
    Option.isSome_iff_exists.mp (List.find?_isSome.mpr ⟨config, hmem, decide_eq_true rfl⟩)
  have hfork : found.fork = config.fork := by simpa using List.find?_some hfound
  rw [hfound, Option.some.injEq]
  exact List.inj_on_of_nodup_map hnodup (List.mem_of_find?_eq_some hfound) hmem hfork

theorem domainType_activeFork (epoch : ℕ) :
    schedule.domainType (schedule.activeFork epoch) =
      some (schedule.activeForkConfig epoch).domainType := by
  have hmem : schedule.activeForkConfig epoch ∈ schedule.configs :=
    List.mem_of_mem_filter (List.getLast_mem _)
  rw [domainType, activeFork, schedule.find?_of_mem hmem, Option.map_some]

variable {schedule}

theorem getLast_congr {α : Type*} {l l' : List α} (h : l ≠ []) (heq : l = l') :
    l.getLast h = l'.getLast (heq ▸ h) := by
  subst heq
  rfl

section Boole

variable {domainType domainType' : DomainType} {epoch : ℕ}
  (h : schedule.configs = [⟨.alan, 0, domainType⟩, ⟨.boole, epoch, domainType'⟩])

include h

theorem activeForkConfig_of_boole (now : ℕ) :
    schedule.activeForkConfig now =
      if epoch ≤ now then ⟨.boole, epoch, domainType'⟩ else ⟨.alan, 0, domainType⟩ := by
  unfold activeForkConfig
  split_ifs with hactive
  · rw [getLast_congr _ (show schedule.configs.filter (·.epoch ≤ now) =
      [⟨.alan, 0, domainType⟩, ⟨.boole, epoch, domainType'⟩] by simp [h, hactive])]
    rfl
  · rw [getLast_congr _ (show schedule.configs.filter (·.epoch ≤ now) =
      [⟨.alan, 0, domainType⟩] by simp [h, hactive])]
    rfl

theorem nextForkAfter_of_boole (now : ℕ) :
    schedule.nextForkAfter now =
      if now < epoch then some ⟨.boole, epoch, domainType'⟩ else none := by
  unfold nextForkAfter
  split_ifs with hnext
  · simp [h, hnext]
  · simp [h, hnext]

theorem lifecycleAt_of_boole (slot slotsPerEpoch : ℕ) :
    schedule.lifecycleAt slot slotsPerEpoch =
      if slot / slotsPerEpoch < epoch then
        if preparationStartSlot slotsPerEpoch ⟨.boole, epoch, domainType'⟩ ≤ slot then
          .warmUp ⟨.alan, 0, domainType⟩ ⟨.boole, epoch, domainType'⟩
        else .normal ⟨.alan, 0, domainType⟩
      else if epoch > 0 ∧ slot < graceEndSlot slotsPerEpoch ⟨.boole, epoch, domainType'⟩ then
        .gracePeriod ⟨.boole, epoch, domainType'⟩ (schedule.activeForkConfig (epoch - 1))
      else .normal ⟨.boole, epoch, domainType'⟩ := by
  unfold lifecycleAt settledAt
  rw [nextForkAfter_of_boole h, activeForkConfig_of_boole h]
  by_cases hnext : slot / slotsPerEpoch < epoch
  · simp [hnext, not_le.mpr hnext]
  · simp [hnext, not_lt.mp hnext]

theorem staged_of_boole (slotsPerEpoch : ℕ) :
    Staged fun slot => schedule.lifecycleAt slot slotsPerEpoch := by
  have hdiv : ∀ {a b : ℕ}, a ≤ b → a / slotsPerEpoch ≤ b / slotsPerEpoch := fun hab =>
    Nat.div_le_div_right hab
  refine ⟨fun slot =>
    if slot / slotsPerEpoch < epoch then
      if preparationStartSlot slotsPerEpoch ⟨.boole, epoch, domainType'⟩ ≤ slot then 1 else 0
    else if epoch > 0 ∧ slot < graceEndSlot slotsPerEpoch ⟨.boole, epoch, domainType'⟩ then 2
    else 3, ?_, ?_⟩
  · intro a b hab
    have := hdiv hab
    dsimp only
    split_ifs <;> omega
  · intro a b
    dsimp only
    rw [lifecycleAt_of_boole h, lifecycleAt_of_boole h]
    split_ifs <;> simp

end Boole

theorem lifecycleAt_of_alan {domainType : DomainType}
    (h : schedule.configs = [⟨.alan, 0, domainType⟩]) (slot slotsPerEpoch : ℕ) :
    schedule.lifecycleAt slot slotsPerEpoch = .normal ⟨.alan, 0, domainType⟩ := by
  have hactive : ∀ now, schedule.activeForkConfig now = ⟨.alan, 0, domainType⟩ := by
    intro now
    unfold activeForkConfig
    rw [getLast_congr _ (show schedule.configs.filter (·.epoch ≤ now) =
      [⟨.alan, 0, domainType⟩] by simp [h])]
    rfl
  have hnext : ∀ now, schedule.nextForkAfter now = none := by
    intro now
    simp [nextForkAfter, h]
  simp [lifecycleAt, settledAt, hnext, hactive]

theorem Accepted.staged (h : schedule.Accepted) (slotsPerEpoch : ℕ) :
    Staged fun slot => schedule.lifecycleAt slot slotsPerEpoch := by
  obtain ⟨domainType, hconfigs | ⟨epoch, domainType', hconfigs⟩⟩ := h.configs_eq
  · refine ⟨fun _ => 0, monotone_const, fun a b => ?_⟩
    simp [lifecycleAt_of_alan hconfigs]
  · exact staged_of_boole hconfigs slotsPerEpoch

end ForkSchedule

end Anchor
