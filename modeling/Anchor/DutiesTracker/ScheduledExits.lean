import Mathlib
import Anchor.DutiesTracker.Tracker

/-!
# Scheduled exits between two tasks

One task schedules exits as they are announced, another one reads those that are ready,
processes them and prunes.  Both work on a map that is divided into shards: an access to one
key, and the pass of an iterator over one shard, happen at once, and anything else can come
between them.
-/

namespace Anchor

structure Sharding where
  shards : ℕ
  shardOf : ℕ → ℕ
  shardOf_lt : ∀ slot, shardOf slot < shards

/-! ## Atomic steps -/

namespace VoluntaryExitTracker

variable (t : VoluntaryExitTracker) (map : Sharding)

/-- The keys of a shard that are not after a slot, in the order of the iterator. -/
def readySlots (rank : ℕ → ℕ) (shard currentSlot : ℕ) : List ℕ :=
  ((List.range (currentSlot + 1)).filter fun slot => map.shardOf slot = shard).insertionSort
    fun a b => rank a ≤ rank b

/-- `get_ready_exits` in one shard. -/
def readShard (rank : ℕ → ℕ) (shard currentSlot : ℕ) : List ExitDuty :=
  (readySlots map rank shard currentSlot).flatMap fun slot => (t.exitsAt slot).map (·.duty)

def markReturned (shard currentSlot : ℕ) : VoluntaryExitTracker :=
  { t with
    scheduledExits := fun slot =>
      if map.shardOf slot = shard ∧ slot ≤ currentSlot then
        (t.scheduledExits slot).map (List.map fun exit => { exit with returned := true })
      else t.scheduledExits slot }

/-- The first half of `remove_processed_exit`: what stays of the exits of a slot. -/
def retainOthers (duty : ExitDuty) : VoluntaryExitTracker :=
  { t with
    scheduledExits := Function.update t.scheduledExits duty.targetSlot
      ((t.scheduledExits duty.targetSlot).map
        (List.filter fun exit => exit.duty.validatorIndex ≠ duty.validatorIndex)) }

def emptiedBy (duty : ExitDuty) : Bool :=
  (t.scheduledExits duty.targetSlot).any fun exits =>
    (exits.filter fun exit => exit.duty.validatorIndex ≠ duty.validatorIndex).isEmpty

/-- The second half of `remove_processed_exit`. -/
def removeSlot (slot : ℕ) : VoluntaryExitTracker :=
  { t with scheduledExits := Function.update t.scheduledExits slot none }

/-- `prune` of the scheduled exits in one shard. -/
def pruneShard (shard threshold : ℕ) : VoluntaryExitTracker :=
  { t with
    scheduledExits := fun slot =>
      if map.shardOf slot = shard ∧ slot < threshold then none else t.scheduledExits slot }

def pruneDuties (threshold : ℕ) : VoluntaryExitTracker :=
  { t with
    allDutiesBySlot := fun slot => if threshold ≤ slot then t.allDutiesBySlot slot else none }

variable {t map}

theorem mem_readySlots {rank : ℕ → ℕ} {shard currentSlot slot : ℕ} :
    slot ∈ readySlots map rank shard currentSlot ↔
      slot ≤ currentSlot ∧ map.shardOf slot = shard := by
  simp [readySlots]

theorem mem_readShard {rank : ℕ → ℕ} {shard currentSlot : ℕ} {duty : ExitDuty} :
    duty ∈ t.readShard map rank shard currentSlot ↔
      ∃ slot ≤ currentSlot, map.shardOf slot = shard ∧ ∃ e ∈ t.exitsAt slot, e.duty = duty := by
  simp [readShard, mem_readySlots, and_assoc]

theorem exitsAt_schedule (duty : ExitDuty) (s : ℕ) :
    (t.schedule duty).exitsAt s =
      if s = duty.targetSlot then t.exitsAt s ++ [⟨duty, false⟩] else t.exitsAt s := by
  by_cases h : s = duty.targetSlot
  · subst h
    simp [exitsAt, schedule]
  · simp [exitsAt, schedule, h]

theorem exitsAt_markReturned (shard currentSlot s : ℕ) :
    (t.markReturned map shard currentSlot).exitsAt s =
      if map.shardOf s = shard ∧ s ≤ currentSlot then
        (t.exitsAt s).map fun exit => { exit with returned := true }
      else t.exitsAt s := by
  unfold exitsAt markReturned
  dsimp only
  split
  · cases t.scheduledExits s <;> rfl
  · rfl

theorem exitsAt_retainOthers (duty : ExitDuty) (s : ℕ) :
    (t.retainOthers duty).exitsAt s =
      if s = duty.targetSlot then
        (t.exitsAt s).filter fun exit => exit.duty.validatorIndex ≠ duty.validatorIndex
      else t.exitsAt s := by
  unfold exitsAt retainOthers
  by_cases h : s = duty.targetSlot
  · subst h
    cases t.scheduledExits duty.targetSlot <;> simp
  · simp [h]

theorem exitsAt_of_emptiedBy {duty : ExitDuty} (h : t.emptiedBy duty = true) :
    (t.retainOthers duty).exitsAt duty.targetSlot = [] := by
  rw [exitsAt_retainOthers, if_pos rfl, exitsAt]
  unfold emptiedBy at h
  cases hexits : t.scheduledExits duty.targetSlot with
  | none => rfl
  | some exits =>
    rw [hexits] at h
    simpa using h

theorem exitsAt_removeSlot (slot s : ℕ) :
    (t.removeSlot slot).exitsAt s = if s = slot then [] else t.exitsAt s := by
  unfold exitsAt removeSlot
  by_cases h : s = slot
  · subst h
    simp
  · simp [h]

theorem exitsAt_pruneShard (shard threshold s : ℕ) :
    (t.pruneShard map shard threshold).exitsAt s =
      if map.shardOf s = shard ∧ s < threshold then [] else t.exitsAt s := by
  unfold exitsAt pruneShard
  dsimp only
  split <;> rfl

end VoluntaryExitTracker

/-! ## The two tasks -/

/-- Where the loop of `process_scheduled_exits` is. -/
inductive ExitProcessor where
  | idle
  | reading (currentSlot shard : ℕ) (ready : List ExitDuty)
  | processing (currentSlot : ℕ) (ready : List ExitDuty)
  | removing (currentSlot slot : ℕ) (ready : List ExitDuty)
  | pruning (currentSlot shard : ℕ)
deriving DecidableEq

/-- The tracker, the loop, and the exits that were removed before they were returned. -/
structure ExitSystem where
  tracker : VoluntaryExitTracker
  processor : ExitProcessor
  lost : List ExitDuty

/-- A step of the task that adds exits, or of the loop.  The loop reads the clock and meets the
keys of a shard in some order. -/
inductive ExitEvent where
  | countDuty (slot : ℕ) (pubkey : PublicKeyBytes)
  | schedule (duty : ExitDuty)
  | tick (now : ℕ) (rank : ℕ → ℕ)

namespace ExitSystem

def new : ExitSystem := ⟨.new, .idle, []⟩

def unreturned (exits : List ScheduledExit) : List ExitDuty :=
  (exits.filter (!·.returned)).map (·.duty)

theorem mem_unreturned {exits : List ScheduledExit} {duty : ExitDuty} :
    duty ∈ unreturned exits ↔ ⟨duty, false⟩ ∈ exits := by
  simp only [unreturned, List.mem_map, List.mem_filter, Bool.not_eq_true']
  constructor
  · rintro ⟨⟨d, returned⟩, ⟨hmem, rfl⟩, rfl⟩
    exact hmem
  · exact fun h => ⟨_, ⟨h, rfl⟩, rfl⟩

variable (map : Sharding) (lookback : ℕ)

def tick (s : ExitSystem) (now : ℕ) (rank : ℕ → ℕ) : ExitSystem :=
  match s.processor with
  | .idle => { s with processor := .reading now 0 [] }
  | .reading currentSlot shard ready =>
    if shard < map.shards then
      { s with
        tracker := s.tracker.markReturned map shard currentSlot
        processor := .reading currentSlot (shard + 1)
          (ready ++ s.tracker.readShard map rank shard currentSlot) }
    else { s with processor := .processing currentSlot ready }
  | .processing currentSlot [] => { s with processor := .pruning currentSlot 0 }
  | .processing currentSlot (duty :: ready) =>
    { tracker := s.tracker.retainOthers duty
      processor :=
        if s.tracker.emptiedBy duty then .removing currentSlot duty.targetSlot ready
        else .processing currentSlot ready
      lost := s.lost ++ unreturned ((s.tracker.exitsAt duty.targetSlot).filter fun exit =>
        exit.duty.validatorIndex = duty.validatorIndex) }
  | .removing currentSlot slot ready =>
    { tracker := s.tracker.removeSlot slot
      processor := .processing currentSlot ready
      lost := s.lost ++ unreturned (s.tracker.exitsAt slot) }
  | .pruning currentSlot shard =>
    if shard < map.shards then
      { tracker := s.tracker.pruneShard map shard (currentSlot - lookback)
        processor := .pruning currentSlot (shard + 1)
        lost := s.lost ++ ((List.range (currentSlot - lookback)).filter fun slot =>
          map.shardOf slot = shard).flatMap fun slot => unreturned (s.tracker.exitsAt slot) }
    else
      { s with
        tracker := s.tracker.pruneDuties (currentSlot - lookback)
        processor := .idle }

def step (s : ExitSystem) : ExitEvent → ExitSystem
  | .countDuty slot pubkey => { s with tracker := s.tracker.countDuty slot pubkey }
  | .schedule duty => { s with tracker := s.tracker.schedule duty }
  | .tick now rank => s.tick map lookback now rank

end ExitSystem

/-! ## When an exit can be lost -/

def ExitDuty.NamedIn (duty : ExitDuty) (ready : List ExitDuty) : Prop :=
  ∃ d ∈ ready, d.targetSlot = duty.targetSlot ∧ d.validatorIndex = duty.validatorIndex

instance (duty : ExitDuty) (ready : List ExitDuty) : Decidable (duty.NamedIn ready) :=
  inferInstanceAs (Decidable (∃ d ∈ ready, _))

/-- The rest of the round of the loop does not remove an exit that it has not read. -/
def ExitProcessor.Spares (map : Sharding) (lookback : ℕ) (duty : ExitDuty) : ExitProcessor → Prop
  | .idle => True
  | .reading currentSlot shard ready =>
    map.shardOf duty.targetSlot < shard →
      ¬ duty.NamedIn ready ∧ currentSlot ≤ duty.targetSlot + lookback
  | .processing currentSlot ready =>
    ¬ duty.NamedIn ready ∧ currentSlot ≤ duty.targetSlot + lookback
  | .removing currentSlot slot ready =>
    slot ≠ duty.targetSlot ∧ ¬ duty.NamedIn ready ∧ currentSlot ≤ duty.targetSlot + lookback
  | .pruning currentSlot shard =>
    map.shardOf duty.targetSlot < shard ∨ currentSlot ≤ duty.targetSlot + lookback

instance (map : Sharding) (lookback : ℕ) (duty : ExitDuty) :
    (p : ExitProcessor) → Decidable (p.Spares map lookback duty)
  | .idle => inferInstanceAs (Decidable True)
  | .reading _ _ _ => inferInstanceAs (Decidable (_ → _ ∧ _))
  | .processing _ _ => inferInstanceAs (Decidable (_ ∧ _))
  | .removing _ _ _ => inferInstanceAs (Decidable (_ ∧ _ ∧ _))
  | .pruning _ _ => inferInstanceAs (Decidable (_ ∨ _))

/-- What the loop is about to process was ready when it was read. -/
def ExitProcessor.ReadyInTime : ExitProcessor → Prop
  | .reading currentSlot _ ready | .processing currentSlot ready
  | .removing currentSlot _ ready => ∀ d ∈ ready, d.targetSlot ≤ currentSlot
  | .idle | .pruning _ _ => True

/-- An exit is scheduled at a moment at which the loop spares it. -/
def ExitEvent.Spared (map : Sharding) (lookback : ℕ) (s : ExitSystem) : ExitEvent → Prop
  | .schedule duty => s.processor.Spares map lookback duty
  | _ => True

namespace ExitSystem

/-- Nothing is lost so far, and nothing will be if no more exits come. -/
structure Sound (map : Sharding) (lookback : ℕ) (s : ExitSystem) : Prop where
  lost : s.lost = []
  targetSlot : ∀ slot, ∀ e ∈ s.tracker.exitsAt slot, e.duty.targetSlot = slot
  spared : ∀ slot duty, ⟨duty, false⟩ ∈ s.tracker.exitsAt slot →
    s.processor.Spares map lookback duty
  inTime : s.processor.ReadyInTime

variable {map : Sharding} {lookback : ℕ} {s : ExitSystem}

theorem sound_new : new.Sound map lookback where
  lost := rfl
  targetSlot _ _ h := absurd h List.not_mem_nil
  spared _ _ h := absurd h List.not_mem_nil
  inTime := trivial

section

variable (h : s.Sound map lookback)
include h

theorem Sound.targetSlot_of_mem_readShard {rank : ℕ → ℕ}
    {shard currentSlot : ℕ} {d : ExitDuty}
    (hd : d ∈ s.tracker.readShard map rank shard currentSlot) :
    d.targetSlot ≤ currentSlot ∧ map.shardOf d.targetSlot = shard := by
  obtain ⟨slot, hle, hshard, e, he, rfl⟩ := VoluntaryExitTracker.mem_readShard.mp hd
  rw [h.targetSlot slot e he]
  exact ⟨hle, hshard⟩

variable {currentSlot shard : ℕ} {ready : List ExitDuty}

theorem Sound.tick_reading (hp : s.processor = .reading currentSlot shard ready) (now : ℕ)
    (rank : ℕ → ℕ) : (s.tick map lookback now rank).Sound map lookback := by
  obtain ⟨hlost, htarget, hspared, htime⟩ := id h
  simp only [hp, ExitProcessor.Spares, ExitProcessor.ReadyInTime] at hspared htime
  simp only [tick, hp]
  split
  · refine ⟨hlost, ?_, ?_, ?_⟩
    · intro slot e he
      rw [VoluntaryExitTracker.exitsAt_markReturned] at he
      split at he
      · obtain ⟨e', he', rfl⟩ := List.mem_map.mp he
        exact htarget slot e' he'
      · exact htarget slot e he
    · intro slot duty he hlt
      rw [VoluntaryExitTracker.exitsAt_markReturned] at he
      split at he
      · simp at he
      rename_i hread
      have hslot := htarget slot _ he
      subst hslot
      -- A slot of the shard that is left unread comes after the current one.
      by_cases hshard : map.shardOf duty.targetSlot = shard
      · have hafter : currentSlot < duty.targetSlot := by
          by_contra hle
          exact hread ⟨hshard, not_lt.mp hle⟩
        refine ⟨?_, by omega⟩
        rintro ⟨d, hd, hdslot, -⟩
        have hle : d.targetSlot ≤ currentSlot := by
          rcases List.mem_append.mp hd with hd | hd
          · exact htime d hd
          · exact (h.targetSlot_of_mem_readShard hd).1
        omega
      · obtain ⟨hnamed, hle⟩ := hspared duty.targetSlot duty he (by omega)
        refine ⟨?_, hle⟩
        rintro ⟨d, hd, hdslot, hdindex⟩
        rcases List.mem_append.mp hd with hd | hd
        · exact hnamed ⟨d, hd, hdslot, hdindex⟩
        · have hd' := (h.targetSlot_of_mem_readShard hd).2
          rw [hdslot] at hd'
          exact hshard hd'
    · intro d hd
      rcases List.mem_append.mp hd with hd | hd
      · exact htime d hd
      · exact (h.targetSlot_of_mem_readShard hd).1
  · rename_i hshard
    refine ⟨hlost, htarget, ?_, htime⟩
    intro slot duty he
    exact hspared slot duty he ((map.shardOf_lt _).trans_le (not_lt.mp hshard))

theorem Sound.tick_processing {currentSlot : ℕ} {duty : ExitDuty}
    (hp : s.processor = .processing currentSlot (duty :: ready)) (now : ℕ)
    (rank : ℕ → ℕ) : (s.tick map lookback now rank).Sound map lookback := by
  obtain ⟨hlost, htarget, hspared, htime⟩ := h
  simp only [hp, ExitProcessor.Spares, ExitProcessor.ReadyInTime] at hspared htime
  have hother : ∀ slot d, ⟨d, false⟩ ∈ (s.tracker.retainOthers duty).exitsAt slot →
      ⟨d, false⟩ ∈ s.tracker.exitsAt slot := by
    intro slot d he
    rw [VoluntaryExitTracker.exitsAt_retainOthers] at he
    split at he
    · exact List.mem_of_mem_filter he
    · exact he
  simp only [tick, hp]
  refine ⟨?_, ?_, ?_, ?_⟩
  · rw [hlost, List.nil_append, List.eq_nil_iff_forall_not_mem]
    intro d hd
    obtain ⟨he, hindex⟩ := List.mem_filter.mp (mem_unreturned.mp hd)
    refine (hspared duty.targetSlot d he).1 ⟨duty, by simp, (htarget _ _ he).symm, ?_⟩
    exact (of_decide_eq_true hindex).symm
  · intro slot e he
    rw [VoluntaryExitTracker.exitsAt_retainOthers] at he
    split at he
    · exact htarget slot e (List.mem_of_mem_filter he)
    · exact htarget slot e he
  · intro slot d he
    obtain ⟨hnamed, hle⟩ := hspared slot d (hother slot d he)
    have hnamed' : ¬ d.NamedIn ready := fun ⟨d', hd', heq⟩ =>
      hnamed ⟨d', List.mem_cons_of_mem _ hd', heq⟩
    split
    · rename_i hempty
      refine ⟨?_, hnamed', hle⟩
      rintro hslot
      rw [htarget slot _ (hother slot d he)] at hslot
      rw [← hslot, VoluntaryExitTracker.exitsAt_of_emptiedBy hempty] at he
      exact List.not_mem_nil he
    · exact ⟨hnamed', hle⟩
  · split <;> exact fun d hd => htime d (List.mem_cons_of_mem _ hd)

theorem Sound.tick_removing {currentSlot slot : ℕ}
    (hp : s.processor = .removing currentSlot slot ready) (now : ℕ)
    (rank : ℕ → ℕ) : (s.tick map lookback now rank).Sound map lookback := by
  obtain ⟨hlost, htarget, hspared, htime⟩ := h
  simp only [hp, ExitProcessor.Spares, ExitProcessor.ReadyInTime] at hspared htime
  have hkept : ∀ slot' e, e ∈ (s.tracker.removeSlot slot).exitsAt slot' →
      e ∈ s.tracker.exitsAt slot' := by
    intro slot' e he
    rw [VoluntaryExitTracker.exitsAt_removeSlot] at he
    split at he
    · exact absurd he List.not_mem_nil
    · exact he
  simp only [tick, hp]
  refine ⟨?_, fun slot' e he => htarget slot' e (hkept slot' e he),
    fun slot' d he => (hspared slot' d (hkept slot' _ he)).2, htime⟩
  rw [hlost, List.nil_append, List.eq_nil_iff_forall_not_mem]
  intro d hd
  have he := mem_unreturned.mp hd
  exact (hspared slot d he).1 (htarget slot _ he).symm

theorem Sound.tick_pruning
    (hp : s.processor = .pruning currentSlot shard) (now : ℕ) (rank : ℕ → ℕ) :
    (s.tick map lookback now rank).Sound map lookback := by
  obtain ⟨hlost, htarget, hspared, htime⟩ := h
  simp only [hp, ExitProcessor.Spares] at hspared
  simp only [tick, hp]
  split
  · have hkept : ∀ slot e,
        e ∈ (s.tracker.pruneShard map shard (currentSlot - lookback)).exitsAt slot →
        e ∈ s.tracker.exitsAt slot := by
      intro slot e he
      rw [VoluntaryExitTracker.exitsAt_pruneShard] at he
      split at he
      · exact absurd he List.not_mem_nil
      · exact he
    refine ⟨?_, fun slot e he => htarget slot e (hkept slot e he), ?_, trivial⟩
    · rw [hlost, List.nil_append, List.eq_nil_iff_forall_not_mem]
      intro d hd
      obtain ⟨slot, hslot, hd⟩ := List.mem_flatMap.mp hd
      have he := mem_unreturned.mp hd
      have hspare := hspared slot d he
      rw [htarget slot _ he] at hspare
      simp only [List.mem_filter, List.mem_range, decide_eq_true_eq] at hslot
      omega
    · intro slot d he
      rcases hspared slot d (hkept slot _ he) with hlt | hle
      · exact Or.inl (by omega)
      · exact Or.inr hle
  · exact ⟨hlost, htarget, fun _ _ _ => trivial, trivial⟩

theorem Sound.tick (now : ℕ) (rank : ℕ → ℕ) :
    (s.tick map lookback now rank).Sound map lookback := by
  cases hp : s.processor with
  | idle =>
    obtain ⟨hlost, htarget, -, -⟩ := h
    simp only [ExitSystem.tick, hp]
    exact ⟨hlost, htarget, fun _ _ _ hlt => absurd hlt (Nat.not_lt_zero _),
      fun d hd => absurd hd List.not_mem_nil⟩
  | reading currentSlot shard ready => exact h.tick_reading hp now rank
  | processing currentSlot ready =>
    cases ready with
    | nil =>
      obtain ⟨hlost, htarget, hspared, -⟩ := h
      simp only [hp, ExitProcessor.Spares] at hspared
      simp only [ExitSystem.tick, hp]
      exact ⟨hlost, htarget, fun slot d he => Or.inr (hspared slot d he).2, trivial⟩
    | cons duty ready => exact h.tick_processing hp now rank
  | removing currentSlot slot ready => exact h.tick_removing hp now rank
  | pruning currentSlot shard => exact h.tick_pruning hp now rank

theorem Sound.step {e : ExitEvent} (hspared : e.Spared map lookback s) :
    (s.step map lookback e).Sound map lookback := by
  cases e with
  | countDuty slot pubkey => exact ⟨h.lost, h.targetSlot, h.spared, h.inTime⟩
  | schedule duty =>
    refine ⟨h.lost, ?_, ?_, h.inTime⟩
    · intro slot e he
      simp only [ExitSystem.step, VoluntaryExitTracker.exitsAt_schedule] at he
      split at he
      · rename_i hslot
        rcases List.mem_append.mp he with he | he
        · exact h.targetSlot slot e he
        · rw [List.mem_singleton.mp he, hslot]
      · exact h.targetSlot slot e he
    · intro slot d he
      simp only [ExitSystem.step, VoluntaryExitTracker.exitsAt_schedule] at he
      split at he
      · rcases List.mem_append.mp he with he | he
        · exact h.spared slot d he
        · cases List.mem_singleton.mp he
          exact hspared
      · exact h.spared slot d he
  | tick now rank => exact h.tick now rank

end

def Loses (map : Sharding) (lookback : ℕ) (s : ExitSystem) (duty : ExitDuty) : Prop :=
  ∃ n, duty ∈
    (Machine.run (step map lookback) s (List.replicate n (.tick 0 id))).lost

variable {duty : ExitDuty}

theorem loses_of_mem_lost (h : duty ∈ s.lost) : s.Loses map lookback duty := ⟨0, h⟩

theorem loses_of_tick (h : (s.tick map lookback 0 id).Loses map lookback duty) :
    s.Loses map lookback duty := by
  obtain ⟨n, hn⟩ := h
  exact ⟨n + 1, hn⟩

theorem loses_of_pruning (hp : s.processor = .pruning currentSlot shard)
    (hexit : ⟨duty, false⟩ ∈ s.tracker.exitsAt duty.targetSlot)
    (hshard : shard ≤ map.shardOf duty.targetSlot)
    (hslot : duty.targetSlot + lookback < currentSlot) : s.Loses map lookback duty := by
  induction hk : map.shardOf duty.targetSlot - shard generalizing s shard with
  | zero =>
    have heq : map.shardOf duty.targetSlot = shard := by omega
    have hlt := map.shardOf_lt duty.targetSlot
    refine loses_of_tick (loses_of_mem_lost ?_)
    simp only [ExitSystem.tick, hp]
    rw [if_pos (by omega)]
    refine List.mem_append_right _ (List.mem_flatMap.mpr ⟨duty.targetSlot, ?_, ?_⟩)
    · simp only [List.mem_filter, List.mem_range, decide_eq_true_eq]
      exact ⟨by omega, heq⟩
    · exact mem_unreturned.mpr hexit
  | succ k ih =>
    have hlt := map.shardOf_lt duty.targetSlot
    have htick : s.tick map lookback 0 id =
        { tracker := s.tracker.pruneShard map shard (currentSlot - lookback)
          processor := .pruning currentSlot (shard + 1)
          lost := s.lost ++ ((List.range (currentSlot - lookback)).filter fun slot =>
            map.shardOf slot = shard).flatMap fun slot =>
              unreturned (s.tracker.exitsAt slot) } := by
      simp only [ExitSystem.tick, hp]
      rw [if_pos (by omega)]
    refine loses_of_tick ?_
    rw [htick]
    refine ih rfl ?_ (by omega) (by omega)
    rw [VoluntaryExitTracker.exitsAt_pruneShard, if_neg (by omega)]
    exact hexit

theorem loses_of_processing {currentSlot : ℕ}
    (hp : s.processor = .processing currentSlot ready)
    (hexit : ⟨duty, false⟩ ∈ s.tracker.exitsAt duty.targetSlot)
    (h : duty.NamedIn ready ∨ duty.targetSlot + lookback < currentSlot) :
    s.Loses map lookback duty := by
  induction ready generalizing s with
  | nil =>
    have hslot : duty.targetSlot + lookback < currentSlot := by
      rcases h with ⟨d, hd, -⟩ | hslot
      · exact absurd hd List.not_mem_nil
      · exact hslot
    have htick : s.tick map lookback 0 id = { s with processor := .pruning currentSlot 0 } := by
      simp only [ExitSystem.tick, hp]
    refine loses_of_tick ?_
    rw [htick]
    exact loses_of_pruning rfl hexit (Nat.zero_le _) hslot
  | cons d ready ih =>
    by_cases hsame : d.targetSlot = duty.targetSlot ∧ d.validatorIndex = duty.validatorIndex
    · obtain ⟨hslot, hindex⟩ := hsame
      refine loses_of_tick (loses_of_mem_lost ?_)
      simp only [ExitSystem.tick, hp]
      refine List.mem_append_right _ (mem_unreturned.mpr (List.mem_filter.mpr ⟨?_, ?_⟩))
      · rw [hslot]
        exact hexit
      · exact decide_eq_true hindex.symm
    · have h' : duty.NamedIn ready ∨ duty.targetSlot + lookback < currentSlot := by
        refine h.imp_left ?_
        rintro ⟨d', hd', heq⟩
        rcases List.mem_cons.mp hd' with rfl | hd'
        · exact absurd heq hsame
        · exact ⟨d', hd', heq⟩
      have hexit' : ⟨duty, false⟩ ∈ (s.tracker.retainOthers d).exitsAt duty.targetSlot := by
        rw [VoluntaryExitTracker.exitsAt_retainOthers]
        split
        · rename_i hslot
          refine List.mem_filter.mpr ⟨hexit, decide_eq_true fun hindex => ?_⟩
          exact hsame ⟨hslot.symm, hindex.symm⟩
        · exact hexit
      refine loses_of_tick ?_
      cases hempty : s.tracker.emptiedBy d with
      | false =>
        refine ih ?_ ?_ h'
        · simp only [ExitSystem.tick, hp, hempty, Bool.false_eq_true, if_false]
        · simp only [ExitSystem.tick, hp]
          exact hexit'
      | true =>
        -- The slot that is removed next is another one, since this one has an exit left.
        have hother : duty.targetSlot ≠ d.targetSlot := by
          intro heq
          rw [heq, VoluntaryExitTracker.exitsAt_of_emptiedBy hempty] at hexit'
          exact absurd hexit' List.not_mem_nil
        refine loses_of_tick (ih ?_ ?_ h')
        · simp only [ExitSystem.tick, hp, hempty, if_true]
        · simp only [ExitSystem.tick, hp, hempty, if_true,
            VoluntaryExitTracker.exitsAt_removeSlot, if_neg hother]
          exact hexit'

theorem loses_of_removing {currentSlot slot : ℕ}
    (hp : s.processor = .removing currentSlot slot ready)
    (hexit : ⟨duty, false⟩ ∈ s.tracker.exitsAt duty.targetSlot)
    (h : slot = duty.targetSlot ∨ duty.NamedIn ready ∨ duty.targetSlot + lookback < currentSlot) :
    s.Loses map lookback duty := by
  refine loses_of_tick ?_
  by_cases hslot : slot = duty.targetSlot
  · refine loses_of_mem_lost ?_
    simp only [ExitSystem.tick, hp]
    refine List.mem_append_right _ (mem_unreturned.mpr ?_)
    rw [hslot]
    exact hexit
  · refine loses_of_processing (s := s.tick map lookback 0 id) ?_ ?_ (h.resolve_left hslot)
    · simp only [ExitSystem.tick, hp]
    · simp only [ExitSystem.tick, hp, VoluntaryExitTracker.exitsAt_removeSlot,
        if_neg (Ne.symm hslot)]
      exact hexit

theorem loses_of_reading
    (hp : s.processor = .reading currentSlot shard ready)
    (hexit : ⟨duty, false⟩ ∈ s.tracker.exitsAt duty.targetSlot)
    (hshard : map.shardOf duty.targetSlot < shard)
    (h : duty.NamedIn ready ∨ duty.targetSlot + lookback < currentSlot) :
    s.Loses map lookback duty := by
  induction hk : map.shards - shard generalizing s shard ready with
  | zero =>
    have htick : s.tick map lookback 0 id =
        { s with processor := .processing currentSlot ready } := by
      simp only [ExitSystem.tick, hp]
      rw [if_neg (by omega)]
    refine loses_of_tick ?_
    rw [htick]
    exact loses_of_processing rfl hexit h
  | succ k ih =>
    have htick : s.tick map lookback 0 id =
        { s with
          tracker := s.tracker.markReturned map shard currentSlot
          processor := .reading currentSlot (shard + 1)
            (ready ++ s.tracker.readShard map id shard currentSlot) } := by
      simp only [ExitSystem.tick, hp]
      rw [if_pos (by omega)]
    refine loses_of_tick ?_
    rw [htick]
    refine ih rfl ?_ (by omega) (h.imp_left ?_) (by omega)
    · rw [VoluntaryExitTracker.exitsAt_markReturned, if_neg (by omega)]
      exact hexit
    · exact fun ⟨d, hd, heq⟩ => ⟨d, List.mem_append_left _ hd, heq⟩

theorem loses_of_not_spares (hexit : ⟨duty, false⟩ ∈ s.tracker.exitsAt duty.targetSlot)
    (h : ¬ s.processor.Spares map lookback duty) : s.Loses map lookback duty := by
  cases hp : s.processor with
  | idle =>
    rw [hp] at h
    exact absurd trivial h
  | reading currentSlot shard ready =>
    simp only [hp, ExitProcessor.Spares, Classical.not_imp, not_and_or, not_not, not_le] at h
    exact loses_of_reading hp hexit h.1 h.2
  | processing currentSlot ready =>
    simp only [hp, ExitProcessor.Spares, not_and_or, not_not, not_le] at h
    exact loses_of_processing hp hexit h
  | removing currentSlot slot ready =>
    simp only [hp, ExitProcessor.Spares, not_and_or, not_not, not_le, ne_eq] at h
    exact loses_of_removing hp hexit h
  | pruning currentSlot shard =>
    simp only [hp, ExitProcessor.Spares, not_or, not_lt, not_le] at h
    exact loses_of_pruning hp hexit h.1 h.2

/-- If every exit is scheduled while the loop spares it, none is lost; and an exit that is
scheduled at any other moment is lost when the loop goes on. -/
theorem scheduled_exits_kept_iff_spared (map : Sharding) (lookback : ℕ) :
    (∀ events,
      Machine.Steps (step map lookback) (fun s e => e.Spared map lookback s) new events →
      (Machine.run (step map lookback) new events).lost = []) ∧
    ∀ events duty, (Machine.run (step map lookback) new events).lost = [] →
      ¬ (Machine.run (step map lookback) new events).processor.Spares map lookback duty →
      ((Machine.run (step map lookback) new (events ++ [.schedule duty])).Loses map lookback
        duty) := by
  refine ⟨fun events h => ?_, fun events duty _ h => ?_⟩
  · exact (Machine.invariant sound_new (fun _ _ hspared hsound => Sound.step hsound hspared) h).lost
  · rw [Machine.run_concat]
    refine loses_of_not_spares ?_ h
    simp [ExitSystem.step, VoluntaryExitTracker.exitsAt_schedule]

end ExitSystem

namespace Sample

def sharding : Sharding := ⟨2, fun slot => slot % 2, fun slot => Nat.mod_lt slot (by decide)⟩

def exitDuty (index : UInt64) : ExitDuty :=
  ⟨⟨List.replicate 48 0, length_zeroKey⟩, index, 10⟩

def exitRound : List ExitEvent :=
  .schedule (exitDuty 1) :: List.replicate 5 (.tick 10 id)

/-- An exit that is scheduled before the loop starts is processed. -/
theorem scheduled_exit_kept :
    Machine.Steps (ExitSystem.step sharding 32) (fun s e => e.Spared sharding 32 s) .new exitRound ∧
      (Machine.run (ExitSystem.step sharding 32) .new exitRound).lost = [] := by
  have hspared : Machine.Steps (ExitSystem.step sharding 32) (fun s e => e.Spared sharding 32 s)
      .new exitRound :=
    ⟨trivial, trivial, trivial, trivial, trivial, trivial, trivial⟩
  exact ⟨hspared, (ExitSystem.scheduled_exits_kept_iff_spared sharding 32).1 exitRound hspared⟩

/-- The list of a slot is empty and the slot is about to be removed when another exit of the slot
is scheduled. -/
theorem exit_lost_between_retain_and_remove :
    (Machine.run (ExitSystem.step sharding 32) .new
      (exitRound ++ [.schedule (exitDuty 2), .tick 10 id])).lost = [exitDuty 2] := by
  decide

end Sample

end Anchor
