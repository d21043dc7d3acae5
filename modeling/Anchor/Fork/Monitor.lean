import Mathlib
import Anchor.Fork.Lifecycle

/-!
# The fork monitor

A task reads the slot clock at least once per slot and publishes the lifecycle of
the furthest slot it has seen.  It asks for a shutdown when the clock cannot be read
or has moved back into another lifecycle, and ends there.  Its sleeps only decide
when the next reading is taken, so a run is the list of its readings.
-/

namespace Anchor

namespace ForkMonitor

inductive ClockObservation where
  | advanced
  | backwardsWithinWindow
  | backwardsAcrossBoundary
deriving DecidableEq

inductive ShutdownReason where
  | slotClockUnreadable
  | clockRolledBack
deriving DecidableEq

end ForkMonitor

structure ForkMonitor where
  highestObservedSlot : ℕ
  published : ForkLifecycle
deriving DecidableEq

namespace ForkMonitor

variable (schedule : ForkSchedule) (slotsPerEpoch : ℕ)

def classifyObservation (highestObservedSlot now : ℕ) : ClockObservation :=
  if highestObservedSlot ≤ now then .advanced
  else if schedule.lifecycleAt now slotsPerEpoch =
      schedule.lifecycleAt highestObservedSlot slotsPerEpoch then .backwardsWithinWindow
  else .backwardsAcrossBoundary

def publish (published : ForkLifecycle) (highestObservedSlot : ℕ) : ForkMonitor :=
  let lifecycle := schedule.lifecycleAt highestObservedSlot slotsPerEpoch
  ⟨highestObservedSlot, if published = lifecycle then published else lifecycle⟩

/-- One turn of the loop, with the reading of the clock. -/
def observe (m : ForkMonitor) : Option ℕ → Except ShutdownReason ForkMonitor
  | none => .error .slotClockUnreadable
  | some now =>
    match classifyObservation schedule slotsPerEpoch m.highestObservedSlot now with
    | .advanced => .ok (publish schedule slotsPerEpoch m.published now)
    | .backwardsWithinWindow =>
      .ok (publish schedule slotsPerEpoch m.published m.highestObservedSlot)
    | .backwardsAcrossBoundary => .error .clockRolledBack

def spawn (currentSlot : ℕ) : ForkMonitor :=
  ⟨currentSlot, schedule.lifecycleAt currentSlot slotsPerEpoch⟩

def run (m : ForkMonitor) (readings : List (Option ℕ)) : Except ShutdownReason ForkMonitor :=
  readings.foldlM (observe schedule slotsPerEpoch) m

def furthest (currentSlot : ℕ) (readings : List (Option ℕ)) : ℕ :=
  (readings.filterMap id).foldl max currentSlot

/-- The clock has moved back across the start of a lifecycle. -/
def MovedBack (highestObservedSlot now : ℕ) : Prop :=
  ∃ slot, now ≤ slot ∧ slot < highestObservedSlot ∧
    schedule.lifecycleAt slot slotsPerEpoch ≠ schedule.lifecycleAt (slot + 1) slotsPerEpoch

def Earlier (a b : ForkLifecycle) : Prop :=
  a ≠ b ∧ ∃ slot slot', slot < slot' ∧ schedule.lifecycleAt slot slotsPerEpoch = a ∧
    schedule.lifecycleAt slot' slotsPerEpoch = b

variable {schedule slotsPerEpoch} {m m' : ForkMonitor}

@[simp] theorem publish_eq (published : ForkLifecycle) (slot : ℕ) :
    publish schedule slotsPerEpoch published slot = spawn schedule slotsPerEpoch slot := by
  unfold publish spawn
  dsimp only
  split_ifs with h
  · rw [h]
  · rfl

theorem observe_spawn (hschedule : schedule.Accepted) (slot : ℕ) (reading : Option ℕ) :
    (∃ now, reading = some now ∧ ¬ MovedBack schedule slotsPerEpoch slot now ∧
      observe schedule slotsPerEpoch (spawn schedule slotsPerEpoch slot) reading =
        .ok (spawn schedule slotsPerEpoch (max slot now))) ∨
    (reading = none ∧ observe schedule slotsPerEpoch (spawn schedule slotsPerEpoch slot) reading =
      .error .slotClockUnreadable) ∨
    ∃ now, reading = some now ∧ MovedBack schedule slotsPerEpoch slot now ∧
      observe schedule slotsPerEpoch (spawn schedule slotsPerEpoch slot) reading =
        .error .clockRolledBack := by
  cases reading with
  | none => exact Or.inr (Or.inl ⟨rfl, rfl⟩)
  | some now =>
    have hstaged := hschedule.staged slotsPerEpoch
    by_cases hle : slot ≤ now
    · refine Or.inl ⟨now, rfl, ?_, ?_⟩
      · rintro ⟨s, hs, hs', -⟩
        omega
      · simp [observe, classifyObservation, spawn, hle]
    · have hlt := not_le.mp hle
      have hiff : MovedBack schedule slotsPerEpoch slot now ↔
          schedule.lifecycleAt now slotsPerEpoch ≠ schedule.lifecycleAt slot slotsPerEpoch :=
        (hstaged.ne_iff_exists_change hlt.le).symm
      by_cases hsame : schedule.lifecycleAt now slotsPerEpoch =
          schedule.lifecycleAt slot slotsPerEpoch
      · refine Or.inl ⟨now, rfl, fun h => hiff.mp h hsame, ?_⟩
        simp [observe, classifyObservation, spawn, hle, hsame, hlt.le]
      · refine Or.inr (Or.inr ⟨now, rfl, hiff.mpr hsame, ?_⟩)
        simp [observe, classifyObservation, spawn, hle, hsame]

theorem run_concat (m : ForkMonitor) (readings : List (Option ℕ)) (reading : Option ℕ) :
    run schedule slotsPerEpoch m (readings ++ [reading]) =
      (run schedule slotsPerEpoch m readings).bind fun m =>
        observe schedule slotsPerEpoch m reading := by
  unfold run
  rw [List.foldlM_append]
  cases readings.foldlM (observe schedule slotsPerEpoch) m with
  | error reason => rfl
  | ok m =>
    change (observe schedule slotsPerEpoch m reading).bind _ =
      observe schedule slotsPerEpoch m reading
    cases observe schedule slotsPerEpoch m reading <;> rfl

@[simp] theorem furthest_nil (currentSlot : ℕ) : furthest currentSlot [] = currentSlot := rfl

@[simp] theorem furthest_concat_some (currentSlot now : ℕ) (readings : List (Option ℕ)) :
    furthest currentSlot (readings ++ [some now]) = max (furthest currentSlot readings) now := by
  simp [furthest, List.foldl_append]

theorem furthest_le_append (currentSlot : ℕ) (readings later : List (Option ℕ)) :
    furthest currentSlot readings ≤ furthest currentSlot (readings ++ later) := by
  induction later using List.reverseRecOn with
  | nil => rw [List.append_nil]
  | append_singleton later reading ih =>
    rw [← List.append_assoc]
    cases reading with
    | none => simpa [furthest] using ih
    | some now =>
      rw [furthest_concat_some]
      exact ih.trans (le_max_left _ _)

variable (schedule slotsPerEpoch) in
/-- Some reading failed, or showed a slot in an earlier lifecycle than the furthest slot before. -/
def ClockFailed (currentSlot : ℕ) (readings : List (Option ℕ)) : Prop :=
  ∃ before reading after, readings = before ++ reading :: after ∧
    (reading = none ∨ ∃ now, reading = some now ∧
      MovedBack schedule slotsPerEpoch (furthest currentSlot before) now)

theorem not_clockFailed_nil (currentSlot : ℕ) :
    ¬ ClockFailed schedule slotsPerEpoch currentSlot [] := by
  rintro ⟨before, reading, after, hnil, -⟩
  simp at hnil

theorem clockFailed_concat {currentSlot : ℕ} {readings : List (Option ℕ)} {reading : Option ℕ} :
    ClockFailed schedule slotsPerEpoch currentSlot (readings ++ [reading]) ↔
      ClockFailed schedule slotsPerEpoch currentSlot readings ∨ reading = none ∨
        ∃ now, reading = some now ∧
          MovedBack schedule slotsPerEpoch (furthest currentSlot readings) now := by
  constructor
  · rintro ⟨before, failed, after, heq, hfailed⟩
    rcases List.eq_nil_or_concat after with rfl | ⟨after, last, rfl⟩
    · obtain ⟨rfl, hlast⟩ := List.append_inj' heq rfl
      obtain rfl := List.singleton_inj.mp hlast
      exact Or.inr hfailed
    · rw [List.concat_eq_append, ← List.cons_append, ← List.append_assoc] at heq
      obtain ⟨rfl, -⟩ := List.append_inj' heq rfl
      exact Or.inl ⟨before, failed, after, rfl, hfailed⟩
  · rintro (⟨before, failed, after, rfl, hfailed⟩ | hfailed)
    · exact ⟨before, failed, after ++ [reading], by simp, hfailed⟩
    · exact ⟨readings, reading, [], rfl, hfailed⟩

/-- The monitor either runs, with the lifecycle of the furthest slot published, or has asked for a
shutdown because of the clock. -/
theorem run_cases (hschedule : schedule.Accepted) (currentSlot : ℕ)
    (readings : List (Option ℕ)) :
    (¬ ClockFailed schedule slotsPerEpoch currentSlot readings ∧
      run schedule slotsPerEpoch (spawn schedule slotsPerEpoch currentSlot) readings =
        .ok (spawn schedule slotsPerEpoch (furthest currentSlot readings))) ∨
    ClockFailed schedule slotsPerEpoch currentSlot readings ∧
      ∃ reason, run schedule slotsPerEpoch (spawn schedule slotsPerEpoch currentSlot) readings =
        .error reason := by
  induction readings using List.reverseRecOn with
  | nil => exact Or.inl ⟨not_clockFailed_nil currentSlot, rfl⟩
  | append_singleton readings reading ih =>
    rw [run_concat, clockFailed_concat]
    rcases ih with ⟨hclock, hrun⟩ | ⟨hclock, reason, hrun⟩
    · rw [hrun]
      rcases observe_spawn hschedule (furthest currentSlot readings) reading with
        ⟨now, rfl, hback, hobserve⟩ | ⟨rfl, hobserve⟩ | ⟨now, rfl, hback, hobserve⟩
      · refine Or.inl ⟨?_, ?_⟩
        · rintro (h | h | ⟨now', hnow, h⟩)
          · exact hclock h
          · cases h
          · cases hnow
            exact hback h
        · rw [furthest_concat_some]
          exact hobserve
      · exact Or.inr ⟨Or.inr (Or.inl rfl), _, hobserve⟩
      · exact Or.inr ⟨Or.inr (Or.inr ⟨now, rfl, hback⟩), _, hobserve⟩
    · exact Or.inr ⟨Or.inl hclock, reason, by rw [hrun]; rfl⟩

/-- In every run of the monitor the published lifecycle is that of the furthest slot, it never
goes back to an earlier one, and the monitor asks for a shutdown exactly when the clock cannot be
read or moves back across the start of a lifecycle. -/
theorem monitor_tracks_furthest_clock (hschedule : schedule.Accepted)
    (slotsPerEpoch currentSlot : ℕ)
    (readings : List (Option ℕ)) :
    (∀ m, run schedule slotsPerEpoch (spawn schedule slotsPerEpoch currentSlot) readings = .ok m →
      m.published = schedule.lifecycleAt (furthest currentSlot readings) slotsPerEpoch ∧
      ∀ later m', run schedule slotsPerEpoch (spawn schedule slotsPerEpoch currentSlot)
        (readings ++ later) = .ok m' → ¬ Earlier schedule slotsPerEpoch m'.published m.published) ∧
    ((∃ reason, run schedule slotsPerEpoch (spawn schedule slotsPerEpoch currentSlot) readings =
      .error reason) ↔ ClockFailed schedule slotsPerEpoch currentSlot readings) := by
  have hok : ∀ {readings m},
      run schedule slotsPerEpoch (spawn schedule slotsPerEpoch currentSlot) readings = .ok m →
        m = spawn schedule slotsPerEpoch (furthest currentSlot readings) := by
    intro readings m hrun
    rcases run_cases hschedule currentSlot readings with ⟨-, hcase⟩ | ⟨-, reason, hcase⟩
    · exact Except.ok.inj (hrun.symm.trans hcase)
    · cases hrun.symm.trans hcase
  refine ⟨fun m hrun => ?_, ?_⟩
  · obtain rfl := hok hrun
    refine ⟨rfl, fun later m' hrun' => ?_⟩
    obtain rfl := hok hrun'
    rintro ⟨hne, slot, slot', hlt, hslot, hslot'⟩
    obtain ⟨stage, hmono, hstage⟩ := hschedule.staged slotsPerEpoch
    have hlater := hmono (furthest_le_append currentSlot readings later)
    have hback := hmono hlt.le
    rw [(hstage _ _).mp hslot, (hstage _ _).mp hslot'] at hback
    exact hne ((hstage _ _).mpr (le_antisymm hback hlater))
  · rcases run_cases hschedule currentSlot readings with ⟨hclock, hcase⟩ | ⟨hclock, hcase⟩
    · refine iff_of_false ?_ hclock
      rintro ⟨reason, hrun⟩
      cases hrun.symm.trans hcase
    · exact iff_of_true hcase hclock

end ForkMonitor

namespace Sample

open ForkMonitor

def booleSchedule : ForkSchedule where
  configs := [⟨.alan, 0, ⟨List.replicate 4 2, rfl⟩⟩, ⟨.boole, 4, ⟨List.replicate 4 1, rfl⟩⟩]
  sorted := by decide
  genesis := ⟨_, List.mem_cons_self .., rfl⟩

theorem accepted_booleSchedule : booleSchedule.Accepted := by
  have hraw : ForkSchedule.fromForkConfigs ⟨[(.alan, 0, ⟨List.replicate 4 2, rfl⟩),
      (.boole, 4, ⟨List.replicate 4 1, rfl⟩)], by decide⟩ = .ok booleSchedule := rfl
  exact .fromForkConfigs hraw

/-- The clock jumps into the preparation for Boole, goes back by one slot in it and is
then read before it. -/
theorem monitor_tracks_sample :
    booleSchedule.lifecycleAt (furthest 3 [some 26, some 25]) 8 = booleSchedule.lifecycleAt 26 8 ∧
    ∃ reason, run booleSchedule 8 (spawn booleSchedule 8 3) [some 26, some 25, some 5] =
      .error reason := by
  have h := monitor_tracks_furthest_clock accepted_booleSchedule 8 3
  refine ⟨((h [some 26, some 25]).1 _ rfl).1.symm.trans rfl, (h _).2.mpr ?_⟩
  exact ⟨[some 26, some 25], some 5, [], rfl, Or.inr ⟨5, rfl, 23, by decide, by decide, by decide⟩⟩

end Sample

end Anchor
