import Mathlib
import Anchor.Validator.QbftLogic

/-!
# Round timers

The manager ends the rounds of an instance at fixed times after the start of its
slot: eight rounds of two seconds, then rounds of two minutes.  The validator
estimates the round of a message from the time since the start of the slot.  Both
computations are checked against each other here.  Durations are in nanoseconds,
with 64 bits for their seconds.
-/

namespace Anchor

namespace QbftManager

def quickTimeoutThreshold : ℕ := 8

def quickTimeout : ℕ := 2

def slowTimeout : ℕ := 120

def checkedMul (a b : ℕ) : Option ℕ := if a * b < 2 ^ 64 then some (a * b) else none

def fromSecs (secs : ℕ) : ℕ := secs * DutyContext.nanosPerSec

def durationLimit : ℕ := fromSecs (2 ^ 64)

def checkedAdd (a b : ℕ) : Option ℕ := if a + b < durationLimit then some (a + b) else none

def cumulativeTimeout (round : UInt64) : Option ℕ :=
  if round.toNat ≤ quickTimeoutThreshold then (checkedMul round.toNat quickTimeout).map fromSecs
  else
    (checkedMul (round.toNat - quickTimeoutThreshold) slowTimeout).bind fun slowPortion =>
      checkedAdd (fromSecs (quickTimeoutThreshold * quickTimeout)) (fromSecs slowPortion)

def roundEnd (round : ℕ) : ℕ := if round ≤ 8 then 2 * round else 16 + 120 * (round - 8)

theorem cumulativeTimeout_eq (round : UInt64) :
    cumulativeTimeout round =
      if roundEnd round.toNat < 2 ^ 64 then some (fromSecs (roundEnd round.toNat)) else none := by
  unfold cumulativeTimeout roundEnd
  by_cases hquick : round.toNat ≤ quickTimeoutThreshold
  · have hquick' : round.toNat ≤ 8 := hquick
    have hmul : checkedMul round.toNat 2 = some (2 * round.toNat) := by
      rw [checkedMul, if_pos (by omega), mul_comm]
    rw [if_pos hquick, if_pos hquick', quickTimeout, hmul, if_pos (by omega), Option.map_some]
  · have hquick' : ¬ round.toNat ≤ 8 := hquick
    rw [if_neg hquick, if_neg hquick']
    by_cases hslow : (round.toNat - 8) * 120 < 2 ^ 64
    · have hmul : checkedMul (round.toNat - 8) 120 = some ((round.toNat - 8) * 120) := by
        rw [checkedMul, if_pos hslow]
      have hadd : fromSecs (8 * 2) +
          fromSecs ((round.toNat - 8) * 120) = fromSecs (16 + 120 * (round.toNat - 8)) := by
        unfold fromSecs
        ring
      have hlimit : fromSecs (16 + 120 * (round.toNat - 8)) < durationLimit ↔
          16 + 120 * (round.toNat - 8) < 2 ^ 64 := by
        unfold durationLimit fromSecs
        exact Nat.mul_lt_mul_right (by decide)
      rw [quickTimeoutThreshold, slowTimeout, quickTimeout, hmul, Option.bind_some, checkedAdd,
        hadd]
      exact if_congr hlimit rfl rfl
    · have hmul : checkedMul (round.toNat - 8) 120 = none := by
        rw [checkedMul, if_neg hslow]
      rw [quickTimeoutThreshold, slowTimeout, hmul, Option.bind_none, if_neg (by omega)]

theorem currentEstimatedRound_eq_iff_roundEnd (t : ℕ) {round : ℕ} (hround : 1 ≤ round) :
    DutyContext.currentEstimatedRound t = round ↔
      roundEnd (round - 1) ≤ t / DutyContext.nanosPerSec ∧
        t / DutyContext.nanosPerSec < roundEnd round := by
  have hslow : (t - 2 * 8 * 1000000000) / 1000000000 = t / 1000000000 - 16 := by omega
  unfold DutyContext.currentEstimatedRound roundEnd
  simp only [DutyContext.quickTimeout, DutyContext.quickTimeoutThreshold, DutyContext.slowTimeout,
    DutyContext.nanosPerSec, hslow, firstRound]
  generalize t / 1000000000 = secs
  have hone : (1 : UInt64).toNat = 1 := rfl
  rw [hone]
  split_ifs <;> omega

/-- The estimated round is the one between whose deadlines the time lies.  A deadline beyond all
durations is never reached. -/
theorem estimatedRound_eq_iff_between_deadlines :
    cumulativeTimeout 0 = some 0 ∧
    ∀ t < durationLimit, ∀ round : UInt64, 1 ≤ round →
      (DutyContext.currentEstimatedRound t = round.toNat ↔
        (∃ d, cumulativeTimeout (round - 1) = some d ∧ d ≤ t) ∧
          ∀ d, cumulativeTimeout round = some d → t < d) := by
  refine ⟨by decide, fun t ht round hround => ?_⟩
  have hone : 1 ≤ round.toNat := UInt64.le_iff_toNat_le.mp hround
  have hpred : (round - 1).toNat = round.toNat - 1 := UInt64.toNat_sub_of_le _ _ hround
  have hsecs : t / DutyContext.nanosPerSec < 2 ^ 64 := Nat.div_lt_of_lt_mul (by
    rw [mul_comm]
    exact ht)
  have hle : ∀ n, fromSecs n ≤ t ↔ n ≤ t / DutyContext.nanosPerSec := fun n =>
    (Nat.le_div_iff_mul_le (by decide)).symm
  rw [currentEstimatedRound_eq_iff_roundEnd t hone, cumulativeTimeout_eq, cumulativeTimeout_eq,
    hpred]
  constructor
  · rintro ⟨hstart, hend⟩
    refine ⟨⟨_, if_pos (hstart.trans_lt hsecs), (hle _).mpr hstart⟩, fun d hd => ?_⟩
    obtain ⟨-, hd⟩ := Option.ite_none_right_eq_some.mp hd
    obtain rfl := Option.some.inj hd
    exact lt_of_not_ge fun h => absurd ((hle _).mp h) (not_le.mpr hend)
  · rintro ⟨⟨d, hd, hdt⟩, hend⟩
    obtain ⟨-, hd⟩ := Option.ite_none_right_eq_some.mp hd
    obtain rfl := Option.some.inj hd
    refine ⟨(hle _).mp hdt, ?_⟩
    by_cases hbound : roundEnd round.toNat < 2 ^ 64
    · have hlt := hend _ (if_pos hbound)
      exact lt_of_not_ge fun h => absurd ((hle _).mpr h) (not_le.mpr hlt)
    · exact hsecs.trans_le (not_lt.mp hbound)

/-- The first slow round, half a second before two minutes of it have passed. -/
theorem estimatedRound_ninth :
    DutyContext.currentEstimatedRound 135500000000 = (9 : UInt64).toNat := by
  refine (estimatedRound_eq_iff_between_deadlines.2 135500000000 (by decide) 9 (by decide)).mpr
    ⟨⟨16000000000, by decide, by decide⟩, fun d hd => ?_⟩
  have hend : cumulativeTimeout 9 = some 136000000000 := by decide
  obtain rfl := Option.some.inj (hend.symm.trans hd)
  decide

end QbftManager

end Anchor
