import Mathlib

/-!
# Rounding to binary floating point

A number that is not negative is rounded to a fixed number of significant binary digits:
to the nearest such number, and to an even last digit in the middle, as machines do.  The
exponent is not bounded.  Rounding keeps the order.
-/

namespace Binary

def roundEven (x : ℚ) : ℤ :=
  if x - ⌊x⌋ < 1 / 2 ∨ (x - ⌊x⌋ = 1 / 2 ∧ ⌊x⌋ % 2 = 0) then ⌊x⌋ else ⌊x⌋ + 1

theorem floor_le_roundEven (x : ℚ) : ⌊x⌋ ≤ roundEven x := by
  unfold roundEven
  split_ifs <;> omega

theorem roundEven_le_floor_add_one (x : ℚ) : roundEven x ≤ ⌊x⌋ + 1 := by
  unfold roundEven
  split_ifs <;> omega

theorem roundEven_intCast (n : ℤ) : roundEven n = n := by
  simp [roundEven]

theorem roundEven_mono {x y : ℚ} (h : x ≤ y) : roundEven x ≤ roundEven y := by
  rcases (Int.floor_le_floor h).lt_or_eq with hlt | heq
  · calc
      roundEven x ≤ ⌊x⌋ + 1 := roundEven_le_floor_add_one x
      _ ≤ ⌊y⌋ := hlt
      _ ≤ roundEven y := floor_le_roundEven y
  · -- both lie between the same two integers
    unfold roundEven
    rw [heq]
    split_ifs with hx hy hy
    · exact le_rfl
    · omega
    · rcases hy with hy | ⟨hy, heven⟩
      · exact absurd (Or.inl (by linarith)) hx
      · rcases (show x - ⌊y⌋ ≤ 1 / 2 by linarith).lt_or_eq with hlt | hhalf
        · exact absurd (Or.inl hlt) hx
        · exact absurd (Or.inr ⟨hhalf, heven⟩) hx
    · exact le_rfl

def exponent (x : ℚ) : ℤ :=
  if (2 : ℚ) ^ ((x.num.natAbs.log2 : ℤ) - x.den.log2) ≤ x then
    (x.num.natAbs.log2 : ℤ) - x.den.log2
  else (x.num.natAbs.log2 : ℤ) - x.den.log2 - 1

theorem exponent_spec {x : ℚ} (h : 0 < x) :
    (2 : ℚ) ^ exponent x ≤ x ∧ x < (2 : ℚ) ^ (exponent x + 1) := by
  have hnum : x.num.natAbs ≠ 0 := Int.natAbs_ne_zero.mpr (Rat.num_pos.mpr h).ne'
  have hx : x = (x.num.natAbs : ℚ) / x.den := by
    conv_lhs => rw [← Rat.num_div_den x]
    have hcast : (x.num : ℚ) = (x.num.natAbs : ℚ) := by
      rw [Nat.cast_natAbs, abs_of_pos (Rat.num_pos.mpr h)]
    rw [hcast]
  have hden : (0 : ℚ) < x.den := by exact_mod_cast x.den_pos
  have hnumle : (2 : ℚ) ^ x.num.natAbs.log2 ≤ x.num.natAbs := by
    exact_mod_cast Nat.log2_self_le hnum
  have hnumlt : (x.num.natAbs : ℚ) < 2 ^ (x.num.natAbs.log2 + 1) := by
    exact_mod_cast Nat.lt_log2_self
  have hdenle : (2 : ℚ) ^ x.den.log2 ≤ x.den := by
    exact_mod_cast Nat.log2_self_le x.den_nz
  have hdenlt : (x.den : ℚ) < 2 ^ (x.den.log2 + 1) := by
    exact_mod_cast Nat.lt_log2_self
  unfold exponent
  split_ifs with hle
  · refine ⟨hle, ?_⟩
    conv_lhs => rw [hx]
    rw [div_lt_iff₀ hden]
    calc
      (x.num.natAbs : ℚ) < 2 ^ (x.num.natAbs.log2 + 1) := hnumlt
      _ = (2 : ℚ) ^ ((x.num.natAbs.log2 : ℤ) - x.den.log2 + 1) * 2 ^ x.den.log2 := by
          rw [← zpow_natCast, ← zpow_natCast, ← zpow_add₀ two_ne_zero]
          congr 1
          push_cast
          ring
      _ ≤ _ := by gcongr
  · refine ⟨?_, by simpa using hle⟩
    conv_rhs => rw [hx]
    rw [le_div_iff₀ hden]
    calc
      (2 : ℚ) ^ ((x.num.natAbs.log2 : ℤ) - x.den.log2 - 1) * x.den
        ≤ 2 ^ ((x.num.natAbs.log2 : ℤ) - x.den.log2 - 1) * 2 ^ (x.den.log2 + 1) := by gcongr
      _ = 2 ^ x.num.natAbs.log2 := by
          rw [← zpow_natCast, ← zpow_natCast, ← zpow_add₀ two_ne_zero]
          congr 1
          push_cast
          ring
      _ ≤ _ := hnumle

theorem exponent_mono {x y : ℚ} (hx : 0 < x) (h : x ≤ y) : exponent x ≤ exponent y := by
  have hlt : (2 : ℚ) ^ exponent x < 2 ^ (exponent y + 1) :=
    ((exponent_spec hx).1.trans h).trans_lt (exponent_spec (hx.trans_le h)).2
  have := (zpow_lt_zpow_iff_right₀ (by norm_num : (1 : ℚ) < 2)).mp hlt
  omega

/-- The weight of the last of `p` digits. -/
def ulp (p : ℕ) (x : ℚ) : ℚ := 2 ^ (exponent x + 1 - p)

def round (p : ℕ) (x : ℚ) : ℚ := if x ≤ 0 then 0 else roundEven (x / ulp p x) * ulp p x

theorem ulp_pos (p : ℕ) (x : ℚ) : 0 < ulp p x := zpow_pos two_pos _

theorem round_nonneg (p : ℕ) (x : ℚ) : 0 ≤ round p x := by
  unfold round
  split_ifs with hx
  · exact le_rfl
  · have hquot : (0 : ℚ) ≤ x / ulp p x := div_nonneg (not_le.mp hx).le (ulp_pos p x).le
    have hround : (0 : ℤ) ≤ roundEven (x / ulp p x) := by
      rw [← roundEven_intCast 0]
      exact roundEven_mono (by simpa using hquot)
    exact mul_nonneg (by exact_mod_cast hround) (ulp_pos p x).le

theorem round_le_zpow (p : ℕ) {x : ℚ} (hx : 0 < x) : round p x ≤ 2 ^ (exponent x + 1) := by
  have hpow : (2 : ℚ) ^ (exponent x + 1) = ((2 ^ p : ℕ) : ℤ) * ulp p x := by
    rw [ulp, Int.cast_natCast, Nat.cast_pow, Nat.cast_ofNat, ← zpow_natCast,
      ← zpow_add₀ two_ne_zero]
    congr 1
    ring
  have hquot : x / ulp p x ≤ (((2 ^ p : ℕ) : ℤ) : ℚ) := by
    rw [div_le_iff₀ (ulp_pos p x), ← hpow]
    exact (exponent_spec hx).2.le
  rw [round, if_neg (not_le.mpr hx), hpow]
  refine mul_le_mul_of_nonneg_right ?_ (ulp_pos p x).le
  have := roundEven_mono hquot
  rw [roundEven_intCast] at this
  exact_mod_cast this

theorem zpow_le_round {p : ℕ} (hp : 1 ≤ p) {x : ℚ} (hx : 0 < x) :
    2 ^ exponent x ≤ round p x := by
  have hpow : (2 : ℚ) ^ exponent x = ((2 ^ (p - 1) : ℕ) : ℤ) * ulp p x := by
    rw [ulp, Int.cast_natCast, Nat.cast_pow, Nat.cast_ofNat, ← zpow_natCast,
      ← zpow_add₀ two_ne_zero]
    congr 1
    push_cast [Nat.cast_sub hp]
    ring
  have hquot : (((2 ^ (p - 1) : ℕ) : ℤ) : ℚ) ≤ x / ulp p x := by
    rw [le_div_iff₀ (ulp_pos p x), ← hpow]
    exact (exponent_spec hx).1
  rw [round, if_neg (not_le.mpr hx), hpow]
  refine mul_le_mul_of_nonneg_right ?_ (ulp_pos p x).le
  have := roundEven_mono hquot
  rw [roundEven_intCast] at this
  exact_mod_cast this

theorem round_mono {p : ℕ} (hp : 1 ≤ p) {x y : ℚ} (h : x ≤ y) : round p x ≤ round p y := by
  by_cases hx : x ≤ 0
  · rw [round, if_pos hx]
    exact round_nonneg p y
  have hx : 0 < x := not_le.mp hx
  have hy : 0 < y := hx.trans_le h
  rcases (exponent_mono hx h).lt_or_eq with hlt | heq
  · calc
      round p x ≤ 2 ^ (exponent x + 1) := round_le_zpow p hx
      _ ≤ 2 ^ exponent y := zpow_le_zpow_right₀ one_le_two hlt
      _ ≤ round p y := zpow_le_round hp hy
  · have hulp : ulp p x = ulp p y := by rw [ulp, ulp, heq]
    rw [round, round, if_neg (not_le.mpr hx), if_neg (not_le.mpr hy), hulp]
    refine mul_le_mul_of_nonneg_right ?_ (ulp_pos p y).le
    exact_mod_cast roundEven_mono (div_le_div_of_nonneg_right h (ulp_pos p y).le)

end Binary
