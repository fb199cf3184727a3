import Mathlib.Algebra.Order.Ring.Rat
import Mathlib.Algebra.Order.Field.Power
import Mathlib.Data.Int.Log
import Mathlib.Data.Rat.Floor
import Mathlib.Tactic.Linarith
import Mathlib.Tactic.NormNum
import Mathlib.Tactic.Positivity
import Mathlib.Tactic.Ring

/-!
# Double-precision numbers

A finite double is a 53-bit significand at a power of two. Every number in range has a nearest
one, a tie going to the even significand, and a double is its own.
-/

namespace Foghorn.Std

/-- The finite doubles that are not negative. -/
def IsDouble (value : ℚ) : Prop :=
  ∃ (significand : Nat) (exponent : Int), significand < 2 ^ 53 ∧ -1074 ≤ exponent ∧ exponent ≤ 971 ∧
    value = significand * 2 ^ exponent

/-- A finite double without its sign. -/
abbrev Double := { value : ℚ // IsDouble value }

/-- A double's magnitude is never negative. -/
theorem IsDouble.nonneg {value : ℚ} (double : IsDouble value) : 0 ≤ value := by
  obtain ⟨significand, exponent, _, _, _, rfl⟩ := double
  positivity

/-- The double nearest to a natural number. -/
def nearestDouble (number : Nat) : Nat :=
  let step := 2 ^ (number.log2 - 52)
  let below := number / step
  if step < 2 * (number % step) || (2 * (number % step) = step && below % 2 = 1) then
    (below + 1) * step
  else below * step

/-- Past 53 bits neighbours share a double. -/
example : nearestDouble 9007199254740993 = 9007199254740992 := by decide

section Rounding

/-- The nearest integer, a tie going to the even one. -/
def roundEven (value : ℚ) : Int :=
  if value - ⌊value⌋ < 1 / 2 ∨ value - ⌊value⌋ = 1 / 2 ∧ ⌊value⌋ % 2 = 0 then ⌊value⌋
  else ⌊value⌋ + 1

/-- Rounding keeps whole numbers. -/
theorem roundEven_intCast (number : Int) : roundEven number = number := by
  rw [roundEven, Int.floor_intCast, sub_self, if_pos (.inl (by norm_num))]

private theorem roundEven_nonneg {value : ℚ} (nonneg : 0 ≤ value) : 0 ≤ roundEven value := by
  have below := Int.floor_nonneg.mpr nonneg
  unfold roundEven
  split <;> omega

/-- Rounding does not pass a whole bound. -/
theorem roundEven_le {value : ℚ} {bound : Int} (bounded : value ≤ bound) :
    roundEven value ≤ bound := by
  rcases bounded.lt_or_eq with less | rfl
  · have below := Int.floor_lt.mpr less
    unfold roundEven
    split <;> omega
  · rw [roundEven_intCast]

/-- The exponent of the last place of the doubles around a number. -/
def unitExponent (value : ℚ) : Int := max (Int.log 2 value - 52) (-1074)

/-- The double nearest to a number that is not negative. -/
def roundToDouble (value : ℚ) : ℚ :=
  roundEven (value / 2 ^ unitExponent value) * 2 ^ unitExponent value

def maxDouble : ℚ := (2 ^ 53 - 1) * 2 ^ (971 : Int)

private theorem zpow_two_pos (exponent : Int) : (0 : ℚ) < 2 ^ exponent := zpow_pos two_pos exponent

/-- In units of the last place a number has 53 bits before the point. -/
theorem div_unit_lt (value : ℚ) : value / 2 ^ unitExponent value < 2 ^ 53 := by
  rw [div_lt_iff₀ (zpow_two_pos _), ← zpow_natCast, ← zpow_add₀ two_ne_zero]
  have below : value < 2 ^ (Int.log 2 value + 1) := by
    exact_mod_cast Int.lt_zpow_succ_log_self (R := ℚ) one_lt_two value
  refine below.trans_le (zpow_le_zpow_right₀ one_le_two ?_)
  have unit := le_max_left (Int.log 2 value - 52) (-1074)
  rw [← unitExponent] at unit
  push_cast
  omega

private theorem unitExponent_le {value : ℚ} (positive : 0 < value) (bounded : value ≤ maxDouble) :
    unitExponent value ≤ 971 := by
  have top : maxDouble < 2 ^ ((971 : Int) + 53) := by
    rw [maxDouble, zpow_add₀ two_ne_zero, mul_comm]
    exact mul_lt_mul_of_pos_left (by norm_num) (zpow_two_pos _)
  have log : Int.log 2 value < (971 : Int) + 53 :=
    (Int.lt_zpow_iff_log_lt one_lt_two positive).mp
      (by rw [Nat.cast_ofNat]; exact bounded.trans_lt top)
  exact max_le (by omega) (by decide)

/-- No double is above the largest one. -/
theorem IsDouble.le_maxDouble {value : ℚ} (double : IsDouble value) : value ≤ maxDouble := by
  obtain ⟨significand, exponent, small, -, high, rfl⟩ := double
  have significands : (significand : ℚ) ≤ 2 ^ 53 - 1 := by
    rw [le_sub_iff_add_le]
    exact_mod_cast small
  exact mul_le_mul significands (zpow_le_zpow_right₀ one_le_two high) (zpow_two_pos _).le
    (by norm_num)

/-- Zero is a double. -/
theorem isDouble_zero : IsDouble 0 := ⟨0, 0, by decide, by decide, by decide, by simp⟩

/-- The double nearest to a number in range is one. -/
theorem isDouble_roundToDouble {value : ℚ} (nonneg : 0 ≤ value) (bounded : value ≤ maxDouble) :
    IsDouble (roundToDouble value) := by
  rcases nonneg.eq_or_lt with rfl | positive
  · rw [roundToDouble, zero_div, ← Int.cast_zero, roundEven_intCast, Int.cast_zero, zero_mul]
    exact isDouble_zero
  · have low : -1074 ≤ unitExponent value := le_max_right _ _
    have high := unitExponent_le positive bounded
    rw [roundToDouble]
    generalize unit_eq : unitExponent value = unit at low high
    have scaled : value / 2 ^ unit < 2 ^ 53 := unit_eq ▸ div_unit_lt value
    have natural := roundEven_nonneg (div_nonneg nonneg (zpow_two_pos unit).le)
    have small : roundEven (value / 2 ^ unit) ≤ 2 ^ 53 := roundEven_le (by exact_mod_cast scaled.le)
    obtain ⟨significand, same⟩ := Int.eq_ofNat_of_zero_le natural
    rw [same] at small ⊢
    rcases small.lt_or_eq with less | full
    · exact ⟨significand, unit, by exact_mod_cast less, low, high, by push_cast; rfl⟩
    · -- The significand overflows, but not in the last binade.
      have inside : unit ≠ 971 := by
        intro last
        have cut : value / 2 ^ unit ≤ ((2 ^ 53 - 1 : Int) : ℚ) := by
          have significand : ((2 ^ 53 - 1 : Int) : ℚ) = 2 ^ 53 - 1 := by norm_num
          rw [div_le_iff₀ (zpow_two_pos _), last, significand]
          exact bounded
        have capped := roundEven_le cut
        rw [same, full] at capped
        omega
      refine ⟨2 ^ 52, unit + 1, Nat.pow_lt_pow_right one_lt_two (by decide), by omega, by omega, ?_⟩
      rw [full, zpow_add₀ two_ne_zero]
      push_cast
      ring

/-- A double is its own nearest one. -/
theorem roundToDouble_of_isDouble {value : ℚ} (double : IsDouble value) :
    roundToDouble value = value := by
  obtain ⟨significand, exponent, small, low, -, rfl⟩ := double
  rcases significand.eq_zero_or_pos with rfl | positive
  · rw [roundToDouble, Nat.cast_zero, zero_mul, zero_div, ← Int.cast_zero, roundEven_intCast,
      Int.cast_zero, zero_mul]
  · -- The last place is at most that of the significand, so the number is whole in its units.
    have unit : unitExponent (significand * 2 ^ exponent) ≤ exponent := by
      refine max_le ?_ low
      have bits : (significand * 2 ^ exponent : ℚ) < 2 ^ (exponent + 53) := by
        rw [zpow_add₀ two_ne_zero, mul_comm]
        refine mul_lt_mul_of_pos_left ?_ (zpow_two_pos exponent)
        exact_mod_cast small
      have log : Int.log 2 (significand * 2 ^ exponent : ℚ) < exponent + 53 :=
        (Int.lt_zpow_iff_log_lt one_lt_two (mul_pos (by exact_mod_cast positive)
          (zpow_two_pos exponent))).mp (by exact_mod_cast bits)
      omega
    rw [roundToDouble]
    generalize unitExponent (significand * 2 ^ exponent) = place at unit
    have whole : (significand * 2 ^ exponent : ℚ) / 2 ^ place =
        ((significand * 2 ^ (exponent - place).toNat : Int) : ℚ) := by
      have split : exponent = place + ((exponent - place).toNat : Int) := by omega
      rw [div_eq_iff (zpow_two_pos place).ne']
      conv_lhs => rw [split, zpow_add₀ two_ne_zero, zpow_natCast]
      push_cast
      ring
    rw [whole, roundEven_intCast, ← whole, div_mul_cancel₀ _ (zpow_two_pos place).ne']

end Rounding

end Foghorn.Std
