import Mathlib.Data.Int.Log
import Mathlib.Data.Rat.Floor
import Mathlib.Tactic.Linarith
import Mathlib.Tactic.NormNum

/-! # Double precision

Rounding to the nearest double, ties to the even one, on rational numbers: 53
binary places and none below `2 ^ (-1074)`. The exponent is not bounded from
above, so infinity is left out. -/
namespace RlmGraph.Lib.Doubles

/-- The nearest integer, and the even neighbour of a half. -/
def roundHalfEven (x : ℚ) : Int :=
  let below := ⌊x⌋
  if x - below < 1 / 2 then below
  else if x - below = 1 / 2 ∧ below % 2 = 0 then below
  else below + 1

/-- The exponent of the last binary place of the doubles near a number. -/
def lastPlace (q : ℚ) : ℤ := max (Int.log 2 |q| - 52) (-1074)

/-- The double nearest to a number. -/
def nearest (q : ℚ) : ℚ := roundHalfEven (q / 2 ^ lastPlace q) * 2 ^ lastPlace q

theorem abs_roundHalfEven_sub_le (x : ℚ) : |(roundHalfEven x : ℚ) - x| ≤ 1 / 2 := by
  have hbelow := Int.floor_le x
  have habove := Int.lt_floor_add_one x
  unfold roundHalfEven
  dsimp only
  rw [abs_le]
  split
  · constructor <;> linarith
  · rename_i hhalf
    split
    · rename_i htie
      constructor <;> linarith [htie.1]
    · rw [Int.cast_add, Int.cast_one]
      constructor <;> linarith

/-- Rounding errs by at most half of the last place. -/
theorem abs_nearest_sub_le (q : ℚ) : |nearest q - q| ≤ 2 ^ lastPlace q / 2 := by
  have hplace : (0 : ℚ) < 2 ^ lastPlace q := zpow_pos (by norm_num) _
  have hq : q = q / 2 ^ lastPlace q * 2 ^ lastPlace q := (div_mul_cancel₀ q hplace.ne').symm
  have herror := abs_roundHalfEven_sub_le (q / 2 ^ lastPlace q)
  calc |nearest q - q|
      = |(roundHalfEven (q / 2 ^ lastPlace q) - q / 2 ^ lastPlace q) * 2 ^ lastPlace q| := by
        rw [sub_mul, ← hq, nearest]
    _ = |(roundHalfEven (q / 2 ^ lastPlace q) : ℚ) - q / 2 ^ lastPlace q| * 2 ^ lastPlace q := by
        rw [abs_mul, abs_of_pos hplace]
    _ ≤ 1 / 2 * 2 ^ lastPlace q := mul_le_mul_of_nonneg_right herror hplace.le
    _ = 2 ^ lastPlace q / 2 := by rw [one_div, inv_mul_eq_div]

theorem lastPlace_le {q : ℚ} (hpos : 0 < q) (hlt : q < 1) : lastPlace q ≤ -53 := by
  have hlog : Int.log 2 q < 0 := (Int.lt_zpow_iff_log_lt (by norm_num) hpos).mp (by simpa using hlt)
  rw [lastPlace, abs_of_pos hpos]
  omega

/-- A fraction is met to 54 binary places. -/
theorem nearest_le_add {q : ℚ} (hpos : 0 < q) (hlt : q < 1) : nearest q ≤ q + 2 ^ (-54 : ℤ) := by
  have herror := (abs_le.mp (abs_nearest_sub_le q)).2
  have hplace : (2 : ℚ) ^ lastPlace q ≤ 2 ^ (-53 : ℤ) :=
    zpow_le_zpow_right₀ (by norm_num) (lastPlace_le hpos hlt)
  calc nearest q
      ≤ q + 2 ^ lastPlace q / 2 := by rw [add_comm]; exact sub_le_iff_le_add.mp herror
    _ ≤ q + 2 ^ (-53 : ℤ) / 2 := add_le_add_right (div_le_div_of_nonneg_right hplace zero_le_two) q
    _ = q + 2 ^ (-54 : ℤ) := by norm_num

example : nearest (1 / 2) = 1 / 2 ∧ nearest (1 / 10) ≠ 1 / 10 := by decide +kernel

end RlmGraph.Lib.Doubles
