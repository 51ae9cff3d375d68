import Mathlib.Data.Rat.Floor

/-!
# Rounding to decimal places

A number is rounded to the nearest multiple of a small unit, given by how many units make one.
-/

namespace DecimalPlaces

variable {scale x y : ℚ}

/-- The multiple of `1 / scale` nearest to a number, the larger one half-way between two. -/
def nearest (scale x : ℚ) : ℚ := ⌊x * scale + 1 / 2⌋ / scale

section

variable (hscale : 0 < scale)

include hscale

lemma nearest_intCast_div (n : ℤ) : nearest scale (n / scale) = n / scale := by
  unfold nearest
  rw [div_mul_cancel₀ _ hscale.ne', Int.floor_intCast_add, show ⌊(1 / 2 : ℚ)⌋ = 0 by norm_num,
    add_zero]

lemma nearest_nearest (x : ℚ) :
    nearest scale (nearest scale x) = nearest scale x :=
  nearest_intCast_div hscale _

lemma nearest_zero : nearest scale 0 = 0 := by
  simpa using nearest_intCast_div hscale 0

lemma nearest_mono (h : x ≤ y) : nearest scale x ≤ nearest scale y := by
  have hle : x * scale + 1 / 2 ≤ y * scale + 1 / 2 := by
    linarith [mul_le_mul_of_nonneg_right h hscale.le]
  exact div_le_div_of_nonneg_right (Int.cast_le.mpr (Int.floor_le_floor hle)) hscale.le

lemma nearest_nonneg (h : 0 ≤ x) : 0 ≤ nearest scale x :=
  (nearest_zero hscale).symm.le.trans (nearest_mono hscale h)

lemma nearest_sub_nearest (x y : ℚ) :
    nearest scale (x - nearest scale y) = nearest scale x - nearest scale y := by
  have hfloor : ⌊(x - nearest scale y) * scale + 1 / 2⌋ =
      ⌊x * scale + 1 / 2⌋ - ⌊y * scale + 1 / 2⌋ := by
    rw [← Int.floor_sub_intCast, nearest, sub_mul, div_mul_cancel₀ _ hscale.ne']
    ring_nf
  rw [nearest, hfloor, Int.cast_sub, sub_div]
  rfl

end

end DecimalPlaces
