import CtsEngine.Foundation.DecimalPlaces
import Mathlib.Tactic.Positivity

/-!
# Rounding to twelve decimals

The source keeps quantities and amounts on the grid of multiples of `10 ^ (-12)` with
`Number(value.toFixed(12))`.  Read in exact arithmetic, `toFixed` rounds half up in absolute value
below `10 ^ 21` and leaves larger numbers alone.
-/

namespace CtsEngine

open Int

/-- Number of grid points in one unit. -/
def gridScale : ℚ := 10 ^ 12

variable (value : ℚ)

/-- `Number(value.toFixed(12))` for a non-negative value. -/
def toFixedNonneg : ℚ :=
  if value < 10 ^ 21 then (⌊value * gridScale + 1 / 2⌋ : ℤ) / gridScale else value

/-- `Number(value.toFixed(12))`. -/
def toFixed12 : ℚ :=
  if value < 0 then -toFixedNonneg (-value) else toFixedNonneg value

/-- `Number(Math.max(0, value).toFixed(12))`. -/
def roundQuantity : ℚ := toFixedNonneg (max 0 value)

/-- A finite positive number is kept, everything else counts as zero. -/
def finiteNonNegative : ℚ := max 0 value

/-- The value is a multiple of `10 ^ (-12)`. -/
def OnGrid : Prop := ∃ n : ℤ, value = n / gridScale

lemma gridScale_pos : 0 < gridScale := by
  unfold gridScale
  positivity

instance (value : ℚ) : Decidable (OnGrid value) :=
  decidable_of_iff ((value * gridScale).den = 1) (by
    have hscale := gridScale_pos.ne'
    constructor
    · intro hden
      refine ⟨(value * gridScale).num, ?_⟩
      rw [eq_div_iff hscale]
      exact (Rat.den_eq_one_iff _).mp hden |>.symm
    · rintro ⟨n, rfl⟩
      rw [div_mul_cancel₀ _ hscale]
      exact Rat.den_intCast n)

@[simp] lemma onGrid_zero : OnGrid 0 := ⟨0, by simp⟩

variable {x : ℚ}

lemma OnGrid.add {y : ℚ} (hx : OnGrid x) (hy : OnGrid y) : OnGrid (x + y) := by
  obtain ⟨m, rfl⟩ := hx
  obtain ⟨n, rfl⟩ := hy
  exact ⟨m + n, by push_cast; ring⟩

lemma OnGrid.sub {y : ℚ} (hx : OnGrid x) (hy : OnGrid y) : OnGrid (x - y) := by
  obtain ⟨m, rfl⟩ := hx
  obtain ⟨n, rfl⟩ := hy
  exact ⟨m - n, by push_cast; ring⟩

lemma onGrid_intCast (n : ℤ) : OnGrid n :=
  ⟨n * 10 ^ 12, by
    unfold gridScale
    push_cast
    ring⟩

lemma toFixedNonneg_of_onGrid (hx : OnGrid x) : toFixedNonneg x = x := by
  unfold toFixedNonneg
  split
  · obtain ⟨n, rfl⟩ := hx
    exact DecimalPlaces.nearest_intCast_div gridScale_pos n
  · rfl

/-- Rounding leaves the points of the grid alone, whatever their sign. -/
lemma toFixed12_of_onGrid (hx : OnGrid x) : toFixed12 x = x := by
  unfold toFixed12
  split
  · have hneg : OnGrid (-x) := by simpa using onGrid_zero.sub hx
    rw [toFixedNonneg_of_onGrid hneg, neg_neg]
  · exact toFixedNonneg_of_onGrid hx

lemma abs_toFixedNonneg_sub_le (x : ℚ) : |toFixedNonneg x - x| ≤ 1 / (2 * gridScale) := by
  have hscale := gridScale_pos
  unfold toFixedNonneg
  split
  · have hfloor := floor_le (x * gridScale + 1 / 2)
    have hlt := lt_floor_add_one (x * gridScale + 1 / 2)
    have hdiff : (⌊x * gridScale + 1 / 2⌋ : ℚ) / gridScale - x =
        (⌊x * gridScale + 1 / 2⌋ - x * gridScale) / gridScale := by
      field_simp
    have hhalf : 1 / (2 * gridScale) = (1 / 2) / gridScale := by
      field_simp
    rw [hdiff, abs_div, hhalf]
    refine div_le_div_of_nonneg_right (abs_le.mpr ⟨?_, ?_⟩) hscale.le <;> linarith
  · rw [sub_self]
    positivity

lemma abs_toFixed12_sub_le (x : ℚ) : |toFixed12 x - x| ≤ 1 / (2 * gridScale) := by
  unfold toFixed12
  split
  · rw [show -toFixedNonneg (-x) - x = -(toFixedNonneg (-x) - -x) by ring, abs_neg]
    exact abs_toFixedNonneg_sub_le (-x)
  · exact abs_toFixedNonneg_sub_le x

lemma toFixedNonneg_nonneg (hx : 0 ≤ x) : 0 ≤ toFixedNonneg x := by
  unfold toFixedNonneg
  split
  · exact DecimalPlaces.nearest_nonneg gridScale_pos hx
  · exact hx

lemma roundQuantity_nonneg (x : ℚ) : 0 ≤ roundQuantity x := toFixedNonneg_nonneg (le_max_left ..)

lemma toFixed12_lt_toFixed12 {y : ℚ} (hx : 0 ≤ x) (h : x + 1 / gridScale ≤ y) :
    toFixed12 x < toFixed12 y := by
  have hscale := gridScale_pos
  have hstep : 0 < 1 / gridScale := by positivity
  have hgrow : x * gridScale + 1 ≤ y * gridScale := by
    calc x * gridScale + 1 = (x + 1 / gridScale) * gridScale := by field_simp
      _ ≤ y * gridScale := mul_le_mul_of_nonneg_right h hscale.le
  have hxfloo : toFixedNonneg x < x + 1 / gridScale := by
    unfold toFixedNonneg
    split
    · rw [div_lt_iff₀ hscale]
      have hle := floor_le (x * gridScale + 1 / 2)
      have hmul : (x + 1 / gridScale) * gridScale = x * gridScale + 1 := by field_simp
      linarith
    · linarith
  unfold toFixed12
  rw [if_neg (not_lt.mpr hx), if_neg (by linarith)]
  by_cases hy : y < 10 ^ 21
  · have hx' : x < 10 ^ 21 := by linarith
    have hfloor : ⌊x * gridScale + 1 / 2⌋ < ⌊y * gridScale + 1 / 2⌋ := by
      rw [lt_iff_add_one_le, le_floor]
      push_cast
      have hle := floor_le (x * gridScale + 1 / 2)
      linarith
    unfold toFixedNonneg
    rw [if_pos hx', if_pos hy]
    exact div_lt_div_of_pos_right (by exact_mod_cast hfloor) hscale
  · have hrnd : toFixedNonneg y = y := if_neg hy
    linarith

lemma finiteNonNegative_of_nonneg (h0 : 0 ≤ x) : finiteNonNegative x = x := max_eq_right h0

end CtsEngine
