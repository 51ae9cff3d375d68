import CtsEngine.Foundation.SignificantDigits

/-!
# Rounding to a grid of ticks

A number is rounded down or up to a multiple of a tick, with a tolerance of a small part of a tick
by which it may miss the multiple, and the multiple is written with a number of significant digits.
Where two numbers bound a range, rounding the one over the other leads to what rounding the other
gives.
-/

namespace TickGrid

open SignificantDigits Option Int

/-- The multiple of the tick at a number or below it, up to a tolerance. -/
def below (ε tick x : ℚ) : ℤ := ⌊x / tick + ε⌋

/-- The multiple of the tick at a number or above it, up to a tolerance. -/
def above (ε tick x : ℚ) : ℤ := ⌈x / tick - ε⌉

/-- Rounding down. -/
def down (p : ℕ) (ε tick x : ℚ) : ℚ := round p (below ε tick x * tick)

/-- Rounding up. -/
def up (p : ℕ) (ε tick x : ℚ) : ℚ := round p (above ε tick x * tick)

variable {p : ℕ} {ε tick x y : ℚ}

lemma above_neg (ε tick x : ℚ) : above ε tick (-x) = -below ε tick x := by
  rw [above, below, ← ceil_neg]
  ring_nf

lemma up_neg (p : ℕ) (ε tick x : ℚ) : up p ε tick (-x) = -down p ε tick x := by
  rw [up, above_neg, down, ← round_neg]
  push_cast
  rw [neg_mul]

lemma down_neg (p : ℕ) (ε tick x : ℚ) : down p ε tick (-x) = -up p ε tick x := by
  rw [← neg_neg x, up_neg, neg_neg, neg_neg]

lemma below_mul_le (htick : 0 < tick) (ε x : ℚ) : below ε tick x * tick ≤ x + ε * tick := by
  have hfloor := floor_le (x / tick + ε)
  have hmul := mul_le_mul_of_nonneg_right hfloor htick.le
  rwa [add_mul, div_mul_cancel₀ x htick.ne'] at hmul

lemma lt_below_mul (htick : 0 < tick) (ε x : ℚ) : x + ε * tick < (below ε tick x + 1) * tick := by
  have hfloor := lt_floor_add_one (x / tick + ε)
  have hmul := mul_lt_mul_of_pos_right hfloor htick
  rwa [add_mul, div_mul_cancel₀ x htick.ne'] at hmul

lemma le_above_mul (htick : 0 < tick) (ε x : ℚ) : x - ε * tick ≤ above ε tick x * tick := by
  have hceil := le_ceil (x / tick - ε)
  have hmul := mul_le_mul_of_nonneg_right hceil htick.le
  rwa [sub_mul, div_mul_cancel₀ x htick.ne'] at hmul

/-- A multiple of the tick that is at least a number is at least its upper multiple. -/
lemma above_le (htick : 0 < tick) (hε : 0 ≤ ε) {n : ℤ} (h : x ≤ n * tick) : above ε tick x ≤ n := by
  rw [above, ceil_le]
  have := (div_le_iff₀ htick).mpr h
  linarith

lemma below_mono (htick : 0 < tick) (hxy : x ≤ y) : below ε tick x ≤ below ε tick y :=
  floor_le_floor (by have := div_le_div_of_nonneg_right hxy htick.le; linarith)

lemma above_mono (htick : 0 < tick) (hxy : x ≤ y) : above ε tick x ≤ above ε tick y :=
  ceil_le_ceil (by have := div_le_div_of_nonneg_right hxy htick.le; linarith)

section

variable (hp : 0 < p) (htick : 0 < tick)

include hp htick

lemma round_mul_mono {m n : ℤ} (hmn : m ≤ n) :
    round p (m * tick) ≤ round p (n * tick) :=
  round_mono hp (mul_le_mul_of_nonneg_right (by exact_mod_cast hmn) htick.le)

lemma round_mul_eq (hε : ε ≤ 1 / 20) {m n : ℤ} (hmn : m ≤ n)
    (hover : y < round p (m * tick)) (hreach : n * tick ≤ y + ε * tick) :
    round p (n * tick) = round p (m * tick) := by
  rcases hmn.eq_or_lt with rfl | hlt
  · rfl
  have hstep : (m : ℚ) * tick + tick ≤ n * tick := by
    have : (m : ℚ) + 1 ≤ n := by exact_mod_cast hlt
    nlinarith
  rcases le_or_gt ((n : ℚ) * tick) (round p (m * tick)) with hle | hgt
  · refine le_antisymm ?_ (round_mul_mono hp htick hmn)
    rw [← round_round hp (m * tick)]
    exact round_mono hp hle
  · refine round_eq_of_nearer_right hp ?_ hgt.le ?_ <;> nlinarith

lemma down_eq_of_lt (hε : ε ≤ 1 / 20) (hxy : x ≤ y)
    (hover : y < down p ε tick x) : down p ε tick y = down p ε tick x :=
  round_mul_eq hp htick hε (below_mono htick hxy) hover (below_mul_le htick ε y)

lemma up_eq_of_lt (hε : ε ≤ 1 / 20) (hxy : x ≤ y)
    (hunder : up p ε tick y < x) : up p ε tick x = up p ε tick y := by
  have hneg := down_eq_of_lt (p := p) hp htick hε (neg_le_neg hxy)
    (by rw [down_neg]; exact neg_lt_neg hunder)
  rwa [down_neg, down_neg, neg_inj] at hneg

lemma eq_up_of_lt (hε : ε ≤ 1 / 20) (hε0 : 0 ≤ ε) (hxy : x ≤ y)
    (hunder : down p ε tick x < x) (hover : y < up p ε tick x) :
    (if down p ε tick y < x then up p ε tick y else down p ε tick y) = up p ε tick x := by
  rcases le_or_gt (above ε tick x) (below ε tick y) with hle | hgt
  · have hsame : down p ε tick y = up p ε tick x :=
      round_mul_eq hp htick hε hle hover (below_mul_le htick ε y)
    rw [if_neg (by linarith), hsame]
  · -- `y` reaches no multiple that `x` does not reach.
    have hbelow : below ε tick y ≤ below ε tick x := by
      refine le_trans (by omega : below ε tick y ≤ above ε tick x - 1) ?_
      have hceil := ceil_lt_add_one (x / tick - ε)
      rw [below, le_floor]
      push_cast
      rw [above]
      linarith
    have hdown : down p ε tick y < x := (round_mul_mono hp htick hbelow).trans_lt hunder
    have habove : above ε tick y ≤ above ε tick x := by
      have hfloor := lt_floor_add_one (y / tick + ε)
      have hnext : (⌊y / tick + ε⌋ : ℚ) + 1 ≤ above ε tick x := by exact_mod_cast hgt
      rw [above, ceil_le]
      linarith
    rw [if_pos hdown, up, up, le_antisymm habove (above_mono htick hxy)]

end

/-- Round down, or up where rounding down leads below the lower bound. -/
def within (p : ℕ) (ε tick : ℚ) (lower : Option ℚ) (x : ℚ) : ℚ :=
  if lower.any fun bound => down p ε tick x < bound then up p ε tick x else down p ε tick x

lemma within_eq_of_lt (hp : 0 < p) (htick : 0 < tick) (hε : ε ≤ 1 / 20) (hε0 : 0 ≤ ε) (hxy : x ≤ y)
    (hover : y < within p ε tick (some x) x) :
    within p ε tick (some x) y = within p ε tick (some x) x := by
  simp only [within, any_some, decide_eq_true_eq] at hover ⊢
  by_cases hunder : down p ε tick x < x
  · rw [if_pos hunder] at hover ⊢
    exact eq_up_of_lt hp htick hε hε0 hxy hunder hover
  · rw [if_neg hunder] at hover ⊢
    have hsame := down_eq_of_lt hp htick hε hxy hover
    rw [hsame, if_neg hunder]

lemma within_eq_of_gt (hp : 0 < p) (htick : 0 < tick) (hε : ε ≤ 1 / 20) (hxy : x ≤ y)
    (hunder : within p ε tick (some x) y < x) :
    within p ε tick (some x) x = within p ε tick (some x) y := by
  simp only [within, any_some, decide_eq_true_eq] at hunder ⊢
  split_ifs at hunder with hdown
  · have hmono : down p ε tick x ≤ down p ε tick y := round_mul_mono hp htick (below_mono htick hxy)
    rw [if_pos hdown, if_pos (hmono.trans_lt hdown)]
    exact up_eq_of_lt hp htick hε hxy hunder
  · exact absurd hunder hdown

lemma above_le_below_add_one (htick : 0 < tick) (hε : 0 ≤ ε) (x : ℚ) :
    above ε tick x ≤ below ε tick x + 1 := by
  refine above_le htick hε ?_
  have := lt_below_mul htick ε x
  have := mul_nonneg hε htick.le
  push_cast
  linarith

lemma within_bounds (hp : 0 < p) (htick : 0 < tick) (hε : 0 ≤ ε) {lower upper : Option ℚ}
    (hlow : ∀ bound ∈ lower, bound ≤ x) (hup : ∀ bound ∈ upper, x ≤ bound)
    (hroom : ∃ m : ℤ, (∀ bound ∈ lower, bound ≤ round p (m * tick)) ∧
      ∀ bound ∈ upper, round p (m * tick) ≤ bound) :
    (∃ n : ℤ, within p ε tick lower x = round p (n * tick)) ∧
      (∀ bound ∈ lower, round p (bound - ε * tick) ≤ within p ε tick lower x) ∧
      ∀ bound ∈ upper, within p ε tick lower x ≤ round p (bound + ε * tick) := by
  obtain ⟨m, hm, hm'⟩ := hroom
  have hpart := mul_nonneg hε htick.le
  rw [within]
  split_ifs with hunder
  · obtain ⟨bound, hbd, hdown⟩ := any_eq_true _ _ |>.mp hunder
    have hbelow : below ε tick x < m := by
      by_contra hle
      have hmono := round_mul_mono (p := p) hp htick (not_lt.mp hle)
      exact absurd ((hm bound hbd).trans hmono) (not_le.mpr (of_decide_eq_true hdown))
    have habove : above ε tick x ≤ m :=
      (above_le_below_add_one htick hε x).trans (add_one_le_of_lt hbelow)
    refine ⟨⟨_, rfl⟩, fun other hoth => ?_, fun other hoth => ?_⟩
    · refine round_mono hp ?_
      linarith [le_above_mul htick ε x, hlow other hoth]
    · have hwrote := hm' other hoth
      calc up p ε tick x ≤ round p (m * tick) := round_mul_mono hp htick habove
        _ = round p (round p (m * tick)) := (round_round hp _).symm
        _ ≤ round p (other + ε * tick) := round_mono hp (by linarith)
  · refine ⟨⟨_, rfl⟩, fun other hoth => ?_, fun other hoth => ?_⟩
    · have hge : other ≤ down p ε tick x := by
        by_contra hlt
        exact hunder ((any_eq_true _ _).mpr ⟨other, hoth, by simpa using hlt⟩)
      calc round p (other - ε * tick) ≤ round p (down p ε tick x) := round_mono hp (by linarith)
        _ = down p ε tick x := round_round hp _
    · refine round_mono hp ?_
      linarith [below_mul_le htick ε x, hup other hoth]

end TickGrid
