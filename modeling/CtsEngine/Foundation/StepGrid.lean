import Mathlib.Data.Rat.Floor

/-!
# Multiples of a step

A number is rounded down to a multiple of a step, or up, where rounding up stays at the multiple
below a number that exceeds it by a small part of itself only.  Both roundings keep the order and
leave alone the multiples of the step, and these two facts decide where a number is taken.
-/

namespace StepGrid

/-- Rounding down to a multiple of a step. -/
def lower (step x : ℚ) : ℚ := ⌊x / step⌋ * step

/-- A number exceeds the positive multiple below it by at most the part `ε` of itself. -/
def Near (ε step x : ℚ) : Prop := 0 < lower step x ∧ x - lower step x ≤ ε * max x (lower step x)

instance (ε step x : ℚ) : Decidable (Near ε step x) := inferInstanceAs (Decidable (_ ∧ _))

/-- Rounding up to a multiple of a step. -/
def upper (ε step x : ℚ) : ℚ :=
  if lower step x = x ∨ Near ε step x then lower step x else lower step x + step

def IsMultiple (step x : ℚ) : Prop := ∃ n : ℤ, x = n * step

variable {ε step x y m : ℚ}

lemma isMultiple_lower (step x : ℚ) : IsMultiple step (lower step x) := ⟨_, rfl⟩

lemma isMultiple_upper (ε step x : ℚ) : IsMultiple step (upper ε step x) := by
  unfold upper
  split_ifs
  · exact isMultiple_lower step x
  · exact ⟨⌊x / step⌋ + 1, by rw [lower]; push_cast; ring⟩

section

variable (hstep : 0 < step)

include hstep

lemma lower_le (x : ℚ) : lower step x ≤ x := by
  have := mul_le_mul_of_nonneg_right (Int.floor_le (x / step)) hstep.le
  rwa [div_mul_cancel₀ x hstep.ne'] at this

lemma lt_lower_add (x : ℚ) : x < lower step x + step := by
  have := mul_lt_mul_of_pos_right (Int.lt_floor_add_one (x / step)) hstep
  rwa [div_mul_cancel₀ x hstep.ne', add_mul, one_mul] at this

lemma lower_of_isMultiple (h : IsMultiple step x) : lower step x = x := by
  obtain ⟨n, rfl⟩ := h
  rw [lower, mul_div_cancel_right₀ _ hstep.ne', Int.floor_intCast]

lemma upper_of_isMultiple (h : IsMultiple step x) : upper ε step x = x := by
  rw [upper, if_pos (.inl (lower_of_isMultiple hstep h)), lower_of_isMultiple hstep h]

lemma lower_mono (hxy : x ≤ y) : lower step x ≤ lower step y := by
  have hfloor := Int.floor_le_floor (div_le_div_of_nonneg_right hxy hstep.le)
  exact mul_le_mul_of_nonneg_right (by exact_mod_cast hfloor) hstep.le

lemma le_lower (hm : IsMultiple step m) (h : m ≤ x) : m ≤ lower step x := by
  rw [← lower_of_isMultiple hstep hm]
  exact lower_mono hstep h

lemma add_step_le (hx : IsMultiple step x) (hy : IsMultiple step y)
    (hxy : x < y) : x + step ≤ y := by
  obtain ⟨n, rfl⟩ := hx
  obtain ⟨k, rfl⟩ := hy
  have hnk : n + 1 ≤ k := by exact_mod_cast lt_of_mul_lt_mul_right hxy hstep.le
  have hcast : (n : ℚ) + 1 ≤ k := by exact_mod_cast hnk
  nlinarith

lemma near_iff : Near ε step x ↔ 0 < lower step x ∧ x - lower step x ≤ ε * x := by
  rw [Near, max_eq_left (lower_le hstep x)]

lemma upper_cases (ε x : ℚ) :
    upper ε step x = lower step x ∧ (lower step x = x ∨ Near ε step x) ∨
      upper ε step x = lower step x + step ∧ lower step x < x ∧ ¬Near ε step x := by
  by_cases h : lower step x = x ∨ Near ε step x
  · exact .inl ⟨if_pos h, h⟩
  · exact .inr ⟨if_neg h, lt_of_le_of_ne (lower_le hstep x) fun heq => h (.inl heq),
      fun hnear => h (.inr hnear)⟩

lemma lower_le_upper (ε x : ℚ) : lower step x ≤ upper ε step x := by
  rcases upper_cases hstep ε x with ⟨heq, -⟩ | ⟨heq, -⟩ <;> rw [heq]
  linarith

lemma le_upper (hε : 0 ≤ ε) (hx : 0 ≤ x) : x - ε * x ≤ upper ε step x := by
  have hpart := mul_nonneg hε hx
  rcases upper_cases hstep ε x with ⟨heq, hkeep⟩ | ⟨heq, -⟩ <;> rw [heq]
  · rcases hkeep with hkeep | hnear
    · linarith
    · linarith [((near_iff hstep).mp hnear).2]
  · linarith [lt_lower_add hstep x]

lemma upper_pos (hx : 0 < x) : 0 < upper ε step x := by
  rcases upper_cases hstep ε x with ⟨heq, hkeep⟩ | ⟨heq, -⟩ <;> rw [heq]
  · rcases hkeep with hkeep | hnear
    · rwa [hkeep]
    · exact hnear.1
  · linarith [lt_lower_add hstep x]

lemma upper_mono (hε1 : ε ≤ 1) (hxy : x ≤ y) :
    upper ε step x ≤ upper ε step y := by
  have hlow := lower_mono hstep hxy
  rcases upper_cases hstep ε x with ⟨heq, -⟩ | ⟨heq, hlt, hfar⟩ <;> rw [heq]
  · exact hlow.trans (lower_le_upper hstep ε y)
  rcases hlow.eq_or_lt with hsame | hless
  · rcases upper_cases hstep ε y with ⟨heq', hkeep⟩ | ⟨heq', -⟩ <;> rw [heq']
    · -- What is near for `y` would be near for `x`.
      exfalso
      rcases hkeep with hkeep | hnear
      · linarith
      · rw [near_iff hstep] at hfar hnear
        rw [← hsame] at hnear
        refine hfar ⟨hnear.1, ?_⟩
        nlinarith
    · linarith
  · exact (add_step_le hstep (isMultiple_lower step x) (isMultiple_lower step y) hless).trans
      (lower_le_upper hstep ε y)

lemma upper_le (hε1 : ε ≤ 1) (hm : IsMultiple step m) (h : x ≤ m) :
    upper ε step x ≤ m := by
  rw [← upper_of_isMultiple (ε := ε) hstep hm]
  exact upper_mono hstep hε1 h

lemma isGreatest_lower (x : ℚ) :
    IsGreatest {m | IsMultiple step m ∧ m ≤ x} (lower step x) :=
  ⟨⟨isMultiple_lower step x, lower_le hstep x⟩, fun _ hm => le_lower hstep hm.1 hm.2⟩

end

lemma upper_of_near (h : Near ε step x) : upper ε step x = lower step x := if_pos (.inr h)

lemma isLeast_upper (hstep : 0 < step) (hε1 : ε ≤ 1) (h : ¬Near ε step x) :
    IsLeast {m | IsMultiple step m ∧ x ≤ m} (upper ε step x) := by
  refine ⟨⟨isMultiple_upper ε step x, ?_⟩, fun m hm => upper_le hstep hε1 hm.1 hm.2⟩
  rcases upper_cases hstep ε x with ⟨heq, hkeep⟩ | ⟨heq, -⟩ <;> rw [heq]
  · exact (hkeep.resolve_right h).ge
  · exact (lt_lower_add hstep x).le

lemma upper_max_upper (hstep : 0 < step) (hε1 : ε ≤ 1) (x least : ℚ) :
    upper ε step (max (upper ε step (max x least)) least) = upper ε step (max x least) := by
  have hmult := isMultiple_upper ε step (max x least)
  rcases le_total least (upper ε step (max x least)) with hle | hle
  · rw [max_eq_left hle, upper_of_isMultiple hstep hmult]
  · rw [max_eq_right hle]
    refine (upper_mono hstep hε1 (le_max_right x least)).antisymm ?_
    exact (le_lower hstep hmult hle).trans (lower_le_upper hstep ε least)

end StepGrid
