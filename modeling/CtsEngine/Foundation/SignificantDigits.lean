import Mathlib.Algebra.Order.Field.Power
import Mathlib.Data.Int.Log
import Mathlib.Data.Rat.Floor
import Mathlib.Tactic.Positivity

/-!
# Rounding to significant digits

A number is rounded to a fixed number of decimal digits, halves away from zero.  Rounding is odd and
monotone, leaves alone what has so many digits, and takes to the same number what lies closer to a
rounded number than something else that was rounded to it.
-/

namespace SignificantDigits

open Int

/-- The value of the last of `p` significant digits of a positive number. -/
def unit (p : ℕ) (x : ℚ) : ℚ := 10 ^ (log 10 x + 1 - p)

/-- The `p` significant digits of a positive number, as an integer. -/
def digits (p : ℕ) (x : ℚ) : ℤ := ⌊x / unit p x + 1 / 2⌋

/-- A number rounded to `p` significant digits. -/
def round (p : ℕ) (x : ℚ) : ℚ :=
  if x < 0 then -(digits p (-x) * unit p (-x)) else digits p x * unit p x

variable {p : ℕ} {x y z : ℚ}

lemma unit_pos (p : ℕ) (x : ℚ) : 0 < unit p x := by
  unfold unit
  positivity

lemma round_of_nonneg (hx : 0 ≤ x) : round p x = digits p x * unit p x := if_neg hx.not_gt

@[simp] lemma round_zero (p : ℕ) : round p 0 = 0 := by
  rw [round_of_nonneg le_rfl, digits]
  norm_num

lemma round_neg (p : ℕ) (x : ℚ) : round p (-x) = -round p x := by
  rcases lt_trichotomy x 0 with hx | rfl | hx
  · rw [round_of_nonneg (by linarith), round, if_pos hx, neg_neg]
  · simp
  · rw [round_of_nonneg hx.le, round, if_pos (by linarith), neg_neg]

lemma unit_bounds (hp : 0 < p) (hx : 0 < x) :
    10 ^ (p - 1) * unit p x ≤ x ∧ x < 10 ^ p * unit p x := by
  have hten : (10 : ℚ) ≠ 0 := by norm_num
  have hlow := zpow_log_le_self (b := 10) (by norm_num) hx
  have hhigh := lt_zpow_succ_log_self (b := 10) (by norm_num) x
  have hfst : ((p - 1 : ℕ) : ℤ) + (log 10 x + 1 - p) = log 10 x := by omega
  have hlast : (p : ℤ) + (log 10 x + 1 - p) = log 10 x + 1 := by omega
  rw [unit, ← zpow_natCast, ← zpow_natCast, ← zpow_add₀ hten, ← zpow_add₀ hten, hfst, hlast]
  exact ⟨hlow, hhigh⟩

lemma digits_bounds (hp : 0 < p) (hx : 0 < x) :
    10 ^ (p - 1) ≤ digits p x ∧ digits p x ≤ 10 ^ p := by
  have hunit := unit_pos p x
  obtain ⟨hlow, hhigh⟩ := unit_bounds hp hx
  rw [← le_div_iff₀ hunit] at hlow
  rw [← div_lt_iff₀ hunit] at hhigh
  constructor
  · rw [digits, le_floor]
    push_cast
    linarith
  · rw [digits, ← lt_add_one_iff, floor_lt]
    push_cast
    linarith

lemma round_near (hx : 0 < x) : round p x - unit p x / 2 ≤ x ∧ x < round p x + unit p x / 2 := by
  have hunit := unit_pos p x
  have hlow := floor_le (x / unit p x + 1 / 2)
  have hhigh := lt_floor_add_one (x / unit p x + 1 / 2)
  have hsplit : x = x / unit p x * unit p x := (div_mul_cancel₀ x hunit.ne').symm
  rw [round_of_nonneg hx.le, digits]
  constructor
  · nlinarith
  · nlinarith

/-- Rounding moves a number by at most half a unit of its absolute value. -/
lemma abs_round_sub_le (p : ℕ) (x : ℚ) : |round p x - x| ≤ unit p |x| / 2 := by
  rcases lt_trichotomy x 0 with hx | rfl | hx
  · obtain ⟨hlow, hhigh⟩ := round_near (p := p) (by linarith : 0 < -x)
    rw [round_neg] at hlow hhigh
    rw [abs_of_neg hx, abs_le]
    constructor <;> linarith
  · rw [round_zero, sub_zero]
    exact (half_pos (unit_pos p 0)).le
  · obtain ⟨hlow, hhigh⟩ := round_near (p := p) hx
    rw [abs_of_pos hx, abs_le]
    constructor <;> linarith

lemma round_pos (hp : 0 < p) (hx : 0 < x) : 0 < round p x := by
  rw [round_of_nonneg hx.le]
  have hone : (1 : ℤ) ≤ digits p x := (one_le_pow₀ (by norm_num)).trans (digits_bounds hp hx).1
  have hcast : (0 : ℚ) < digits p x := by exact_mod_cast hone
  exact mul_pos hcast (unit_pos p x)

lemma unit_le_unit (hx : 0 < x) (hxy : x ≤ y) : unit p x ≤ unit p y := by
  refine zpow_le_zpow_right₀ (by norm_num) ?_
  have := log_mono_right (b := 10) hx hxy
  omega

/-- Numbers of at most `p` digits are not rounded. -/
lemma round_of_digits (hp : 0 < p) {n k : ℤ} (hn : |n| ≤ 10 ^ p) :
    round p (n * (10 : ℚ) ^ k) = n * (10 : ℚ) ^ k := by
  have hpos : ∀ {m : ℤ}, 0 < m → m ≤ 10 ^ p → round p (m * (10 : ℚ) ^ k) = m * (10 : ℚ) ^ k := by
    intro m hm hle
    have hx : 0 < (m : ℚ) * 10 ^ k := by positivity
    have hten : (10 : ℚ) ≠ 0 := by norm_num
    obtain ⟨j, hj⟩ : ∃ j : ℤ, (m : ℚ) * 10 ^ k = j * unit p (m * 10 ^ k) := by
      have hlog : log 10 ((m : ℚ) * 10 ^ k) ≤ p + k := by
        have hle' : (m : ℚ) * 10 ^ k ≤ ((10 : ℕ) : ℚ) ^ ((p : ℤ) + k) := by
          rw [zpow_add₀ (by norm_num)]
          have hcast : (m : ℚ) ≤ 10 ^ p := by exact_mod_cast hle
          exact mul_le_mul_of_nonneg_right hcast (by positivity)
        have hmono := log_mono_right (b := 10) hx hle'
        rwa [log_zpow (by norm_num)] at hmono
      rcases hlog.lt_or_eq with hlt | heq
      · refine ⟨m * 10 ^ (k - (log 10 ((m : ℚ) * 10 ^ k) + 1 - p)).toNat, ?_⟩
        rw [unit]
        push_cast
        rw [mul_assoc, ← zpow_natCast, ← zpow_add₀ hten]
        congr 2
        omega
      · have hlow := zpow_log_le_self (b := 10) (by norm_num) hx
        rw [heq, zpow_add₀ (by norm_num)] at hlow
        have hsame : (m : ℚ) = 10 ^ p := by
          have hcast : (m : ℚ) ≤ 10 ^ p := by exact_mod_cast hle
          exact le_antisymm hcast (le_of_mul_le_mul_right hlow (by positivity))
        refine ⟨10 ^ (p - 1), ?_⟩
        rw [unit, heq, hsame]
        push_cast
        rw [← zpow_natCast, ← zpow_natCast, ← zpow_add₀ hten, ← zpow_add₀ hten]
        push_cast [Nat.cast_sub (Nat.one_le_iff_ne_zero.mpr hp.ne')]
        ring_nf
    have hunit := unit_pos p ((m : ℚ) * 10 ^ k)
    rw [round_of_nonneg hx.le, digits]
    conv_rhs => rw [hj]
    congr 2
    rw [floor_eq_iff]
    have hquot : (m : ℚ) * 10 ^ k / unit p (m * 10 ^ k) = j := by
      rw [div_eq_iff hunit.ne']
      exact hj
    constructor <;> linarith
  rcases lt_trichotomy n 0 with hneg | rfl | hn'
  · have habs := hpos (m := -n) (by omega) (by rwa [abs_of_neg hneg] at hn)
    push_cast at habs
    rwa [neg_mul, round_neg, neg_inj] at habs
  · simp
  · exact hpos hn' (by rwa [abs_of_pos hn'] at hn)

@[simp] lemma round_round (hp : 0 < p) (x : ℚ) : round p (round p x) = round p x := by
  have hpos : ∀ {x : ℚ}, 0 < x → round p (round p x) = round p x := by
    intro x hx
    obtain ⟨hlow, hhigh⟩ := digits_bounds hp hx
    rw [round_of_nonneg hx.le]
    refine round_of_digits hp ?_
    rwa [abs_of_nonneg ((by positivity : (0 : ℤ) ≤ 10 ^ (p - 1)).trans hlow)]
  rcases lt_trichotomy x 0 with hx | rfl | hx
  · have hneg := hpos (by linarith : 0 < -x)
    rwa [round_neg, round_neg, neg_inj] at hneg
  · simp
  · exact hpos hx

lemma round_mono (hp : 0 < p) (hxy : x ≤ y) : round p x ≤ round p y := by
  have hpos : ∀ {x y : ℚ}, 0 < x → x ≤ y → round p x ≤ round p y := by
    intro x y hx hxy
    have hy := hx.trans_le hxy
    rw [round_of_nonneg hx.le, round_of_nonneg hy.le]
    rcases (log_mono_right (b := 10) hx hxy).lt_or_eq with hlt | heq
    · have htop : (digits p x : ℚ) * unit p x ≤ 10 ^ p * unit p x := by
        have := (digits_bounds hp hx).2
        exact mul_le_mul_of_nonneg_right (by exact_mod_cast this) (unit_pos p x).le
      have hbott : (10 : ℚ) ^ (p - 1) * unit p y ≤ digits p y * unit p y := by
        have := (digits_bounds hp hy).1
        exact mul_le_mul_of_nonneg_right (by exact_mod_cast this) (unit_pos p y).le
      have hbetw : (10 : ℚ) ^ p * unit p x ≤ 10 ^ (p - 1) * unit p y := by
        rw [unit, unit, ← zpow_natCast, ← zpow_natCast, ← zpow_add₀ (by norm_num),
          ← zpow_add₀ (by norm_num)]
        refine zpow_le_zpow_right₀ (by norm_num) ?_
        omega
      linarith
    · have hunit : unit p x = unit p y := by rw [unit, unit, heq]
      rw [digits, digits, ← hunit]
      refine mul_le_mul_of_nonneg_right ?_ (unit_pos p x).le
      exact_mod_cast floor_le_floor (by gcongr; exact (unit_pos p x).le)
  have hsign : ∀ {x : ℚ}, 0 ≤ x → 0 ≤ round p x := by
    intro x hx
    rcases hx.lt_or_eq with hx | rfl
    · exact (round_pos hp hx).le
    · simp
  rcases lt_or_ge 0 x with hx | hx
  · exact hpos hx hxy
  rcases lt_or_ge y 0 with hy | hy
  · have hneg := hpos (by linarith : 0 < -y) (by linarith : -y ≤ -x)
    rw [round_neg, round_neg] at hneg
    linarith
  · have hleft := hsign (by linarith : 0 ≤ -x)
    rw [round_neg] at hleft
    linarith [hsign hy]

/-! ## What is rounded to the same number -/

lemma unit_eq (hz : 0 < z) {k : ℤ} (hlow : (10 : ℚ) ^ (k + p - 1) ≤ z)
    (hhigh : z < (10 : ℚ) ^ (k + p)) : unit p z = 10 ^ k := by
  have hlow' : k + p - 1 ≤ log 10 z :=
    (zpow_le_iff_le_log (b := 10) (by norm_num) hz).mp (by exact_mod_cast hlow)
  have hhigh' : log 10 z < k + p :=
    (lt_zpow_iff_log_lt (b := 10) (by norm_num) hz).mp (by exact_mod_cast hhigh)
  rw [unit]
  congr 1
  omega

lemma zpow_eq_mul_unit (hp : 0 < p) (x : ℚ) :
    (10 : ℚ) ^ (log 10 x + 1 - p + p - 1) = 10 ^ (p - 1) * unit p x ∧
      (10 : ℚ) ^ (log 10 x + 1 - p + p) = 10 ^ p * unit p x := by
  rw [unit, ← zpow_natCast, ← zpow_natCast, ← zpow_add₀ (by norm_num), ← zpow_add₀ (by norm_num)]
  constructor <;> congr 1 <;> omega

lemma round_eq_mul (hz : 0 ≤ z) {m : ℤ} (hlow : (m - 1 / 2) * unit p z ≤ z)
    (hhigh : z < (m + 1 / 2) * unit p z) : round p z = m * unit p z := by
  have hunit := unit_pos p z
  rw [← le_div_iff₀ hunit] at hlow
  rw [← div_lt_iff₀ hunit] at hhigh
  rw [round_of_nonneg hz, digits]
  congr 2
  rw [floor_eq_iff]
  constructor <;> linarith

section

variable (hp : 0 < p) (hx : 0 < x)

include hp hx

lemma exists_digits (hrnd : round p x = x) :
    ∃ m : ℤ, x = m * unit p x ∧ 10 ^ (p - 1) ≤ m ∧ m < 10 ^ p := by
  obtain ⟨hlow, -⟩ := digits_bounds hp hx
  have hhigh := (unit_bounds hp hx).2
  have hdigs : x = digits p x * unit p x := by rw [← round_of_nonneg hx.le, hrnd]
  refine ⟨digits p x, hdigs, hlow, ?_⟩
  rw [hdigs] at hhigh
  have hunit : unit p (digits p x * unit p x) = unit p x := by rw [← hdigs]
  rw [hunit] at hhigh
  exact_mod_cast lt_of_mul_lt_mul_right hhigh (unit_pos p x).le

lemma round_eq_of_le (hrnd : round p x = x) (hxz : x ≤ z)
    (hnear : z < x + unit p x / 2) : round p z = x := by
  obtain ⟨m, hm, hlow, hhigh⟩ := exists_digits hp hx hrnd
  have hz := hx.trans_le hxz
  have hsucc : (m : ℚ) + 1 ≤ 10 ^ p := by exact_mod_cast hhigh
  have hsame : unit p z = unit p x := by
    have hx' := unit_bounds hp hx
    refine unit_eq hz ?_ ?_
    · exact (zpow_eq_mul_unit hp x).1 ▸ hx'.1.trans hxz
    · rw [(zpow_eq_mul_unit hp x).2]
      nlinarith
  rw [round_eq_mul hz.le (m := m), hsame, ← hm] <;> rw [hsame] <;> nlinarith

lemma round_eq_of_ge (hrnd : round p x = x) (hzx : z ≤ x)
    (hnear : x - unit p x / 20 < z) : round p z = x := by
  obtain ⟨m, hm, hlow, hhigh⟩ := exists_digits hp hx hrnd
  have hfst : (10 : ℚ) ^ (p - 1) ≤ m := by exact_mod_cast hlow
  have hpow : (10 : ℚ) ^ p = 10 * 10 ^ (p - 1) := by
    rw [← pow_succ', Nat.sub_add_cancel hp]
  have hlast : (m : ℚ) + 1 ≤ 10 ^ p := by exact_mod_cast hhigh
  have hz : 0 < z := by nlinarith
  obtain ⟨hbott, htop⟩ := zpow_eq_mul_unit hp x
  rcases le_or_gt (10 ^ (p - 1) * unit p x) z with hge | hlt
  · have hsame : unit p z = unit p x := unit_eq hz (hbott ▸ hge) (by nlinarith)
    rw [round_eq_mul hz.le (m := m), hsame, ← hm] <;> rw [hsame] <;> nlinarith
  · -- `x` is a power of ten and `z` lies below it.
    have hpower : (m : ℚ) = 10 ^ (p - 1) := by
      have hless : (m : ℚ) < 10 ^ (p - 1) + 1 := by nlinarith
      have hint : m < 10 ^ (p - 1) + 1 := by exact_mod_cast hless
      exact_mod_cast le_antisymm (by omega) hlow
    have hten : (10 : ℚ) ^ (log 10 x + 1 - p - 1) = unit p x / 10 := by
      rw [unit, zpow_sub_one₀ (by norm_num)]
      ring
    have htenth : unit p z = unit p x / 10 := by
      rw [← hten]
      refine unit_eq hz ?_ ?_
      · have hexp : (10 : ℚ) ^ (log 10 x + 1 - p - 1 + p - 1) =
            10 ^ (p - 1) * (unit p x / 10) := by
          rw [← hten, ← zpow_natCast, ← zpow_add₀ (by norm_num)]
          congr 1
          omega
        nlinarith
      · have hexp : (10 : ℚ) ^ (log 10 x + 1 - p - 1 + p) = 10 ^ (p - 1) * unit p x := by
          rw [← hbott]
          ring_nf
        rwa [hexp]
    have hx' : x = 10 ^ (p - 1) * unit p x := by rwa [hpower] at hm
    rw [round_eq_mul hz.le (m := 10 ^ p)]
    all_goals
      try rw [htenth]
      push_cast
      rw [hpow]
      linarith

lemma round_eq_of_nearer_above (hz : round p x ≤ z)
    (hnear : z - round p x < round p x - x) : round p z = round p x := by
  have hpos := round_pos hp hx
  have hunit : unit p x ≤ unit p (round p x) := unit_le_unit hx (by linarith)
  have hcl := (round_near (p := p) hx).1
  exact round_eq_of_le hp hpos (round_round hp x) hz (by linarith)

lemma round_eq_of_nearer_below (hz : z ≤ round p x)
    (hnear : 10 * (round p x - z) < x - round p x) : round p z = round p x := by
  have hpos := round_pos hp hx
  have hsame : unit p (round p x) = unit p x := by
    have hlow := (digits_bounds hp hx).1
    have hbd : (10 : ℚ) ^ (p - 1) * unit p x ≤ round p x := by
      rw [round_of_nonneg hx.le]
      exact mul_le_mul_of_nonneg_right (by exact_mod_cast hlow) (unit_pos p x).le
    have htop := (unit_bounds hp hx).2
    obtain ⟨hfst, hlast⟩ := zpow_eq_mul_unit hp x
    exact unit_eq hpos (hfst ▸ hbd) (by linarith)
  have hcl := (round_near (p := p) hx).2
  exact round_eq_of_ge hp hpos (round_round hp x) hz (by linarith)

end

lemma round_eq_of_nearer_right (hp : 0 < p) (hxr : x < round p x) (hz : round p x ≤ z)
    (hnear : 10 * (z - round p x) < round p x - x) : round p z = round p x := by
  rcases lt_trichotomy x 0 with hx | rfl | hx
  · have hneg := round_eq_of_nearer_below (p := p) (x := -x) (z := -z) hp (by linarith)
      (by rw [round_neg]; linarith) (by rw [round_neg]; linarith)
    rwa [round_neg, round_neg, neg_inj] at hneg
  · rw [round_zero] at hxr
    exact absurd hxr (lt_irrefl 0)
  · exact round_eq_of_nearer_above hp hx hz (by linarith)

end SignificantDigits
