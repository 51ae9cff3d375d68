import CtsEngine.LiveVolume.Volume

/-!
# The ceiling of a live order

Where the budget of a position is not zero, the quantity of a main or preset trade is zero, or lies
on the venue's step, is at least what the venue takes and costs no more than the ceiling.  A budget
of zero is taken for no ceiling at all.
-/

namespace CtsEngine

namespace LiveVolume

open OrderQuantity StepGrid Int VolumeCalculationParams

namespace VolumeCalculationParams

/-- The balance or the allowance for the venue's minimum is positive. -/
def HasBudget (params : VolumeCalculationParams) : Prop :=
  0 < params.accountBalance ∨ 0 < params.minimumNotionalCeilingAllowanceUsd.getD 0

/-- The lot step of a forex market is a whole number of units of the last decimal that lots are
written with. -/
structure LotsFit (params : VolumeCalculationParams) : Prop where
  step : ∃ n : ℤ, params.forexLotStep * 10 ^ params.forexLotPrecision = n
  minimum : params.forexMinimumLots < 10 ^ 21

/-- A hundredth of a lot can be written, and costs more than the tolerance. -/
def LotsCount (params : VolumeCalculationParams) : Prop :=
  2 ≤ params.forexLotPrecision ∧ 1 / 10 ^ 6 < params.volumeNotional 1

variable {params : VolumeCalculationParams}

/-! ## The venue's grid -/

variable (params)

lemma forexLotStep_ge : 1 / 10 ^ 8 ≤ params.forexLotStep :=
  le_max_left _ _

lemma forexMinimumLots_ge : 1 / 100 ≤ params.forexMinimumLots := le_max_left _ _

lemma forexLotPrecision_le : params.forexLotPrecision ≤ 8 := by
  unfold forexLotPrecision
  split
  · split_ifs
    · omega
    · omega
  · omega

lemma venueStep_pos : 0 < params.venueStep := by
  rw [venueStep]
  split_ifs
  · exact lt_of_lt_of_le (by norm_num) (forexLotStep_ge params)
  · exact params.quantityRules.quantityStep_pos

lemma isMultiple_zero (step : ℚ) : IsMultiple step 0 := ⟨0, by rw [cast_zero, zero_mul]⟩

lemma isMultiple_roundDown (quantity : ℚ) :
    IsMultiple params.venueStep (params.roundDown quantity) := by
  rw [roundDown]
  rcases le_or_gt quantity 0 with hle | hpos
  · rw [roundQuantityToStep, if_pos hle]
    exact isMultiple_zero _
  · rw [roundQuantityToStep_down (venueStep_pos params) hpos]
    exact isMultiple_lower _ _

variable {params}

lemma toFixed_eq {digits : ℕ} {value m : ℚ} (hm : ∃ n : ℤ, m * 10 ^ digits = n) (hle : m ≤ value)
    (hnear : (value - m) * 10 ^ digits < 1 / 2) (hval : value < 10 ^ 21) :
    toFixed digits value = m := by
  obtain ⟨n, hn⟩ := hm
  have hpow : (0 : ℚ) < 10 ^ digits := by positivity
  have hfloor : ⌊value * 10 ^ digits + 1 / 2⌋ = n := by
    rw [floor_eq_iff]
    have hmul := mul_le_mul_of_nonneg_right hle hpow.le
    constructor <;> linarith
  rw [toFixed, if_pos hval, hfloor, ← hn, mul_div_cancel_right₀ _ hpow.ne']

/-- The multiple of the lot step at a quantity or above it. -/
def stepped (params : VolumeCalculationParams) (raw : ℚ) : ℚ :=
  ⌈(max (max 0 raw) params.forexMinimumLots - EPSILON) / params.forexLotStep⌉ * params.forexLotStep

lemma roundForexLotsUp_eq (params : VolumeCalculationParams) (raw : ℚ) :
    params.roundForexLotsUp raw =
      toFixed params.forexLotPrecision (max params.forexMinimumLots (params.stepped raw)) := rfl

lemma isMultiple_roundForexLotsUp (h : params.LotsFit) (raw : ℚ) :
    IsMultiple params.forexLotStep (params.roundForexLotsUp raw) := by
  obtain ⟨⟨n, hn⟩, hmin⟩ := h
  have hstep : 0 < params.forexLotStep := lt_of_lt_of_le (by norm_num) (forexLotStep_ge params)
  have hpow : (0 : ℚ) < 10 ^ params.forexLotPrecision := by positivity
  have hmult : IsMultiple params.forexLotStep (params.stepped raw) := ⟨_, rfl⟩
  have hwrote : ∃ k : ℤ, params.stepped raw * 10 ^ params.forexLotPrecision = k :=
    ⟨⌈(max (max 0 raw) params.forexMinimumLots - EPSILON) / params.forexLotStep⌉ * n, by
      rw [stepped, mul_assoc, hn]; push_cast; ring⟩
  have hreach : params.forexMinimumLots - EPSILON ≤ params.stepped raw := by
    have hceil := mul_le_mul_of_nonneg_right (le_ceil
      ((max (max 0 raw) params.forexMinimumLots - EPSILON) / params.forexLotStep)) hstep.le
    rw [div_mul_cancel₀ _ hstep.ne'] at hceil
    rw [stepped]
    linarith [le_max_right (max 0 raw) params.forexMinimumLots]
  rw [roundForexLotsUp_eq]
  rcases le_total params.forexMinimumLots (params.stepped raw) with hle | hle
  · rw [max_eq_right hle]
    by_cases hlarge : params.stepped raw < 10 ^ 21
    · rwa [toFixed_eq hwrote le_rfl (by norm_num) hlarge]
    · rwa [toFixed, if_neg hlarge]
  · -- The minimum exceeds the multiple by a rounding error only.
    rw [max_eq_left hle, toFixed_eq hwrote hle ?_ hmin]
    · exact hmult
    · have hsmall : (10 : ℚ) ^ params.forexLotPrecision ≤ 10 ^ 8 :=
        pow_le_pow_right₀ (by norm_num) (forexLotPrecision_le params)
      calc (params.forexMinimumLots - params.stepped raw) * 10 ^ params.forexLotPrecision
          ≤ EPSILON * 10 ^ 8 := mul_le_mul (by linarith) hsmall hpow.le EPSILON_nonneg
        _ < 1 / 2 := by norm_num [EPSILON]

lemma isMultiple_executableQuantity (h : params.isForex = true → params.LotsFit) (raw : ℚ) :
    IsMultiple params.venueStep (params.executableQuantity raw).quantity := by
  rw [executableQuantity, venueStep]
  by_cases hforex : params.isForex = true
  · split_ifs
    · exact isMultiple_roundForexLotsUp (h hforex) raw
    · exact isMultiple_zero _
  · rw [if_neg hforex, if_neg hforex]
    exact onStep_resolveExecutableQuantity _ _ _ _

lemma isMultiple_executableMinimum (h : params.isForex = true → params.LotsFit) :
    IsMultiple params.venueStep params.executableMinimum := by
  rw [executableMinimum, venueStep]
  by_cases hforex : params.isForex = true
  · rw [if_pos hforex, if_pos hforex]
    exact isMultiple_roundForexLotsUp (h hforex) _
  · rw [if_neg hforex, if_neg hforex]
    exact onStep_resolveExecutableQuantity _ _ _ _

/-- A quantity that a venue takes and that a ceiling allows. -/
structure IsWithin (params : VolumeCalculationParams) (ceiling quantity : ℚ) : Prop where
  onStep : IsMultiple params.venueStep quantity
  minimum : EPSILON < params.venueStep → params.executableMinimum ≤ quantity
  minimum_near : params.executableMinimum ≤ quantity + EPSILON
  notional : params.volumeNotional quantity ≤ ceiling + 1 / 10 ^ 8

lemma executableQuantityAtMost_spec (h : params.isForex = true → params.LotsFit) (raw ceiling : ℚ) :
    (params.executableQuantityAtMost raw ceiling).quantity = 0 ∨
      params.IsWithin ceiling (params.executableQuantityAtMost raw ceiling).quantity := by
  rw [executableQuantityAtMost]
  dsimp only
  split_ifs with hceil hmax hkept
  · exact .inl rfl
  · exact .inl rfl
  · exact .inl rfl
  rw [not_or, not_or, not_lt, not_lt] at hkept
  obtain ⟨-, hmin, hnotl⟩ := hkept
  have honStep : IsMultiple params.venueStep (params.candidate (max 0 raw) ceiling) := by
    rw [candidate]
    split_ifs
    · exact isMultiple_roundDown params _
    · exact isMultiple_executableQuantity h _
  refine .inr ⟨honStep, fun hstep => ?_, hmin, hnotl⟩
  by_contra hlt
  have hgap := add_step_le (venueStep_pos params) honStep (isMultiple_executableMinimum h)
    (not_le.mp hlt)
  linarith

/-! ## The ceiling -/

variable (params)

lemma volumeNotional_nonneg (quantity : ℚ) :
    0 ≤ params.volumeNotional quantity := positionNotionalUsd_nonneg _ _ _

lemma plainMinNotional_le :
    params.plainMinNotional ≤ params.volumeNotional params.effectiveMin := by
  rw [plainMinNotional]
  split_ifs
  · exact le_rfl
  · exact volumeNotional_nonneg params _

lemma variantMult_pos : 0 < params.variantMult := by
  have hnorm : (0 : ℚ) < max (1 / 100) (params.sizeMultiplier.getD 0) :=
    lt_max_of_lt_left (by norm_num)
  rw [variantMult]
  split_ifs
  · exact hnorm
  · exact lt_min (by norm_num [VARIANT_MULTIPLIER_CEILING]) hnorm
  · exact one_pos

lemma posAvg_pos : 0 < params.posAvg := by
  rw [posAvg]
  split_ifs with h
  · exact h
  · exact one_pos

lemma ordinaryCeiling_eq (hcost : 0 < params.resolvedPositionCostFraction) :
    ∃ c, 0 < c ∧ params.ordinaryCeiling = params.accountBalance * c := by
  refine ⟨params.resolvedPositionCostFraction / params.posAvg *
    min VARIANT_EXECUTION_NOTIONAL_CEILING
      (max MAX_LIVE_POSITION_COST_MULTIPLIER params.variantMult), ?_, ?_⟩
  · refine mul_pos (div_pos hcost (posAvg_pos params)) (lt_min ?_ (lt_max_of_lt_left ?_))
    · norm_num [VARIANT_EXECUTION_NOTIONAL_CEILING]
    · norm_num [MAX_LIVE_POSITION_COST_MULTIPLIER]
  · rw [ordinaryCeiling, positionCostNotionalUsd]
    ring

lemma baseCeiling_le : params.baseCeiling ≤
    max params.ordinaryCeiling (params.minimumNotionalCeilingAllowanceUsd.getD 0) := by
  rw [baseCeiling]
  split_ifs
  · exact le_rfl
  · exact le_max_left _ _

lemma baseCeiling_le_executionCeiling : params.baseCeiling ≤ params.executionCeiling := by
  rw [executionCeiling]
  split_ifs with h
  · exact h.le
  · exact le_rfl

lemma scaledFloorNotional_le : params.scaledFloorNotional ≤
    params.volumeNotional params.effectiveMin * MAX_LIVE_POSITION_COST_MULTIPLIER := by
  have hmult : (0 : ℚ) ≤ MAX_LIVE_POSITION_COST_MULTIPLIER := by
    norm_num [MAX_LIVE_POSITION_COST_MULTIPLIER]
  rw [scaledFloorNotional]
  split_ifs
  · exact mul_le_mul (plainMinNotional_le params) (min_le_right _ _)
      (le_min (variantMult_pos params).le hmult) (volumeNotional_nonneg params _)
  · exact mul_nonneg (volumeNotional_nonneg params _) hmult

/-- The ceiling is at most the ordinary one, the allowance, or the minimum's notional times the
position-cost multiple. -/
lemma executionCeiling_le : params.executionCeiling ≤
    max params.ordinaryCeiling (max (params.minimumNotionalCeilingAllowanceUsd.getD 0)
      (params.volumeNotional params.effectiveMin * MAX_LIVE_POSITION_COST_MULTIPLIER)) := by
  rw [executionCeiling]
  split_ifs
  · exact (scaledFloorNotional_le params).trans ((le_max_right _ _).trans (le_max_right _ _))
  · exact (baseCeiling_le params).trans (max_le_max_left _ (le_max_left _ _))

variable {params}

lemma executionCeiling_pos (hcost : 0 < params.resolvedPositionCostFraction)
    (h : params.HasBudget) : 0 < params.executionCeiling := by
  refine lt_of_lt_of_le ?_ (baseCeiling_le_executionCeiling params)
  obtain ⟨c, hc, heq⟩ := ordinaryCeiling_eq params hcost
  rw [baseCeiling, heq]
  rcases h with hpos | hpos
  · have hordin := mul_pos hpos hc
    split_ifs
    · exact lt_max_of_lt_left hordin
    · exact hordin
  · rw [if_pos hpos]
    exact lt_max_of_lt_right hpos

lemma executionCeiling_eq_zero (hbalan : 0 ≤ params.accountBalance)
    (hcost : 0 < params.resolvedPositionCostFraction) (h : ¬params.HasBudget)
    (hmin : EPSILON < params.plainMinNotional) : params.executionCeiling = 0 := by
  rw [HasBudget, not_or, not_lt] at h
  obtain ⟨c, -, heq⟩ := ordinaryCeiling_eq params hcost
  have hbase : params.baseCeiling = 0 := by
    rw [baseCeiling, if_neg h.2, heq, le_antisymm h.1 hbalan, zero_mul]
  have hfloor : params.scaledFloorNotional = 0 := by
    rw [scaledFloorNotional, hbase, zero_add]
    exact if_neg fun hfloor => hmin.not_ge hfloor.2.2
  rw [executionCeiling, hbase, hfloor, if_neg (lt_irrefl 0)]

/-! ## Without a budget -/

lemma plainMinNotional_gt (hpr : 0 < params.currentPrice)
    (h : params.isForex = true → params.LotsCount) :
    0 < params.effectiveMin ∧ 1 / 10 ^ 8 < params.plainMinNotional := by
  cases hmark : params.market with
  | crypto =>
    have hforex : params.isForex = false := by rw [isForex, hmark]
    have hmin : UNIVERSAL_MIN_NOTIONAL_USD / params.currentPrice ≤ params.effectiveMin := by
      rw [effectiveMin, hforex, if_pos hpr]
      exact (le_max_right _ _).trans (le_max_right _ _)
    have hpos : 0 < params.effectiveMin :=
      lt_of_lt_of_le (div_pos (by norm_num [UNIVERSAL_MIN_NOTIONAL_USD]) hpr) hmin
    refine ⟨hpos, ?_⟩
    rw [plainMinNotional, if_pos hpos, volumeNotional, hmark, positionNotionalUsd,
      max_eq_right hpos.le, max_eq_right hpr.le]
    rw [div_le_iff₀ hpr] at hmin
    exact lt_of_lt_of_le (by norm_num [UNIVERSAL_MIN_NOTIONAL_USD]) hmin
  | forex pair lotSize rate =>
    have hforex : params.isForex = true := by rw [isForex, hmark]
    obtain ⟨-, hlot⟩ := h hforex
    have hmin : params.effectiveMin = params.forexMinimumLots := by
      have hconv : params.forexConversionAvailable = true := by
        rw [forexConversionAvailable, Bool.or_eq_true, decide_eq_true_eq]
        exact .inr (lt_trans (by norm_num) hlot)
      rw [effectiveMin, hforex, if_pos rfl, hconv, if_pos rfl]
    have hge := forexMinimumLots_ge params
    have hpos : 0 < params.forexMinimumLots := lt_of_lt_of_le (by norm_num) hge
    rw [plainMinNotional, hmin, if_pos hpos, volumeNotional, positionNotionalUsd_eq_mul _ hpos.le,
      ← volumeNotional]
    refine ⟨hpos, ?_⟩
    nlinarith

lemma clamped_pos (h : 0 < params.effectiveMin) : 0 < params.clamped.quantity := by
  rw [clamped]
  split_ifs with hmin
  · rw [minimumVolumeTarget, if_pos (variantMult_pos params)]
    exact mul_pos h (variantMult_pos params)
  · rw [clampUp]
    split_ifs with hclamp
    · exact mul_pos h (lt_max_of_lt_left one_pos)
    · rw [not_and, not_lt] at hclamp
      exact h.trans_le (hclamp h)

/-- What is executed is worth more than the tolerance. -/
lemma executableQuantity_gt (hpr : 0 < params.currentPrice)
    (h : params.isForex = true → params.LotsCount) {raw : ℚ} (hraw : 0 < raw) :
    0 < (params.executableQuantity raw).quantity ∧
      1 / 10 ^ 8 < params.volumeNotional (params.executableQuantity raw).quantity := by
  cases hmark : params.market with
  | crypto =>
    have hforex : params.isForex = false := by rw [isForex, hmark]
    rw [executableQuantity, hforex, if_neg Bool.false_ne_true]
    dsimp only
    rw [resolveExecutableQuantity_of_pos hraw, volumeNotional, hmark, positionNotionalUsd]
    set request := max raw (minimumQuantity params.quantityRules UNIVERSAL_MIN_NOTIONAL_USD
      params.currentPrice) with hreq
    have hpos : 0 < request := lt_max_of_lt_left hraw
    obtain ⟨-, hup, hnear, -⟩ := @roundQuantityUp_spec params.quantityRules _ hpos
    refine ⟨hup, ?_⟩
    rw [max_eq_right hup.le, max_eq_right hpr.le]
    have hfloor : UNIVERSAL_MIN_NOTIONAL_USD / params.currentPrice ≤ request := by
      refine le_trans ?_ (le_max_right _ _)
      rw [minimumQuantity, if_pos hpr]
      exact (div_le_div_of_nonneg_right (le_max_right _ _) hpr.le).trans (le_max_right _ _)
    rw [div_le_iff₀ hpr, UNIVERSAL_MIN_NOTIONAL_USD] at hfloor
    have hepsil : (1 / 2 : ℚ) ≤ 1 - EPSILON := by norm_num [EPSILON]
    nlinarith
  | forex pair lotSize rate =>
    have hforex : params.isForex = true := by rw [isForex, hmark]
    obtain ⟨hdigs, hlot⟩ := h hforex
    have hconv : params.forexConversionAvailable = true := by
      rw [forexConversionAvailable, Bool.or_eq_true, decide_eq_true_eq]
      exact .inr (lt_trans (by norm_num) hlot)
    have hlots : 1 / 100 ≤ params.roundForexLotsUp raw := by
      have hval : 1 / 100 ≤ max params.forexMinimumLots (params.stepped raw) :=
        (forexMinimumLots_ge params).trans (le_max_left _ _)
      rw [roundForexLotsUp_eq, toFixed]
      split_ifs
      · have hpow : (0 : ℚ) < 10 ^ params.forexLotPrecision := by positivity
        have hunits : ((10 ^ (params.forexLotPrecision - 2) : ℤ) : ℚ) =
            1 / 100 * 10 ^ params.forexLotPrecision := by
          obtain ⟨k, hk⟩ := Nat.exists_eq_add_of_le hdigs
          rw [hk, Nat.add_sub_cancel_left]
          push_cast
          ring
        rw [le_div_iff₀ hpow, ← hunits]
        have hfloor : (10 ^ (params.forexLotPrecision - 2) : ℤ) ≤
            ⌊max params.forexMinimumLots (params.stepped raw) * 10 ^ params.forexLotPrecision +
              1 / 2⌋ := by
          rw [le_floor]
          have hmul := mul_le_mul_of_nonneg_right hval hpow.le
          linarith
        exact_mod_cast hfloor
      · exact hval
    have hpos : 0 < params.roundForexLotsUp raw := lt_of_lt_of_le (by norm_num) hlots
    rw [executableQuantity, hforex, if_pos rfl, hconv, if_pos rfl, volumeNotional,
      positionNotionalUsd_eq_mul _ hpos.le, ← volumeNotional]
    refine ⟨hpos, ?_⟩
    nlinarith

end VolumeCalculationParams

/-- The final volume of a trade is zero or within its ceiling, and the ceiling is within the budget,
the allowance and the multiple of the minimum. -/
def KeepsCeiling (params : VolumeCalculationParams) : Prop :=
  ∀ ceiling ∈ (calculatePositionVolume params).maxExecutionNotionalUsd,
    ((calculatePositionVolume params).finalVolume = 0 ∨
      params.IsWithin ceiling (calculatePositionVolume params).finalVolume) ∧
    ceiling ≤ max params.ordinaryCeiling (max (params.minimumNotionalCeilingAllowanceUsd.getD 0)
      ((calculatePositionVolume params).exchangeMinNotionalUsd * MAX_LIVE_POSITION_COST_MULTIPLIER))

/-- With a budget, and lots that can be written, the final volume keeps its ceiling; without a
budget it does not, where the venue's minimum costs more than the tolerance. -/
theorem keepsCeiling_iff_hasBudget (params : VolumeCalculationParams)
    (hmode : params.tradeMode.isSome = true) (hbalance : 0 ≤ params.accountBalance)
    (hprice : 0 < params.currentPrice) (hcost : 0 < params.resolvedPositionCostFraction) :
    (params.HasBudget → (params.isForex = true → params.LotsFit) → KeepsCeiling params) ∧
      ((params.isForex = true → params.LotsCount) → KeepsCeiling params → params.HasBudget) := by
  have hceiling : (calculatePositionVolume params).maxExecutionNotionalUsd =
      some params.executionCeiling := by
    obtain ⟨mode, hmode⟩ := Option.isSome_iff_exists.mp hmode
    rw [calculatePositionVolume, maxExecutionNotionalUsd, hmode]
    rfl
  refine ⟨fun hbudget hfit ceiling hmem => ?_, fun hcount hkeeps => ?_⟩
  · obtain rfl : params.executionCeiling = ceiling := Option.some.inj (hceiling.symm.trans hmem)
    refine ⟨?_, params.executionCeiling_le⟩
    have hpos := executionCeiling_pos hcost hbudget
    have hfinal : (calculatePositionVolume params).finalVolume =
        (params.executableQuantityAtMost params.clamped.quantity
        params.executionCeiling).quantity := by
      rw [calculatePositionVolume] at hceiling ⊢
      dsimp only at hceiling ⊢
      rw [executable, hceiling]
      dsimp only
      rw [if_pos hpos.ne']
    rw [hfinal]
    exact executableQuantityAtMost_spec hfit _ _
  · by_contra hbudget
    obtain ⟨hmin, hminimum⟩ := plainMinNotional_gt hprice hcount
    have hzero := executionCeiling_eq_zero hbalance hcost hbudget
      (lt_trans (by norm_num [EPSILON]) hminimum)
    have hfinal : (calculatePositionVolume params).finalVolume =
        (params.executableQuantity params.clamped.quantity).quantity := by
      rw [calculatePositionVolume] at hceiling ⊢
      dsimp only at hceiling ⊢
      rw [executable, hceiling, hzero]
      dsimp only
      rw [if_neg (not_not.mpr rfl)]
    obtain ⟨hpos, hcosts⟩ := executableQuantity_gt hprice hcount
      (clamped_pos hmin)
    rcases (hkeeps _ hceiling).1 with hnone | hwithin
    · exact hpos.ne' (hfinal.symm.trans hnone)
    · have hnotional := hwithin.notional
      rw [hfinal] at hnotional
      linarith

/-- A main trade of a crypto market at a price of 100. -/
def atHundred (accountBalance : ℚ) : VolumeCalculationParams where
  market := .crypto
  positionCostFraction := some (1 / 10)
  accountBalance
  currentPrice := 100
  quantityStep := some (1 / 100)
  tradeMode := some .main

theorem keepsCeiling_iff_hasBudget_atHundred : KeepsCeiling (atHundred 1000) :=
  (keepsCeiling_iff_hasBudget (atHundred 1000) rfl (by norm_num [atHundred])
    (by norm_num [atHundred]) (by decide +kernel)).1 (.inl (by norm_num [atHundred]))
    fun hforex => absurd hforex (by decide +kernel)

/-- An empty account trades the venue's minimum. -/
theorem not_keepsCeiling_atHundred : ¬KeepsCeiling (atHundred 0) := by
  intro h
  have hceiling : (calculatePositionVolume (atHundred 0)).maxExecutionNotionalUsd = some 0 := by
    decide +kernel
  have hfinal : (calculatePositionVolume (atHundred 0)).finalVolume = 1 / 20 := by decide +kernel
  rcases (h 0 hceiling).1 with hzero | hwithin
  · rw [hfinal] at hzero
    norm_num at hzero
  · have hnotional := hwithin.notional
    have hvalue : (atHundred 0).volumeNotional (1 / 20) = 5 := by decide +kernel
    rw [hfinal, hvalue] at hnotional
    norm_num at hnotional

end LiveVolume

end CtsEngine
