import CtsEngine.Foundation.StepGrid
import Mathlib.Tactic.Positivity

/-!
# Order quantities of a venue

`lib/order-quantity.ts` with exact numbers: the rules that a venue has for quantities, the rounding
of a quantity to the venue's step, and the quantity that is sent for a requested one.

`resolveExecutableQuantity` of `lib/order-quantity.ts` for both kinds of orders: a close is rounded
down to the step of the venue, an entry is raised to the minima and rounded up, and a quantity that
exceeds a grid point by a rounding error of its own stays there.
-/

namespace CtsEngine

namespace OrderQuantity

open StepGrid

def EPSILON : ℚ := 1 / 2 ^ 52

/-- `NormalizedQuantityRules`, as `normalizeExchangeQuantityRules` leaves them: there is a step, and
a minimum that a venue does not have is zero. -/
structure NormalizedQuantityRules where
  quantityStep : ℚ
  minQuantity : ℚ
  minNotionalUsdt : ℚ
  quantityStep_pos : 0 < quantityStep
  minQuantity_nonneg : 0 ≤ minQuantity
  minNotionalUsdt_nonneg : 0 ≤ minNotionalUsdt

/-- `ExchangeQuantityRules`: what a venue states, `none` for what is missing or not a finite
number.  A `quantityPrecision` that is no finite number counts as missing. -/
structure ExchangeQuantityRules where
  quantityStep : Option ℚ := none
  quantity_step : Option ℚ := none
  quantityPrecision : Option ℚ := none
  quantity_precision : Option ℚ := none
  minQuantity : Option ℚ := none
  min_order_size : Option ℚ := none
  minNotionalUsdt : Option ℚ := none
  minNotional : Option ℚ := none
  min_notional_usdt : Option ℚ := none

variable (values : List (Option ℚ))

/-- `positive`: the first positive number, zero when there is none. -/
def positive : ℚ :=
  ((values.filterMap id).find? (0 < ·)).getD 0

/-- `integer`: a number of places, at most 18. -/
def integer (value : Option ℚ) (fallback : ℕ) : ℕ :=
  match value with
  | some parsed => (min 18 ⌊parsed⌋).toNat
  | none => fallback

lemma positive_cases :
    0 < positive values ∨ positive values = 0 ∧ ∀ value, some value ∈ values → value ≤ 0 := by
  rw [positive]
  cases h : (values.filterMap id).find? (0 < ·) with
  | none =>
    refine .inr ⟨rfl, fun value hval => ?_⟩
    have hmem : value ∈ values.filterMap id := List.mem_filterMap.mpr ⟨some value, hval, rfl⟩
    simpa using List.find?_eq_none.mp h value hmem
  | some value =>
    have hpos : 0 < value := of_decide_eq_true (List.find?_some (p := fun x : ℚ => 0 < x) h)
    exact .inl hpos

lemma positive_nonneg : 0 ≤ positive values :=
  (positive_cases values).elim le_of_lt fun h => h.1.ge

lemma positive_pos {values : List (Option ℚ)} {value : ℚ} (hmem : some value ∈ values)
    (hpos : 0 < value) : 0 < positive values :=
  (positive_cases values).resolve_right fun h => (h.2 value hmem).not_gt hpos

/-- `normalizeExchangeQuantityRules`, without the number of places of the step. -/
def normalizeExchangeQuantityRules (source : ExchangeQuantityRules) : NormalizedQuantityRules where
  quantityStep := positive [source.quantityStep, source.quantity_step,
    some (1 / 10 ^ integer (source.quantityPrecision <|> source.quantity_precision) 12)]
  minQuantity := positive [source.minQuantity, source.min_order_size]
  minNotionalUsdt :=
    positive [source.minNotionalUsdt, source.minNotional, source.min_notional_usdt]
  quantityStep_pos := positive_pos
    (List.mem_cons_of_mem _ (List.mem_cons_of_mem _ (List.mem_singleton_self _))) (by positivity)
  minQuantity_nonneg := positive_nonneg _
  minNotionalUsdt_nonneg := positive_nonneg _

variable (quantity : ℚ)

def roundQuantityToStep (step : ℚ) (up : Bool) : ℚ :=
  if quantity ≤ 0 then 0
  else if step ≤ 0 then quantity
  else
    let units := ⌊quantity / step⌋
    let lower := units * step
    -- A quantity that exceeds the grid point by a rounding error of its own stays there.
    if up ∧ lower ≠ quantity ∧
        ¬(0 < lower ∧ quantity - lower ≤ EPSILON * max quantity lower) then (units + 1) * step
    else units * step

def roundQuantityUp (rules : NormalizedQuantityRules) : ℚ :=
  roundQuantityToStep quantity rules.quantityStep true

def roundQuantityDown (rules : NormalizedQuantityRules) : ℚ :=
  roundQuantityToStep quantity rules.quantityStep false

/-- `ExecutableQuantityResult`; a request that is not a finite number is missing. -/
structure ExecutableQuantityResult where
  requestedQuantity : Option ℚ
  quantity : ℚ
  adjusted : Bool
  reasons : List String

/-- The least quantity that a venue takes at a price. -/
def minimumQuantity (rules : NormalizedQuantityRules) (universalMinNotionalUsdt price : ℚ) : ℚ :=
  max rules.minQuantity
    (if 0 < price then max rules.minNotionalUsdt universalMinNotionalUsdt / price else 0)

/-- `resolveExecutableQuantity` for an entry. -/
def resolveExecutableQuantity (requestedQuantity : Option ℚ) (price : ℚ)
    (rules : NormalizedQuantityRules) (universalMinNotionalUsdt : ℚ) : ExecutableQuantityResult :=
  let requested := requestedQuantity.getD 0
  if requested ≤ 0 then { requestedQuantity, quantity := 0, adjusted := false, reasons := [] }
  else
    let notionalFloor :=
      if 0 < price then max rules.minNotionalUsdt universalMinNotionalUsdt / price else 0
    let minimum := minimumQuantity rules universalMinNotionalUsdt price
    let quantity := roundQuantityUp (max requested minimum) rules
    { requestedQuantity
      quantity
      adjusted := quantity ≠ requested
      reasons :=
        (if quantity ≠ requested then ["entry quantity rounded up to exchange step"] else []) ++
        (if requested < minimum ∧ requested < rules.minQuantity then
          ["exchange minimum quantity enforced"] else []) ++
        if requested < minimum ∧ requested < notionalFloor then
          ["minimum notional enforced"] else [] }

variable {rules : NormalizedQuantityRules} {x y m : ℚ}

/-- A quantity on the grid of a venue. -/
def OnStep (rules : NormalizedQuantityRules) (quantity : ℚ) : Prop :=
  IsMultiple rules.quantityStep quantity

lemma onStep_zero (rules : NormalizedQuantityRules) : OnStep rules 0 :=
  ⟨0, by rw [Int.cast_zero, zero_mul]⟩

lemma EPSILON_nonneg : 0 ≤ EPSILON := by norm_num [EPSILON]

lemma EPSILON_le_one : EPSILON ≤ 1 := by norm_num [EPSILON]

lemma roundQuantityToStep_down {step : ℚ} (hstep : 0 < step) (hx : 0 < x) :
    roundQuantityToStep x step false = lower step x := by
  rw [roundQuantityToStep, if_neg hx.not_ge, if_neg hstep.not_ge, if_neg]
  · rfl
  · rintro ⟨hup, -⟩
    cases hup

lemma roundQuantityDown_of_pos (hx : 0 < x) :
    roundQuantityDown x rules = lower rules.quantityStep x :=
  roundQuantityToStep_down rules.quantityStep_pos hx

lemma roundQuantityUp_of_pos (hx : 0 < x) :
    roundQuantityUp x rules = upper EPSILON rules.quantityStep x := by
  rw [roundQuantityUp, roundQuantityToStep, if_neg hx.not_ge, if_neg rules.quantityStep_pos.not_ge]
  by_cases h : lower rules.quantityStep x = x ∨ Near EPSILON rules.quantityStep x
  · rw [upper, if_pos h, if_neg]
    · rfl
    · rintro ⟨-, hne, hfar⟩
      exact h.elim hne hfar
  · rw [upper, if_neg h, if_pos ⟨rfl, fun heq => h (.inl heq), fun hnear => h (.inr hnear)⟩,
      add_mul, one_mul]
    rfl

lemma roundQuantityDown_of_nonpos (hx : x ≤ 0) : roundQuantityDown x rules = 0 := by
  rw [roundQuantityDown, roundQuantityToStep, if_pos hx]

lemma roundQuantityDown_spec (rules : NormalizedQuantityRules) (x : ℚ) :
    OnStep rules (roundQuantityDown x rules) ∧ 0 ≤ roundQuantityDown x rules ∧
      (0 ≤ x → roundQuantityDown x rules ≤ x) ∧
      ∀ m, OnStep rules m → m ≤ x → m ≤ roundQuantityDown x rules := by
  have hstep := rules.quantityStep_pos
  rcases le_or_gt x 0 with hx | hx
  · rw [roundQuantityDown_of_nonpos hx]
    exact ⟨onStep_zero rules, le_rfl, fun h => h, fun m _ hm => hm.trans hx⟩
  · rw [roundQuantityDown_of_pos hx]
    refine ⟨isMultiple_lower _ _, ?_, fun _ => lower_le hstep x, fun m hm => le_lower hstep hm⟩
    exact le_lower hstep (onStep_zero rules) hx.le

lemma roundQuantityUp_spec (hx : 0 < x) :
    OnStep rules (roundQuantityUp x rules) ∧ 0 < roundQuantityUp x rules ∧
      x - EPSILON * x ≤ roundQuantityUp x rules ∧
      ∀ m, OnStep rules m → x ≤ m → roundQuantityUp x rules ≤ m := by
  have hstep := rules.quantityStep_pos
  rw [roundQuantityUp_of_pos hx]
  exact ⟨isMultiple_upper _ _ _, upper_pos hstep hx, le_upper hstep EPSILON_nonneg hx.le,
    fun m hm => upper_le hstep EPSILON_le_one hm⟩

lemma roundQuantityUp_mono (hx : 0 < x) (hxy : x ≤ y) :
    roundQuantityUp x rules ≤ roundQuantityUp y rules := by
  rw [roundQuantityUp_of_pos hx, roundQuantityUp_of_pos (hx.trans_le hxy)]
  exact upper_mono rules.quantityStep_pos EPSILON_le_one hxy

lemma roundQuantityUp_of_onStep (hx : 0 < x) (h : OnStep rules x) :
    roundQuantityUp x rules = x := by
  rw [roundQuantityUp_of_pos hx]
  exact upper_of_isMultiple rules.quantityStep_pos h

lemma resolveExecutableQuantity_of_nonpos {requested : Option ℚ} (h : requested.getD 0 ≤ 0)
    (price : ℚ) (rules : NormalizedQuantityRules) (universal : ℚ) :
    (resolveExecutableQuantity requested price rules universal).quantity = 0 := by
  rw [resolveExecutableQuantity, if_pos h]

lemma onStep_resolveExecutableQuantity (requested : Option ℚ) (price : ℚ)
    (rules : NormalizedQuantityRules) (universal : ℚ) :
    OnStep rules (resolveExecutableQuantity requested price rules universal).quantity := by
  by_cases h : requested.getD 0 ≤ 0
  · rw [resolveExecutableQuantity, if_pos h]
    exact onStep_zero rules
  · rw [resolveExecutableQuantity, if_neg h]
    exact (roundQuantityUp_spec (lt_max_of_lt_left (not_le.mp h))).1

lemma resolveExecutableQuantity_of_pos (hx : 0 < x) (price : ℚ) (rules : NormalizedQuantityRules)
    (universal : ℚ) : (resolveExecutableQuantity (some x) price rules universal).quantity =
      roundQuantityUp (max x (minimumQuantity rules universal price)) rules := by
  rw [resolveExecutableQuantity, if_neg (show ¬(some x).getD 0 ≤ 0 from hx.not_ge)]
  rfl

end OrderQuantity

end CtsEngine

namespace CtsEngine

namespace OrderQuantity

open StepGrid

/-- The options of a resolution. -/
structure ExecutableOptions where
  reduceOnly : Bool := false
  universalMinNotionalUsdt : Option ℚ := none

/-- `resolveExecutableQuantity` for a close. -/
def resolveReduceOnlyQuantity (requestedQuantity : Option ℚ) (rules : NormalizedQuantityRules) :
    ExecutableQuantityResult :=
  let requested := requestedQuantity.getD 0
  if requested ≤ 0 then { requestedQuantity, quantity := 0, adjusted := false, reasons := [] }
  else
    let quantity := roundQuantityDown requested rules
    { requestedQuantity
      quantity
      adjusted := quantity ≠ requested
      reasons := if quantity ≠ requested then
        ["reduce-only quantity rounded down to exchange step"] else [] }

/-- `resolveExecutableQuantity`, with the rules as the venue states them. -/
def resolveExecutableQuantityWith (requestedQuantity : Option ℚ) (marketPrice : ℚ)
    (rawRules : ExchangeQuantityRules) (options : ExecutableOptions) : ExecutableQuantityResult :=
  let rules := normalizeExchangeQuantityRules rawRules
  if options.reduceOnly then resolveReduceOnlyQuantity requestedQuantity rules
  else resolveExecutableQuantity requestedQuantity marketPrice rules
    (positive [options.universalMinNotionalUsdt])

/-! ## Tight quantities -/

/-- The quantity of an entry for what has to be reached: the smallest multiple of the step that
reaches it, or the largest one below it, where that is positive and what has to be reached exceeds
it by at most the rounding error of a number. -/
def IsTightEntry (rules : NormalizedQuantityRules) (reach quantity : ℚ) : Prop :=
  ∃ below, IsGreatest {m | OnStep rules m ∧ m ≤ reach} below ∧
    if 0 < below ∧ reach - below ≤ EPSILON * reach then quantity = below
    else IsLeast {m | OnStep rules m ∧ reach ≤ m} quantity

/-- What is executable for a request: nothing for a request that is not positive, the largest
multiple of the step that does not exceed it for a close, and for an entry the multiple that reaches
the request and the minima. -/
structure IsTight (rules : NormalizedQuantityRules) (reduceOnly : Bool)
    (requested least quantity : ℚ) : Prop where
  nothing : requested ≤ 0 → quantity = 0
  reduce : 0 < requested → reduceOnly = true →
    IsGreatest {m | OnStep rules m ∧ m ≤ requested} quantity
  entry : 0 < requested → reduceOnly = false → IsTightEntry rules (max requested least) quantity

variable (rules)

lemma isTightEntry_roundQuantityUp {reach : ℚ}
    (h : 0 < reach) : IsTightEntry rules reach (roundQuantityUp reach rules) := by
  have hstep := rules.quantityStep_pos
  refine ⟨lower rules.quantityStep reach, isGreatest_lower hstep reach, ?_⟩
  rw [roundQuantityUp_of_pos h]
  split_ifs with hnear
  · exact upper_of_near ((near_iff hstep).mpr hnear)
  · exact isLeast_upper hstep EPSILON_le_one fun h => hnear ((near_iff hstep).mp h)

lemma resolveReduceOnlyQuantity_quantity (requested : Option ℚ) :
    (resolveReduceOnlyQuantity requested rules).quantity =
      roundQuantityDown (requested.getD 0) rules := by
  by_cases h : requested.getD 0 ≤ 0
  · rw [resolveReduceOnlyQuantity, if_pos h]
    exact (roundQuantityDown_of_nonpos h).symm
  · rw [resolveReduceOnlyQuantity, if_neg h]

lemma roundQuantityDown_idem (x : ℚ) :
    roundQuantityDown (roundQuantityDown x rules) rules = roundQuantityDown x rules := by
  obtain ⟨honStep, hnn, -, -⟩ := roundQuantityDown_spec rules x
  obtain ⟨-, -, hle, hgreat⟩ := roundQuantityDown_spec rules (roundQuantityDown x rules)
  exact (hle hnn).antisymm (hgreat _ honStep le_rfl)

lemma resolveExecutableQuantity_idem (requested : Option ℚ) (price : ℚ) (universal : ℚ) :
    (resolveExecutableQuantity
        (some (resolveExecutableQuantity requested price rules universal).quantity) price rules
        universal).quantity =
      (resolveExecutableQuantity requested price rules universal).quantity := by
  by_cases hreqd : requested.getD 0 ≤ 0
  · rw [resolveExecutableQuantity_of_nonpos hreqd]
    exact resolveExecutableQuantity_of_nonpos le_rfl price rules universal
  · cases requested with
    | none => exact absurd le_rfl hreqd
    | some x =>
      have hx : 0 < x := not_le.mp hreqd
      have hreach : 0 < max x (minimumQuantity rules universal price) := lt_max_of_lt_left hx
      rw [resolveExecutableQuantity_of_pos hx]
      have hpos := (@roundQuantityUp_spec rules _ hreach).2.1
      rw [resolveExecutableQuantity_of_pos hpos, roundQuantityUp_of_pos hreach,
        roundQuantityUp_of_pos (lt_max_of_lt_left (upper_pos rules.quantityStep_pos hreach))]
      exact upper_max_upper rules.quantityStep_pos EPSILON_le_one x _

variable {rules}

/-- **Executable quantities.** For every request, price, rules and options the quantity is tight,
and resolving it again leaves it as it is. -/
theorem resolveExecutableQuantityWith_tight (requestedQuantity : Option ℚ) (marketPrice : ℚ)
    (rawRules : ExchangeQuantityRules) (options : ExecutableOptions) :
    let rules := normalizeExchangeQuantityRules rawRules
    let resolve := fun requested =>
      (resolveExecutableQuantityWith requested marketPrice rawRules options).quantity
    IsTight rules options.reduceOnly (requestedQuantity.getD 0)
        (minimumQuantity rules (positive [options.universalMinNotionalUsdt]) marketPrice)
        (resolve requestedQuantity) ∧
      resolve (some (resolve requestedQuantity)) = resolve requestedQuantity := by
  dsimp only [resolveExecutableQuantityWith]
  generalize normalizeExchangeQuantityRules rawRules = rules
  cases options.reduceOnly with
  | true =>
    simp only [if_true, resolveReduceOnlyQuantity_quantity]
    refine ⟨⟨roundQuantityDown_of_nonpos, fun hrequested _ => ?_, nofun⟩,
      roundQuantityDown_idem rules _⟩
    rw [roundQuantityDown_of_pos hrequested]
    exact isGreatest_lower rules.quantityStep_pos _
  | false =>
    simp only [Bool.false_eq_true, if_false]
    refine ⟨⟨fun h => resolveExecutableQuantity_of_nonpos h _ _ _, nofun,
      fun hrequested _ => ?_⟩, resolveExecutableQuantity_idem _ _ _ _⟩
    cases requestedQuantity with
    | none => exact absurd hrequested (lt_irrefl 0)
    | some x =>
      have hx : 0 < x := hrequested
      rw [resolveExecutableQuantity_of_pos hx]
      exact isTightEntry_roundQuantityUp rules (lt_max_of_lt_left hx)

/-- An entry of one and a rounding error stays at the step of one, below the request. -/
theorem not_isLeast_entry :
    ¬ IsLeast {m | OnStep (normalizeExchangeQuantityRules { quantityStep := some 1 }) m ∧
        max (1 + 1 / 2 ^ 52) (minimumQuantity
          (normalizeExchangeQuantityRules { quantityStep := some 1 }) (positive [none]) 10) ≤ m}
      (resolveExecutableQuantityWith (some (1 + 1 / 2 ^ 52)) 10 { quantityStep := some 1 }
        {}).quantity := by
  intro h
  have hreach := h.1.2
  revert hreach
  decide +kernel

end OrderQuantity

end CtsEngine
