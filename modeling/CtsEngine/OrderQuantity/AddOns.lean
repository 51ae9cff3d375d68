import CtsEngine.Foundation.PositionNotional
import CtsEngine.OrderQuantity.Rounding

/-!
# The quantity of an add-on

`admitAccumulationQuantity` of `lib/trade-engine/stages/live-stage.ts`, and what
`accumulateIntoLivePosition` makes of its result: the quantity that is left under the ceiling of the
position is rounded to the venue's step, and the order that is sent is rounded a second time.
-/

namespace CtsEngine

open List

namespace OrderQuantity

variable (market : PositionMarket)

/-- `positionNotionalUsd`, with `positionUnitMultiplier` for the size of a lot. -/
def positionNotionalUsd (quantity price : ℚ) : ℚ :=
  match market with
  | .crypto => max 0 quantity * max 0 price
  | .forex pair lotSize rate =>
    forexNotionalUsd (max 0 quantity) (max 0 price) pair (max 1 lotSize) rate

/-- The fields of `LivePosition` that an add-on reads. -/
structure LivePosition where
  market : PositionMarket
  executedQuantity : ℚ
  executedQuantity_nonneg : 0 ≤ executedQuantity

/-- Why an add-on is made smaller or refused, with the amount that the message names. -/
inductive AdmissionReason
  | ceilingUnavailable
  | alreadyAt (ceiling : ℚ)
  | belowMinimum (remainingNotionalUsd : ℚ)
  | cannotFit (ceiling : ℚ)
  | cappedAt (totalNotionalUsd ceiling : ℚ)

structure AccumulationQuantityAdmission where
  quantity : ℚ
  requestedQuantity : ℚ
  currentNotionalUsd : ℚ
  maxNotionalUsd : ℚ
  capped : Bool
  reason : Option AdmissionReason

/-- The capped request on the venue's grid: up, or down where up crosses the budget. -/
def boundedQuantity (position : LivePosition) (cappedRequested price : ℚ)
    (rules : NormalizedQuantityRules) (ceiling maximumQuantity : ℚ) : ℚ :=
  let quantity := (resolveExecutableQuantity (some cappedRequested) price rules 0).quantity
  if quantity ≤ 0 ∨ maximumQuantity + 1 / 10 ^ 12 < quantity ∨ ceiling + 1 / 10 ^ 8 <
      positionNotionalUsd position.market (position.executedQuantity + quantity) price then
    roundQuantityDown cappedRequested rules
  else quantity

/-- `admitAccumulationQuantity`; a request or a ceiling that is not a finite number is missing. -/
def admitAccumulationQuantity (position : LivePosition) (requestedQuantity : Option ℚ) (price : ℚ)
    (rules : NormalizedQuantityRules) (maxNotionalUsd : Option ℚ) :
    AccumulationQuantityAdmission :=
  let requested := max 0 (requestedQuantity.getD 0)
  let currentNotionalUsd := positionNotionalUsd position.market position.executedQuantity price
  let ceiling := max 0 (maxNotionalUsd.getD 0)
  let unitNotionalUsd := positionNotionalUsd position.market 1 price
  let refused (reason : AdmissionReason) : AccumulationQuantityAdmission :=
    { quantity := 0, requestedQuantity := requested, currentNotionalUsd, maxNotionalUsd := ceiling,
      capped := true, reason := some reason }
  if ceiling ≤ 0 ∨ unitNotionalUsd ≤ 0 then refused .ceilingUnavailable
  else if ceiling - 1 / 10 ^ 8 ≤ currentNotionalUsd then refused (.alreadyAt ceiling)
  else
    let remainingNotionalUsd := ceiling - currentNotionalUsd
    let maximumQuantity := roundQuantityDown (remainingNotionalUsd / unitNotionalUsd) rules
    if maximumQuantity ≤ 0 ∨ maximumQuantity < rules.minQuantity - 1 / 10 ^ 12 then
      refused (.belowMinimum remainingNotionalUsd)
    else
      let quantity :=
        boundedQuantity position (min requested maximumQuantity) price rules ceiling maximumQuantity
      let totalNotionalUsd := positionNotionalUsd position.market
        (position.executedQuantity + max 0 quantity) price
      if quantity ≤ 0 ∨ quantity < rules.minQuantity - 1 / 10 ^ 12 ∨
          ceiling + 1 / 10 ^ 8 < totalNotionalUsd then refused (.cannotFit ceiling)
      else
        let capped := decide (quantity + 1 / 10 ^ 12 < requested)
        { quantity, requestedQuantity := requested, currentNotionalUsd, maxNotionalUsd := ceiling,
          capped, reason := if capped then some (.cappedAt totalNotionalUsd ceiling) else none }

/-- The quantity that `accumulateIntoLivePosition` goes on with, `none` when it skips the add-on. -/
def executableAddOn (position : LivePosition) (addQty : Option ℚ) (price : ℚ)
    (rules : NormalizedQuantityRules) (maxExecutionNotionalUsd : Option ℚ) : Option ℚ :=
  let admission := admitAccumulationQuantity position addQty price rules maxExecutionNotionalUsd
  if admission.quantity ≤ 0 then none
  else
    let addQty := if admission.capped then some admission.quantity else addQty
    let executableQuantity := (resolveExecutableQuantity addQty price rules 0).quantity
    let executableTotalNotional := positionNotionalUsd position.market
      (position.executedQuantity + executableQuantity) price
    if executableQuantity ≤ 0 ∨
        maxExecutionNotionalUsd.getD 0 + 1 / 10 ^ 8 < executableTotalNotional then none
    else some executableQuantity

lemma positionNotionalUsd_eq_mul {quantity : ℚ} (h : 0 ≤ quantity) (price : ℚ) :
    positionNotionalUsd market quantity price = quantity * positionNotionalUsd market 1 price := by
  cases market with
  | crypto =>
    rw [positionNotionalUsd, positionNotionalUsd, max_eq_right h, max_eq_right zero_le_one, one_mul]
  | forex pair lotSize rate =>
    have hlot : 0 < max 1 lotSize := lt_max_of_lt_left one_pos
    simp only [positionNotionalUsd, forexNotionalUsd, max_eq_right h, max_eq_right zero_le_one,
      one_mul]
    rcases h.eq_or_lt with rfl | hpos
    · simp
    · have hmul : 0 < quantity * max 1 lotSize := mul_pos hpos hlot
      simp only [hmul, hlot]
      split_ifs
      · rw [mul_zero]
      · ring
      · rw [mul_zero]

lemma positionNotionalUsd_nonneg (quantity price : ℚ) :
    0 ≤ positionNotionalUsd market quantity price := by
  cases market with
  | crypto => exact mul_nonneg (le_max_left _ _) (le_max_left _ _)
  | forex pair lotSize rate =>
    simp only [positionNotionalUsd, forexNotionalUsd]
    split_ifs with hnone hrate
    · exact le_rfl
    · push Not at hnone
      exact (mul_pos (mul_pos hnone.1 hnone.2.1) hrate).le
    · exact le_rfl

/-! ## The least executable quantity -/

section Rounding

variable {rules : NormalizedQuantityRules} {price : ℚ}

/-- The minimum of the rules without a universal one. -/
def leastQuantity (rules : NormalizedQuantityRules) (price : ℚ) : ℚ := minimumQuantity rules 0 price

lemma minQuantity_le_leastQuantity (rules : NormalizedQuantityRules) (price : ℚ) :
    rules.minQuantity ≤ leastQuantity rules price := le_max_left _ _

lemma leastQuantity_le {m : ℚ} (hpr : 0 < price) (hqty : rules.minQuantity ≤ m)
    (hnotl : rules.minNotionalUsdt ≤ m * price) : leastQuantity rules price ≤ m := by
  rw [leastQuantity, minimumQuantity, if_pos hpr, max_eq_left rules.minNotionalUsdt_nonneg]
  exact max_le hqty ((div_le_iff₀ hpr).mpr hnotl)

/-- A quantity is the least multiple of the step that reaches the request and the minimum, up to
the rounding error that `roundQuantityUp` allows. -/
structure IsLeastExecutable (rules : NormalizedQuantityRules) (price requested quantity : ℚ) :
    Prop where
  onStep : OnStep rules quantity
  reaches : max requested (leastQuantity rules price) -
    EPSILON * max requested (leastQuantity rules price) ≤ quantity
  least : ∀ m, OnStep rules m → max requested (leastQuantity rules price) ≤ m → quantity ≤ m

lemma isLeastExecutable_roundQuantityUp {requested : ℚ}
    (h : 0 < max requested (leastQuantity rules price)) :
    IsLeastExecutable rules price requested
      (roundQuantityUp (max requested (leastQuantity rules price)) rules) := by
  obtain ⟨honStep, -, hreac, hleast⟩ := @roundQuantityUp_spec rules _ h
  exact ⟨honStep, hreac, hleast⟩

end Rounding

section Budget

variable {position : LivePosition} {price : ℚ} {rules : NormalizedQuantityRules}

/-- What the position costs with a quantity more. -/
def LivePosition.totalNotionalUsd (position : LivePosition) (quantity price : ℚ) : ℚ :=
  positionNotionalUsd position.market (position.executedQuantity + quantity) price

lemma totalNotionalUsd_eq {quantity : ℚ} (h : 0 ≤ quantity) :
    position.totalNotionalUsd quantity price =
      positionNotionalUsd position.market position.executedQuantity price +
        quantity * positionNotionalUsd position.market 1 price := by
  rw [LivePosition.totalNotionalUsd,
    positionNotionalUsd_eq_mul _ (add_nonneg position.executedQuantity_nonneg h), add_mul,
    ← positionNotionalUsd_eq_mul _ position.executedQuantity_nonneg]

/-- The largest quantity on the grid that the ceiling leaves room for. -/
def maximumQuantity (position : LivePosition) (price : ℚ) (rules : NormalizedQuantityRules)
    (ceiling : ℚ) : ℚ :=
  roundQuantityDown ((ceiling - positionNotionalUsd position.market position.executedQuantity price)
    /
    positionNotionalUsd position.market 1 price) rules

/-- When an add-on is admitted. -/
structure Admitted (position : LivePosition) (requestedQuantity : Option ℚ) (price : ℚ)
    (rules : NormalizedQuantityRules) (maxNotionalUsd : Option ℚ) (quantity : ℚ) : Prop where
  ceiling_pos : 0 < maxNotionalUsd.getD 0
  requested_pos : 0 < requestedQuantity.getD 0
  maximum_pos : 0 < maximumQuantity position price rules (maxNotionalUsd.getD 0)
  quantity_eq : boundedQuantity position (min (requestedQuantity.getD 0)
    (maximumQuantity position price rules (maxNotionalUsd.getD 0))) price rules
      (maxNotionalUsd.getD 0) (maximumQuantity position price rules (maxNotionalUsd.getD 0)) =
        quantity
  quantity_pos : 0 < quantity
  minimum : rules.minQuantity - 1 / 10 ^ 12 ≤ quantity
  fits : position.totalNotionalUsd quantity price ≤ maxNotionalUsd.getD 0 + 1 / 10 ^ 8

/-- The least executable quantity that a ceiling leaves room for. -/
structure Fits (position : LivePosition) (price : ℚ) (rules : NormalizedQuantityRules)
    (ceiling m : ℚ) : Prop where
  onStep : OnStep rules m
  pos : 0 < m
  minQuantity : rules.minQuantity ≤ m
  minNotional : rules.minNotionalUsdt ≤ m * price
  budget : m * positionNotionalUsd position.market 1 price ≤
    ceiling - positionNotionalUsd position.market position.executedQuantity price - 1 / 10 ^ 8

/-- The minimum quantity lies above a multiple of the step by more than the tolerance, but by no
more than the rounding error that `roundQuantityUp` allows. -/
def MinimumSlips (rules : NormalizedQuantityRules) : Prop :=
  ∃ m, OnStep rules m ∧ m + 1 / 10 ^ 12 < rules.minQuantity ∧
    rules.minQuantity - m ≤ EPSILON * rules.minQuantity

lemma admitAccumulationQuantity_cases (requestedQuantity maxNotionalUsd : Option ℚ) :
    (admitAccumulationQuantity position requestedQuantity price rules maxNotionalUsd).quantity = 0 ∨
      Admitted position requestedQuantity price rules maxNotionalUsd
        (admitAccumulationQuantity position requestedQuantity price rules
          maxNotionalUsd).quantity := by
  unfold admitAccumulationQuantity
  dsimp only
  split
  · exact .inl rfl
  rename_i hceil
  split
  · exact .inl rfl
  split
  · exact .inl rfl
  rename_i hmax
  split
  · exact .inl rfl
  · rename_i hrefus
    rw [not_or, not_le] at hceil
    rw [not_or, not_le] at hmax
    rw [not_or, not_or, not_le, not_lt, not_lt] at hrefus
    have hpos : 0 < maxNotionalUsd.getD 0 := by
      by_contra hle
      rw [max_eq_left (not_lt.mp hle)] at hceil
      exact lt_irrefl 0 hceil.1
    have hreqd : 0 < requestedQuantity.getD 0 := by
      by_contra hle
      rw [max_eq_left (not_lt.mp hle), min_eq_left hmax.1.le] at hrefus
      exact lt_irrefl 0 hrefus.1
    rw [max_eq_right hpos.le] at hmax hrefus ⊢
    rw [max_eq_right hreqd.le] at hrefus ⊢
    rw [max_eq_right hrefus.1.le] at hrefus
    exact .inr ⟨hpos, hreqd, hmax.1, rfl, hrefus.1, hrefus.2.1, hrefus.2.2⟩

variable (hunit : 0 < positionNotionalUsd position.market 1 price)
include hunit

/-- On the grid, what is at most the largest quantity is what fits under the ceiling. -/
lemma le_maximumQuantity_iff {ceiling m : ℚ} (hm : OnStep rules m) (hpos : 0 < m) :
    m ≤ maximumQuantity position price rules ceiling ↔
      position.totalNotionalUsd m price ≤ ceiling := by
  have hfits : m ≤ (ceiling - positionNotionalUsd position.market position.executedQuantity price) /
      positionNotionalUsd position.market 1 price ↔
      position.totalNotionalUsd m price ≤ ceiling := by
    rw [le_div_iff₀ hunit, totalNotionalUsd_eq hpos.le]
    constructor <;> intro h <;> linarith
  obtain ⟨-, -, hle, hgreat⟩ := roundQuantityDown_spec rules
    ((ceiling - positionNotionalUsd position.market position.executedQuantity price) /
      positionNotionalUsd position.market 1 price)
  rw [← hfits]
  refine ⟨fun h => ?_, hgreat m hm⟩
  rcases le_or_gt 0 ((ceiling - positionNotionalUsd position.market position.executedQuantity
    price) / positionNotionalUsd position.market 1 price) with hsign | hsign
  · exact h.trans (hle hsign)
  · rw [maximumQuantity, roundQuantityDown_of_nonpos hsign.le] at h
    exact absurd h hpos.not_ge

lemma boundedQuantity_cases {cappedRequested ceiling : ℚ} (hcapp : 0 < cappedRequested) :
    (boundedQuantity position cappedRequested price rules ceiling
        (maximumQuantity position price rules ceiling) =
      roundQuantityUp (max cappedRequested (leastQuantity rules price)) rules) ∨
    (boundedQuantity position cappedRequested price rules ceiling
        (maximumQuantity position price rules ceiling) = roundQuantityDown cappedRequested rules ∧
      maximumQuantity position price rules ceiling <
        roundQuantityUp (max cappedRequested (leastQuantity rules price)) rules) := by
  have hpos : 0 < max cappedRequested (leastQuantity rules price) := lt_max_of_lt_left hcapp
  obtain ⟨honStep, hup, -, -⟩ := @roundQuantityUp_spec rules _ hpos
  rw [boundedQuantity, resolveExecutableQuantity_of_pos hcapp]
  split_ifs with hcross
  · refine .inr ⟨rfl, ?_⟩
    by_contra hle
    have hfits := (le_maximumQuantity_iff hunit honStep hup).mp (not_lt.mp hle)
    rcases hcross with hcross | hcross | hcross
    · exact hup.not_ge hcross
    · rw [← leastQuantity] at hcross
      linarith [not_lt.mp hle]
    · rw [LivePosition.totalNotionalUsd, leastQuantity] at hfits
      linarith
  · exact .inl rfl

/-- A positive bounded quantity is executable and a fixed point. -/
lemma boundedQuantity_spec {requested ceiling b : ℚ} (hreqd : 0 < requested)
    (hmax : 0 < maximumQuantity position price rules ceiling)
    (hb : boundedQuantity position
      (min requested (maximumQuantity position price rules ceiling)) price rules ceiling
      (maximumQuantity position price rules ceiling) = b) (hpos : 0 < b) :
    OnStep rules b ∧ (requested < b → IsLeastExecutable rules price requested b) ∧
      ∀ again ∈ [b, requested], roundQuantityUp (max again (leastQuantity rules price)) rules = b ∨
        maximumQuantity position price rules ceiling <
          roundQuantityUp (max again (leastQuantity rules price)) rules := by
  obtain ⟨hmaxStep, -⟩ := roundQuantityDown_spec rules
    ((ceiling - positionNotionalUsd position.market position.executedQuantity price) /
      positionNotionalUsd position.market 1 price)
  have hcapp : 0 < min requested (maximumQuantity position price rules ceiling) := lt_min hreqd hmax
  have hst : 0 < max (min requested (maximumQuantity position price rules ceiling))
    (leastQuantity rules price) := lt_max_of_lt_left hcapp
  have hgrow : roundQuantityUp (max (min requested (maximumQuantity position price rules ceiling))
      (leastQuantity rules price)) rules ≤
        roundQuantityUp (max requested (leastQuantity rules price)) rules :=
    roundQuantityUp_mono hst (max_le_max_right _ (min_le_left _ _))
  rcases @boundedQuantity_cases _ _ rules hunit _ ceiling hcapp with
    heq | ⟨heq, hover⟩ <;> rw [hb] at heq
  · -- The request was rounded up.
    obtain ⟨honStep, -, -, hleast⟩ := @roundQuantityUp_spec rules _ hst
    rw [← heq] at honStep hleast hgrow
    have hkeep : roundQuantityUp (max b (leastQuantity rules price)) rules = b := by
      refine le_antisymm ?_ ?_
      · rcases le_total (leastQuantity rules price) b with hle | hle
        · rw [max_eq_left hle, roundQuantityUp_of_onStep hpos honStep]
        · rw [max_eq_right hle, heq]
          exact roundQuantityUp_mono (hpos.trans_le hle) (le_max_right _ _)
      · conv_lhs => rw [← roundQuantityUp_of_onStep hpos honStep]
        exact roundQuantityUp_mono hpos (le_max_left _ _)
    have hagain : roundQuantityUp (max requested (leastQuantity rules price)) rules = b ∨
        maximumQuantity position price rules ceiling <
          roundQuantityUp (max requested (leastQuantity rules price)) rules := by
      rcases le_total requested (maximumQuantity position price rules ceiling) with hle | hle
      · rw [min_eq_left hle] at heq
        exact .inl heq.symm
      · rcases hgrow.eq_or_lt with hsame | hmore
        · exact .inl hsame.symm
        · refine .inr (lt_of_le_of_lt ?_ hmore)
          rw [heq, min_eq_right hle]
          conv_lhs => rw [← roundQuantityUp_of_onStep hmax hmaxStep]
          exact roundQuantityUp_mono hmax (le_max_left _ _)
    refine ⟨honStep, fun hmore => ?_, ?_⟩
    · have hsame : roundQuantityUp (max requested (leastQuantity rules price)) rules = b := by
        refine le_antisymm ?_ hgrow
        rcases le_total requested (leastQuantity rules price) with hle | hle
        · rw [max_eq_right hle, heq]
          exact roundQuantityUp_mono (hreqd.trans_le hle) (le_max_right _ _)
        · rw [max_eq_left hle]
          exact (roundQuantityUp_spec hreqd).2.2.2 b honStep hmore.le
      rw [← hsame]
      exact isLeastExecutable_roundQuantityUp (lt_max_of_lt_left hreqd)
    · intro again hmem
      rw [mem_cons, mem_singleton] at hmem
      rcases hmem with rfl | rfl
      · exact .inl hkeep
      · exact hagain
  · -- The least executable quantity did not fit, and the request was rounded down.
    obtain ⟨honStep, -, hle, -⟩ := roundQuantityDown_spec rules
      (min requested (maximumQuantity position price rules ceiling))
    have hbelow := hle hcapp.le
    rw [← heq] at honStep hbelow
    refine ⟨honStep, fun hmore => ?_, ?_⟩
    · exact absurd (hbelow.trans (min_le_left _ _)) hmore.not_ge
    · intro again hmem
      rw [mem_cons, mem_singleton] at hmem
      rcases hmem with rfl | rfl
      · refine .inr (hover.trans_le ?_)
        -- The capped request alone fits, so the minimum is what did not.
        have hmin : min requested (maximumQuantity position price rules ceiling) ≤
            leastQuantity rules price := by
          by_contra hlt
          rw [max_eq_left (not_le.mp hlt).le] at hover
          exact absurd ((roundQuantityUp_spec hcapp).2.2.2 _ hmaxStep (min_le_right _ _))
            hover.not_ge
        rw [max_eq_right hmin] at hst ⊢
        exact roundQuantityUp_mono hst (le_max_right _ _)
      · exact .inr (hover.trans_le hgrow)

/-- Where some quantity fits, the admitted one is not zero. -/
lemma admitAccumulationQuantity_pos {requestedQuantity maxNotionalUsd : Option ℚ}
    (hpr : 0 < price) (hreqd : 0 < requestedQuantity.getD 0) {m : ℚ}
    (hm : Fits position price rules (maxNotionalUsd.getD 0) m) (hslip : ¬MinimumSlips rules) :
    (admitAccumulationQuantity position requestedQuantity price rules maxNotionalUsd).quantity ≠
      0 := by
  have hcur := positionNotionalUsd_nonneg position.market position.executedQuantity price
  have hcost := mul_pos hm.pos hunit
  have hbudg := hm.budget
  have hceil : 0 < maxNotionalUsd.getD 0 := by linarith
  have hmax : m ≤ maximumQuantity position price rules (maxNotionalUsd.getD 0) := by
    refine (le_maximumQuantity_iff hunit hm.onStep hm.pos).mpr ?_
    rw [totalNotionalUsd_eq hm.pos.le]
    linarith
  have hmaxPos := hm.pos.trans_le hmax
  have hcapp : 0 < min (requestedQuantity.getD 0)
      (maximumQuantity position price rules (maxNotionalUsd.getD 0)) :=
    lt_min hreqd hmaxPos
  have hreach : max (min (requestedQuantity.getD 0)
      (maximumQuantity position price rules (maxNotionalUsd.getD 0))) (leastQuantity rules price) ≤
        maximumQuantity position price rules (maxNotionalUsd.getD 0) :=
    max_le (min_le_right _ _) ((leastQuantity_le hpr hm.minQuantity hm.minNotional).trans hmax)
  have hmaxStep : OnStep rules (maximumQuantity position price rules (maxNotionalUsd.getD 0)) :=
    (roundQuantityDown_spec rules _).1
  obtain ⟨hstep, hup, hnear, hleast⟩ := @roundQuantityUp_spec rules _
    (lt_max_of_lt_left hcapp : 0 < max _ (leastQuantity rules price))
  have hle := hleast _ hmaxStep hreach
  have hboun := (@boundedQuantity_cases _ _ rules hunit _ (maxNotionalUsd.getD 0)
    hcapp).resolve_right fun h => h.2.not_ge hle
  have hfits := (le_maximumQuantity_iff hunit hstep hup).mp hle
  rw [LivePosition.totalNotionalUsd, ← hboun] at hfits
  rw [← hboun] at hup
  have hmin : rules.minQuantity - 1 / 10 ^ 12 ≤ boundedQuantity position
      (min (requestedQuantity.getD 0)
        (maximumQuantity position price rules (maxNotionalUsd.getD 0))) price rules
      (maxNotionalUsd.getD 0) (maximumQuantity position price rules (maxNotionalUsd.getD 0)) := by
    by_contra hlt
    refine hslip ⟨_, hstep, by linarith [not_le.mp hlt], ?_⟩
    have hbelow := (minQuantity_le_leastQuantity rules price).trans (le_max_right
      (min (requestedQuantity.getD 0)
        (maximumQuantity position price rules (maxNotionalUsd.getD 0))) _)
    nlinarith [EPSILON_le_one]
  rw [maximumQuantity] at hmax hmaxPos
  unfold admitAccumulationQuantity
  rw [max_eq_right hceil.le, max_eq_right hreqd.le,
    if_neg (by rw [not_or, not_le, not_le]; exact ⟨hceil, hunit⟩),
    if_neg (by linarith),
    if_neg (by rw [not_or, not_le]; exact ⟨hmaxPos, by linarith [hm.minQuantity]⟩),
    if_neg (by
      rw [not_or, not_or, not_le, not_lt]
      rw [maximumQuantity] at hup hmin hfits
      exact ⟨hup, hmin, by rw [max_eq_right hup.le]; linarith⟩)]
  exact hup.ne'

/-- No add-on, the admitted quantity, or one at the ceiling. -/
lemma executableAddOn_cases (requestedQuantity maxNotionalUsd : Option ℚ) :
    executableAddOn position requestedQuantity price rules maxNotionalUsd = none ∨
      executableAddOn position requestedQuantity price rules maxNotionalUsd =
        some (admitAccumulationQuantity position requestedQuantity price rules
          maxNotionalUsd).quantity ∨
      ∃ quantity, executableAddOn position requestedQuantity price rules maxNotionalUsd =
          some quantity ∧ OnStep rules quantity ∧
        maxNotionalUsd.getD 0 < position.totalNotionalUsd quantity price ∧
        position.totalNotionalUsd quantity price ≤ maxNotionalUsd.getD 0 + 1 / 10 ^ 8 := by
  rcases @admitAccumulationQuantity_cases position price rules requestedQuantity maxNotionalUsd with
    hzero | hadmd
  · rw [executableAddOn, hzero]
    exact .inl rfl
  · obtain ⟨-, hreqd, hmax, heq, hpos, -, -⟩ := hadmd
    obtain ⟨-, -, hagain⟩ := boundedQuantity_spec hunit hreqd hmax heq hpos
    rw [executableAddOn, if_neg hpos.not_ge]
    dsimp only
    generalize (admitAccumulationQuantity position requestedQuantity price rules
      maxNotionalUsd).capped = capped
    generalize (admitAccumulationQuantity position requestedQuantity price rules
      maxNotionalUsd).quantity = b at hpos hagain ⊢
    obtain ⟨again, hsome, hmem⟩ : ∃ again, (if capped = true then some b else requestedQuantity) =
        some again ∧ again ∈ [b, requestedQuantity.getD 0] := by
      cases capped with
      | true => exact ⟨b, rfl, mem_cons_self ..⟩
      | false =>
        obtain ⟨requested, rfl⟩ : ∃ requested, requestedQuantity = some requested := by
          cases requestedQuantity with
          | none => exact absurd hreqd (lt_irrefl 0)
          | some requested => exact ⟨requested, rfl⟩
        exact ⟨requested, rfl, mem_cons_of_mem _ (mem_singleton_self _)⟩
    have hagainPos : 0 < again := by
      rw [mem_cons, mem_singleton] at hmem
      rcases hmem with rfl | rfl
      · exact hpos
      · exact hreqd
    rw [hsome, resolveExecutableQuantity_of_pos hagainPos]
    split_ifs with hskip
    · exact .inl rfl
    · rw [not_or, not_le, not_lt] at hskip
      rcases hagain again hmem with hsame | hover
      · exact .inr (.inl (congrArg some hsame))
      · have honStep := (@roundQuantityUp_spec rules _
          (lt_max_of_lt_left hagainPos : 0 < max again (leastQuantity rules price))).1
        refine .inr (.inr ⟨_, rfl, honStep, ?_, hskip.2⟩)
        by_contra hle
        exact hover.not_ge ((le_maximumQuantity_iff hunit honStep hskip.1).mpr (not_lt.mp hle))

end Budget

/-- An admitted quantity lies on the venue's step, is not below the minimum quantity and keeps the
position under its ceiling, up to the tolerances; the request is exceeded only by the least
executable quantity. -/
theorem admitAccumulationQuantity_spec (position : LivePosition) {price : ℚ} (hprice : 0 < price)
    (hunit : 0 < positionNotionalUsd position.market 1 price) (rules : NormalizedQuantityRules)
    (requestedQuantity maxNotionalUsd : Option ℚ) :
    ((admitAccumulationQuantity position requestedQuantity price rules maxNotionalUsd).quantity =
        0 ∨
      OnStep rules
        (admitAccumulationQuantity position requestedQuantity price rules maxNotionalUsd).quantity ∧
      rules.minQuantity - 1 / 10 ^ 12 ≤
        (admitAccumulationQuantity position requestedQuantity price rules maxNotionalUsd).quantity ∧
      position.totalNotionalUsd (admitAccumulationQuantity position requestedQuantity price rules
            maxNotionalUsd).quantity price ≤
        maxNotionalUsd.getD 0 + 1 / 10 ^ 8) ∧
    ((admitAccumulationQuantity position requestedQuantity price rules maxNotionalUsd).quantity =
        0 →
      requestedQuantity.getD 0 ≤ 0 ∨
        (∀ m, ¬Fits position price rules (maxNotionalUsd.getD 0) m) ∨ MinimumSlips rules) ∧
    (0 < (admitAccumulationQuantity position requestedQuantity price rules
        maxNotionalUsd).quantity →
      requestedQuantity.getD 0 < (admitAccumulationQuantity position requestedQuantity price rules
        maxNotionalUsd).quantity →
      IsLeastExecutable rules price (requestedQuantity.getD 0)
        (admitAccumulationQuantity position requestedQuantity price rules
          maxNotionalUsd).quantity) ∧
    (executableAddOn position requestedQuantity price rules maxNotionalUsd = none ∨
      executableAddOn position requestedQuantity price rules maxNotionalUsd =
        some (admitAccumulationQuantity position requestedQuantity price rules
          maxNotionalUsd).quantity ∨
      ∃ quantity, executableAddOn position requestedQuantity price rules maxNotionalUsd =
          some quantity ∧ OnStep rules quantity ∧
        maxNotionalUsd.getD 0 < position.totalNotionalUsd quantity price ∧
        position.totalNotionalUsd quantity price ≤ maxNotionalUsd.getD 0 + 1 / 10 ^ 8) := by
  refine ⟨?_, fun hzero => ?_, fun hpos hmore => ?_,
    executableAddOn_cases hunit requestedQuantity maxNotionalUsd⟩
  · rcases @admitAccumulationQuantity_cases position price rules requestedQuantity maxNotionalUsd
      with hzero | hadmitted
    · exact .inl hzero
    · obtain ⟨honStep, -⟩ := boundedQuantity_spec hunit hadmitted.requested_pos
        hadmitted.maximum_pos hadmitted.quantity_eq hadmitted.quantity_pos
      exact .inr ⟨honStep, hadmitted.minimum, hadmitted.fits⟩
  · by_contra hnone
    rw [not_or, not_or, not_le] at hnone
    obtain ⟨hrequested, hfits, hslip⟩ := hnone
    push Not at hfits
    obtain ⟨m, hm⟩ := hfits
    exact admitAccumulationQuantity_pos hunit hprice hrequested hm hslip hzero
  · rcases @admitAccumulationQuantity_cases position price rules requestedQuantity maxNotionalUsd
      with hzero | hadmitted
    · exact absurd hzero hpos.ne'
    · exact (boundedQuantity_spec hunit hadmitted.requested_pos hadmitted.maximum_pos
        hadmitted.quantity_eq hadmitted.quantity_pos).2.1 hmore

/-- A position of three units, and rules with a step of a tenth. -/
def threeUnits : LivePosition where
  market := .crypto
  executedQuantity := 3
  executedQuantity_nonneg := by norm_num

/-- Rules with a step of one tenth and a minimum notional of five. -/
def tenths : NormalizedQuantityRules :=
  normalizeExchangeQuantityRules
    { quantityStep := some (1 / 10), minQuantity := some (1 / 10), minNotionalUsdt := some 5 }

theorem admitAccumulationQuantity_spec_threeUnits :
    (admitAccumulationQuantity threeUnits (some (21 / 20)) 10 tenths (some 50)).quantity = 0 ∨
      OnStep tenths
        (admitAccumulationQuantity threeUnits (some (21 / 20)) 10 tenths (some 50)).quantity ∧
      tenths.minQuantity - 1 / 10 ^ 12 ≤
        (admitAccumulationQuantity threeUnits (some (21 / 20)) 10 tenths (some 50)).quantity ∧
      threeUnits.totalNotionalUsd
          (admitAccumulationQuantity threeUnits (some (21 / 20)) 10 tenths (some 50)).quantity 10 ≤
        50 + 1 / 10 ^ 8 :=
  (admitAccumulationQuantity_spec threeUnits (by norm_num) (by decide +kernel) tenths
    (some (21 / 20)) (some 50)).1

/-- Rules with a minimum a little above the step. -/
def aboveOne : NormalizedQuantityRules :=
  normalizeExchangeQuantityRules { quantityStep := some 1, minQuantity := some (1 + 1 / 10 ^ 13) }

/-- A quantity is admitted that lies a ten-trillionth below the minimum quantity. -/
theorem not_minimum_aboveOne :
    ¬ ∀ (position : LivePosition) (requested price ceiling : ℚ) (rules : NormalizedQuantityRules),
      0 < price → 0 < positionNotionalUsd position.market 1 price →
      (admitAccumulationQuantity position (some requested) price rules (some ceiling)).quantity =
          0 ∨
        rules.minQuantity ≤ (admitAccumulationQuantity position (some requested) price rules
            (some ceiling)).quantity := by
  intro h
  have hquantity :
      (admitAccumulationQuantity threeUnits (some 1) 1 aboveOne (some (9 / 2))).quantity = 1 := by
    decide +kernel
  have hminimum : aboveOne.minQuantity = 1 + 1 / 10 ^ 13 := by decide +kernel
  have hspec := h threeUnits 1 1 (9 / 2) aboveOne one_pos (by decide +kernel)
  rw [hquantity, hminimum] at hspec
  norm_num at hspec

end OrderQuantity

end CtsEngine
