import CtsEngine.StopLevels.AllowedStop

/-!
# The security stop of a slot

`securityStopForRows` of `lib/aggregate-protection-coordination.ts`: one stop for all rows of a
symbol and direction, beyond the outermost stop of the rows and on the safe side of their
liquidation prices.  Zero stands for no price.
-/

namespace CtsEngine

open List

namespace StopLevels

open SignificantDigits TickGrid

/-- `AggregateProtectionCandidate`; a number is `none` when it is missing or not finite. -/
structure AggregateProtectionCandidate where
  id : String
  symbol : String
  direction : Direction
  quantity : Option ℚ
  entryPrice : Option ℚ := none
  liquidationPrice : Option ℚ := none
  priceTick : Option ℚ := none
  desiredStopLoss : Option ℚ := none
  desiredTakeProfit : Option ℚ := none
  createdAt : Option ℚ := none
  quantityStep : Option ℚ := none
  hasSecurityStopOrder : Bool := false
  hasPendingSecurityStop : Bool := false
deriving DecidableEq

abbrev finitePositive (value : Option ℚ) : ℚ := positive value

/-- `Math.max(...values)` of some values. -/
def greatest (values : List ℚ) : ℚ := values.max?.getD 0

/-- `Math.min(...values)` of some values. -/
def least (values : List ℚ) : ℚ := values.min?.getD 0

/-- The positive numbers among values. -/
def positives (values : List (Option ℚ)) : List ℚ := (values.map finitePositive).filter (0 < ·)

def outerStopLoss (direction : Direction) (values : List (Option ℚ)) : ℚ :=
  if direction = .long then least (positives values) else greatest (positives values)

def outerTakeProfit (direction : Direction) (values : List (Option ℚ)) : ℚ :=
  if direction = .long then greatest (positives values) else least (positives values)

def roundDownToTick (value tick : ℚ) : ℚ :=
  if 0 < value ∧ 0 < tick then
    toPrecision15 (⌊(value + tick * (1 / 10 ^ 9)) / tick⌋ * tick)
  else 0

def roundUpToTick (value tick : ℚ) : ℚ :=
  if 0 < value ∧ 0 < tick then
    toPrecision15 (⌈(value - tick * (1 / 10 ^ 9)) / tick⌉ * tick)
  else 0

namespace AggregateProtectionCandidate

variable (row : AggregateProtectionCandidate)

/-- The distance between the entry and the stop. -/
def stopRange : ℚ :=
  let entry := finitePositive row.entryPrice
  let stop := finitePositive row.desiredStopLoss
  if 0 < entry ∧ 0 < stop then |entry - stop| else 0

/-- The liquidation price, or zero when it lies on the wrong side of the entry. -/
def validLiquidation (direction : Direction) : ℚ :=
  let liquidation := finitePositive row.liquidationPrice
  let entry := finitePositive row.entryPrice
  if ¬0 < liquidation then 0
  else if 0 < entry ∧ ¬isAbove direction entry liquidation then 0
  else liquidation

end AggregateProtectionCandidate

/-- The largest tick of the rows. -/
def priceTickOf (rows : List AggregateProtectionCandidate) : ℚ :=
  greatest (rows.map fun row => finitePositive row.priceTick)

/-- The valid liquidation prices of the rows. -/
def liquidationPrices (direction : Direction) (rows : List AggregateProtectionCandidate) : List ℚ :=
  (rows.map (·.validLiquidation direction)).filter (0 < ·)

/-- The security stop of long rows before the last check. -/
def longPrice (outer securityStopGap priceTick : ℚ) (liquidationPrices : List ℚ) : ℚ :=
  let liquidationFloor :=
    if 0 < liquidationPrices.length then greatest liquidationPrices + priceTick * 2 else 0
  let price := roundDownToTick (outer - securityStopGap) priceTick
  if 0 < liquidationFloor ∧ price < liquidationFloor then roundUpToTick liquidationFloor priceTick
  else price

/-- The security stop of short rows before the last check. -/
def shortPrice (outer securityStopGap priceTick : ℚ) (liquidationPrices : List ℚ) : ℚ :=
  let liquidationCeiling :=
    if 0 < liquidationPrices.length then some (least liquidationPrices - priceTick * 2) else none
  let price := roundUpToTick (outer + securityStopGap) priceTick
  match liquidationCeiling with
  | some ceiling => if ceiling < price then roundDownToTick ceiling priceTick else price
  | none => price

/-- What `securityStopForRows` returns. -/
structure SecurityStop where
  outerStopLoss : ℚ
  maximumStopRange : ℚ
  securityStopGap : ℚ
  securityStopPrice : ℚ

/-- No outer stop, no stop range, or a row without a tick. -/
def cannotArm (direction : Direction) (rows : List AggregateProtectionCandidate) : Bool :=
  decide (¬0 < outerStopLoss direction (rows.map (·.desiredStopLoss))) ||
    (decide (¬0 < greatest (rows.map (·.stopRange))) ||
      rows.any fun row => ¬0 < finitePositive row.priceTick)

def securityStopForRows (direction : Direction) (rows : List AggregateProtectionCandidate) :
    SecurityStop :=
  let outer := outerStopLoss direction (rows.map (·.desiredStopLoss))
  let maximumStopRange := greatest (rows.map (·.stopRange))
  if cannotArm direction rows then ⟨outer, maximumStopRange, 0, 0⟩
  else
    let priceTick := priceTickOf rows
    let securityStopGap := max (priceTick * 2) (maximumStopRange * (1 / 10))
    let liquidations := liquidationPrices direction rows
    match direction with
    | .long =>
      let price := longPrice outer securityStopGap priceTick liquidations
      let price := if ¬0 < price ∨ outer - priceTick + priceTick * (1 / 10 ^ 8) < price then 0
        else price
      ⟨outer, maximumStopRange, securityStopGap, price⟩
    | .short =>
      let price := shortPrice outer securityStopGap priceTick liquidations
      let price := if ¬0 < price ∨ price < outer + priceTick - priceTick * (1 / 10 ^ 8) then 0
        else price
      ⟨outer, maximumStopRange, securityStopGap, price⟩

/-! ## The price is the outermost one -/

/-- A price on the tick that is at least one tick farther from the entry than every stop of the
rows, up to the tolerance of the check, and two ticks on the safe side of every valid liquidation
price, up to the tolerance of the rounding and to the digits that are written. -/
structure IsOutermost (direction : Direction) (rows : List AggregateProtectionCandidate)
    (price : ℚ) : Prop where
  on_tick : ∃ n : ℤ, price = toPrecision15 (n * priceTickOf rows)
  outside : ∀ row ∈ rows, 0 < finitePositive row.desiredStopLoss → ¬isAbove direction price
    (lowered direction (finitePositive row.desiredStopLoss)
      (priceTickOf rows - priceTickOf rows * (1 / 10 ^ 8)))
  safe : ∀ row ∈ rows, 0 < row.validLiquidation direction → ¬isAbove direction
    (toPrecision15 (lowered direction (row.validLiquidation direction)
      (priceTickOf rows * (1 / 10 ^ 9) - priceTickOf rows * 2))) price

variable {value tick outer gap : ℚ} {values liquidations : List ℚ}

lemma le_greatest (h : value ∈ values) : value ≤ greatest values := by
  rcases hmax : values.max? with - | top
  · rw [max?_eq_none_iff.mp hmax] at h
    cases h
  · rw [greatest, hmax]
    exact (max?_eq_some_iff.mp hmax).2 value h

lemma least_le (h : value ∈ values) : least values ≤ value := by
  rcases hmin : values.min? with - | bottom
  · rw [min?_eq_none_iff.mp hmin] at h
    cases h
  · rw [least, hmin]
    exact (min?_eq_some_iff.mp hmin).2 value h

lemma roundDownToTick_eq (h : 0 < roundDownToTick value tick) :
    roundDownToTick value tick = down 15 tickTolerance tick value := by
  rw [roundDownToTick] at h ⊢
  split_ifs at h ⊢ with hpos
  · rw [down, below, toPrecision15, tickTolerance, add_div, mul_div_cancel_left₀ _ hpos.2.ne']
  · exact absurd h (lt_irrefl 0)

lemma roundUpToTick_eq (h : 0 < roundUpToTick value tick) :
    roundUpToTick value tick = up 15 tickTolerance tick value := by
  rw [roundUpToTick] at h ⊢
  split_ifs at h ⊢ with hpos
  · rw [up, above, toPrecision15, tickTolerance, sub_div, mul_div_cancel_left₀ _ hpos.2.ne']
  · exact absurd h (lt_irrefl 0)

lemma tickTolerance_mul (tick : ℚ) : tickTolerance * tick = tick * (1 / 10 ^ 9) := by
  rw [tickTolerance, mul_comm]

lemma longPrice_spec (htick : 0 < tick) (h : 0 < longPrice outer gap tick liquidations) :
    (∃ n : ℤ, longPrice outer gap tick liquidations = toPrecision15 (n * tick)) ∧
      ∀ liquidation ∈ liquidations, toPrecision15 (liquidation + tick * 2 - tick * (1 / 10 ^ 9)) ≤
          longPrice outer gap tick liquidations := by
  unfold longPrice at h ⊢
  dsimp only at h ⊢
  have hfloor : ∀ liquidation ∈ liquidations, liquidation + tick * 2 ≤
      (if 0 < liquidations.length then greatest liquidations + tick * 2 else 0) := by
    intro liquidation hmem
    rw [if_pos (length_pos_of_mem hmem)]
    linarith [le_greatest hmem]
  generalize (if 0 < liquidations.length then greatest liquidations + tick * 2 else 0) = bound
    at h hfloor ⊢
  split_ifs at h ⊢ with hbelow
  · rw [roundUpToTick_eq h]
    refine ⟨⟨_, rfl⟩, fun liquidation hmem => round_mono (by norm_num) ?_⟩
    have hreach := le_above_mul htick tickTolerance bound
    rw [tickTolerance_mul] at hreach
    linarith [hfloor liquidation hmem]
  · have hdown := roundDownToTick_eq h
    rw [hdown] at hbelow ⊢
    refine ⟨⟨_, rfl⟩, fun liquidation hmem => ?_⟩
    have hle : bound ≤ down 15 tickTolerance tick (outer - gap) := by
      by_contra hlt
      exact hbelow ⟨by linarith, not_le.mp hlt⟩
    calc toPrecision15 (liquidation + tick * 2 - tick * (1 / 10 ^ 9))
        ≤ round 15 (down 15 tickTolerance tick (outer - gap)) :=
          round_mono (by norm_num) (by linarith [hfloor liquidation hmem])
      _ = down 15 tickTolerance tick (outer - gap) := round_round (by norm_num) _

lemma shortPrice_spec (htick : 0 < tick) (h : 0 < shortPrice outer gap tick liquidations) :
    (∃ n : ℤ, shortPrice outer gap tick liquidations = toPrecision15 (n * tick)) ∧
      ∀ liquidation ∈ liquidations, shortPrice outer gap tick liquidations ≤
          toPrecision15 (liquidation - tick * 2 + tick * (1 / 10 ^ 9)) := by
  unfold shortPrice at h ⊢
  by_cases hsome : 0 < liquidations.length
  · rw [if_pos hsome] at h ⊢
    dsimp only at h ⊢
    have hceil : ∀ liquidation ∈ liquidations,
        least liquidations - tick * 2 ≤ liquidation - tick * 2 := fun liquidation hmem => by
      linarith [least_le hmem]
    split_ifs at h ⊢ with habove
    · rw [roundDownToTick_eq h]
      refine ⟨⟨_, rfl⟩, fun liquidation hmem => round_mono (by norm_num) ?_⟩
      have hreach := below_mul_le htick tickTolerance (least liquidations - tick * 2)
      rw [tickTolerance_mul] at hreach
      linarith [hceil liquidation hmem]
    · rw [roundUpToTick_eq h] at habove ⊢
      refine ⟨⟨_, rfl⟩, fun liquidation hmem => ?_⟩
      calc up 15 tickTolerance tick (outer + gap)
          = round 15 (up 15 tickTolerance tick (outer + gap)) := (round_round (by norm_num) _).symm
        _ ≤ toPrecision15 (liquidation - tick * 2 + tick * (1 / 10 ^ 9)) :=
          round_mono (by norm_num) (by linarith [hceil liquidation hmem])
  · rw [if_neg hsome] at h ⊢
    rw [roundUpToTick_eq h]
    exact ⟨⟨_, rfl⟩, fun liquidation hmem => absurd (length_pos_of_mem hmem) hsome⟩

lemma priceTickOf_pos {rows : List AggregateProtectionCandidate} (hrows : rows ≠ [])
    (hticks : ∀ row ∈ rows, 0 < finitePositive row.priceTick) : 0 < priceTickOf rows := by
  obtain ⟨row, hrow⟩ := exists_mem_of_ne_nil rows hrows
  exact (hticks row hrow).trans_le
    (le_greatest (mem_map_of_mem (f := fun row => finitePositive row.priceTick) hrow))

lemma outerStopLoss_le {direction : Direction} {rows : List AggregateProtectionCandidate}
    {row : AggregateProtectionCandidate} (hrow : row ∈ rows)
    (hstop : 0 < finitePositive row.desiredStopLoss) :
    ¬isAbove direction (outerStopLoss direction (rows.map (·.desiredStopLoss)))
      (finitePositive row.desiredStopLoss) := by
  have hmem : finitePositive row.desiredStopLoss ∈ positives (rows.map (·.desiredStopLoss)) := by
    rw [positives, map_map, mem_filter]
    exact ⟨mem_map.mpr ⟨row, hrow, rfl⟩, decide_eq_true hstop⟩
  cases direction
  · exact not_lt.mpr (least_le hmem)
  · exact not_lt.mpr (le_greatest hmem)

/-- The security stop is zero or the outermost of the rows. -/
lemma securityStopForRows_spec (direction : Direction) (rows : List AggregateProtectionCandidate) :
    ((∃ row ∈ rows, finitePositive row.priceTick = 0) →
        (securityStopForRows direction rows).securityStopPrice = 0) ∧
      ((securityStopForRows direction rows).securityStopPrice = 0 ∨
        IsOutermost direction rows (securityStopForRows direction rows).securityStopPrice) := by
  unfold securityStopForRows
  by_cases hguard : cannotArm direction rows = true
  · rw [if_pos hguard]
    exact ⟨fun _ => rfl, .inl rfl⟩
  · rw [if_neg hguard]
    rw [cannotArm, Bool.or_eq_true, Bool.or_eq_true] at hguard
    have hticks : ∀ row ∈ rows, 0 < finitePositive row.priceTick := by
      intro row hrow
      by_contra hzero
      exact hguard (.inr (.inr (any_eq_true.mpr ⟨row, hrow, decide_eq_true hzero⟩)))
    have hrows : rows ≠ [] := by
      rintro rfl
      exact hguard (.inr (.inl (by decide)))
    have htick := priceTickOf_pos hrows hticks
    have hvalid : ∀ row ∈ rows, 0 < row.validLiquidation direction →
        row.validLiquidation direction ∈ liquidationPrices direction rows := fun row hrow hpos =>
      mem_filter.mpr ⟨mem_map_of_mem (f := (·.validLiquidation direction)) hrow,
        decide_eq_true hpos⟩
    refine ⟨fun ⟨row, hrow, hzero⟩ => absurd hzero (hticks row hrow).ne', ?_⟩
    cases direction with
    | long =>
      dsimp only
      split_ifs with hout
      · exact .inl rfl
      · push Not at hout
        obtain ⟨hgrid, hsafe⟩ := longPrice_spec htick hout.1
        refine .inr ⟨hgrid, fun row hrow hstop => ?_, fun row hrow hpos => ?_⟩
        · have hle := @outerStopLoss_le .long _ _ hrow hstop
          simp only [isAbove, lowered] at hle ⊢
          linarith [hout.2]
        · have hle := hsafe _ (hvalid row hrow hpos)
          simp only [isAbove, lowered, not_lt]
          rwa [← sub_add, sub_add_eq_add_sub]
    | short =>
      dsimp only
      split_ifs with hout
      · exact .inl rfl
      · push Not at hout
        obtain ⟨hgrid, hsafe⟩ := shortPrice_spec htick hout.1
        refine .inr ⟨hgrid, fun row hrow hstop => ?_, fun row hrow hpos => ?_⟩
        · have hle := @outerStopLoss_le .short _ _ hrow hstop
          simp only [isAbove, lowered] at hle ⊢
          linarith [hout.2]
        · have hle := hsafe _ (hvalid row hrow hpos)
          simp only [isAbove, lowered, not_lt]
          rwa [← add_sub_assoc, add_sub_right_comm]

end StopLevels

end CtsEngine
