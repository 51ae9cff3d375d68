import CtsEngine.OrderQuantity.AddOns

/-!
# The volume of a live order

`VolumeCalculator.calculatePositionVolume` of `lib/volume-calculator.ts` where the cost of a
position is given: the notional that the balance, the factors and the variant ask for, the ceiling
for the notional that is executed, and the quantity under that ceiling.  A number that is missing or
not finite is `none`; the market of a symbol is resolved.
-/

namespace CtsEngine

namespace LiveVolume

open OrderQuantity

def MAX_LIVE_POSITION_COST_MULTIPLIER : ℚ := 5

def VARIANT_EXECUTION_NOTIONAL_CEILING : ℚ := 15

def VARIANT_MULTIPLIER_CEILING : ℚ := 15

def UNIVERSAL_MIN_NOTIONAL_USD : ℚ := 5

def MIN_VOLUME_FACTOR : ℚ := 1 / 10

def MAX_VOLUME_FACTOR : ℚ := 10

def SYSTEM_VOLUME_FACTOR_MULTIPLIER : ℚ := 1 / 5

def applySystemVolumeFactor (value : ℚ) : ℚ :=
  if 0 < value then value * SYSTEM_VOLUME_FACTOR_MULTIPLIER else 0

inductive TradeMode
  | main
  | preset
deriving DecidableEq

/-- The fields of `VolumeCalculationParams` that size a position with a given cost. -/
structure VolumeCalculationParams where
  market : PositionMarket
  positionsAverage : Option ℚ := none
  positionCost : Option ℚ := none
  positionCostPercent : Option ℚ := none
  positionCostFraction : Option ℚ := none
  accountBalance : ℚ
  currentPrice : ℚ
  exchangeMinVolume : Option ℚ := none
  exchangeMinNotionalUsdt : Option ℚ := none
  quantityStep : Option ℚ := none
  quantityPrecision : Option ℚ := none
  tradeMode : Option TradeMode
  mainVolumeFactor : Option ℚ := none
  presetVolumeFactor : Option ℚ := none
  signalVolumeFactor : Option ℚ := none
  indicationType : String := ""
  sizeMultiplier : Option ℚ := none
  allowUnboundedVariantMultiplier : Bool := false
  minimumNotionalCeilingAllowanceUsd : Option ℚ := none
  minimumVolumeOnly : Bool := false

/-- The fields of `VolumeCalculationResult` that the sizing computes. -/
structure VolumeCalculationResult where
  calculatedVolume : ℚ
  finalVolume : ℚ
  volumeUsd : ℚ
  volumeAdjusted : Bool
  intendedNotionalUsd : ℚ
  exchangeMinNotionalUsd : ℚ
  positionCost : ℚ
  positionsAverage : ℚ
  liveEngineFactor : ℚ
  signalVolumeFactor : ℚ
  sizeMultiplier : ℚ
  exchangeMinVolume : ℚ
  conversionAvailable : Bool
  maxExecutionNotionalUsd : Option ℚ
  liveMultiplierCapped : Bool

/-- A quantity, and whether it differs from what was asked for. -/
structure SizedQuantity where
  quantity : ℚ
  adjusted : Bool

/-- `Number(value.toFixed(digits))` of a number that is not negative. -/
def toFixed (digits : ℕ) (value : ℚ) : ℚ :=
  if value < 10 ^ 21 then ⌊value * 10 ^ digits + 1 / 2⌋ / 10 ^ digits else value

def clampFactor (raw : Option ℚ) : ℚ :=
  if 0 < raw.getD 0 then max MIN_VOLUME_FACTOR (min MAX_VOLUME_FACTOR (raw.getD 0))
  else MIN_VOLUME_FACTOR

namespace VolumeCalculationParams

variable (params : VolumeCalculationParams)

/-- The market is a forex market. -/
def isForex : Bool :=
  match params.market with
  | .crypto => false
  | .forex _ _ _ => true

def forexMinimumLots : ℚ := max (1 / 100) (max 0 (params.exchangeMinVolume.getD 0))

def forexLotStep : ℚ :=
  max (1 / 10 ^ 8) (if 0 < params.quantityStep.getD 0 then params.quantityStep.getD 0 else 1 / 100)

def forexLotPrecision : ℕ :=
  match params.quantityPrecision with
  | some precision => if 0 ≤ precision then (min 8 ⌊precision⌋).toNat else 2
  | none => 2

def volumeNotional (quantity : ℚ) : ℚ :=
  positionNotionalUsd params.market quantity params.currentPrice

def forexConversionAvailable : Bool := !params.isForex || decide (0 < params.volumeNotional 1)

def resolvedPositionCostFraction : ℚ :=
  if 0 < params.positionCostFraction.getD 0 then params.positionCostFraction.getD 0
  else if 0 < params.positionCostPercent.getD 0 then params.positionCostPercent.getD 0 / 100
  else if 0 < params.positionCost.getD 0 then params.positionCost.getD 0
  else 0

def quantityRules : NormalizedQuantityRules :=
  normalizeExchangeQuantityRules
    { quantityStep := params.quantityStep
      quantityPrecision := params.quantityPrecision
      minQuantity := if params.isForex then some params.forexMinimumLots
        else params.exchangeMinVolume
      minNotionalUsdt := params.exchangeMinNotionalUsdt }

def channelVolumeFactor : ℚ :=
  match params.tradeMode with
  | some .preset => clampFactor params.presetVolumeFactor
  | some .main => clampFactor params.mainVolumeFactor
  | none => 1

def effectiveSignalVolumeFactor : ℚ :=
  if params.tradeMode = some .main ∧ toLowerCase (trim params.indicationType) = "signal" then
    clampFactor params.signalVolumeFactor
  else 1

def liveEngineFactor : ℚ := params.channelVolumeFactor * params.effectiveSignalVolumeFactor

def effectiveMin : ℚ :=
  if params.isForex then if params.forexConversionAvailable then params.forexMinimumLots else 0
  else
    max (params.exchangeMinVolume.getD 0)
      (max (if 0 < params.currentPrice ∧ 0 < params.exchangeMinNotionalUsdt.getD 0 then
          params.exchangeMinNotionalUsdt.getD 0 / params.currentPrice else 0)
        (if 0 < params.currentPrice then UNIVERSAL_MIN_NOTIONAL_USD / params.currentPrice else 0))

/-- `roundForexLotsUp` on a forex market. -/
def roundForexLotsUp (raw : ℚ) : ℚ :=
  let stepped := ⌈(max (max 0 raw) params.forexMinimumLots - EPSILON) / params.forexLotStep⌉ *
    params.forexLotStep
  toFixed params.forexLotPrecision (max params.forexMinimumLots stepped)

def executableQuantity (raw : ℚ) : SizedQuantity :=
  if params.isForex then
    if params.forexConversionAvailable then
      { quantity := params.roundForexLotsUp raw
        adjusted := params.roundForexLotsUp raw ≠ raw }
    else { quantity := 0, adjusted := true }
  else
    let executable := resolveExecutableQuantity (some raw) params.currentPrice
      params.quantityRules UNIVERSAL_MIN_NOTIONAL_USD
    { quantity := executable.quantity, adjusted := executable.adjusted }

/-- The `minimum` of `executableQuantityAtMost`: the least quantity that the venue takes. -/
def executableMinimum : ℚ :=
  if params.isForex then params.roundForexLotsUp params.effectiveMin
  else (resolveExecutableQuantity (some (max params.effectiveMin 0)) params.currentPrice
    params.quantityRules UNIVERSAL_MIN_NOTIONAL_USD).quantity

def venueStep : ℚ :=
  if params.isForex then params.forexLotStep else params.quantityRules.quantityStep

/-- `roundQuantityDown` to the step of the venue. -/
def roundDown (quantity : ℚ) : ℚ := roundQuantityToStep quantity params.venueStep false

/-- `maxQuantity`: the largest quantity on the step of the venue under a ceiling. -/
def maxQuantity (maxNotionalUsd : ℚ) : ℚ :=
  params.roundDown (maxNotionalUsd /
    if params.isForex then max (params.volumeNotional 1) EPSILON else params.currentPrice)

/-- `candidate`: the largest quantity where the request crosses the ceiling. -/
def candidate (safeRaw maxNotionalUsd : ℚ) : ℚ :=
  if params.maxQuantity maxNotionalUsd + EPSILON < safeRaw then
    params.roundDown (params.maxQuantity maxNotionalUsd)
  else (params.executableQuantity safeRaw).quantity

def executableQuantityAtMost (raw maxNotionalUsd : ℚ) : SizedQuantity :=
  if maxNotionalUsd ≤ 0 ∨ params.currentPrice ≤ 0 then { quantity := 0, adjusted := true }
  else if params.maxQuantity maxNotionalUsd ≤ 0 ∨
      params.maxQuantity maxNotionalUsd + EPSILON < params.executableMinimum then
    { quantity := 0, adjusted := true }
  else
    let candidate := params.candidate (max 0 raw) maxNotionalUsd
    if candidate ≤ 0 ∨ candidate + EPSILON < params.executableMinimum ∨
        maxNotionalUsd + 1 / 10 ^ 8 < params.volumeNotional candidate then
      { quantity := 0, adjusted := true }
    else { quantity := candidate, adjusted := candidate ≠ raw }

def clampUp (raw variantScale : ℚ) : SizedQuantity :=
  let safeRaw := max 0 raw
  let scale := max 1 variantScale
  if 0 < params.effectiveMin ∧ safeRaw < params.effectiveMin then
    { quantity := params.effectiveMin * scale, adjusted := true }
  else { quantity := safeRaw, adjusted := false }

def minimumVolumeTarget (variantScale : ℚ) : SizedQuantity :=
  { quantity := params.effectiveMin * (if 0 < variantScale then variantScale else 1)
    adjusted := true }

/-- `clampVariant`, applied to the size multiplier. -/
def variantMult : ℚ :=
  if 0 < params.sizeMultiplier.getD 0 then
    let normalized := max (1 / 100) (params.sizeMultiplier.getD 0)
    if params.allowUnboundedVariantMultiplier then normalized
    else min VARIANT_MULTIPLIER_CEILING normalized
  else 1

def posAvg : ℚ := if 0 < params.positionsAverage.getD 0 then params.positionsAverage.getD 0 else 1

def positionCostNotionalUsd : ℚ :=
  params.accountBalance * params.resolvedPositionCostFraction / params.posAvg

def positionSizeUsd : ℚ :=
  applySystemVolumeFactor
    (params.positionCostNotionalUsd * params.liveEngineFactor * params.variantMult)

def ordinaryCeiling : ℚ :=
  params.positionCostNotionalUsd * min VARIANT_EXECUTION_NOTIONAL_CEILING
    (max MAX_LIVE_POSITION_COST_MULTIPLIER params.variantMult)

/-- The ceiling before the floor of a variant: `base`. -/
def baseCeiling : ℚ :=
  if 0 < params.minimumNotionalCeilingAllowanceUsd.getD 0 then
    max params.ordinaryCeiling (params.minimumNotionalCeilingAllowanceUsd.getD 0)
  else params.ordinaryCeiling

def plainMinNotional : ℚ :=
  if 0 < params.effectiveMin then params.volumeNotional params.effectiveMin else 0

def scaledFloorNotional : ℚ :=
  let floorScale := min params.variantMult MAX_LIVE_POSITION_COST_MULTIPLIER
  if 0 < params.plainMinNotional ∧ 1 < floorScale ∧
      params.plainMinNotional ≤ params.baseCeiling + EPSILON then
    params.plainMinNotional * floorScale
  else 0

/-- The ceiling of a main or preset trade. -/
def executionCeiling : ℚ :=
  if params.baseCeiling < params.scaledFloorNotional then params.scaledFloorNotional
  else params.baseCeiling

def maxExecutionNotionalUsd : Option ℚ := params.tradeMode.map fun _ => params.executionCeiling

def volumeOf (notional : ℚ) : ℚ :=
  if 0 < params.currentPrice ∧ params.forexConversionAvailable then
    notional / if params.isForex then params.volumeNotional 1 else params.currentPrice
  else 0

/-- What is asked for after the minimum: `clampedFinal`. -/
def clamped : SizedQuantity :=
  let executionNotional := match params.maxExecutionNotionalUsd with
    | some ceiling => if ceiling ≠ 0 then min params.positionSizeUsd ceiling
      else params.positionSizeUsd
    | none => params.positionSizeUsd
  if params.minimumVolumeOnly ∧ 0 < params.effectiveMin then
    params.minimumVolumeTarget params.variantMult
  else params.clampUp (params.volumeOf executionNotional) params.variantMult

def executable : SizedQuantity :=
  match params.maxExecutionNotionalUsd with
  -- A ceiling of zero is not a truthy value, and counts as no ceiling.
  | some ceiling => if ceiling ≠ 0 then
      params.executableQuantityAtMost params.clamped.quantity ceiling
    else params.executableQuantity params.clamped.quantity
  | none => params.executableQuantity params.clamped.quantity

def capAdjusted : Bool :=
  !(params.minimumVolumeOnly && decide (0 < params.effectiveMin)) &&
    match params.maxExecutionNotionalUsd with
    | some ceiling => decide (ceiling ≠ 0 ∧ ceiling < params.positionSizeUsd)
    | none => false

end VolumeCalculationParams

/-- `calculatePositionVolume` for a position with a given cost. -/
def calculatePositionVolume (params : VolumeCalculationParams) : VolumeCalculationResult where
  calculatedVolume := params.volumeOf params.positionSizeUsd
  finalVolume := params.executable.quantity
  volumeUsd := params.volumeNotional params.executable.quantity
  volumeAdjusted := params.clamped.adjusted || params.executable.adjusted || params.capAdjusted ||
    (decide (params.channelVolumeFactor ≠ 1) && params.tradeMode.isSome) ||
    decide (params.effectiveSignalVolumeFactor ≠ 1) || decide (params.variantMult ≠ 1) ||
    decide (SYSTEM_VOLUME_FACTOR_MULTIPLIER ≠ 1)
  intendedNotionalUsd := params.positionSizeUsd
  exchangeMinNotionalUsd := params.volumeNotional params.effectiveMin
  positionCost := params.resolvedPositionCostFraction
  positionsAverage := params.posAvg
  liveEngineFactor := params.liveEngineFactor
  signalVolumeFactor := params.effectiveSignalVolumeFactor
  sizeMultiplier := params.variantMult
  exchangeMinVolume := params.effectiveMin
  conversionAvailable := params.forexConversionAvailable
  maxExecutionNotionalUsd := params.maxExecutionNotionalUsd
  liveMultiplierCapped := params.capAdjusted

end LiveVolume

end CtsEngine
