import CtsEngine.Foundation.DoubleText
import CtsEngine.Foundation.Keyed

/-!
# Values in hashes

A hash holds texts.  `flattenForHmset` writes a value as the text of a field, `parseHash` reads the
fields of a hash as values: a text with the brackets of an object or an array is parsed, and some
texts stand for booleans and numbers.
-/

namespace CtsEngine.Settings

open List String JsonText
open JsonText (Value)

/-- `JSON.stringify`, as a text of the store. -/
def jsonText (value : Value Double) : String := ofList (stringify value)

/-- `convertToString`, with `String(value)` of a text or number. -/
def convertToString : Value Double → String
  | .bool b => if b then "1" else "0"
  | .number n => ofList (doubleText n)
  | .text s => s
  | _ => ""

/-- The text of a field in `flattenForHmset`; there is none for `null`. -/
def flattenValue : Value Double → Option String
  | .null => none
  | .object fields => some (jsonText (.object fields))
  | .array values => some (jsonText (.array values))
  | value => some (convertToString value)

/-- `flattenForHmset` of the entries of an object. -/
def flattenForHmset (entries : List (String × Value Double)) : List (String × String) :=
  entries.filterMap fun entry => (flattenValue entry.2).map fun text => (entry.1, text)

/-! ## Reading -/

/-- `/^\d+$/`. -/
def isDigits (cs : List Char) : Bool := !cs.isEmpty && cs.all Char.isDigit

/-- What follows an optional minus sign. -/
def afterMinus (cs : List Char) : List Char := if cs.head? = some '-' then cs.tail else cs

/-- `/^-?\d+$/`. -/
def isIntegerText (value : String) : Bool := isDigits (afterMinus value.toList)

/-- `/^-?\d+\.\d+$/`. -/
def isDecimalText (value : String) : Bool :=
  match (afterMinus value.toList).splitOn '.' with
  | [whole, fraction] => isDigits whole && isDigits fraction
  | _ => false

/-- The text starts and ends with two characters. -/
def isEnclosed (first last : Char) (value : String) : Bool :=
  value.toList.head? = some first && value.toList.getLast? = some last

/-- `parseHashValue` of a text.  A text of digits is read by `parseInt` and `parseFloat` as the
number that it writes. -/
def parseHashValue (value : String) : Value Double :=
  if value = "" then .text ""
  else if isEnclosed '\x7b' '\x7d' value || isEnclosed '[' ']' value then
    (parse jsonNumbers value.toList).getD (.text value)
  else if value = "1" || value = "true" then .bool true
  else if value = "0" || value = "false" then .bool false
  else if isIntegerText value || isDecimalText value then .number (decimalLiteral value.toList)
  else .text value

/-- `NUMERIC_HASH_FIELDS`. -/
def numericHashFields : List String :=
  ["symbol_count", "symbolCount", "block_max_stack", "blockMaxStack", "block_volume_ratio",
    "blockVolumeRatio", "block_profit_factor_ratio", "blockProfitFactorRatio",
    "block_pause_count_ratio", "blockPauseCountRatio", "max_concurrent_trades",
    "maxConcurrentTrades", "prev_pos_min_count", "prevPosMinCount", "prev_pos_window",
    "prevPosWindow", "main_eval_pos_count", "mainEvalPosCount", "real_eval_pos_count",
    "realEvalPosCount", "live_eval_pos_count", "liveEvalPosCount", "block_row_live_volume_ratio",
    "blockRowLiveVolumeRatio", "block_row_live_profit_factor_ratio",
    "blockRowLiveProfitFactorRatio", "block_row_live_max_stack", "blockRowLiveMaxStack",
    "block_row_live_pause_count_ratio", "blockRowLivePauseCountRatio", "min_step", "minStep",
    "trailing_min_step", "trailingMinStep", "leverage_percentage", "leveragePercentage",
    "live_volume_factor", "preset_volume_factor", "signal_volume_factor", "base_volume_factor",
    "volume_factor", "volume_factor_live", "volume_factor_preset", "volume_factor_signal",
    "mainTradeVolumeFactor", "presetTradeVolumeFactor", "signalTradeVolumeFactor",
    "volume_step_ratio", "average_count", "averageCount", "max_spread_pips", "maxSpreadPips",
    "lot_size", "lotSize", "position_cost_percent", "positionCostPercent", "spread_buffer_pips",
    "spreadBufferPips", "spread_multiplier", "spreadMultiplier", "positions_average",
    "positionsAverage", "default_leverage", "default_volume", "maxPositionsLong",
    "maxPositionsShort", "presetTpStep", "presetSlStep", "presetTrailStartStep",
    "presetTrailStopStep", "presetBlockVolumeRatio", "presetBlockPauseCountRatio",
    "axis_prev_max_window", "axisPrevMaxWindow", "axis_last_max_window", "axisLastMaxWindow",
    "axis_cont_max_window", "axisContMaxWindow", "axis_pause_max_window", "axisPauseMaxWindow",
    "base_profit_factor", "baseProfitFactor", "main_profit_factor", "mainProfitFactor",
    "real_profit_factor", "realProfitFactor", "live_profit_factor", "liveProfitFactor",
    "max_drawdown_time_main_hours", "maxDrawdownTimeMainHours", "max_drawdown_time_real_hours",
    "maxDrawdownTimeRealHours", "max_drawdown_time_live_hours", "maxDrawdownTimeLiveHours",
    "stage_min_pos_count_base", "stageMinPosCountBase", "stage_min_pos_count_main",
    "stageMinPosCountMain", "stage_min_pos_count_real", "stageMinPosCountReal", "specialMinStep",
    "specialMaxStep", "specialStepSize", "specialActiveWindow", "specialMinimumEvidence",
    "specialMinimumAgreement", "specialMinimumMarketChangePct", "specialMinimumScore",
    "specialNoiseFilterPct", "specialMomentumWeight", "specialActivityWeight",
    "specialVolatilityWeight", "specialMarketChangeSpeedWeight",
    "specialMinimumMarketChangeSpeedRatio", "specialMaximumMarketChangeSpeedPctPerSecond",
    "specialScenarioWeight", "specialScenarioMinimumScore",
    "specialPastActivityPersistenceMinimum", "specialActivityBreakoutRatio",
    "specialReversalAccelerationMinimumPct", "specialActivityLookback",
    "specialMinimumActivityRatio", "specialMarketActivityFadeRatio", "specialMaximumVolatilityPct",
    "specialVolatilityTargetPct", "specialMinimumVolatilityVolumeScale", "specialOrderFlowWeight",
    "specialMinimumDirectionalOrderFlow", "specialMaximumSpreadBps", "specialMinimumHoldingSteps",
    "specialMaximumHoldingSteps", "specialMinimumHoldingSeconds", "specialTargetHoldingSeconds",
    "specialMaximumHoldingSeconds", "specialMinimumTimeframeConfirmations",
    "specialMinimumCombinedScoreMargin", "specialTimeframe15sWeight", "specialTimeframe1mWeight",
    "specialTimeframe15mWeight", "specialTimeframe30mWeight", "specialMaxPositionsPerDirection",
    "specialAdditionalPositionStepPositionCostRatio", "specialVolumeIncrementRatio",
    "specialMaxVolumeRatio", "specialTakeProfitMinPositionCostRatio",
    "specialTakeProfitMaxPositionCostRatio", "specialTakeProfitVolatilityMultiplier",
    "specialTakeProfitMarketChangeMultiplier", "specialStopLossMinPositionCostRatio",
    "specialStopLossVolatilityMultiplier", "specialStopLossMaxTakeProfitRatio",
    "specialTrailingVolatilityAdaptationWeight", "specialTrailingSpeedAdaptationWeight",
    "specialTrailingActivityAdaptationWeight", "specialTrailingScenarioAdaptationWeight",
    "specialTrailingActivationTakeProfitRatio", "specialTrailingDistanceTakeProfitRatio",
    "specialTrailingStepTakeProfitRatio", "specialRoundTripCostPct",
    "specialMinimumTakeProfitAfterCostsRatio", "specialBacktestMinimumTrades",
    "specialBacktestMinimumTradesPerDirection", "specialBacktestMinimumTradesPerSymbol",
    "specialBacktestMinimumStableProfitFactor", "specialBacktestMaximumDrawdownPct",
    "specialWalkForwardFolds", "specialWalkForwardPurgeSteps",
    "specialWalkForwardMaximumFoldLossPct"]

/-- A field in `parseHash`. -/
def parseHashField (key value : String) : Value Double :=
  if key ∈ numericHashFields ∧ (isIntegerText value || isDecimalText value) then
    .number (decimalLiteral value.toList)
  else parseHashValue value

/-- `parseHash`: `null` for a hash without fields. -/
def parseHash (hash : List (String × String)) : Option (List (String × Value Double)) :=
  if hash = [] then none
  else some (hash.map fun entry => (entry.1, parseHashField entry.1 entry.2))

variable (fields : List (String × Value Double))

lemma getLast?_writeFields : (writeFields jsonNumbers fields).getLast? = some '\x7d' := by
  induction fields with
  | nil => rfl
  | cons field fields ih =>
    rw [writeFields, getLast?_cons, getLast?_append, getLast?_cons, getLast?_append, ih]
    rfl

lemma isEnclosed_jsonText : isEnclosed '\x7b' '\x7d' (jsonText (.object fields)) = true := by
  rw [isEnclosed, jsonText, toList_ofList, stringify]
  cases fields with
  | nil => rfl
  | cons field fields =>
    rw [write, getLast?_cons, getLast?_append,
      getLast?_cons, getLast?_append, getLast?_writeFields]
    rfl

/-- An object is read back. -/
theorem parseHashValue_jsonText {fields : List (String × Value Double)}
    (hexact : JsonText.Exact jsonNumbers (.object fields)) :
    parseHashValue (jsonText (.object fields)) = .object fields := by
  have hencl := isEnclosed_jsonText fields
  rw [parseHashValue, if_neg, hencl, Bool.true_or, if_pos rfl, jsonText, toList_ofList,
    stringify, parse_write hexact, Option.getD_some]
  intro hemp
  rw [hemp] at hencl
  cases hencl

end CtsEngine.Settings
