import CtsEngine.Foundation.JsValue

/-!
# The fields of a live position

`LivePosition` of `live-stage.ts`: the declared fields with the kind of their values.  A position is
a JavaScript object, so a declared field is absent, an own property with the value `undefined`, or
an own property with a value of the declared type.

`positionToRedisHash`, `parseRedisHashPosition`, `mergeLivePositionSnapshotSources` and the hash
writes of `mutatePositionWithVersionCheck` and `savePosition`.  A hash field is a text; `HSET`
overwrites the fields it is given and deletes none.

A typed position writes only declared fields, so the aliases of older writers that the reader also
accepts (`market_type`, `volume_kind`, `realized_pnl`, `exchange`, `pnlAccountingComplete`) are
never in the hash.  `normalizeSignalRisk` depends on the operator's protection floors and is a
parameter.
-/

namespace CtsEngine

open Char

/-- The declared fields. -/
inductive LiveField
  | id | connectionId | symbol | side | direction | entryPrice | marketType | volumeKind
  | lotSize | quoteToUsdRate | positionTicket | maxExecutionNotionalUsd | liveMultiplierCapped
  | quoteBid | quoteAsk | spreadPrice | spreadPips | spreadBps | spreadPercent | spreadSource
  | quoteTimestamp | executedQuantity | remainingQuantity | averageExecutionPrice | volumeUsd
  | requestedVolume | intendedNotionalUsd | exchangeMinNotionalUsd | quantityStep
  | quantityPrecision | pricePrecision | priceTick | systemVolumeFactor | liveEngineFactor
  | signalVolumeFactor | volumeAdjusted | volumeAdjustmentReason | leverage | marginType
  | unrealized_pnl | unrealized_pnl_percent | markPrice | liquidationPrice | realizedPnL
  | realizedPnlGross | tradingFees | entryTradingFee | entryTradingFeeAllocated
  | entryAccountingComplete | entrySettlementOrderIds | realizedPnlComplete | realizedPnlSource
  | settledOrderIds | positionCostPct | realProfitFactorAtEntry | timestamp | fee | feeAsset
  | lastUpdate | last_update | stoppedAt | updatedAt | createdAt | closedAt | realPositionId
  | fills | stopLoss | takeProfit | stopLossPrice | takeProfitPrice | stopLossOrderId
  | takeProfitOrderId | securityStopOrderId | securityStopPrice | securityStopLastArmedAt
  | securityStopArmedQuantity | securityStopAbsenceConfirmations | securityStopRequired
  | securityStopStatus | stopLossAbsenceConfirmations | takeProfitAbsenceConfirmations
  | stopLossLastArmedAt | takeProfitLastArmedAt | protectionMarkBufferTicks | stopLossRetryAfter
  | stopLossRejectCount | assignedStopLoss | assignedTakeProfit | stopLossArmedQuantity
  | takeProfitArmedQuantity | protectionArmedQuantity | trailingActive | trailingStopPrice
  | manualProtectionOverride | status | statusReason | executionMode | executionIntent
  | executionBlockCode | executionBlockReason | presetId | presetIndicatorType | presetRank
  | presetPositionCostPct | presetProfitFactor | closeReason | closePrice | closeOrderId
  | version | lockedAt | lockedBy | system_tracking_id | connection_tracking_id | submissionState
  | submissionAbsentConfirmations | pendingAccumulation | pendingReduction | pendingSystemAction
  | systemCloseRetry | pendingQuantityMutation | pendingProtectionOrders
  | initialExecutedQuantity | initialEntryPrice | blockBaseQuantity | blockBaseVolumeMultiplier
  | blockVolumeRatio | blockIncrementSteps | blockEffectiveIncrementStep | blockLifecycleKey
  | blockProfitFactorRatio | blockDefaultMinimumProfitFactor | blockConfiguredMinimumProfitFactor
  | blockNormalProfitFactor | blockMinimumProfitFactor | blockObservedProfitFactor
  | blockProfitFactorDifference | blockComparisonAvailable | blockProfitFactorWindow
  | blockProfitFactorSampleCount | blockCount | blockScope | blockLaneKind | blockLaneKey
  | blockSourceId | blockVolumeIncrementRatio | blockCalculatedVolumeMultiplier | blockLegs
  | dcaProfile | dcaLegs | dcaTakeProfitPrice | setKey | indicationType | signalRisk
  | exchangeData | orderId | fillCounterRecordedAt | liveLockToken | connection_id | entry_price
  | current_price | quantity | axisWindows | sizeMultiplier | specialPositionPlan
  | specialBaseQuantity | specialExpiresAt | parentSetKey | setVariant | accumulatedSetKeys
  | combinedPosCounts | posCountsTargetFlat | posCountsLongSetCount | posCountsShortSetCount
  | posCountsNetSetCount | posCountsSetQuantities | posCountsSetRatios | totalExecutedQuantity
  | closedQuantity | partialOrderExecutions | reductionAccounting | exchangeQuantityAdjustments
  | controlOrderScope | aggregateControlFills | protectionMode | systemProtectionLegs
  | controlOrderCapacity | controlOrderSetCoverage | aggregateProtectionOwner
  | aggregateProtectionKey | aggregateProtectionMemberCount | aggregateProtectionQuantity
  | aggregateProtectionMutationRequestedAt | aggregateProtectionMutationSettledAt
  | aggregateProtectionMutationReason | trailingProfile | executionLane | prevPos | progression
deriving DecidableEq

/-- The kinds of declared types.  Literal unions are strings; arrays and objects are JSON. -/
inductive FieldKind
  | number
  | boolean
  | text
  | json
deriving DecidableEq

/-- The declared kind of a field. -/
def LiveField.kind : LiveField → FieldKind
  | .entryPrice | .lotSize | .quoteToUsdRate | .positionTicket | .maxExecutionNotionalUsd
  | .quoteBid | .quoteAsk | .spreadPrice | .spreadPips | .spreadBps | .spreadPercent
  | .quoteTimestamp | .executedQuantity | .remainingQuantity | .averageExecutionPrice
  | .volumeUsd | .requestedVolume | .intendedNotionalUsd | .exchangeMinNotionalUsd
  | .quantityStep | .quantityPrecision | .pricePrecision | .priceTick | .systemVolumeFactor
  | .liveEngineFactor | .signalVolumeFactor | .leverage | .unrealized_pnl
  | .unrealized_pnl_percent | .markPrice | .liquidationPrice | .realizedPnL | .realizedPnlGross
  | .tradingFees | .entryTradingFee | .entryTradingFeeAllocated | .positionCostPct
  | .realProfitFactorAtEntry | .timestamp | .fee | .lastUpdate | .last_update | .stoppedAt
  | .updatedAt | .createdAt | .closedAt | .stopLoss | .takeProfit | .stopLossPrice
  | .takeProfitPrice | .securityStopPrice | .securityStopLastArmedAt | .securityStopArmedQuantity
  | .securityStopAbsenceConfirmations | .stopLossAbsenceConfirmations
  | .takeProfitAbsenceConfirmations | .stopLossLastArmedAt | .takeProfitLastArmedAt
  | .protectionMarkBufferTicks | .stopLossRetryAfter | .stopLossRejectCount | .assignedStopLoss
  | .assignedTakeProfit | .stopLossArmedQuantity | .takeProfitArmedQuantity
  | .protectionArmedQuantity | .trailingStopPrice | .presetRank | .presetPositionCostPct
  | .presetProfitFactor | .closePrice | .version | .lockedAt | .submissionAbsentConfirmations
  | .initialExecutedQuantity | .initialEntryPrice | .blockBaseQuantity
  | .blockBaseVolumeMultiplier | .blockVolumeRatio | .blockIncrementSteps
  | .blockEffectiveIncrementStep | .blockProfitFactorRatio | .blockDefaultMinimumProfitFactor
  | .blockConfiguredMinimumProfitFactor | .blockNormalProfitFactor | .blockMinimumProfitFactor
  | .blockObservedProfitFactor | .blockProfitFactorDifference | .blockProfitFactorWindow
  | .blockProfitFactorSampleCount | .blockCount | .blockVolumeIncrementRatio
  | .blockCalculatedVolumeMultiplier | .dcaTakeProfitPrice | .fillCounterRecordedAt
  | .entry_price | .current_price | .quantity | .sizeMultiplier | .specialBaseQuantity
  | .specialExpiresAt | .posCountsLongSetCount | .posCountsShortSetCount | .posCountsNetSetCount
  | .totalExecutedQuantity | .closedQuantity | .aggregateProtectionMemberCount
  | .aggregateProtectionQuantity | .aggregateProtectionMutationRequestedAt
  | .aggregateProtectionMutationSettledAt => .number
  | .liveMultiplierCapped | .volumeAdjusted | .entryAccountingComplete | .realizedPnlComplete
  | .securityStopRequired | .trailingActive | .blockComparisonAvailable | .combinedPosCounts
  | .posCountsTargetFlat | .aggregateProtectionOwner => .boolean
  | .entrySettlementOrderIds | .settledOrderIds | .fills | .manualProtectionOverride
  | .pendingAccumulation | .pendingReduction | .pendingSystemAction | .systemCloseRetry
  | .pendingQuantityMutation | .pendingProtectionOrders | .blockLegs | .dcaProfile | .dcaLegs
  | .signalRisk | .exchangeData | .axisWindows | .specialPositionPlan | .accumulatedSetKeys
  | .posCountsSetQuantities | .posCountsSetRatios | .partialOrderExecutions
  | .reductionAccounting | .exchangeQuantityAdjustments | .aggregateControlFills
  | .systemProtectionLegs | .controlOrderCapacity | .controlOrderSetCoverage | .trailingProfile
  | .prevPos | .progression => .json
  | _ => .text

/-- The fields that are declared without `?`. -/
def requiredFields : List LiveField :=
  [.id, .connectionId, .symbol, .entryPrice, .executedQuantity, .remainingQuantity,
    .averageExecutionPrice, .leverage, .marginType, .fills, .quantity]

/-- The numbers that no text can carry through `Number`. -/
inductive NonFinite
  | nan
  | infinity
  | negInfinity
deriving DecidableEq

/-- An array or object of JSON values, represented by its document `JSON.stringify`.  Nested values
are JSON values themselves: they hold no `undefined` and no `NaN`. -/
structure Json where
  document : String
deriving DecidableEq

/-- A string, by what it is the text of.  A field has one declared type, so the text of a number is
never read where a plain string was written. -/
inductive HashText
  | plain (s : String)
  | number (q : ℚ)
  | nonFinite (x : NonFinite)
  | boolean (b : Bool)
  | json (j : Json)
deriving DecidableEq

/-- A defined JavaScript value of a field. -/
inductive JsValue
  | number (q : ℚ)
  | nonFinite (x : NonFinite)
  | boolean (b : Bool)
  | text (t : HashText)
  | json (j : Json)
deriving DecidableEq

/-- A property of an object. -/
inductive Slot
  | absent
  | undefined
  | value (v : JsValue)

/-- The value that reading the property gives. -/
def Slot.value? : Slot → Option JsValue
  | .value v => some v
  | _ => none

/-- An own property whose value may be `undefined`. -/
def Slot.ofOption : Option JsValue → Slot
  | some v => .value v
  | none => .undefined

/-- Whether a value has the declared type of the field.  Of the literal unions only the two that
the hydration inspects are spelled out. -/
def typedValue : LiveField → JsValue → Bool
  | .marketType, v => v = .text (.plain "crypto") || v = .text (.plain "forex")
  | .volumeKind, v => v = .text (.plain "base") || v = .text (.plain "lots")
  | f, .number _ => f.kind = .number
  | f, .nonFinite _ => f.kind = .number
  | f, .boolean _ => f.kind = .boolean
  | f, .json _ => f.kind = .json
  | f, .text (.plain _) => f.kind = .text
  | _, .text _ => false

/-- A live position: every value has its declared type and every required field has a value. -/
structure LivePosition where
  own : LiveField → Slot
  typed : ∀ f, ∀ v ∈ (own f).value?, typedValue f v = true
  required : ∀ f ∈ requiredFields, ((own f).value?).isSome

/-! ## The hash -/

/-- The fields of a hash. -/
abbrev RedisHash := LiveField → Option HashText

def HashText.isBlank : HashText → Bool
  | .plain s => s = ""
  | _ => false

/-- `redisHashScalar`, and `redisHashValue` on defined values: the text of a value. -/
def redisHashScalar : Option JsValue → HashText
  | none => .plain ""
  | some (.number q) => .number q
  | some (.nonFinite x) => .nonFinite x
  | some (.boolean b) => .boolean b
  | some (.text t) => t
  | some (.json j) => .json j

variable (position : LivePosition)

/-- `positionToRedisHash`: the defined fields. -/
def positionToRedisHash : RedisHash := fun f =>
  match position.own f with
  | .value v => some (redisHashScalar (some v))
  | _ => none

/-- `normalizeRedisHash({ ...position })`: the own fields, `undefined` as the blank text. -/
def normalizeRedisHash : RedisHash := fun f =>
  match position.own f with
  | .value v => some (redisHashScalar (some v))
  | .undefined => some (redisHashScalar none)
  | .absent => none

/-- `HSET`. -/
def hset (h fields : RedisHash) : RedisHash := fun f => (fields f).or (h f)

/-- A write of one version of a position. -/
inductive HashWrite
  /-- The `HSET` of `savePosition`. -/
  | save (position : LivePosition)
  /-- `mutatePositionWithVersionCheck` of a snapshot, with the draft after the mutation. -/
  | mutate (position : LivePosition) (allowedStatuses : List String) (next : LivePosition)

/-- The version that is written. -/
def HashWrite.written : HashWrite → LivePosition
  | .save position => position
  | .mutate _ _ next => next

/-- `String(Number(position.version || 0))`. -/
def LivePosition.versionText : HashText :=
  match position.own .version with
  | .value (.number q) => .number q
  | .value (.nonFinite .nan) => .number 0
  | .value (.nonFinite x) => .nonFinite x
  | _ => .number 0

def HashWrite.fields : HashWrite → RedisHash
  | .save position => normalizeRedisHash position
  | .mutate _ _ next => positionToRedisHash next

/-- One write.  The script of `mutatePositionWithVersionCheck` writes only when the stored version
is that of the snapshot and the stored status is allowed. -/
def hashStep (h : RedisHash) (write : HashWrite) : Option RedisHash :=
  match write with
  | .save _ => some (hset h write.fields)
  | .mutate position allowedStatuses _ =>
    if h .version = some position.versionText ∧
        allowedStatuses.any (fun status => h .status = some (.plain status)) then
      some (hset h write.fields)
    else none

/-! ## Parsers of one text -/

/-- `safeJsonParse`, without the fallback. -/
def safeJsonParse : Option HashText → Option Json
  | some (.json j) => some j
  | _ => none

/-- `parseRedisBoolean` on the text of a boolean or on the blank text. -/
def parseRedisBoolean : Option HashText → Option Bool
  | some (.boolean b) => some b
  | _ => none

/-- `parseRedisFiniteNumber` on the text of a number or on the blank text. -/
def parseRedisFiniteNumber : Option HashText → Option ℚ
  | some (.number q) => some q
  | _ => none

/-- `Number(text)` on the text of a number. -/
def numberOfText : HashText → JsValue
  | .number q => .number q
  | .nonFinite x => .nonFinite x
  | _ => .nonFinite .nan

/-- `[]`. -/
def emptyArray : Json := ⟨"[]"⟩

/-- `{}`. -/
def emptyObject : Json := ⟨"\x7b\x7d"⟩

def plainText : Option HashText → String
  | some (.plain s) => s
  | _ => ""

/-- `text.trim().toLowerCase()`. -/
def trimLower (text : String) : String :=
  let trimmed := (text.toList.dropWhile isWhitespace).reverse.dropWhile isWhitespace
  toLowerCase (String.ofList trimmed.reverse)

/-- The currency codes of `forex-market.ts`. -/
def currencyCodes : List String :=
  ["AED", "AUD", "CAD", "CHF", "CNH", "CZK", "DKK", "EUR", "GBP", "HKD", "HUF", "ILS", "JPY", "MXN",
    "NOK", "NZD", "PLN", "SEK", "SGD", "THB", "TRY", "USD", "XAG", "XAU", "ZAR"]

/-- Drop an ending, if it is there. -/
def dropEnding (ending : List Char) (chars : List Char) : List Char :=
  if ending.reverse.isPrefixOf chars.reverse then chars.take (chars.length - ending.length)
  else chars

def normalizeForexSymbol (symbol : String) : List Char :=
  let raw := symbol.toList.map toUpper
  let trimmed := (raw.dropWhile isWhitespace).reverse.dropWhile isWhitespace |>.reverse
  let bare := if "FX:".toList.isPrefixOf trimmed then trimmed.drop 3 else trimmed
  let joined := bare.filter fun c =>
    !(c.isWhitespace || c == '/' || c == '_' || c == '-' || c == '.')
  let unmarked := if ['#'].isPrefixOf joined then joined.drop 1 else joined
  let base := dropEnding ['M'] unmarked
  if ['F', 'X'].reverse.isPrefixOf base.reverse then dropEnding ['F', 'X'] base
  else if ['M'].isPrefixOf base.reverse then dropEnding ['M'] base
  else dropEnding ['I'] base

def isForexSymbol (symbol : String) : Bool :=
  let chars := normalizeForexSymbol symbol
  decide (chars.length = 6) && currencyCodes.contains (String.ofList (chars.take 3)) &&
    currencyCodes.contains (String.ofList (chars.drop 3))

/-- `normalizeMarketType(value, isForexSymbol(symbol) ? "instaforex" : undefined)`. -/
def normalizeMarketType (value symbol : Option HashText) : String :=
  let explicit := trimLower (plainText value)
  if explicit ∈ ["forex", "fx", "foreign_exchange", "foreign-exchange"] then "forex"
  else if explicit ∈ ["crypto", "cryptocurrency", "digital_asset", "digital-asset"] then "crypto"
  else if isForexSymbol (plainText symbol) then "forex"
  else "crypto"

/-- How `parseRedisHashPosition` reads a field before its numeric loop. -/
inductive Hydrator
  /-- Only by `...hash`. -/
  | spread
  | marketType
  | volumeKind
  /-- `Number(hash.a || hash.b || d)`. -/
  | numberOr (sources : List LiveField) (default : ℚ)
  /-- `Number(hash.closedAt || 0) || undefined`. -/
  | closedAt
  /-- `parseRedisFiniteNumber(hash.f)`. -/
  | finite
  /-- `safeJsonParse(hash.f, [])`. -/
  | array
  /-- `safeJsonParse(hash.f, undefined)` of a text, else `hash.f`. -/
  | object
  /-- `safeJsonParse(hash.f, x)` of a text with the empty object for `x`, else `hash.f`. -/
  | objectOrEmpty
  /-- `safeJsonParse(hash.f, [])`, only when the hash has the field. -/
  | arrayIfPresent
  /-- `safeJsonParse(hash.f, undefined)`, only when the hash has the field. -/
  | objectIfPresent
  | signalRisk
  /-- `parseRedisBoolean(hash.f)`, only when that is defined. -/
  | flag
  /-- `hash.f === undefined ? undefined : parseRedisBoolean(hash.f)`. -/
  | ownFlag
deriving DecidableEq

/-- The reading of each field. -/
def LiveField.hydrator : LiveField → Hydrator
  | .marketType => .marketType
  | .volumeKind => .volumeKind
  | .entryPrice => .numberOr [.entryPrice, .entry_price] 0
  | .executedQuantity => .numberOr [.executedQuantity] 0
  | .remainingQuantity => .numberOr [.remainingQuantity] 0
  | .averageExecutionPrice => .numberOr [.averageExecutionPrice, .entryPrice, .entry_price] 0
  | .quantity => .numberOr [.quantity, .executedQuantity] 0
  | .leverage => .numberOr [.leverage] 1
  | .version => .numberOr [.version] 0
  | .createdAt => .numberOr [.createdAt] 0
  | .updatedAt => .numberOr [.updatedAt] 0
  | .closedAt => .closedAt
  | .realizedPnL | .unrealized_pnl | .unrealized_pnl_percent => .finite
  | .fills | .progression | .accumulatedSetKeys | .systemProtectionLegs | .partialOrderExecutions
  | .exchangeQuantityAdjustments => .array
  | .exchangeData | .posCountsSetQuantities | .posCountsSetRatios => .objectOrEmpty
  | .signalRisk => .signalRisk
  | .blockLegs | .dcaLegs => .arrayIfPresent
  | .dcaProfile | .axisWindows | .trailingProfile | .specialPositionPlan | .prevPos =>
    .objectIfPresent
  | .combinedPosCounts | .realizedPnlComplete | .entryAccountingComplete | .posCountsTargetFlat
  | .blockComparisonAvailable | .trailingActive | .volumeAdjusted | .securityStopRequired => .flag
  | .pendingAccumulation | .pendingReduction | .pendingSystemAction | .systemCloseRetry
  | .pendingQuantityMutation | .pendingProtectionOrders | .manualProtectionOverride
  | .controlOrderCapacity | .reductionAccounting | .aggregateControlFills
  | .controlOrderSetCoverage => .object
  | .aggregateProtectionOwner => .ownFlag
  | _ => .spread

/-- The fields of the numeric loop. -/
def numericHashFields : List LiveField :=
  [.entryPrice, .entry_price, .executedQuantity, .remainingQuantity, .averageExecutionPrice,
    .quantity, .volumeUsd, .requestedVolume, .intendedNotionalUsd, .exchangeMinNotionalUsd,
    .quantityStep, .quantityPrecision, .pricePrecision, .priceTick, .systemVolumeFactor,
    .liveEngineFactor, .signalVolumeFactor, .leverage, .unrealized_pnl, .unrealized_pnl_percent,
    .markPrice, .current_price, .liquidationPrice, .realizedPnL, .positionCostPct, .lotSize,
    .quoteToUsdRate, .quoteBid, .quoteAsk, .spreadPrice, .spreadPips, .spreadBps, .spreadPercent,
    .quoteTimestamp, .specialBaseQuantity, .specialExpiresAt, .timestamp, .fee, .lastUpdate,
    .last_update, .stoppedAt, .updatedAt, .createdAt, .closedAt, .stopLoss, .takeProfit,
    .stopLossPrice, .takeProfitPrice, .securityStopPrice, .stopLossLastArmedAt,
    .takeProfitLastArmedAt, .securityStopLastArmedAt, .protectionMarkBufferTicks,
    .stopLossRetryAfter, .stopLossRejectCount, .assignedStopLoss, .assignedTakeProfit,
    .stopLossArmedQuantity, .takeProfitArmedQuantity, .protectionArmedQuantity,
    .securityStopArmedQuantity, .securityStopAbsenceConfirmations, .stopLossAbsenceConfirmations,
    .takeProfitAbsenceConfirmations, .trailingStopPrice, .presetRank, .presetPositionCostPct,
    .presetProfitFactor, .closePrice, .version, .lockedAt, .submissionAbsentConfirmations,
    .initialExecutedQuantity, .initialEntryPrice, .blockBaseQuantity, .blockBaseVolumeMultiplier,
    .blockVolumeRatio, .blockIncrementSteps, .blockProfitFactorRatio,
    .blockDefaultMinimumProfitFactor, .blockConfiguredMinimumProfitFactor,
    .blockNormalProfitFactor, .blockMinimumProfitFactor, .blockObservedProfitFactor,
    .blockProfitFactorDifference, .blockProfitFactorWindow, .blockProfitFactorSampleCount,
    .blockCount, .blockVolumeIncrementRatio, .blockCalculatedVolumeMultiplier,
    .dcaTakeProfitPrice, .fillCounterRecordedAt, .sizeMultiplier, .posCountsLongSetCount,
    .posCountsShortSetCount, .posCountsNetSetCount, .totalExecutedQuantity, .closedQuantity,
    .aggregateProtectionMemberCount, .aggregateProtectionQuantity,
    .aggregateProtectionMutationRequestedAt, .aggregateProtectionMutationSettledAt]

variable (normalizeSignalRisk : Json → Option Json)

/-- The first text of `hash.a || hash.b || …` that is not blank. -/
def firstNonBlank (h : RedisHash) (sources : List LiveField) : Option HashText :=
  sources.findSome? fun f => (h f).filter fun t => !t.isBlank

/-- The property before the numeric loop. -/
def hydrateField (h : RedisHash) (f : LiveField) : Slot :=
  let spread := match h f with
    | none => Slot.absent
    | some t => .value (.text t)
  match f.hydrator with
  | .spread => spread
  | .marketType => .value (.text (.plain (normalizeMarketType (h .marketType) (h .symbol))))
  | .volumeKind =>
    .value (.text (.plain
      (if trimLower (plainText (h .volumeKind)) = "lots" then "lots" else "base")))
  | .numberOr sources default =>
    .value (((firstNonBlank h sources).map numberOfText).getD (.number default))
  | .closedAt =>
    match (firstNonBlank h [f]).map numberOfText with
    | some (.number q) => if q = 0 then .undefined else .value (.number q)
    | some (.nonFinite .nan) => .undefined
    | some v => .value v
    | none => .undefined
  | .finite => .ofOption ((parseRedisFiniteNumber (h f)).map .number)
  | .array => .value (.json ((safeJsonParse (h f)).getD emptyArray))
  | .object => .ofOption ((safeJsonParse (h f)).map .json)
  | .objectOrEmpty =>
    match h f with
    | none => .undefined
    | some t => .value (.json ((safeJsonParse (some t)).getD emptyObject))
  | .arrayIfPresent =>
    match h f with
    | none => .absent
    | some t => .value (.json ((safeJsonParse (some t)).getD emptyArray))
  | .objectIfPresent =>
    match h f with
    | none => .absent
    | some t => .ofOption ((safeJsonParse (some t)).map .json)
  | .signalRisk =>
    match h f with
    | none => .absent
    | some t => .ofOption (((safeJsonParse (some t)).bind normalizeSignalRisk).map .json)
  | .flag =>
    match parseRedisBoolean (h f) with
    | some b => .value (.boolean b)
    | none => spread
  | .ownFlag => .ofOption ((parseRedisBoolean (h f)).map .boolean)

/-- `parseRedisHashPosition`: every field as `hydrateField` reads it, and the numeric loop. -/
def parseRedisHashPosition (h : RedisHash) (f : LiveField) : Slot :=
  if f ∈ numericHashFields then
    match parseRedisFiniteNumber (h f) with
    | some q => .value (.number q)
    | none => if (h f).any (!·.isBlank) then .absent else hydrateField normalizeSignalRisk h f
  else hydrateField normalizeSignalRisk h f

/-- A parsed JSON mirror: the properties it has. -/
abbrev Mirror := LiveField → Option JsValue

/-- The properties of a mirror. -/
def Mirror.own (mirror : Mirror) (f : LiveField) : Slot :=
  match mirror f with
  | some v => .value v
  | none => .absent

/-- `Number(value || 0)` of a finite number or nothing. -/
def numberOrZero : Slot → ℚ
  | .value (.number q) => q
  | _ => 0

/-- `{ ...older, ...newer }`. -/
def overlay (older newer : LiveField → Slot) (f : LiveField) : Slot :=
  match newer f with
  | .absent => older f
  | slot => slot

/-- Whether the hash is at least as recent as the mirror. -/
def hashIsAtLeastAsRecent (hashPosition legacy : LiveField → Slot) : Bool :=
  let hashVersion := numberOrZero (hashPosition .version)
  let legacyVersion := numberOrZero (legacy .version)
  decide (legacyVersion < hashVersion) || decide (hashVersion = legacyVersion) &&
    decide (numberOrZero (legacy .updatedAt) ≤ numberOrZero (hashPosition .updatedAt))

/-- `mergeLivePositionSnapshotSources`; `none` is a missing source or an empty hash. -/
def mergeLivePositionSnapshotSources (legacy : Option Mirror) (hash : Option RedisHash) :
    Option (LiveField → Slot) :=
  match legacy, hash.map (parseRedisHashPosition normalizeSignalRisk) with
  | none, hashPosition => hashPosition
  | some mirror, none => some mirror.own
  | some mirror, some hashPosition =>
    some (if hashIsAtLeastAsRecent hashPosition mirror.own then overlay mirror.own hashPosition
      else overlay hashPosition mirror.own)

end CtsEngine
