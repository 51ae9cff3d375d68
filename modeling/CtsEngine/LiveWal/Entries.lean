import CtsEngine.Foundation.JsonLines

/-!
# The write-ahead log of live positions

Every line of the file is a checkpoint: a whole position, with its connection and id.
`replayLivePositionWal` takes the newest line of each position, by version and then by time, and
restores it where the snapshot has an older hash or none.  `compactLivePositionWalIfNeeded` writes
a file that is too long again with one line for each position, the newest by time.

The store is given by its hashes, its texts and its lists; the expiry of keys and the archive of
closed positions, which a replay also writes, are left out.  The ids have no NUL, which separates
them in the keys of the newest lines.
-/

namespace CtsEngine.LiveWal

open Keyed Function String

open JsonText (Value)

/-- The fields of an object. -/
abbrev Fields := List (String × Value Double)

/-! ## Positions -/

/-- `redisHashScalar` of a JSON value. -/
def redisHashScalar : Value Double → String
  | .null => ""
  | .text s => s
  | .number n => ofList (doubleText n)
  | .bool b => if b then "true" else "false"
  | value => ofList (stringify value)

/-- `normalizeRedisHash` of the fields of a position. -/
def normalizeRedisHash (fields : Fields) : List (String × String) :=
  (jsObject fields).map fun field => (field.1, redisHashScalar field.2)

/-- `MIRROR_FIELDS`. -/
def mirrorFields : List String :=
  ["id", "connectionId", "connection_id", "symbol", "side", "direction", "realPositionId",
    "indicationType", "executionIntent", "executionLane", "axisWindows", "signalRisk",
    "prevPos", "marketType", "volumeKind", "lotSize", "quoteToUsdRate", "positionTicket",
    "entryPrice", "entry_price", "executedQuantity", "remainingQuantity",
    "averageExecutionPrice", "quantity", "totalExecutedQuantity", "closedQuantity", "volumeUsd",
    "requestedVolume", "intendedNotionalUsd", "exchangeMinNotionalUsd", "quantityStep",
    "quantityPrecision", "pricePrecision", "priceTick", "systemVolumeFactor",
    "liveEngineFactor", "signalVolumeFactor", "leverage", "marginType", "unrealized_pnl",
    "unrealized_pnl_percent", "markPrice", "currentPrice", "current_price", "liquidationPrice",
    "realizedPnL", "realizedPnlGross", "tradingFees", "entryTradingFee",
    "entryTradingFeeAllocated", "entryAccountingComplete", "realizedPnlComplete",
    "realizedPnlSource", "positionCostPct", "realProfitFactorAtEntry", "version", "timestamp",
    "lastUpdate", "last_update", "stoppedAt", "updatedAt", "createdAt", "openedAt", "closedAt",
    "fee", "feeAsset", "stopLoss", "takeProfit", "stopLossPrice", "takeProfitPrice",
    "stopLossOrderId", "takeProfitOrderId", "securityStopOrderId", "securityStopPrice",
    "securityStopArmedQuantity", "securityStopRequired", "securityStopStatus",
    "stopLossArmedQuantity", "takeProfitArmedQuantity", "protectionArmedQuantity",
    "stopLossLastArmedAt", "takeProfitLastArmedAt", "assignedStopLoss", "assignedTakeProfit",
    "trailingActive", "trailingStopPrice", "orderId", "clientOrderId", "exchangeOrderId",
    "exchangePositionId", "exchangeTrackingId", "trackingId", "realPositionId",
    "system_tracking_id", "connection_tracking_id", "setKey", "parentSetKey", "setVariant",
    "blockCount", "blockIncrementSteps", "blockBaseQuantity", "blockBaseVolumeMultiplier",
    "blockVolumeRatio", "blockVolumeIncrementRatio", "blockCalculatedVolumeMultiplier",
    "dcaStep", "sizeMultiplier", "presetId", "presetIndicatorType", "presetRank",
    "presetPositionCostPct", "presetProfitFactor", "closeReason", "closePrice", "closeOrderId",
    "status", "statusReason", "executionMode", "executionBlockCode", "executionBlockReason"]

/-- `EXCHANGE_DATA_SCALAR_FIELDS`. -/
def exchangeDataScalarFields : List String :=
  ["exchangePositionId", "positionId", "orderId", "exchangeOrderId", "clientOrderId",
    "positionSide", "side", "marginType", "markPrice", "liquidationPrice", "unrealizedPnl",
    "roi"]

/-- `CLIENT_ORDER_TRACKING_FIELDS`. -/
def clientOrderTrackingFields : List String :=
  ["clientOrderId", "id", "kind", "orderId", "preparedAt", "triggerPrice", "quantity"]

/-- A value that is neither `null` nor the empty text. -/
def isPresent : Value Double → Bool
  | .null => false
  | .text s => s ≠ ""
  | _ => true

/-- The fields of given names that an object has a value for. -/
def presentFields (names : List String) (source : Fields) : Fields :=
  names.filterMap fun name => ((jsField source name).filter isPresent).map fun value =>
    (name, value)

/-- `a ?? b`. -/
def orNullish (a b : Option (Value Double)) : Option (Value Double) :=
  match a with
  | some .null => b
  | none => b
  | some value => some value

/-- The newest entries of the client-order ledger: one for each kind, and at most four without. -/
def newestClientOrders (ledger : List (Value Double)) : List (String × Fields) × List Fields :=
  ledger.reverse.foldl (fun found entry =>
    match entry with
    | .object raw =>
      if ((orNullish (jsField raw "clientOrderId") (jsField raw "id")).filter isPresent).isNone then
        found
      else
        let kind := trim (((firstTruthy [jsField raw "kind"]).map jsString).getD "")
        let compactEntry := presentFields clientOrderTrackingFields raw
        if kind ≠ "" then
          if (get? found.1 kind).isSome then found
          else (put found.1 kind compactEntry, found.2)
        else if 4 ≤ found.2.length then found
        else (found.1, found.2 ++ [compactEntry])
    | _ => found) ([], [])

def buildExchangeDataCompatibilitySnapshot (value : Option (Value Double)) : Option Fields :=
  match value with
  | some (.object source) =>
    let scalars := presentFields exchangeDataScalarFields source
    let orders := match jsField source "clientOrderIds" with
      | some (.array ledger) =>
        let (byKind, unknown) := newestClientOrders ledger
        let entries := byKind.map Prod.snd ++ unknown
        (entries.drop (entries.length - 16)).reverse
      | _ => []
    let compact := if orders = [] then scalars
      else scalars ++ [("clientOrderIds", .array (orders.map .object))]
    if compact = [] then none else some compact
  | _ => none

def buildLivePositionCompatibilitySnapshot (position : Fields) : Fields :=
  let mirror := mirrorFields.foldl (fun mirror name =>
    match jsField position name with
    | some value => put mirror name value
    | none => mirror) [("liveMirrorVersion", .number (.finite 2))]
  match buildExchangeDataCompatibilitySnapshot (jsField position "exchangeData") with
  | some exchangeData => put mirror "exchangeData" (.object exchangeData)
  | none => mirror

def terminalStatuses : List String :=
  ["closed", "rejected", "cancelled", "canceled", "expired", "error"]

/-- The status of a position is terminal. -/
def isTerminal (position : Fields) : Bool :=
  terminalStatuses.contains
    (toLowerCase (((firstTruthy [jsField position "status"]).map jsString).getD ""))

/-! ## Entries -/

def position (entry : Fields) : Fields :=
  match jsField entry "position" with
  | some (.object fields) => fields
  | _ => []

/-- `String(a || b || "").trim()`. -/
def idText (values : List (Option (Value Double))) : String :=
  trim (((firstTruthy values).map jsString).getD "")

def connectionId (entry : Fields) : String :=
  idText [jsField entry "connectionId", jsField (position entry) "connectionId"]

def positionId (entry : Fields) : String :=
  idText [jsField entry "positionId", jsField (position entry) "id"]

variable (store : RecoveredStore) (entry : Fields)

/-- An entry that is not passed over.  A position that is not an object, which nothing writes, is
passed over here. -/
def isEntry : Bool :=
  (match jsField entry "v" with
    | some (.number n) => n = .finite 1
    | _ => false) &&
    connectionId entry ≠ "" && positionId entry ≠ "" &&
    match jsField entry "position" with
    | some (.object _) => true
    | _ => false

/-- The connection and the id of an entry. -/
def entryKey : String × String := (connectionId entry, positionId entry)

/-- `Number(entry.position.version || 0)`. -/
def entryVersion : Double :=
  ((firstTruthy [jsField (position entry) "version"]).map jsNumber).getD (.finite 0)

/-- `Number(entry.position.updatedAt || entry.at || 0)`. -/
def entryUpdatedAt : Double :=
  ((firstTruthy [jsField (position entry) "updatedAt", jsField entry "at"]).map jsNumber).getD
    (.finite 0)

/-- `a <= b`. -/
def le (a b : Double) : Bool := Double.lt a b || Double.eq a b

def lineObject (line : List Char) : Option Fields :=
  match jsonParse line with
  | some (.object fields) => some fields
  | _ => none

variable (raw : List Char)

/-- The objects of the lines of a file. -/
def entries : List Fields := (raw.splitOn '\n').filterMap lineObject

/-- The newest entry of each position, in the order of the first ones; `replaces` says when an entry
takes the place of a previous one. -/
def newestEntries (replaces : Fields → Fields → Bool) (entries : List Fields) :
    List ((String × String) × Fields) :=
  entries.foldl (fun newest entry =>
    if isEntry entry then
      match get? newest (entryKey entry) with
      | none => put newest (entryKey entry) entry
      | some previous =>
        if replaces previous entry then put newest (entryKey entry) entry else newest
    else newest) []

/-! ## The replay -/

/-- What a replay reads and writes. -/
structure RecoveredStore where
  hashes : String → Option (List (String × String))
  strings : String → Option String
  lists : String → List String

/-- `LIVE_CLOSED_INDEX_LIMIT`. -/
def liveClosedIndexLimit : ℕ := 5000

/-- The key of the hash of a position. -/
def hashKey (key : String × String) : String := "live_positions:" ++ key.1 ++ ":" ++ key.2

/-- The key of the JSON mirror of a position. -/
def jsonKey (positionId : String) : String := "live:position:" ++ positionId

/-- The key of the open positions of a connection. -/
def openIndexKey (connectionId : String) : String := "live:positions:" ++ connectionId

/-- The key of the closed positions of a connection. -/
def closedIndexKey (connectionId : String) : String :=
  "live:positions:" ++ connectionId ++ ":closed"

/-- `Number(current?.[field] || 0)`. -/
def currentNumber (current : List (String × String)) (field : String) : Double :=
  match get? current field with
  | some text => if text = "" then .finite 0 else numberOfString text
  | none => .finite 0

/-- The hash of a position is newer than an entry, or as new. -/
def isStale : Bool :=
  match store.hashes (hashKey (entryKey entry)) with
  | none => false
  | some current =>
    Double.lt (entryVersion entry) (currentNumber current "version") ||
      (Double.eq (entryVersion entry) (currentNumber current "version") &&
        le (entryUpdatedAt entry) (currentNumber current "updatedAt"))

/-- An open list after the restore of a position. -/
def openIds (terminal : Bool) (positionId : String) (ids : List String) : List String :=
  let others := ids.filter (· ≠ positionId)
  if terminal then others else positionId :: others

/-- A closed list after the restore of a position. -/
def closedIds (terminal : Bool) (positionId : String) (ids : List String) : List String :=
  let others := ids.filter (· ≠ positionId)
  if terminal then (positionId :: others).take liveClosedIndexLimit else others

/-- Write the position of an entry. -/
def writeEntry : RecoveredStore where
  hashes := update store.hashes (hashKey (entryKey entry))
    (some (normalizeRedisHash (position entry)))
  strings := update store.strings (jsonKey (positionId entry))
    (some (ofList (stringify (.object
      (buildLivePositionCompatibilitySnapshot (position entry))))))
  lists :=
    let openKey := openIndexKey (connectionId entry)
    let closedKey := closedIndexKey (connectionId entry)
    let terminal := isTerminal (position entry)
    update (update store.lists openKey
        (openIds terminal (positionId entry) (store.lists openKey)))
      closedKey (closedIds terminal (positionId entry) (store.lists closedKey))

lemma hashes_writeEntry :
    (writeEntry store entry).hashes = update store.hashes (hashKey (entryKey entry))
      (some (normalizeRedisHash (position entry))) := rfl

lemma strings_writeEntry :
    (writeEntry store entry).strings = update store.strings (jsonKey (positionId entry))
      (some (ofList (stringify (.object
        (buildLivePositionCompatibilitySnapshot (position entry)))))) := rfl

lemma lists_writeEntry (key : String) : (writeEntry store entry).lists key =
      if key = closedIndexKey (connectionId entry) then
        closedIds (isTerminal (position entry)) (positionId entry) (store.lists key)
      else if key = openIndexKey (connectionId entry) then
        openIds (isTerminal (position entry)) (positionId entry) (store.lists key)
      else store.lists key := by
  rw [writeEntry]
  dsimp only
  rw [update_apply, update_apply]
  split
  case isTrue h => rw [h]
  case isFalse =>
    split
    case isTrue h => rw [h]
    case isFalse => rfl

def restoreEntry : RecoveredStore :=
  if isStale store entry then store else writeEntry store entry

/-- `nextVersion > previousVersion || (nextVersion === previousVersion && nextUpdatedAt >=
previousUpdatedAt)`. -/
def replaysOver (previous next : Fields) : Bool :=
  Double.lt (entryVersion previous) (entryVersion next) ||
    (Double.eq (entryVersion next) (entryVersion previous) &&
      le (entryUpdatedAt previous) (entryUpdatedAt next))

def replayLivePositionWal (store : RecoveredStore) : RecoveredStore :=
  ((newestEntries replaysOver (entries raw)).map Prod.snd).foldl restoreEntry store

/-- `entryAt >= previousAt`. -/
def compactsOver (previous next : Fields) : Bool :=
  le (entryUpdatedAt previous) (entryUpdatedAt next)

/-- `MAX_WAL_BYTES`. -/
def maxWalBytes : ℕ := 32 * 1024 * 1024

/-- `MAX_WAL_POSITIONS`. -/
def maxWalPositions : ℕ := 2048

/-- The entries that a compaction keeps: the newest first ones by time, written backwards. -/
def retainedEntries : List Fields :=
  ((((newestEntries compactsOver (entries raw)).map Prod.snd).mergeSort fun a b =>
    le (entryUpdatedAt b) (entryUpdatedAt a)).take maxWalPositions).reverse

/-- The file that a compaction writes. -/
def compactedWal : List Char :=
  framed ((retainedEntries raw).map fun entry => stringify (.object entry))

def compactLivePositionWalIfNeeded : List Char :=
  if utf8Bytes raw ≤ maxWalBytes then raw else compactedWal raw

end CtsEngine.LiveWal
