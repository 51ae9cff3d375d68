import CtsEngine.Foundation.NumberText
import CtsEngine.Protection.ControlOrders
import CtsEngine.Results.Ledger

/-!
# Stored positions

The durable row of a position as its readers meet it: a field can be missing, `null`, a flag, a
number, or the text of any of these.  `getLivePositionSource` says where the row was executed, and
`resolveConfirmedPositionQuantity` which quantity of it the venue or the row's own ledger confirms.
-/

namespace CtsEngine

/-! ## Values -/

/-- A value of a stored row. -/
inductive StoredValue
  | missing
  | null
  | flag (value : Bool)
  | number (value : ℚ)
  | text (value : String)
deriving DecidableEq

namespace StoredValue

/-- `Number(value)`, where it is finite. -/
def toNumber : StoredValue → Option ℚ
  | .missing => none
  | .null => some 0
  | .flag value => some (if value then 1 else 0)
  | .number value => some value
  | .text value =>
    match numberOfString value with
    | .finite q => some q
    | _ => none

variable (value : StoredValue)

/-- `finite`: a value that is no number counts as zero. -/
def finite : ℚ := value.toNumber.getD 0

/-- `positive`: the size of a number. -/
def positive : ℚ := |value.finite|

/-- `left ?? right`. -/
def orElse : StoredValue → StoredValue → StoredValue
  | .missing, right => right
  | .null, right => right
  | left, _ => left

/-- `left || right`. -/
def or : StoredValue → StoredValue → StoredValue
  | .missing, right => right
  | .null, right => right
  | .flag false, right => right
  | .number value, right => if value = 0 then right else .number value
  | .text value, right => if value = "" then right else .text value
  | left, _ => left

/-- One value of `firstFiniteNumeric`: a missing value, `null` and the empty text are skipped. -/
def finiteNumeric : StoredValue → Option ℚ
  | .missing => none
  | .null => none
  | .text "" => none
  | value => value.toNumber

def absolutePositiveNumeric : Option ℚ :=
  (value.finiteNumeric.filter fun q => 0 < |q|).map fun q => |q|

/-- One value of `firstFinite` and `firstPositive` of the history: flags and blank texts are
skipped too. -/
def historyNumeric : StoredValue → Option ℚ
  | .missing => none
  | .null => none
  | .flag _ => none
  | .number value => some value
  | .text value => if trim value = "" then none else (StoredValue.text value).toNumber

def truthyFlag : StoredValue → Bool
  | .missing => false
  | .null => false
  | .flag value => value
  | .number value => decide (value = 1)
  | .text value => ["true", "1"].contains (toLowerCase (trim value))

end StoredValue

variable (values : List StoredValue)

def firstFiniteNumeric : Option ℚ :=
  values.findSome? StoredValue.finiteNumeric

def firstPositiveNumeric (values : List (Option ℚ)) : Option ℚ :=
  values.findSome? fun value => value.filter fun q => 0 < q

/-- `firstFinite`. -/
def firstHistoryFinite : ℚ :=
  (values.findSome? StoredValue.historyNumeric).getD 0

/-- `firstPositive`. -/
def firstHistoryPositive : ℚ :=
  (values.findSome? fun value => value.historyNumeric.filter fun q => 0 < q).getD 0

/-! ## Rows -/

/-- A fill of a position. -/
structure StoredFill where
  quantity : StoredValue := .missing
  qty : StoredValue := .missing
  executedQty : StoredValue := .missing
  price : StoredValue := .missing

/-- The fills of a row: none, a list, or a text with what `JSON.parse` makes of it. -/
inductive StoredFills
  | missing
  | list (fills : List StoredFill)
  | text (parsed : Option (List StoredFill))

/-- `Array.isArray(fills) ? fills : []` on the row as it is stored. -/
def StoredFills.array : StoredFills → List StoredFill
  | .list fills => fills
  | _ => []

/-- `Array.isArray(fills) ? fills : []` on the normalised row. -/
def StoredFills.parsed : StoredFills → List StoredFill
  | .missing => []
  | .list fills => fills
  | .text parsed => parsed.getD []

/-- `exchangeData` where it is an object. -/
structure ExchangeData where
  orderId : Option String := none
  orderIdSnake : Option String := none
  exchangeOrderId : Option String := none
  exchangeOrderIdSnake : Option String := none
  exchangePositionId : Option String := none
  exchangePositionIdSnake : Option String := none
  source : Option String := none
  syncedFrom : Option String := none
  syncedFromSnake : Option String := none
  quantity : StoredValue := .missing
  positionAmt : StoredValue := .missing
  contracts : StoredValue := .missing
  size : StoredValue := .missing

/-- A stored position: the fields that the ledger and the history read to decide what it is. -/
structure StoredPosition where
  id : Option String := none
  systemTrackingId : Option String := none
  symbol : Option String := none
  direction : Option String := none
  side : Option String := none
  status : Option String := none
  closeReason : Option String := none
  statusReason : Option String := none
  statusReasonSnake : Option String := none
  executedQuantity : StoredValue := .missing
  filledQuantity : StoredValue := .missing
  totalExecutedQuantity : StoredValue := .missing
  closedQuantity : StoredValue := .missing
  quantity : StoredValue := .missing
  size : StoredValue := .missing
  fills : StoredFills := .missing
  executionMode : Option String := none
  executionModeSnake : Option String := none
  mode : Option String := none
  environment : Option String := none
  isSimulated : StoredValue := .missing
  simulated : StoredValue := .missing
  isPaper : StoredValue := .missing
  paper : StoredValue := .missing
  isRealExchangeData : StoredValue := .missing
  exchange : Option String := none
  connector : Option String := none
  connectorType : Option String := none
  orderId : Option String := none
  orderIdSnake : Option String := none
  exchangeOrderId : Option String := none
  exchangeOrderIdSnake : Option String := none
  /-- `none` also where the stored value is a text. -/
  exchangeData : Option ExchangeData := none
  averageExecutionPrice : StoredValue := .missing
  entryPrice : StoredValue := .missing
  entryPriceSnake : StoredValue := .missing
  closePrice : StoredValue := .missing
  exitPrice : StoredValue := .missing
  currentPrice : StoredValue := .missing
  currentPriceSnake : StoredValue := .missing
  grossPnl : StoredValue := .missing
  realizedPnL : StoredValue := .missing
  realizedPnl : StoredValue := .missing
  pnl : StoredValue := .missing
  createdAt : StoredValue := .missing
  openedAt : StoredValue := .missing
  timestamp : StoredValue := .missing
  closedAt : StoredValue := .missing
  closeTimestamp : StoredValue := .missing
  updatedAt : StoredValue := .missing
  /-- `closeOrderIdFromSnapshot(position)`. -/
  closeOrderId : String := ""
  /-- `isRealizedPnlAccountingPending(position)`. -/
  accountingPending : Bool := false
  /-- `isForexPosition(position)`. -/
  forex : Bool := false
  /-- `forexQuoteToUsdRate` finds a rate at an exit price. -/
  quoteToUsdRate : ℚ → Bool := fun _ => true
  /-- `resolveSettledRealizedPnl(row)`. -/
  settledPnl : Option ℚ := none

namespace StoredPosition

variable (row : StoredPosition)

/-- The venue's data, empty where there are none. -/
def exchangeRecord : ExchangeData := row.exchangeData.getD {}

def normalized (value : Option String) : String := toLowerCase (text value)

def hasSimulatedConnectorOrderId : Bool :=
  let exchange := row.exchangeRecord
  let id := row.orderId <|> row.orderIdSnake <|> row.exchangeOrderId <|> exchange.orderId <|>
    exchange.exchangeOrderId
  hasPrefix "sim-" (normalized id)

def getLivePositionSource : LivePositionSource :=
  let executionMode := normalized (row.executionMode <|> row.executionModeSnake)
  let mode := normalized row.mode
  let statusReason := normalized (row.statusReason <|> row.statusReasonSnake)
  let exchange := row.exchangeRecord
  if normalized row.status = "simulated" || [executionMode, mode, normalized row.environment].any
        (fun value => ["simulation", "simulated", "paper"].contains value) ||
      row.isSimulated.truthyFlag ||
      row.simulated.truthyFlag ||
      includes "live_trade disabled" statusReason ||
      row.isPaper.truthyFlag ||
      row.paper.truthyFlag ||
      normalized row.exchange = "simulated" ||
      normalized (row.connector <|> row.connectorType) = "simulated" ||
      row.hasSimulatedConnectorOrderId then .simulated
  else if [executionMode, mode].any (fun value => ["live", "exchange", "real"].contains value) ||
      row.isRealExchangeData.truthyFlag ||
      text (row.orderId <|> row.orderIdSnake) ≠ "" ||
      text (row.exchangeOrderId <|> row.exchangeOrderIdSnake) ≠ "" ||
      text (exchange.orderId <|> exchange.orderIdSnake) ≠ "" ||
      text (exchange.exchangeOrderId <|> exchange.exchangeOrderIdSnake) ≠ "" ||
      text (exchange.exchangePositionId <|> exchange.exchangePositionIdSnake) ≠ "" ||
      normalized exchange.source = "exchange" ||
      normalized (exchange.syncedFrom <|> exchange.syncedFromSnake) = "exchange" then .real
  else .unknown

/-- `EXECUTION_PROVING_STATUSES`. -/
def executionProvingStatuses : List String :=
  ["open", "filled", "partially_filled", "simulated", "closing", "closing_partial", "closed"]

/-- `hasExecutionLedger`: the row or the venue says what was executed. -/
def hasExecutionLedger : Bool :=
  let exchange := row.exchangeRecord
  [row.executedQuantity, row.totalExecutedQuantity, row.closedQuantity, exchange.quantity,
    exchange.positionAmt, exchange.contracts, exchange.size].any (·.finiteNumeric.isSome)

def exchangeQuantity : Option ℚ :=
  let exchange := row.exchangeRecord
  ((firstFiniteNumeric [exchange.quantity, exchange.positionAmt, exchange.contracts,
    exchange.size]).filter fun q => 0 < |q|).map fun q => |q|

/-- `current`. -/
def currentQuantity : Option ℚ :=
  match row.executedQuantity.finiteNumeric with
  | none => row.exchangeQuantity
  | some explicitCurrent => some (max 0 explicitCurrent)

def fillQuantity : ℚ :=
  (row.fills.array.map fun fill => fill.quantity.absolutePositiveNumeric.getD 0).sum

def legacyQuantity : Option ℚ :=
  if !row.hasExecutionLedger && executionProvingStatuses.contains (normalized row.status) then
    row.quantity.finiteNumeric
  else none

def resolveConfirmedPositionQuantity (lifetime : Bool) : Option ℚ :=
  let status := normalized row.status
  let current := row.currentQuantity
  let closed := firstPositiveNumeric [row.closedQuantity.finiteNumeric]
  let total := firstPositiveNumeric [row.totalExecutedQuantity.finiteNumeric]
  let reconstructedLifetime :=
    if status = "closed" then max (current.getD 0) (closed.getD 0)
    else current.getD 0 + closed.getD 0
  if lifetime then
    firstPositiveNumeric
      [total, some reconstructedLifetime, some row.fillQuantity, closed, current,
        row.legacyQuantity]
  else if status = "closed" then
    firstPositiveNumeric [total, closed, some row.fillQuantity, current]
  else if row.executedQuantity.finiteNumeric.any (· ≤ 0) then none
  else
    let reconstructedOpen := total.bind fun t => closed.map fun c => max 0 (t - c)
    firstPositiveNumeric [current, reconstructedOpen,
        if 0 < row.fillQuantity then some (max 0 (row.fillQuantity - closed.getD 0)) else none,
        row.legacyQuantity]

def isExecutedRealExchangePosition : Bool :=
  decide (row.getLivePositionSource = .real) &&
    decide (0 < (row.resolveConfirmedPositionQuantity true).getD 0)

/-- The row as the results ledger reads it. -/
def ledgerRow : LedgerRow where
  systemTrackingId := row.systemTrackingId
  status := row.status
  executedQuantity := row.executedQuantity.toNumber
  filledQuantity := row.filledQuantity.toNumber
  closeReason := row.closeReason
  statusReason := row.statusReason
  source := row.getLivePositionSource
  executedReal := row.isExecutedRealExchangePosition
  settledPnl := row.settledPnl

end StoredPosition

end CtsEngine
