import CtsEngine.Foundation.DoubleText
import CtsEngine.Foundation.Keyed
import CtsEngine.Protection.ControlOrders

/-!
# Order results of a connector

`lib/live-order-service.ts`: what a connector returns for an order is an object under the names of
its venue.  `parseOrderFill` reads the executed quantity, the average price and the status,
`isTerminalLiveOrderResult` decides from status and quantity whether the venue is done with the
order, `hydrateExchangeOrderResult` reads the order once more when the first answer is not complete,
and `readOrderSettlement` reads the accounting of the order.
-/

namespace CtsEngine.VenueReply

/-! ## Values -/

/-- A JavaScript value. -/
inductive Value
  | undefined
  | null
  | boolean (b : Bool)
  | number (x : Double)
  | text (s : String)
  | array (items : List Value)
  | object (fields : List (String × Value))

namespace Value

/-- `value?.[key]`. -/
def get (value : Value) (key : String) : Value :=
  match value with
  | .object fields => (Keyed.get? fields key).getD .undefined
  | _ => .undefined

/-- `String(value)`. -/
def toText : Value → String
  | .undefined => "undefined"
  | .null => "null"
  | .boolean b => if b then "true" else "false"
  | .number x => String.ofList (doubleText x)
  | .text s => s
  | .array items => ",".intercalate (texts items)
  | .object _ => "[object Object]"
where
  /-- The texts of the elements of an array; a missing one is empty. -/
  texts : List Value → List String
    | [] => []
    | .undefined :: items => "" :: texts items
    | .null :: items => "" :: texts items
    | item :: items => toText item :: texts items

/-- `Number(value)`. -/
def toNumber : Value → Double
  | .undefined => .nan
  | .null => .finite 0
  | .boolean b => .finite (if b then 1 else 0)
  | .number x => x
  | .text s => numberOfString s
  | .array items => numberOfString (toText (.array items))
  | .object _ => .nan

/-- The value is `null` or `undefined`. -/
def isNullish : Value → Bool
  | .undefined => true
  | .null => true
  | _ => false

def isTruthy : Value → Bool
  | .undefined => false
  | .null => false
  | .boolean b => b
  | .number x => x ≠ .finite 0 && x ≠ .nan
  | .text s => s ≠ ""
  | .array _ => true
  | .object _ => true

/-- `value === true`. -/
def isTrue : Value → Bool
  | .boolean b => b
  | _ => false

/-- `a || b`. -/
def orElse (a b : Value) : Value := if a.isTruthy then a else b

/-- `a ?? b`. -/
def coalesce (a b : Value) : Value := if a.isNullish then b else a

/-- The own properties that a spread copies; the elements of an array have no name that is read. -/
def ownFields : Value → List (String × Value)
  | .object fields => fields
  | _ => []

/-- `{ ...first, ...second }`. -/
def spread (first second : Value) : List (String × Value) :=
  (first.ownFields ++ second.ownFields).foldl
    (fun fields field => Keyed.put fields field.1 field.2) []

/-- `value && typeof value === "object"`. -/
def isObject : Value → Bool
  | .array _ => true
  | .object _ => true
  | _ => false

end Value

/-! ## Fields of an order -/

def firstPositiveNumber (values : List Value) : ℚ :=
  (values.findSome? fun value =>
    match value.toNumber with
    | .finite q => if 0 < q then some q else none
    | _ => none).getD 0

def firstNonEmptyString (values : List Value) : String :=
  (values.findSome? fun value =>
    if value.isNullish then none
    else if trim value.toText = "" then none
    else some (trim value.toText)).getD ""

/-- The names of an executed quantity. -/
def filledQtyFields : List String :=
  ["filledQty", "executedQty", "cumQty", "cumExecQty", "accFillSz", "filledSize",
    "filledQuantity", "filled_amount"]

/-- The names of an average price. -/
def filledPriceFields : List String :=
  ["filledPrice", "avgPrice", "averagePrice", "avgPx", "avgFillPrice", "average_price"]

/-- The names of a status. -/
def statusFields : List String := ["status", "orderStatus", "state", "order_state"]

/-- The names of an order id. -/
def orderIdFields : List String := ["orderId", "order_id", "orderID", "ordId", "orderNo", "id"]

variable (result : Value)

/-- The executed quantity that a result reports, 0 if it reports none. -/
def reportedQty : ℚ := firstPositiveNumber (filledQtyFields.map result.get)

/-- The status text of a result, empty if it has none. -/
def reportedStatus : String := firstNonEmptyString (statusFields.map result.get)

def liveOrderId : String := firstNonEmptyString (orderIdFields.map result.get)

structure ParsedFill where
  filled : Bool
  filledQty : ℚ
  filledPrice : ℚ
  status : String

def parseOrderFill (fallbackQuantity fallbackPrice : ℚ) : ParsedFill :=
  let filledQty := reportedQty result
  let filledPrice := firstPositiveNumber
    (filledPriceFields.map result.get ++ [.number (.finite fallbackPrice)])
  let status := toLowerCase (firstNonEmptyString (statusFields.map result.get ++
    [.text (if 0 < filledQty then "filled" else "placed")]))
  { filled := decide (0 < filledQty) &&
      (includes "fill" status || decide (fallbackQuantity * (99 / 100) ≤ filledQty))
    filledQty := filledQty
    filledPrice := filledPrice
    status := status }

/-- Every run of blanks and hyphens becomes one underscore. -/
def underscoreRuns : Bool → List Char → List Char
  | _, [] => []
  | inRun, c :: cs =>
    if isJsSpace c || c == '-' then
      if inRun then underscoreRuns true cs else '_' :: underscoreRuns true cs
    else c :: underscoreRuns false cs

/-- The markers of a cancellation or a rejection. -/
def endMarkers : List String := ["cancel", "reject", "expire", "fail", "deactivat"]

/-- The statuses that end an order. -/
def endStatuses : List String :=
  ["filled", "fully_filled", "closed", "complete", "completed", "done", "cancelled", "canceled",
    "rejected", "expired", "failed"]

def isTerminalLiveOrderResult (requestedQuantity : ℚ) : Bool :=
  let status := String.ofList
    (underscoreRuns false (toLowerCase (trim (reportedStatus result))).toList)
  let compactStatus := String.ofList (status.toList.filter (· ≠ '_'))
  if endMarkers.any fun marker => includes marker compactStatus then true
  else if endStatuses.contains status then true
  else if includes "partial" status then false
  else decide (0 < requestedQuantity) &&
    decide (requestedQuantity * (999999 / 1000000) ≤ reportedQty result)

/-- What a call of the connector comes to. -/
inductive ConnectorReply (A : Type)
  | threw (message : String)
  | returned (value : A)

/-- `boundedConnectorRead`: an exception and a read that takes too long give `null`, which a
connector may also return itself. -/
def boundedRead : ConnectorReply Value → Value
  | .threw _ => .null
  | .returned value => value

/-- The first answer has no complete execution, so that the order is read once more. -/
def needsHydration : Bool :=
  !(decide (0 < firstPositiveNumber (["filledQty", "executedQty", "cumQty"].map result.get)) &&
    decide (0 < firstPositiveNumber (["filledPrice", "avgPrice", "averagePrice"].map result.get)))

/-- `hydrateExchangeOrderResult`, after the read. -/
def hydratedResult (orderId : String) (reply : ConnectorReply Value) : Value :=
  let queried := boundedRead reply
  if queried.isObject then
    .object (Keyed.put (Value.spread result queried) "orderId"
      (((result.get "orderId").orElse (queried.get "orderId")).orElse (.text orderId)))
  else result

/-- What `readOrderSettlement` asks for an order with this id. -/
def settlementId (orderId : String) : Option String :=
  if trim orderId = "" ∨ trim orderId = "N/A" then none else some (trim orderId)

/-- `readOrderSettlement`, after the read. -/
def settlementOfReply (exactOrderId : String) (reply : ConnectorReply Value) : Option Value :=
  let value := boundedRead reply
  if ¬ value.isTruthy ∨ trim (((value.get "orderId").orElse (.text "")).toText) ≠ exactOrderId then
    none
  else if !((Double.finite 0).lt (value.get "filledQuantity").toNumber) ||
      !((Double.finite 0).lt (value.get "averageFillPrice").toNumber) then none
  else some value

end CtsEngine.VenueReply
