import CtsEngine.OrderControl.Records
import CtsEngine.Transition.Runs
import CtsEngine.VenueReply.OrderResults

/-!
# Replies about a controlled order

`lib/live-order-service.ts`: how a failed placement is read, how the answer to a query of an order
is unwrapped, and whether what it shows is the order of a control record.

`placeLiveOrder` of a Direct-Trade payload on the real exchange.  Every call with the same control
id is a party: the one that stores the control record places the order and accounts for it, every
other one replays.  A call is given by its snapshot of the control record, by what it waits for, and
by the events that it still has to count; what it waits for comes back in any order and with any
content.

Besides the stores, the state remembers what happened: how often the order was placed, what was
counted, and whether a reply that was read reported an execution.
-/

namespace CtsEngine.DirectOrder

open OrderControl
open VenueReply

abbrev StoredValue := JsonText.Value Double

/-- The value that the JSON text of a value has; `undefined` has no text. -/
def jsonOf : Value → Option StoredValue
  | .undefined => none
  | .null => some .null
  | .boolean b => some (.bool b)
  | .number (.finite q) => some (.number (.finite q))
  | .number _ => some .null
  | .text s => some (.text s)
  | .array items => some (.array (jsonItems items))
  | .object fields => some (.object (jsonFields fields))
where
  /-- In an array `undefined` becomes `null`. -/
  jsonItems : List Value → List StoredValue
    | [] => []
    | item :: items => (jsonOf item).getD .null :: jsonItems items
  /-- In an object a field that is `undefined` is left out. -/
  jsonFields : List (String × Value) → List (String × StoredValue)
    | [] => []
    | (name, value) :: fields =>
      match jsonOf value with
      | none => jsonFields fields
      | some stored => (name, stored) :: jsonFields fields

/-- `(^|\D)code(\D|$)` in a text, after a character. -/
def mentionsCode (code : List Char) : Option Char → List Char → Bool
  | _, [] => false
  | previous, c :: cs =>
    (previous.all fun p => !p.isDigit) && code.isPrefixOf (c :: cs) &&
      (((c :: cs).drop code.length).head?.all fun next => !next.isDigit) ||
    mentionsCode code (some c) cs

/-- The needles of `isAlreadyClosedReduceOnlyError`. -/
def alreadyClosedTexts : List String :=
  ["no position to close", "position does not exist", "position not exist",
    "position is already closed", "position already closed", "position quantity is zero",
    "position qty is 0"]

def isAlreadyClosedReduceOnlyError (failure : Value) : Bool :=
  let parts := [failure.get "code", failure.get "retCode", failure.get "errorCode",
    (failure.get "data").get "code", failure.get "error", failure.get "message",
    failure.get "msg", (failure.get "data").get "msg", failure]
  let serialized := match jsonOf failure with
    | none => "undefined"
    | some stored => String.ofList (stringify stored)
  let message := toLowerCase
    (" ".intercalate (parts.map fun part => (part.coalesce (.text "")).toText) ++ " " ++ serialized)
  mentionsCode "101205".toList none message.toList ||
    alreadyClosedTexts.any fun needle => includes needle message

/-- The needles of `isAmbiguousPlacementFailure`. -/
def ambiguousTexts : List String :=
  ["ambiguous", "ack_without_order_id", "without order id", "reconcile", "timed out", "timeout",
    "network", "socket", "econnreset", "duplicate", "already exists"]

def isAmbiguousPlacementFailure (failure : Value) : Bool :=
  let message := toLowerCase
    ((((failure.get "error").coalesce (failure.get "message")).coalesce failure).coalesce
      (.text "")).toText
  ambiguousTexts.any fun needle => includes needle message

/-! ## Answers to queries -/

/-- The names of a client order id. -/
def clientIdFields : List String :=
  ["clientOrderId", "clientOrderID", "orderLinkId", "custom_order_id", "customOrderId",
    "client_order_id", "clOrdId", "newClientOrderId", "label"]

def liveOrderClientId (result : Value) : String :=
  firstNonEmptyString (clientIdFields.map result.get)

/-- An optional text is there and not empty. -/
def hasText (value : Option String) : Bool := value.any fun text => text ≠ ""

/-- `matchesDirectOrderControl`; the exchange client id of a record is never empty, so that its
fallback is not needed. -/
def matchesDirectOrderControl (result : Value) (record : DirectOrderControlRecord) : Bool :=
  let orderId := liveOrderId result
  let clientOrderId := liveOrderClientId result
  hasText record.orderId && orderId ≠ "" && record.orderId = some orderId ||
    clientOrderId ≠ "" && (clientOrderId = record.exchangeClientOrderId ||
      clientOrderId = record.clientOrderId) ||
    !hasText record.orderId && orderId ≠ "" && (orderId = record.exchangeClientOrderId ||
      orderId = record.clientOrderId)

/-- The elements of a value that is an array. -/
def arrayOf : Value → Option (List Value)
  | .array items => some items
  | _ => none

def orderRows (value : Value) : List Value :=
  ([value, value.get "orders", value.get "data", (value.get "data").get "orders",
    value.get "list", (value.get "result").get "orders",
    (value.get "result").get "list"].findSome? arrayOf).getD []

/-- The value is an object and no array. -/
def isPlainObject : Value → Bool
  | .object _ => true
  | _ => false

/-- `value === false`. -/
def isFalse : Value → Bool
  | .boolean b => !b
  | _ => false

def unwrapConnectorOrderDetail (value : Value) : Option Value :=
  if !value.isObject || isFalse (value.get "success") then none
  else
    let nested := ((value.get "order").coalesce ((value.get "data").get "order")).coalesce
      (value.get "data")
    if isPlainObject nested then some nested
    else if liveOrderId value ≠ "" || liveOrderClientId value ≠ "" ||
        statusFields.any fun name => (value.get name).isTruthy then some value
    else none

/-- The status of a reply, as `isTerminalLiveOrderResult` compares it. -/
def comparedStatus (reply : Value) : String :=
  String.ofList (underscoreRuns false (toLowerCase (trim (reportedStatus reply))).toList)

/-- A reply reports an execution: it has an executed quantity, or it says that the order is
filled. -/
def reportsExecution (reply : Value) : Bool :=
  decide (0 < reportedQty reply) || ["filled", "fully_filled"].contains (comparedStatus reply)

end CtsEngine.DirectOrder

namespace CtsEngine.DirectOrder

open OrderControl
open VenueReply

/-- The functions that the connector has. -/
structure Connector where
  hasGetOrder : Bool
  hasGetOrderDetails : Bool
  hasGetOpenOrder : Bool
  hasGetOpenOrders : Bool
  hasGetOrderHistory : Bool
  hasGetOrderSettlement : Bool

/-- What the calls for one control id have in common. -/
structure Control where
  fingerprint : String
  connectionId : String
  clientOrderId : String
  positionId : Option String
  exchangeClientOrderId : String
  symbol : String
  direction : Direction
  positionDirection : Direction
  reduceOnly : Bool
  orderType : OrderControl.OrderType

/-- What a call has of its own: the sized quantity and what goes into its response. -/
structure Input where
  mode : String
  quantity : ℚ
  requestedQuantity : ℚ
  adjusted : Bool
  reason : Option String
  /-- `input.leverage || 1`. -/
  leverage : ℚ
  requireProtection : Bool
  /-- `input.updateCounters !== false`. -/
  updateCounters : Bool

def directionText : Direction → String
  | .long => "long"
  | .short => "short"

def exchangeSideForDirection : Direction → String
  | .long => "buy"
  | .short => "sell"

variable (control : Control)

/-- The record with which a call claims the control id. -/
def claimRecord (input : Input) (now : ℚ) : DirectOrderControlRecord where
  fingerprint := control.fingerprint
  state := .submitting
  connectionId := control.connectionId
  clientOrderId := control.clientOrderId
  positionId := control.positionId
  canonicalPositionId := none
  exchangeClientOrderId := control.exchangeClientOrderId
  symbol := control.symbol
  direction := control.direction
  positionDirection := control.positionDirection
  reduceOnly := control.reduceOnly
  quantity := input.quantity
  orderType := control.orderType
  orderId := none
  response := none
  lastError := none
  createdAt := now
  updatedAt := now

/-! ## Counted events -/

inductive ProgressEvent
  | placed
  | filled
  | failed
  | preflightFailed
deriving DecidableEq

def ProgressEvent.text : ProgressEvent → String
  | .placed => "placed"
  | .filled => "filled"
  | .failed => "failed"
  | .preflightFailed => "preflight_failed"

variable (connector : Connector) (orderId : String)

def progressionIdentity : String := trim (if orderId = "" then control.clientOrderId else orderId)

/-- The key of an event of the order with this identity. -/
def progressKey (identity : String) (event : ProgressEvent) : String :=
  trim (control.symbol ++ ":" ++ directionText control.direction ++ ":" ++ identity ++ ":" ++
    event.text)

/-- The key under which an event is counted once; without an identity it has none. -/
def eventKey (identity : String) (event : ProgressEvent) : Option String :=
  if identity = "" then none else some (progressKey control identity event)

/-- What a call waits for, with what it has read. -/
inductive Phase
  /-- The claim is stored, and is to be persisted on the inline backend. -/
  | claiming
  /-- The claim could not be persisted and is to be deleted. -/
  | releasing
  /-- The margin and the leverage. -/
  | settingUp
  /-- The answer to `placeOrder`. -/
  | placing
  /-- The write of an accepted order. -/
  | acknowledging (result : Value)
  /-- The order, read once more. -/
  | hydrating (result : Value) (exchangeOrderId : String)
  /-- The settlement of an order that is done. -/
  | settling (result : Value) (exchangeOrderId : String)
  /-- The protection and the position. -/
  | preparing (result : Value) (exchangeOrderId : String) (settlement : Option Value)
  /-- The last write of an accepted order. -/
  | finishing (result : Value) (exchangeOrderId : String) (settlement : Option Value)
      (position protection : StoredValue)
  /-- The write of a rejected order. -/
  | failing (error : String) (raw : Value)
  /-- The write of an order of which nothing is known. -/
  | deferring (orderId details : Value) (lastError : String)
  /-- The write of a close that found no position. -/
  | alreadyClosed (details : Value)
  /-- A replay asks for the order itself, in at most so many ways. -/
  | lookingUp (left : ℕ)
  /-- The open orders and the history. -/
  | listing
  /-- The settlement of an order that a replay has found done. -/
  | reconciledSettling (reconciled : Value)
  /-- The write of an order that a replay has found. -/
  | reconciled (reconciled : Value) (settlement : Option Value)
  /-- The settlement of a completed order with this response. -/
  | enriching (response : List (String × StoredValue))
  /-- The write of a completed order with its settlement. -/
  | enriched (response : List (String × StoredValue)) (settlement : Value)

/-- A call: its input, its snapshot of the control record, what it waits for, and the events that it
counts before that, each under an identity. -/
structure Call where
  input : Input
  record : DirectOrderControlRecord
  phase : Phase
  todo : List (ProgressEvent × String) := []

/-! ### The owner -/

/-- `exchangeOrderId || "N/A"`. -/
def orderIdOr : String := if orderId = "" then "N/A" else orderId

/-- `readOrderSettlement` asks the connector. -/
def asksSettlement : Bool := connector.hasGetOrderSettlement && (settlementId orderId).isSome

variable (call : Call) (record : DirectOrderControlRecord) (reply : ConnectorReply Value)

/-- The settlement of an order in a reply. -/
def settlementIn : Option Value := settlementOfReply ((settlementId orderId).getD "") reply

/-- The fill of a result on the real exchange: there are no fallbacks. -/
def liveFill (result : Value) : ParsedFill := parseOrderFill result 0 0

/-- What is counted for a result. -/
def progressOf (input : Input) (result : Value) (orderId : String) (quantity : ℚ) :
    List (ProgressEvent × String) :=
  let identity := progressionIdentity control orderId
  if !input.updateCounters then []
  else (.placed, identity) ::
    if isTerminalLiveOrderResult result quantity && decide (0 < (liveFill result).filledQty) then
      [(.filled, identity)]
    else []

/-- A claim that may be placed now. -/
def afterClaim : Call := { call with phase := if control.reduceOnly then .placing else .settingUp }

/-- `String(failure?.error ?? failure?.message ?? failure ?? …)`. -/
def failureText (failure : Value) : String :=
  ((((failure.get "error").coalesce (failure.get "message")).coalesce failure).coalesce
    (.text "Failed to place order")).toText

/-- `completeDirectControlFailure` up to its write. -/
def fail (failure raw : Value) (event : ProgressEvent) : Call :=
  { call with
    phase := .failing (failureText failure) raw
    todo :=
      if call.input.updateCounters then
        [(event, progressionIdentity control (liveOrderId raw))]
      else [] }

/-- The details of a close that found no position. -/
def closedDetails (reason raw : Value) : Value :=
  raw.orElse (.object [("error", .text (((reason.get "message").coalesce reason).coalesce
      (.text "Position is already closed")).toText)])

/-- The message of what was thrown; an error is an object with its message. -/
def thrownText (error : Value) : String :=
  if isPlainObject error then (error.get "message").toText else error.toText

/-- What the owner does with the answer to `placeOrder`, which throws or returns. -/
def afterPlacement : Except Value Value → Call
  | .error error =>
    if control.reduceOnly && isAlreadyClosedReduceOnlyError error then
      { call with phase := .alreadyClosed (closedDetails error .undefined) }
    else
      { call with
        phase := .deferring (.text (call.record.orderId.getD ""))
          (.object [("error", .text (thrownText error))]) (thrownText error) }
  | .ok result =>
    if (result.get "success").isTruthy then { call with phase := .acknowledging result }
    else if control.reduceOnly && isAlreadyClosedReduceOnlyError result then
      { call with
        phase := .alreadyClosed (closedDetails ((result.get "error").orElse result) result) }
    else if isAmbiguousPlacementFailure result then
      { call with
        phase := .deferring
          (((result.get "orderId").orElse (result.get "order_id")).orElse (result.get "id")) result
          ((result.get "error").orElse (.text "Ambiguous exchange acknowledgement")).toText }
    else fail control call ((result.get "error").orElse (.text "Failed to place order")) result
      .failed

/-- The owner has its final result. -/
def afterHydration (result : Value) (exchangeOrderId : String) : Call :=
  let orderId := if liveOrderId result = "" then exchangeOrderId else liveOrderId result
  if isTerminalLiveOrderResult result call.input.quantity &&
      asksSettlement connector (orderIdOr orderId) then
    { call with phase := .settling result orderId }
  else { call with phase := .preparing result orderId none }

/-- The owner after the write of an accepted order, which gave it this record. -/
def afterAcknowledgement (result : Value) (record : DirectOrderControlRecord) : Option Call :=
  if isTerminalDirectOrderControlState record.state && record.response.isSome then none
  else if liveOrderId result ≠ "" ∧ needsHydration result ∧ connector.hasGetOrder then
    some { call with record := record, phase := .hydrating result (liveOrderId result) }
  else some (afterHydration connector { call with record := record } result (liveOrderId result))

/-- The owner after its protection and its position: without a fill there is no protection, and the
call throws. -/
def afterPreparation (result : Value) (exchangeOrderId : String) (settlement : Option Value)
    (position protection : StoredValue) : Option Call :=
  let fill := liveFill result
  if call.input.requireProtection ∧
      ¬(isTerminalLiveOrderResult result call.input.quantity ∧ 0 < fill.filledQty ∧
        0 < fill.filledPrice) then none
  else some { call with
    phase := .finishing result exchangeOrderId settlement position protection
    todo := progressOf control call.input result exchangeOrderId call.input.quantity }

/-! ### Replays -/

/-- The id of an order that a replay has found. -/
def reconciledOrderId (reconciled : Value) : String :=
  if liveOrderId reconciled ≠ "" then liveOrderId reconciled
  else if hasText record.orderId then record.orderId.getD "" else "N/A"

/-- A replay that has all it needs of the order. -/
def afterSettlement (reconciled : Value) (settlement : Option Value) : Call :=
  { call with
    phase := .reconciled reconciled settlement
    todo := progressOf control call.input reconciled (reconciledOrderId call.record reconciled)
      call.record.quantity }

/-- A replay that has found the order. -/
def afterReconciliation (control : Control) (call : Call) (reconciled : Value) : Call :=
  if isTerminalLiveOrderResult reconciled call.record.quantity &&
      asksSettlement connector (reconciledOrderId call.record reconciled) then
    { call with phase := .reconciledSettling reconciled }
  else afterSettlement control call reconciled none

/-- In how many ways a replay asks for the order itself. -/
def detailReads : ℕ :=
  (if hasText record.orderId && connector.hasGetOrder then 1 else 0) +
    (if connector.hasGetOrderDetails || connector.hasGetOpenOrder then 1 else 0)

/-- A replay that goes on asking. -/
def lookUp (left : ℕ) : Call :=
  { call with phase := if left = 0 then .listing else .lookingUp left }

/-- The order in the answer to a query of it. -/
def detailOf : Option Value :=
  (unwrapConnectorOrderDetail (boundedRead reply)).filter (matchesDirectOrderControl · record)

/-- The rows of a list of orders that are the order of a record. -/
def matchingRows (asked : Bool) (reply : ConnectorReply Value) : List Value :=
  if asked then (orderRows (boundedRead reply)).filter (matchesDirectOrderControl · record) else []

/-- A call that finds the control record of an earlier one; it may be done at once. -/
def replay (input : Input) (record : DirectOrderControlRecord) : Option Call :=
  match record.response.filter fun _ => isTerminalDirectOrderControlState record.state with
  | some response =>
    if record.state = .completed && !isTrue (settlementOf response) &&
        asksSettlement connector (record.orderId.getD "") then
      some { input := input, record := record, phase := .enriching response }
    else none
  | none =>
    some (lookUp { input := input, record := record, phase := .listing }
      (detailReads connector record))

/-- What a call does with the answer to a single read; `none` if it waits for none. -/
def answered (control : Control) (call : Call) (reply : ConnectorReply Value) :
    Option (Option Call) :=
  match call.phase with
  | .hydrating result orderId =>
    some (some (afterHydration connector call (hydratedResult result orderId reply) orderId))
  | .settling result orderId =>
    let settlement := settlementIn (orderIdOr orderId) reply
    some (some { call with phase := .preparing result orderId settlement })
  | .lookingUp left =>
    match detailOf call.record reply with
    | some detail => some (some (afterReconciliation connector control call detail))
    | none => some (some (lookUp call (left - 1)))
  | .reconciledSettling reconciled =>
    some (some (afterSettlement control call reconciled
      (settlementIn (reconciledOrderId call.record reconciled) reply)))
  | .enriching response =>
    some ((settlementIn (call.record.orderId.getD "") reply).map fun settlement =>
      { call with phase := .enriched response settlement })
  | _ => none

/-- The settlement that a reply is about, if it is about the order. -/
def settlementReport : Bool :=
  let value := boundedRead reply
  decide (trim (((value.get "orderId").orElse (.text "")).toText) =
    (settlementId orderId).getD "") && reportsExecution value

/-- The answer to a single read reports an execution of the order. -/
def answerReports : Bool :=
  match call.phase with
  | .hydrating .. => (boundedRead reply).isObject && reportsExecution (boundedRead reply)
  | .settling _ orderId => settlementReport (orderIdOr orderId) reply
  | .lookingUp _ => (detailOf call.record reply).any reportsExecution
  | .reconciledSettling reconciled =>
    settlementReport (reconciledOrderId call.record reconciled) reply
  | .enriching _ => settlementReport (call.record.orderId.getD "") reply
  | _ => false

end CtsEngine.DirectOrder
