import CtsEngine.DirectOrder.Calls

/-!
# Writes and steps of the calls for one direct order

The control record that a call writes, with the response in it, and the steps of all calls on the
stores.  A write is merged into the stored record at one moment: on a shared Redis by the script, on
the inline store under the lock of the record.
-/

namespace CtsEngine.DirectOrder

open OrderControl
open VenueReply

/-! ## Responses -/

/-- The fields of an object literal that its JSON text has. -/
def literal (fields : List (String × Option StoredValue)) : List (String × StoredValue) :=
  fields.filterMap fun field => field.2.map fun value => (field.1, value)

def storedNumber (q : ℚ) : Option StoredValue := some (.number (.finite q))

def storedText (text : String) : Option StoredValue := some (.text text)

def storedFlag (flag : Bool) : Option StoredValue := some (.bool flag)

def storedFill (fill : ParsedFill) : StoredValue :=
  .object [("filled", .bool fill.filled), ("filledQty", .number (.finite fill.filledQty)),
    ("filledPrice", .number (.finite fill.filledPrice)), ("status", .text fill.status)]

/-- The fill of an order of which nothing is known. -/
def pendingFill : ParsedFill := ⟨false, 0, 0, "pending_reconciliation"⟩

/-- The fill of a close that found no position. -/
def closedFill : ParsedFill := ⟨false, 0, 0, "already_closed"⟩

/-- `value ?? null` of a settlement. -/
def storedSettlement (settlement : Option Value) : StoredValue :=
  ((settlement.bind fun value => jsonOf value)).getD .null

variable (control : Control) (input : Input)

/-- The fields with which every response to an accepted order begins. -/
def orderFields (orderId : Option StoredValue) (quantity : ℚ) :
    List (String × Option StoredValue) :=
  [("success", storedFlag true), ("mode", storedText input.mode), ("orderId", orderId),
    ("symbol", storedText control.symbol),
    ("side", storedText (exchangeSideForDirection control.direction)),
    ("direction", storedText (directionText control.direction)),
    ("quantity", storedNumber quantity),
    ("requestedQuantity", storedNumber input.requestedQuantity),
    ("submittedQuantity", storedNumber quantity),
    ("quantityAdjusted", storedFlag input.adjusted),
    ("quantityAdjustmentReason", input.reason.bind storedText),
    ("leverage", storedNumber input.leverage)]

/-- The fields with which it ends. -/
def stateFields (state : DirectOrderControlState) (isReplay : Bool) :
    List (String × Option StoredValue) :=
  [("pendingReconciliation", storedFlag (state ≠ .completed)),
    ("controlState", storedText (if state = .completed then "completed" else "acknowledged")),
    ("idempotentReplay", storedFlag isReplay)]

def stateOf (result : Value) (quantity : ℚ) : DirectOrderControlState :=
  if isTerminalLiveOrderResult result quantity then .completed else .acknowledged

/-- The response of the owner to an accepted order. -/
def finishedResponse (result : Value) (exchangeOrderId : String) (settlement : Option Value)
    (position protection : StoredValue) : List (String × StoredValue) :=
  literal (orderFields control input (storedText (orderIdOr exchangeOrderId)) input.quantity ++
    [("fill", some (storedFill (liveFill result))), ("position", some position),
      ("protection", some protection), ("details", jsonOf result),
      ("settlement", some (storedSettlement settlement))] ++
    stateFields (stateOf result input.quantity) false)

/-- The response of a replay that has found the order. -/
def reconciledResponse (record : DirectOrderControlRecord) (reconciled : Value)
    (settlement : Option Value) : List (String × StoredValue) :=
  let position := (record.response.bind (Keyed.get? · "position")).filter jsTruthy
  literal (orderFields control input (storedText (reconciledOrderId record reconciled))
      record.quantity ++
    [("fill", some (storedFill (liveFill reconciled))), ("position", some (position.getD .null)),
      ("details", jsonOf reconciled), ("settlement", some (storedSettlement settlement))] ++
    stateFields (stateOf reconciled record.quantity) true)

/-- The response of the owner to an order of which nothing is known. -/
def deferredResponse (orderId details : Value) : List (String × StoredValue) :=
  literal (orderFields control input (jsonOf (orderId.orElse (.text "N/A"))) input.quantity ++
    [("fill", some (storedFill pendingFill)), ("position", some .null),
      ("details", jsonOf details)] ++ stateFields .acknowledged false)

/-- The response of `completeAlreadyClosedReduceOnlyControl`. -/
def closedResponse (record : DirectOrderControlRecord) (details : Value) :
    List (String × StoredValue) :=
  literal (("alreadyClosed", storedFlag true) ::
    orderFields control input (storedText (orderIdOr (record.orderId.getD ""))) input.quantity ++
    [("fill", some (storedFill closedFill)), ("position", some .null), ("details", jsonOf details),
      ("settlement", some .null)] ++ stateFields .completed false)

/-- The response of `completeDirectControlFailure`. -/
def failedResponse (error : String) (raw : Value) : List (String × StoredValue) :=
  literal [("success", storedFlag false), ("error", storedText error),
    ("mode", storedText input.mode), ("requestedQuantity", storedNumber input.requestedQuantity),
    ("submittedQuantity", storedNumber input.quantity),
    ("quantityAdjusted", storedFlag input.adjusted),
    ("quantityAdjustmentReason", input.reason.bind storedText), ("raw", jsonOf raw),
    ("pendingReconciliation", storedFlag false), ("controlState", storedText "failed")]

/-- The record that a call writes; `none` if it waits for no write. -/
def outgoing (call : Call) (now : ℚ) : Option DirectOrderControlRecord :=
  let record := { call.record with updatedAt := now }
  match call.phase with
  | .acknowledging result =>
    some { record with
      state := .acknowledged
      orderId := strOr (some (liveOrderId result)) record.orderId }
  | .finishing result exchangeOrderId settlement position protection =>
    some { record with
      state := stateOf result call.input.quantity
      orderId := strOr (some exchangeOrderId) record.orderId
      response := some (finishedResponse control call.input result exchangeOrderId settlement
        position protection) }
  | .failing error raw =>
    some { record with
      state := .failed
      orderId := strOr (some (liveOrderId raw)) record.orderId
      response := some (failedResponse call.input error raw)
      lastError := some error }
  | .deferring orderId details lastError =>
    some { record with
      state := .acknowledged
      orderId := if orderId.isTruthy then some orderId.toText else record.orderId
      response := some (deferredResponse control call.input orderId details)
      lastError := some lastError }
  | .alreadyClosed details =>
    some { record with
      state := .completed
      response := some (closedResponse control call.input record details)
      lastError := none }
  | .reconciled reconciled settlement =>
    some { record with
      state := stateOf reconciled record.quantity
      orderId :=
        if reconciledOrderId record reconciled = "N/A" then record.orderId
        else some (reconciledOrderId record reconciled)
      response := some (reconciledResponse control call.input record reconciled settlement) }
  | .enriched response settlement =>
    some { record with
      response := some (Keyed.put response "settlement" (storedSettlement (some settlement))) }
  | _ => none

variable (backend : Backend)

/-- `writeDirectOrderControlRecord` of a backend on the stored record; `none` is a conflict. -/
def merged (current incoming : DirectOrderControlRecord) : Option DirectOrderControlRecord :=
  match backend with
  | .shared => luaWrite current incoming
  | .inlineLocal => mergeDirectOrderControlRecord current incoming

/-! ## Steps -/

/-- The stores, the calls, and what happened. -/
structure ControlRun where
  stored : Option DirectOrderControlRecord := none
  /-- The keys under which events were counted, of this order and of others. -/
  counted : List String := []
  calls : List (Option Call) := []
  /-- The record is persisted, as far as the backend does that. -/
  durable : Bool := false
  /-- How often the order was placed. -/
  placements : ℕ := 0
  /-- The events that a call has come to count, and those that were added to the statistics. -/
  asked : List ProgressEvent := []
  added : List ProgressEvent := []
  /-- A reply that was read reported an execution of the order. -/
  reported : Bool := false

/-- How a write ends. -/
inductive WriteEnd
  | stored
  /-- The record is stored, but it is not persisted, and the call throws. -/
  | notPersisted
  /-- Nothing is stored, and the call throws. -/
  | failed

/-- A single step. -/
inductive Event
  /-- A call comes to the control record. -/
  | enter (input : Input) (now : ℚ)
  /-- `persistNow` for a claim comes back. -/
  | persisted (i : ℕ) (done : Bool)
  /-- The claim that could not be persisted is deleted. -/
  | released (i : ℕ)
  /-- The margin and the leverage are set, or that throws. -/
  | setUp (i : ℕ) (failure : Option Value)
  /-- `placeOrder` throws or returns. -/
  | placed (i : ℕ) (answer : Except Value Value)
  | answered (i : ℕ) (reply : ConnectorReply Value)
  | listed (i : ℕ) (openOrders history : ConnectorReply Value)
  /-- The protection and the position are there. -/
  | prepared (i : ℕ) (position protection : StoredValue)
  /-- The first event that a call has to count. -/
  | count (i : ℕ)
  | write (i : ℕ) (ending : WriteEnd) (now : ℚ)
  /-- A call crashes or throws. -/
  | stop (i : ℕ)
  /-- An event of another order is counted. -/
  | otherCount (key : String)
  /-- The set of counted events expires. -/
  | countsExpire

variable (s : ControlRun)

def ControlRun.callAt (i : ℕ) : Option Call := (s.calls[i]?).join

/-- A call that has just been made. -/
def placesNow (call : Option Call) : ℕ :=
  match call.map Call.phase with
  | some .placing => 1
  | _ => 0

/-- A call goes on, or it is done. -/
def ControlRun.proceed (i : ℕ) (call : Option Call) : ControlRun :=
  { s with calls := s.calls.set i call, placements := s.placements + placesNow call }

/-- A new call. -/
def ControlRun.begin (call : Option Call) : ControlRun :=
  { s with calls := s.calls ++ [call], placements := s.placements + placesNow call }

variable (connector : Connector)

/-- A call comes to the control record. -/
def enter (control : Control) (s : ControlRun) (input : Input) (now : ℚ) : ControlRun :=
  match s.stored with
  | some record =>
    s.begin (if record.fingerprint = control.fingerprint then replay connector input record
      else none)
  | none =>
    let call : Call :=
      { input := input, record := claimRecord control input now, phase := .claiming }
    { s with stored := some call.record, durable := decide (backend = Backend.shared) }.begin
      (some (if backend = Backend.shared then afterClaim control call else call))

/-- The first event of a call is counted, unless its key is there already. -/
def count (i : ℕ) (call : Call) : Option ControlRun :=
  match call.todo with
  | [] => none
  | (event, identity) :: todo =>
    let key := eventKey control identity event
    let fresh : Bool := key.all fun key => !s.counted.contains key
    some { s with
      calls := s.calls.set i (some { call with todo := todo })
      counted := if fresh then s.counted ++ key.toList else s.counted
      asked := s.asked ++ [event]
      added := if fresh then s.added ++ [event] else s.added }

/-- What becomes of a call after its write, which left this record. -/
def afterWrite (call : Call) (record : DirectOrderControlRecord) : Option Call :=
  match call.phase with
  | .acknowledging result => afterAcknowledgement connector call result record
  | _ => none

def write (control : Control) (s : ControlRun) (i : ℕ) (call : Call) (ending : WriteEnd) (now : ℚ) :
    Option ControlRun :=
  if call.todo ≠ [] then none
  else (outgoing control call now).map fun incoming =>
    let after := s.stored.bind fun current => merged backend current incoming
    match ending, after with
    | .stored, some record =>
      { s.proceed i (afterWrite connector call record) with stored := some record }
    | .notPersisted, some record => { s.proceed i none with stored := some record }
    | _, _ => s.proceed i none

def step (control : Control) (s : ControlRun) : Event → Option ControlRun
  | .enter input now => some (enter backend connector control s input now)
  | .persisted i done => (s.callAt i).bind fun call =>
    match call.phase with
    | .claiming =>
      some (if done then { s.proceed i (some (afterClaim control call)) with durable := true }
        else s.proceed i (some { call with phase := .releasing }))
    | _ => none
  | .released i => (s.callAt i).bind fun call =>
    match call.phase with
    | .releasing => some { s.proceed i none with stored := none, durable := false }
    | _ => none
  | .setUp i failure => (s.callAt i).bind fun call =>
    match call.phase with
    | .settingUp =>
      some (s.proceed i (some (match failure with
        | none => { call with phase := .placing }
        | some error => fail control call error .undefined .preflightFailed)))
    | _ => none
  | .placed i answer => (s.callAt i).bind fun call =>
    match call.phase with
    | .placing =>
      some { s.proceed i (some (afterPlacement control call answer)) with
        reported := s.reported || answer.toOption.any reportsExecution }
    | _ => none
  | .answered i reply => (s.callAt i).bind fun call =>
    (answered connector control call reply).map fun next =>
      { s.proceed i next with reported := s.reported || answerReports call reply }
  | .listed i openOrders history => (s.callAt i).bind fun call =>
    match call.phase with
    | .listing =>
      let rows := matchingRows call.record connector.hasGetOpenOrders openOrders ++
        matchingRows call.record connector.hasGetOrderHistory history
      some { s.proceed i (rows.head?.map (afterReconciliation connector control call)) with
        reported := s.reported || rows.any reportsExecution }
    | _ => none
  | .prepared i position protection => (s.callAt i).bind fun call =>
    match call.phase with
    | .preparing result orderId settlement =>
      some (s.proceed i
        (afterPreparation control call result orderId settlement position protection))
    | _ => none
  | .count i => (s.callAt i).bind fun call => count control s i call
  | .write i ending now =>
    (s.callAt i).bind fun call => write backend connector control s i call ending now
  | .stop i => (s.callAt i).map fun _ => s.proceed i none
  | .otherCount key => some { s with counted := s.counted ++ [key] }
  | .countsExpire => some { s with counted := [] }

end CtsEngine.DirectOrder
