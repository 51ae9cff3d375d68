import CtsEngine.ExposureCeiling.Ceiling
import CtsEngine.Foundation.Interaction
import CtsEngine.VenueReply.OrderResults

/-!
# Entries with required protection

`lib/live-order-service.ts`, `placeLiveOrder` from the protection prices to the response for an
entry with `requireProtection` on the real exchange, and `armRequiredLiveProtection`.  The order is
placed and read once more, and when it is filled its stop loss and take profit are verified on the
broker's position or placed as conditional orders.  Whatever is refused ends in an exception, after
an emergency flatten where the exact position is known.

The connector is the environment: each of its functions may be missing, return anything or throw.
-/

namespace CtsEngine.EntryProtection

open ExposureCeiling (PositionRow LiveOrderDirection orderQuantityFromPosition)
open VenueReply
open Interaction (Program)

/-! ## What is placed -/

/-- Which functions and capabilities the connector has. -/
structure Connector where
  /-- It reports the capability `native_position_sl_tp`. -/
  native : Bool
  hasGetOrder : Bool
  hasGetOrderSettlement : Bool
  hasGetPositions : Bool
  hasGetPosition : Bool
  hasPlaceStopOrder : Bool
  hasCancelOrder : Bool
  hasClosePositionByTicket : Bool

/-- An entry after sizing, with what `placeLiveOrder` needs to place and protect it. -/
structure ProtectedEntry where
  connector : Connector
  symbol : String
  /-- The direction of the order, and that of the position. -/
  direction : LiveOrderDirection
  positionDirection : LiveOrderDirection
  /-- `submitted.quantity`. -/
  quantity : ℚ
  /-- `input.price || 0`, and `submitted.marketPrice || input.price || 0`. -/
  price : ℚ
  marketPrice : ℚ
  limitOrder : Bool
  reduceOnly : Bool
  hedgeMode : Bool
  forex : Bool
  stopLossPrice : ℚ
  takeProfitPrice : ℚ
  protectionStopLossPercent : Option ℚ
  protectionTakeProfitPercent : Option ℚ
  /-- `input.positionTicket`. -/
  positionTicket : Option ℚ
  /-- The exchange client id of the order, and the base of those of its controls. -/
  clientOrderId : String
  controlBase : String
  /-- For a Direct-Trade control: the response of its record, when the record that comes back from
  the write after the placement is terminal. -/
  control : Option (Option Value)

/-- A price pair. -/
structure ProtectionPrices where
  stopLossPrice : ℚ
  takeProfitPrice : ℚ

/-- An order that is sent to the venue. -/
structure VenueOrder where
  side : String
  quantity : ℚ
  price : Option ℚ
  limitOrder : Bool
  reduceOnly : Bool
  positionSide : Option String
  positionTicket : Option ℕ
  clientOrderId : String
  protection : Option ProtectionPrices

inductive StopKind
  | stopLoss
  | takeProfit
  deriving DecidableEq

/-- A conditional order that is sent to the venue. -/
structure StopOrder where
  kind : StopKind
  side : String
  quantity : ℚ
  triggerPrice : ℚ
  positionSide : Option String
  positionTicket : Option ℕ
  clientOrderId : String

/-- A row of a broker's positions, with its ticket and its levels under each of their names. -/
structure BrokerPosition extends PositionRow where
  positionTicket : Option ℚ := none
  ticket : Option ℚ := none
  exchangePositionId : Option ℚ := none
  stopLoss : List (Option ℚ) := []
  takeProfit : List (Option ℚ) := []

/-- The calls of the connector.  `positionRows` is `readAuthoritativePositionRows`, which calls the
connector and refuses what is not authoritative. -/
inductive VenueCall
  | placeOrder (order : VenueOrder)
  | getOrder (orderId : String)
  | getOrderSettlement (orderId : String)
  | positionRows
  | getPosition
  | placeStopOrder (order : StopOrder)
  | cancelOrder (orderId : String)
  | closePositionByTicket (ticket : ℕ) (quantity : ℚ) (clientOrderId : String)

abbrev Answer : VenueCall → Type
  | .placeOrder _ => ConnectorReply Value
  | .getOrder _ => ConnectorReply Value
  | .getOrderSettlement _ => ConnectorReply Value
  | .positionRows => ConnectorReply (List BrokerPosition)
  | .getPosition => ConnectorReply (List BrokerPosition)
  | .placeStopOrder _ => ConnectorReply Value
  | .cancelOrder _ => ConnectorReply Value
  | .closePositionByTicket _ _ _ => ConnectorReply Value

abbrev VenueProgram (A : Type) := Program VenueCall Answer A

inductive LiveProtectionResult
  | native (prices : ProtectionPrices) (positionTicket : ℕ)
  | conditional (prices : ProtectionPrices) (stopLossOrderId takeProfitOrderId : String)

/-- An exception: one of the service, or one that a call of the connector threw. -/
inductive Failure
  | service (message : String) (statusCode : ℕ) (mode : String)
  | venue (message : String)
  deriving DecidableEq

/-- How `placeLiveOrder` ends. -/
inductive Outcome
  /-- The response of an entry whose protection is armed. -/
  | returned (protection : LiveProtectionResult)
  /-- The response of a record that has become terminal. -/
  | replayed (response : Value)
  /-- The venue has not reported success: a failed or a pending response. -/
  | notPlaced (result : Value)
  | threw (failure : Failure)

/-! ## Prices and tickets -/

def exchangeSideForDirection : LiveOrderDirection → String
  | .long => "buy"
  | .short => "sell"

def closeSide : LiveOrderDirection → String
  | .long => "sell"
  | .short => "buy"

variable (entry : ProtectedEntry)

/-- `positionSide` in hedge mode. -/
def hedgeSide : Option String :=
  if entry.hedgeMode then
    some (if entry.positionDirection = .long then "LONG" else "SHORT")
  else none

/-- `Number.isInteger(ticket) && ticket > 0`, with the integer. -/
def positiveTicket (ticket : Option ℚ) : Option ℕ :=
  ticket.bind fun q => if q.den = 1 ∧ 0 < q then some q.num.toNat else none

def BrokerPosition.ticket? (position : BrokerPosition) : Option ℕ :=
  positiveTicket (position.positionTicket <|> position.ticket <|> position.exchangePositionId)

variable (result : Value)

/-- The ticket of an order result. -/
def resultTicket : Option ℕ :=
  match (((result.get "positionTicket").coalesce (result.get "position_ticket")).coalesce
      (result.get "positionTicketId")).toNumber with
  | .finite q => positiveTicket (some q)
  | _ => none

def resolveProtectionPrices (reference : ℚ) : ProtectionPrices :=
  let stopLossPrice := match entry.protectionStopLossPercent with
    | some percent =>
      if 0 < percent ∧ 0 < reference then
        match entry.positionDirection with
        | .long => reference * (1 - percent / 100)
        | .short => reference * (1 + percent / 100)
      else entry.stopLossPrice
    | none => entry.stopLossPrice
  let takeProfitPrice := match entry.protectionTakeProfitPercent with
    | some percent =>
      if 0 < percent ∧ 0 < reference then
        match entry.positionDirection with
        | .long => reference * (1 + percent / 100)
        | .short => reference * (1 - percent / 100)
      else entry.takeProfitPrice
    | none => entry.takeProfitPrice
  ⟨stopLossPrice, takeProfitPrice⟩

def protectionPricesAreValid (direction : LiveOrderDirection) (prices : ProtectionPrices)
    (reference : ℚ) : Bool :=
  if ¬ (0 < prices.stopLossPrice ∧ 0 < prices.takeProfitPrice) then false
  else if ¬ 0 < reference then true
  else match direction with
    | .long => decide (prices.stopLossPrice < reference ∧ reference < prices.takeProfitPrice)
    | .short => decide (reference < prices.stopLossPrice ∧ prices.takeProfitPrice < reference)

def priceMatches (actual expected : ℚ) : Bool :=
  decide (0 < actual ∧ 0 < expected ∧
    |actual - expected| ≤ max (1 / 10 ^ 8) (|expected| * (1 / 10 ^ 9)))

def nativePrice (levels : List (Option ℚ)) : ℚ := ((levels.filterMap id).find? (0 < ·)).getD 0

/-! ## Exceptions -/

/-- How the text of a failed protection ends. -/
def flattenText (flattened : Bool) : String :=
  "; emergency flatten " ++ (if flattened then "completed" else "could not be confirmed")

def pendingFill : Failure :=
  .service "Live entry protection cannot be armed until an authoritative terminal fill is available"
    503 "live_protection_pending_fill"

def entryPricesInvalid : Failure :=
  .service
    "Live entry requires direction-aware stop-loss and take-profit controls before venue placement"
    409 "live_protection_contract_invalid"

def entryCapabilityMissing : Failure :=
  .service "Forex live entry requires broker-native ticket-bound SL/TP controls"
    409 "live_protection_capability_missing"

def pricesInvalid : Failure :=
  .service "Live entry protection requires valid direction-aware stop-loss and take-profit prices"
    409 "live_protection_contract_invalid"

def forexCapabilityMissing : Failure :=
  .service "Forex live entry protection requires the broker-native position SL/TP capability"
    409 "live_protection_capability_missing"

def verificationUnavailable : Failure :=
  .service
    ("Native live protection cannot be verified because the connector has no position snapshot " ++
      "endpoint") 503 "live_protection_verification_unavailable"

def stopOrdersMissing : Failure :=
  .service "Live entry protection requires a native conditional-order connector"
    409 "live_protection_capability_missing"

/-- The failure of a native verification. -/
def verificationFailed (message : String) (flattened : Bool) : Failure :=
  .service (message ++ flattenText flattened) (if flattened then 502 else 503)
    (if flattened then "live_protection_verification_failed_flattened"
      else "live_protection_verification_failed_unflattened")

/-- The name of a control in the text of its failure. -/
def StopKind.name : StopKind → String
  | .stopLoss => "stop-loss"
  | .takeProfit => "take-profit"

variable (kind : StopKind)

/-- The failure of the placement of a control. -/
def placementFailed (flattened : Bool) : Failure :=
  .service ("Live entry protection " ++ kind.name ++ " placement failed" ++ flattenText flattened)
    (if flattened then 502 else 503)
    (if flattened then "live_protection_placement_failed_flattened"
      else "live_protection_placement_failed_unflattened")

/-! ## The native path -/

/-- The order that closes the filled quantity. -/
def closeOrder (positionSide : Option String) (ticket : ℕ) (quantity : ℚ) (clientOrderId : String) :
    VenueOrder where
  side := closeSide entry.positionDirection
  quantity := quantity
  price := none
  limitOrder := false
  reduceOnly := true
  positionSide := positionSide
  positionTicket := some ticket
  clientOrderId := clientOrderId
  protection := none

variable (prices : ProtectionPrices) (requestedTicket : Option ℕ)

/-- `positionFromSnapshot`: the position with the requested ticket, else the only one. -/
def positionFromSnapshot (rows : List BrokerPosition) : Option BrokerPosition :=
  let candidates := rows.filter fun row => 0 < orderQuantityFromPosition row.toPositionRow
  match requestedTicket with
  | some ticket => candidates.find? fun candidate => candidate.ticket? == some ticket
  | none => if candidates.length = 1 then candidates.head? else none

/-- The position has a ticket, a quantity and both levels. -/
def confirms (position : BrokerPosition) : Bool :=
  position.ticket?.isSome && decide (0 < orderQuantityFromPosition position.toPositionRow) &&
    priceMatches (nativePrice position.stopLoss) prices.stopLossPrice &&
    priceMatches (nativePrice position.takeProfit) prices.takeProfitPrice

variable (ticket : ℕ)

/-- `afterClose` and the test of it: a read that fails shows no position. -/
def checkClosed : VenueProgram Bool :=
  .call .positionRows fun
    | .threw _ => .done true
    | .returned rows =>
      match rows.find? fun candidate => candidate.ticket? == some ticket with
      | none => .done true
      | some afterClose => .done !(decide (0 < orderQuantityFromPosition afterClose.toPositionRow))

def closeResultIsVerified (result : Value) : VenueProgram Bool :=
  if !(result.get "success").isTrue then .done false
  else if (result.get "postCloseVerified").isTrue || (result.get "fullyClosed").isTrue then
    .done true
  else checkClosed ticket

/-- The market order of `flattenUnprotectedNativePosition`. -/
def flattenByOrder (quantity : ℚ) : VenueProgram Bool :=
  let clientOrderId := (entry.controlBase.take 22).toString ++ "nf"
  .call (.placeOrder (closeOrder entry none ticket quantity clientOrderId)) fun
    | .threw _ => .done false
    | .returned result =>
      if !(result.get "success").isTrue then .done false else checkClosed ticket

variable (quantity : ℚ)

def flattenUnprotectedNativePosition (position : Option BrokerPosition) : VenueProgram Bool :=
  match position.bind BrokerPosition.ticket? with
  | none => .done false
  | some ticket =>
    if entry.connector.hasClosePositionByTicket then
      .call (.closePositionByTicket ticket quantity
          ((entry.controlBase.take 22).toString ++ "nf")) fun
        | .threw _ => flattenByOrder entry ticket quantity
        | .returned result =>
          (closeResultIsVerified ticket result).bind fun verified =>
            if verified then .done true else flattenByOrder entry ticket quantity
    else flattenByOrder entry ticket quantity

/-- The text of a position that does not show both controls. -/
def notConfirmed : String :=
  "native broker position did not confirm the exact ticket-bound stop-loss and take-profit controls"

/-- The `catch` of the native part: the position is flattened. -/
def failNative (message : String) (position : Option BrokerPosition) :
    VenueProgram (Except Failure LiveProtectionResult) :=
  (flattenUnprotectedNativePosition entry quantity position).bind fun flattened =>
    .done (.error (verificationFailed message flattened))

/-- The test of the position that was read. -/
def verifyNative :
    ConnectorReply (List BrokerPosition) → VenueProgram (Except Failure LiveProtectionResult)
  | .threw message => failNative entry quantity message none
  | .returned rows =>
    match positionFromSnapshot requestedTicket rows with
    | none => failNative entry quantity notConfirmed none
    | some position =>
      if confirms prices position then .done (.ok (.native prices (position.ticket?.getD 0)))
      else failNative entry quantity notConfirmed (some position)

/-- The native part of `armRequiredLiveProtection`. -/
def armNative : VenueProgram (Except Failure LiveProtectionResult) :=
  if !entry.connector.hasGetPositions && !entry.connector.hasGetPosition then
    .done (.error verificationUnavailable)
  else if entry.connector.hasGetPositions then
    .call .positionRows (verifyNative entry prices requestedTicket quantity)
  else .call .getPosition (verifyNative entry prices requestedTicket quantity)

/-! ## The conditional path -/

/-- The market order of `emergencyFlatten`. -/
def emergencyFlattenByOrder (quantity : ℚ) : VenueProgram Bool :=
  let clientOrderId := (entry.controlBase.take 22).toString ++ "ec"
  .call (.placeOrder (closeOrder entry (hedgeSide entry) ticket quantity clientOrderId)) fun
    | .threw _ => .done false
    | .returned closeResult => .done (closeResult.get "success").isTrue

/-- `emergencyFlatten`: nothing is closed without the exact ticket. -/
def emergencyFlatten : VenueProgram Bool :=
  match requestedTicket with
  | none => .done false
  | some ticket =>
    if entry.connector.hasClosePositionByTicket then
      .call (.closePositionByTicket ticket quantity
          ((entry.controlBase.take 22).toString ++ "ec")) fun
        | .threw _ => emergencyFlattenByOrder entry ticket quantity
        | .returned exactResult =>
          if (exactResult.get "success").isTrue then .done true
          else emergencyFlattenByOrder entry ticket quantity
    else emergencyFlattenByOrder entry ticket quantity

/-- A conditional order of the protection. -/
def stopOrder (triggerPrice : ℚ) (requestedTicket : Option ℕ) (quantity : ℚ) : StopOrder where
  kind := kind
  side := closeSide entry.positionDirection
  quantity := quantity
  triggerPrice := triggerPrice
  positionSide := hedgeSide entry
  positionTicket := requestedTicket
  clientOrderId := (entry.controlBase.take 24).toString ++ (if kind = .stopLoss then "sl" else "tp")

/-- `String(result?.orderId || "")`. -/
def stopOrderId : String := ((result.get "orderId").orElse (.text "")).toText

/-- The venue has accepted a conditional order and named it. -/
def stopAccepted : Bool := (result.get "success").isTruthy && stopOrderId result ≠ ""

/-- The end of an entry whose control was refused. -/
def failConditional (requestedTicket : Option ℕ) (quantity : ℚ) :
    VenueProgram (Except Failure LiveProtectionResult) :=
  (emergencyFlatten entry requestedTicket quantity).bind fun flattened =>
    .done (.error (placementFailed kind flattened))

/-- The take profit after the stop loss is placed. -/
def armTakeProfit (stopLossOrderId : String) : VenueProgram (Except Failure LiveProtectionResult) :=
  .call (.placeStopOrder
      (stopOrder entry .takeProfit prices.takeProfitPrice requestedTicket quantity)) fun
    | .threw message => .done (.error (.venue message))
    | .returned takeProfit =>
      if stopAccepted takeProfit then
        .done (.ok (.conditional prices stopLossOrderId (stopOrderId takeProfit)))
      else if entry.connector.hasCancelOrder then
        -- the cancellation may fail in any way
        .call (.cancelOrder stopLossOrderId) fun _ =>
          failConditional entry .takeProfit requestedTicket quantity
      else failConditional entry .takeProfit requestedTicket quantity

/-- The conditional part of `armRequiredLiveProtection`. -/
def armConditional : VenueProgram (Except Failure LiveProtectionResult) :=
  if !entry.connector.hasPlaceStopOrder then .done (.error stopOrdersMissing)
  else .call (.placeStopOrder
      (stopOrder entry .stopLoss prices.stopLossPrice requestedTicket quantity)) fun
    | .threw message => .done (.error (.venue message))
    | .returned stopLoss =>
      if stopAccepted stopLoss then
        armTakeProfit entry prices requestedTicket quantity (stopOrderId stopLoss)
      else failConditional entry .stopLoss requestedTicket quantity

def armRequiredLiveProtection (fillPrice : ℚ) :
    VenueProgram (Except Failure LiveProtectionResult) :=
  let prices := resolveProtectionPrices entry fillPrice
  if !protectionPricesAreValid entry.positionDirection prices fillPrice then
    .done (.error pricesInvalid)
  else if entry.forex && !entry.connector.native then .done (.error forexCapabilityMissing)
  else if entry.connector.native then armNative entry prices requestedTicket quantity
  else armConditional entry prices requestedTicket quantity

/-! ## The entry -/

def entryOrder : VenueOrder where
  side := exchangeSideForDirection entry.direction
  quantity := entry.quantity
  price := some entry.price
  limitOrder := entry.limitOrder
  reduceOnly := entry.reduceOnly
  positionSide := hedgeSide entry
  positionTicket := positiveTicket entry.positionTicket
  clientOrderId := entry.clientOrderId
  protection := some (resolveProtectionPrices entry entry.marketPrice)

/-- The fill is terminal and has a quantity and a price. -/
@[irreducible] def fillIsAuthoritative : Bool :=
  isTerminalLiveOrderResult result entry.quantity &&
    decide (0 < (parseOrderFill result 0 0).filledQty) &&
    decide (0 < (parseOrderFill result 0 0).filledPrice)

/-- The ticket that the protection is bound to: that of the result, else that of the input. -/
def protectionTicket : Option ℕ := (resultTicket result).or (positiveTicket entry.positionTicket)

/-- From the result of the order, as it was read last, to the response. -/
def protect : VenueProgram Outcome :=
  if !fillIsAuthoritative entry result then .done (.threw pendingFill)
  else
    let fill := parseOrderFill result 0 0
    (armRequiredLiveProtection entry (protectionTicket entry result) fill.filledQty
      fill.filledPrice).bind fun
        | .error failure => .done (.threw failure)
        | .ok protection => .done (.returned protection)

/-- The order whose settlement is read, if one is: `readOrderSettlement` of a terminal order. -/
@[irreducible] def settlementRead (exchangeOrderId : String) (result : Value) : Option String :=
  let orderId := if liveOrderId result ≠ "" then liveOrderId result else exchangeOrderId
  if isTerminalLiveOrderResult result entry.quantity && entry.connector.hasGetOrderSettlement then
    settlementId (if orderId ≠ "" then orderId else "N/A")
  else none

/-- The settlement of a terminal order is read before the protection is armed. -/
def settleAndProtect (exchangeOrderId : String) (result : Value) : VenueProgram Outcome :=
  match settlementRead entry exchangeOrderId result with
  | some exactOrderId => .call (.getOrderSettlement exactOrderId) fun _ => protect entry result
  | none => protect entry result

/-- The order is read once more. -/
@[irreducible] def readsAgain : Bool :=
  liveOrderId result ≠ "" && needsHydration result && entry.connector.hasGetOrder

/-- From the accepted order to the response. -/
def afterPlacement : VenueProgram Outcome :=
  match entry.control with
  | some (some response) => .done (.replayed response)
  | _ =>
    let exchangeOrderId := liveOrderId result
    if readsAgain entry result then
      .call (.getOrder exchangeOrderId) fun reply =>
        settleAndProtect entry exchangeOrderId (hydratedResult result exchangeOrderId reply)
    else settleAndProtect entry exchangeOrderId result

/-- `placeLiveOrder` for an entry with `requireProtection` on the real exchange. -/
def placeLiveOrder : VenueProgram Outcome :=
  let prices := resolveProtectionPrices entry entry.marketPrice
  if !protectionPricesAreValid entry.positionDirection prices entry.marketPrice then
    .done (.threw entryPricesInvalid)
  else if entry.forex && !entry.connector.native then .done (.threw entryCapabilityMissing)
  else .call (.placeOrder (entryOrder entry)) fun
    | .threw message =>
      if entry.control.isSome then .done (.notPlaced .undefined)
      else .done (.threw (.venue message))
    | .returned result =>
      if (result.get "success").isTruthy then afterPlacement entry result
      else .done (.notPlaced result)

end CtsEngine.EntryProtection
