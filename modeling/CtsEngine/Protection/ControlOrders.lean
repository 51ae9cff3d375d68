import Mathlib.Data.List.Infix
import CtsEngine.Block.Lifecycle
import CtsEngine.Venue.Ownership

/-!
# Control orders of the venue

How `protection-slot-order-audit.ts` reads an open order: its ids, whether it is a stop loss or a
take profit, its quantity and trigger, the direction of the position it reduces, and whether the
connection owns it.  A venue order is an object with any of several names for one property.
-/

namespace CtsEngine

/-- A property that is neither `undefined` nor `null`: its text, and the finite number that `Number`
makes of it. -/
structure OrderScalar where
  text : String
  number : Option ℚ

/-- An open order of the venue.  A number is `none` when the property is missing or not a finite
number. -/
structure ControlOrder where
  id : Option String := none
  orderId : Option String := none
  orderID : Option String := none
  ordId : Option String := none
  clientOrderId : Option String := none
  clientOrderID : Option String := none
  client_order_id : Option String := none
  client_oid : Option String := none
  clOrdId : Option String := none
  symbol : Option String := none
  stopOrderType : Option String := none
  stop_order_type : Option String := none
  conditionalOrderType : Option String := none
  conditional_order_type : Option String := none
  triggerOrderType : Option String := none
  trigger_order_type : Option String := none
  type : Option String := none
  orderType : Option String := none
  order_type : Option String := none
  triggerPrice : Option ℚ := none
  trigger_price : Option ℚ := none
  stopPrice : Option ℚ := none
  stop_price : Option ℚ := none
  price : Option ℚ := none
  triggerDirection : Option OrderScalar := none
  trigger_direction : Option OrderScalar := none
  origQty : Option ℚ := none
  quantity : Option ℚ := none
  orderQty : Option ℚ := none
  qty : Option ℚ := none
  size : Option ℚ := none
  positionSide : Option String := none
  position_side : Option String := none
  positionIdx : Option OrderScalar := none
  position_idx : Option OrderScalar := none
  side : Option String := none
  orderSide : Option String := none
  reduceOnly : Option String := none
  reduce_only : Option String := none
  closePosition : Option String := none
  isReduceOnly : Option String := none
  positionID : Option String := none
  positionId : Option String := none
  position_id : Option String := none
  time : Option OrderScalar := none
  createdAt : Option OrderScalar := none
  updateTime : Option OrderScalar := none

/-! ## Reading properties -/

def finite (value : Option ℚ) : ℚ := value.getD 0

def firstText (values : List (Option String)) : String := ((values.map text).find? (· ≠ "")).getD ""

def firstPositive (values : List (Option ℚ)) : ℚ := ((values.map finite).find? (0 < ·)).getD 0

variable (value : Option String)

def truthy : Bool :=
  ["1", "true", "yes", "on"].contains (toLowerCase (text value))

/-- `value.includes(part)`. -/
def includes (part value : String) : Bool := decide (part.toList <:+: value.toList)

def normalizeProtectionSlotSymbol : String := symbolKey (text value)

variable (order : ControlOrder)

def protectionOrderVenueId : String :=
  firstText [order.id, order.orderId, order.orderID, order.ordId]

def protectionOrderClientId : String :=
  firstText [order.clientOrderId, order.clientOrderID, order.client_order_id, order.client_oid,
    order.clOrdId]

/-- `protectionOrderIdentifiers`: each id once. -/
def protectionOrderIdentifiers : List String :=
  ([protectionOrderVenueId order, protectionOrderClientId order].filter (· ≠ "")).dedup

/-! ## The kind of a control -/

/-- What a control order protects against. -/
inductive ProtectionKind
  | stopLoss
  | takeProfit
deriving DecidableEq

def protectionOrderKindFromText : Option ProtectionKind :=
  let type := symbolKey (text value)
  if type = "" then none
  else if includes "TAKEPROFIT" type || type = "TP" then some .takeProfit
  else if includes "STOPLOSS" type || includes "TRAILINGSTOP" type || type = "STOP" ||
      type = "SL" || includes "STOPMARKET" type || includes "STOPLIMIT" type then some .stopLoss
  else none

/-- The lower-case side of the order. -/
def closeSide : String := toLowerCase (firstText [order.side, order.orderSide])

/-- The direction of the position that an order of this side closes. -/
def directionOfCloseSide (side : String) : Option Direction :=
  if side = "sell" then some .long else if side = "buy" then some .short else none

def protectionOrderDirection (requireExplicitPositionSide : Bool) : Option Direction :=
  let positionSide := toLowerCase (firstText [order.positionSide, order.position_side])
  let positionIdx : Option ℚ := (order.positionIdx <|> order.position_idx).bind fun raw =>
    if raw.text = "" then none else some (finite raw.number)
  if positionSide = "long" then some .long
  else if positionSide = "short" then some .short
  else if positionIdx = some 1 then some .long
  else if positionIdx = some 2 then some .short
  else if requireExplicitPositionSide then
    -- a one-way account names no side, the side of the order decides
    if positionIdx = some 0 || positionSide = "both" then directionOfCloseSide (closeSide order)
    else none
  else directionOfCloseSide (closeSide order)

def protectionOrderKind (direction : Option Direction) : Option ProtectionKind :=
  match [order.stopOrderType, order.stop_order_type, order.conditionalOrderType,
      order.conditional_order_type, order.triggerOrderType, order.trigger_order_type, order.type,
      order.orderType, order.order_type].findSome? protectionOrderKindFromText with
  | some kind => some kind
  | none =>
    let trigger := firstPositive
      [order.triggerPrice, order.trigger_price, order.stopPrice, order.stop_price]
    let triggerDirection := (order.triggerDirection <|> order.trigger_direction).bind (·.number)
    if 0 < trigger && (triggerDirection = some 1 || triggerDirection = some 2) then
      (direction <|> protectionOrderDirection order false).map fun resolvedDirection =>
        if triggerDirection = some (if resolvedDirection = .long then 1 else 2) then .takeProfit
        else .stopLoss
    else none

def protectionOrderQuantity : ℚ :=
  firstPositive [some |finite order.origQty|, some |finite order.quantity|,
    some |finite order.orderQty|, some |finite order.qty|, some |finite order.size|]

def protectionOrderTrigger : ℚ :=
  firstPositive [order.stopPrice, order.triggerPrice, order.trigger_price, order.stop_price,
    order.price]

/-! ## Slots and owners -/

def isControlOrder : Bool :=
  (protectionOrderKind order none).isSome || truthy (order.reduceOnly <|> order.reduce_only <|>
    order.closePosition <|> order.isReduceOnly)

def orderMatchesSlot (symbol : String) (direction : Direction)
    (requireExplicitPositionSide : Bool) : Bool :=
  decide (normalizeProtectionSlotSymbol order.symbol = symbol) && isControlOrder order &&
    decide (protectionOrderDirection order requireExplicitPositionSide = some direction) &&
    decide (closeSide order = if direction = .long then "sell" else "buy")

def isConnectionOwnedProtectionOrderForSlot (env : SystemEnvironment) (order : ControlOrder)
    (connectionId symbol : String) (direction : Direction) : Bool :=
  isConnectionOwnedClientOrderId env (some (toLowerCase (protectionOrderClientId order)))
      connectionId &&
    orderMatchesSlot order (normalizeProtectionSlotSymbol (some symbol)) direction true &&
    (protectionOrderKind order (some direction)).isSome

/-- The client id of the order carries the mark of the connection. -/
def hasConnectionClientId (env : SystemEnvironment) (connectionId : String) (order : ControlOrder) :
    Bool :=
  isConnectionOwnedClientOrderId env (some (toLowerCase (protectionOrderClientId order)))
    connectionId

lemma hasConnectionClientId_of_owned {env : SystemEnvironment} {order : ControlOrder}
    {connectionId symbol : String} {direction : Direction}
    (h : isConnectionOwnedProtectionOrderForSlot env order connectionId symbol direction = true) :
    hasConnectionClientId env connectionId order = true := by
  unfold isConnectionOwnedProtectionOrderForSlot at h
  simp only [Bool.and_eq_true] at h
  exact h.1.1

def quantitiesMatch (actual expected tolerance : ℚ) : Bool :=
  decide (0 < actual ∧ 0 < expected ∧ |actual - expected| ≤ tolerance)

def pricesMatch (actual expected tick : ℚ) : Bool :=
  decide (0 < actual ∧ 0 < expected ∧
    |actual - expected| ≤ max (max (1 / 10 ^ 12) (|expected| * (1 / 10 ^ 10))) (tick / 2))

end CtsEngine
