import CtsEngine.Block.Lifecycle
import CtsEngine.Foundation.JsonLines

/-!
# Control records of direct orders

The durable record of a direct order is written by several parties, each with a whole snapshot of
the record that it may have taken long before.  A write is merged into what is stored: on a shared
Redis by a Lua script, on the inline store by `mergeDirectOrderControlRecord` under a lock.

A record is the value of its JSON text, so a field that is `undefined` is absent.
-/

namespace CtsEngine.OrderControl

open JsonText (Value)

inductive DirectOrderControlState
  | submitting
  | acknowledged
  | completed
  | failed
deriving DecidableEq

/-- `DIRECT_ORDER_CONTROL_STATE_RANK`. -/
def DirectOrderControlState.rank : DirectOrderControlState → ℕ
  | .submitting => 0
  | .acknowledged => 1
  | .completed => 2
  | .failed => 2

inductive OrderType
  | market
  | limit

/-- The fields of a control record; `version` is always 1. -/
structure DirectOrderControlRecord where
  fingerprint : String
  state : DirectOrderControlState
  connectionId : String
  clientOrderId : String
  positionId : Option String
  canonicalPositionId : Option String
  exchangeClientOrderId : String
  symbol : String
  direction : Direction
  positionDirection : Direction
  reduceOnly : Bool
  quantity : ℚ
  orderType : OrderType
  orderId : Option String
  response : Option (List (String × Value Double))
  lastError : Option String
  createdAt : ℚ
  updatedAt : ℚ

/-- `response.settlement`. -/
def settlementOf (response : List (String × Value Double)) : Option (Value Double) :=
  Keyed.get? response "settlement"

/-- `response?.settlement` of a record. -/
def DirectOrderControlRecord.settlement (record : DirectOrderControlRecord) :
    Option (Value Double) :=
  record.response.bind settlementOf

/-- An optional JSON value is truthy. -/
def isTrue (value : Option (Value Double)) : Bool := value.any jsTruthy

/-- An optional JSON value is there, and it is not `null`. -/
def isPresent : Option (Value Double) → Bool
  | none => false
  | some .null => false
  | some _ => true

def isTerminalDirectOrderControlState (state : DirectOrderControlState) : Bool :=
  state = .completed || state = .failed

variable (current incoming : DirectOrderControlRecord)

/-- The write is of another order, or it is too late to say anything. -/
def Stale : Prop :=
  isTerminalDirectOrderControlState current.state = true ∧ current.state ≠ incoming.state ∨
    incoming.state.rank < current.state.rank

instance (current incoming : DirectOrderControlRecord) : Decidable (Stale current incoming) :=
  inferInstanceAs (Decidable (_ ∧ _ ∨ _))

/-- The response of a merged record: a settlement that is stored already is kept. -/
def mergedResponse : Option (List (String × Value Double)) :=
  match incoming.response with
  | none => current.response
  | some response =>
    match current.settlement with
    | none => some response
    | some currentSettlement =>
      if jsTruthy currentSettlement && !isTrue (settlementOf response) then
        some (Keyed.put response "settlement" currentSettlement)
      else some response

/-- The error of a merged record: a completion clears it. -/
def mergedError : Option String :=
  if current.state.rank < incoming.state.rank ∧ incoming.state = .completed then none
  else incoming.lastError.or current.lastError

/-- `mergeDirectOrderControlRecord`; `none` is the conflict of two fingerprints. -/
def mergeDirectOrderControlRecord : Option DirectOrderControlRecord :=
  if current.fingerprint ≠ incoming.fingerprint then none
  else if Stale current incoming then some current
  else some { incoming with
    createdAt := if current.createdAt ≠ 0 then current.createdAt else incoming.createdAt
    updatedAt := max current.updatedAt incoming.updatedAt
    orderId := strOr incoming.orderId current.orderId
    response := mergedResponse current incoming
    lastError := mergedError current incoming }

/-- The response that `DIRECT_ORDER_CONTROL_WRITE_LUA` writes: only `nil` and `null` are missing. -/
def luaResponse : Option (List (String × Value Double)) :=
  match current.response with
  | none => incoming.response
  | some stored =>
    match incoming.response with
    | none => some stored
    | some response =>
      match settlementOf stored with
      | none => some response
      | some currentSettlement =>
        if isPresent (some currentSettlement) && !isPresent (settlementOf response) then
          some (Keyed.put response "settlement" currentSettlement)
        else some response

/-- `DIRECT_ORDER_CONTROL_WRITE_LUA` on the stored record; `none` is its fingerprint error. -/
def luaWrite : Option DirectOrderControlRecord :=
  if current.fingerprint ≠ incoming.fingerprint then none
  else if current.state.rank = 2 ∧ current.state ≠ incoming.state then some current
  else if incoming.state.rank < current.state.rank then some current
  else some { incoming with
    createdAt := current.createdAt
    updatedAt := max current.updatedAt incoming.updatedAt
    orderId :=
      if incoming.orderId = none ∨ incoming.orderId = some "" then current.orderId
      else incoming.orderId
    response := luaResponse current incoming
    lastError :=
      if current.state.rank < incoming.state.rank ∧ incoming.state = .completed then none
      else if incoming.lastError = none then current.lastError
      else incoming.lastError }

inductive Backend
  | inlineLocal
  /-- A shared Redis, where the script runs. -/
  | shared
deriving DecidableEq

/-- A call of `writeDirectOrderControlRecord` in the queue of the lock of its key, and what it has
read if it holds the lock. -/
structure LockedCall where
  incoming : DirectOrderControlRecord
  current : Option DirectOrderControlRecord := none

/-- The stored record of a control id, and the calls that wait for the lock; the first one holds
it. -/
structure ControlStore where
  stored : DirectOrderControlRecord
  queue : List LockedCall := []

/-- A single action of a party. -/
inductive Event
  /-- A call on the inline store lines up for the lock. -/
  | call (incoming : DirectOrderControlRecord)
  /-- The holder of the lock reads the record. -/
  | read
  /-- The holder merges, writes and leaves, or fails to write. -/
  | write (written : Bool)
  /-- The script of a call runs on the shared Redis. -/
  | eval (incoming : DirectOrderControlRecord)

/-- One action. -/
def step (backend : Backend) (s : ControlStore) : Event → Option ControlStore
  | .call incoming =>
    if backend = .inlineLocal then some { s with queue := s.queue ++ [{ incoming := incoming }] }
    else none
  | .read =>
    match s.queue with
    | [] => none
    | holder :: rest =>
      if backend = .inlineLocal ∧ holder.current.isNone then
        some { s with queue := { holder with current := some s.stored } :: rest }
      else none
  | .write written =>
    match s.queue with
    | [] => none
    | holder :: rest =>
      if backend = .inlineLocal then
        holder.current.map fun current =>
          { stored :=
              if written then
                (mergeDirectOrderControlRecord current holder.incoming).getD s.stored
              else s.stored
            queue := rest }
      else none
  | .eval incoming =>
    if backend = .shared then some { s with stored := (luaWrite s.stored incoming).getD s.stored }
    else none

end CtsEngine.OrderControl
