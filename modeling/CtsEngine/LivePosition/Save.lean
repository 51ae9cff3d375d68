import Mathlib.Data.Finset.Insert
import Mathlib.Data.Fintype.Defs
import Mathlib.Algebra.Order.Ring.Rat

/-!
# Saving a live position

`savePosition` as a program whose steps are single Redis commands, performed by any number of
workers that hold copies of one position.  A copy is the row as a worker read it, changed in the
worker's memory; the version is counted in the copy.

The commands kept are those on the row hash, on the open and the closed index and on the moved
marker.  The commands between them (the JSON mirror, the tracking keys, the signal admission
indexes, the slot and Set indexes, the archives) touch none of these keys, and no command of the
list depends on them.
-/

namespace CtsEngine

open Function

/-! ## The row -/

/-- The statuses of `LivePosition`; `opened` is the text `open`. -/
inductive LiveStatus
  | opened | closed | filled | partiallyFilled | placed | pendingFill | placedUnconfirmed
  | rejected | cancelled | error | simulated | pending | closing | closingPartial
deriving DecidableEq

/-- Whether `liveRetentionSecondsForStatus` gives the status a retention. -/
def LiveStatus.isTerminal : LiveStatus → Bool
  | .closed | .rejected | .cancelled | .error => true
  | _ => false

/-- The control orders whose ids `savePosition` protects. -/
inductive ControlLeg
  | stopLoss
  | takeProfit
  | securityStop
deriving DecidableEq

instance : Fintype ControlLeg where
  elems := {.stopLoss, .takeProfit, .securityStop}
  complete leg := by cases leg <;> decide

/-- An order id property: not there, a blank text, or a text that `trim` makes an order id. -/
inductive ControlId
  | absent
  | blank
  | armed (orderId : String)
deriving DecidableEq

/-- The fields of a live position that `savePosition` decides by. -/
structure LiveRow where
  status : LiveStatus
  version : ℕ
  control : ControlLeg → ControlId
  executedQuantity : ℚ
  totalExecutedQuantity : ℚ
  closedQuantity : ℚ
  /-- The order and position ids of the row and of its `exchangeData`, trimmed. -/
  exchangeHandles : List String
  /-- The length of `exchangeData.clientOrderIds`. -/
  clientOrderIds : ℕ
  /-- Whether `submissionState` is `unconfirmed`. -/
  unconfirmed : Bool
  /-- Whether one of the five pending properties is set. -/
  pendingMutation : Bool

variable (position : LiveRow)

def hasLiveExchangeHandle : Bool :=
  position.exchangeHandles.any (· ≠ "") || decide (0 < position.clientOrderIds)

/-- The largest of the quantities that a row counts as executed. -/
def LiveRow.everExecuted : ℚ :=
  max position.executedQuantity (max position.totalExecutedQuantity position.closedQuantity)

/-- `shouldPersistCanonicalLivePosition`.  The statuses of a submitted order that its last test also
names cannot occur there, after the first one. -/
def shouldPersistCanonicalLivePosition : Bool :=
  if position.status ≠ .rejected ∧ position.status ≠ .error then true
  else if 0 < position.everExecuted ∨ hasLiveExchangeHandle position then true
  else position.unconfirmed || position.pendingMutation

/-- Whether `discardTransientLivePosition` leaves a stored row alone. -/
def LiveRow.refusesDiscard (stored : LiveRow) : Bool :=
  decide (0 < stored.everExecuted) || hasLiveExchangeHandle stored ||
    !([.pending, .placed, .pendingFill, .placedUnconfirmed] : List LiveStatus).contains
      stored.status

/-- Whether the property names an order. -/
def ControlId.isArmed : ControlId → Bool
  | .armed _ => true
  | _ => false

/-- `dropsProtectionIdentity`: one of the three ids is blank. -/
def dropsProtectionIdentity : Bool :=
  !(position.control .stopLoss).isArmed || !(position.control .takeProfit).isArmed ||
    !(position.control .securityStop).isArmed

/-- The id a copy has after the stored id was offered to it. -/
def ControlId.keep : ControlId → ControlId → ControlId
  | .armed o, _ => .armed o
  | _, .armed o => .armed o
  | own, _ => own

/-- The ids and the version that a copy behind the stored row takes over from it. -/
def keepStoredControls (stored : LiveRow) : LiveRow :=
  if position.version < stored.version then
    { position with
      version := stored.version
      control := fun leg => (position.control leg).keep (stored.control leg) }
  else position

/-- `HSET` of the whole copy: a property that the copy has not keeps its stored text. -/
def hsetRow (stored : Option LiveRow) : LiveRow :=
  { position with
    control := fun leg =>
      match position.control leg, stored with
      | .absent, some r => r.control leg
      | own, _ => own }

/-- The keys of one position and of its connection. -/
structure PositionRedis where
  row : Option LiveRow
  /-- Whether the row has an expiry. -/
  rowExpires : Bool
  openIndex : List String
  closedIndex : List String
  /-- Whether the moved marker can be read. -/
  moved : Bool

/-- `LIVE_CLOSED_INDEX_LIMIT`. -/
def liveClosedIndexLimit : ℕ := 5000

/-- `LREM key 0 value`. -/
def lrem (value : String) (list : List String) : List String := list.filter (· ≠ value)

/-- `upsertRedisListHead`, one script. -/
def upsertRedisListHead (value : String) (list : List String) : List String :=
  value :: lrem value list

/-- `moveRedisListMembershipToHead`, one script. -/
def moveRedisListMembershipToHead (value : String) (redis : PositionRedis) : PositionRedis :=
  { redis with
    openIndex := lrem value redis.openIndex
    closedIndex := upsertRedisListHead value redis.closedIndex }

/-! ## The steps of a save -/

/-- Where a worker stands.  Every phase carries the worker's copy of the position; a number is the
count of row writes at the save's own reading of the row. -/
inductive SavePhase
  | idle (held : Option LiveRow)
  /-- Before the `GET` of the moved marker. -/
  | readingMarker (position : LiveRow)
  /-- Before the `HGETALL` for the stored version. -/
  | readingRow (position : LiveRow)
  /-- Before the `HSET`; without a number the row was not read. -/
  | writingRow (position : LiveRow) (readAt : Option ℕ)
  | indexing (position : LiveRow)
  | indexingAgain (position : LiveRow)
  /-- Before the `PERSIST` of the row, the last command of a save that is not terminal. -/
  | persisting (position : LiveRow)
  | moving (position : LiveRow)
  | trimming (position : LiveRow)
  | marking (position : LiveRow)
  /-- Before the `EXPIRE` of the row, the last command of a terminal save. -/
  | expiring (position : LiveRow)
  /-- Before the `HGETALL` of `discardTransientLivePosition`. -/
  | discarding (position : LiveRow)
  | deletingRow (position : LiveRow) (readAt : ℕ)
  | leavingOpen (position : LiveRow)
  | leavingClosed (position : LiveRow)

/-- After the marker: the row is read when the copy has no id of some control order. -/
def guardPhase : SavePhase :=
  if dropsProtectionIdentity position then .readingRow position else .writingRow position none

/-- The first command of `savePosition`. -/
def savePhase : SavePhase :=
  if !shouldPersistCanonicalLivePosition position then .discarding position
  else if position.status.isTerminal then guardPhase position
  else .readingMarker position

/-- All workers and Redis.  `writes` counts the writes of the row, `seen` is its value when the
copy of a worker was taken or last written, and `lastVersion` is the version written last. -/
structure SaveSystem (W : Type*) where
  redis : PositionRedis
  phase : W → SavePhase
  seen : W → ℕ
  writes : ℕ
  lastVersion : ℕ

/-- A step: a worker reads the row, changes its copy, calls `savePosition` or performs the next
command of the call; the moved marker or the row expires. -/
inductive SaveAction (W : Type*)
  | read (w : W)
  | edit (w : W) (position : LiveRow)
  | call (w : W)
  | command (w : W)
  | expireMarker
  | expireRow

variable {W : Type*} [DecidableEq W]

/-- No worker holds a copy of the row yet, and the marker is not set. -/
def SaveSystem.start (row : LiveRow) (openIndex closedIndex : List String) : SaveSystem W where
  redis := ⟨some row, false, openIndex, closedIndex, false⟩
  phase := fun _ => .idle none
  seen := fun _ => 0
  writes := 0
  lastVersion := row.version

/-- The worker `w` enters a phase, after a command that left `redis`. -/
def SaveSystem.enter (s : SaveSystem W) (w : W) (phase : SavePhase) (redis : PositionRedis) :
    SaveSystem W :=
  { s with redis := redis, phase := update s.phase w phase }

/-- The `HSET` of the row, with `version++` before it. -/
def SaveSystem.writeRow (s : SaveSystem W) (w : W) (position : LiveRow) : SaveSystem W :=
  let position := { position with version := position.version + 1 }
  { s with
    redis := { s.redis with row := some (hsetRow position s.redis.row) }
    phase := update s.phase w
      (if position.status.isTerminal then .moving position else .indexing position)
    seen := update s.seen w (s.writes + 1)
    writes := s.writes + 1
    lastVersion := position.version }

/-- The next command of the save of `w`. -/
def SaveSystem.command (positionId : String) (s : SaveSystem W) (w : W) : Option (SaveSystem W) :=
  match s.phase w with
  | .idle _ => none
  | .readingMarker p =>
    some (s.enter w (if s.redis.moved then .idle (some p) else guardPhase p) s.redis)
  | .readingRow p =>
    some (s.enter w
      (.writingRow ((s.redis.row.map (keepStoredControls p)).getD p) (some s.writes)) s.redis)
  | .writingRow p _ => some (s.writeRow w p)
  | .indexing p =>
    some (s.enter w (.indexingAgain p)
      { s.redis with openIndex := upsertRedisListHead positionId s.redis.openIndex })
  | .indexingAgain p =>
    some (s.enter w (.persisting p)
      { s.redis with openIndex := upsertRedisListHead positionId s.redis.openIndex })
  | .persisting p => some (s.enter w (.idle (some p)) { s.redis with rowExpires := false })
  | .moving p =>
    some (s.enter w (.trimming p) (moveRedisListMembershipToHead positionId s.redis))
  | .trimming p =>
    some (s.enter w (.marking p)
      { s.redis with closedIndex := s.redis.closedIndex.take liveClosedIndexLimit })
  | .marking p => some (s.enter w (.expiring p) { s.redis with moved := true })
  | .expiring p =>
    some (s.enter w (.idle (some p)) { s.redis with rowExpires := s.redis.row.isSome })
  | .discarding p =>
    some (s.enter w (if s.redis.row.any LiveRow.refusesDiscard then .idle (some p)
        else .deletingRow p s.writes) s.redis)
  | .deletingRow p _ =>
    some (s.enter w (.leavingOpen p) { s.redis with row := none, rowExpires := false })
  | .leavingOpen p =>
    some (s.enter w (.leavingClosed p)
      { s.redis with openIndex := lrem positionId s.redis.openIndex })
  | .leavingClosed p =>
    some (s.enter w (.idle (some p))
      { s.redis with closedIndex := lrem positionId s.redis.closedIndex })

/-- The step function of the system. -/
def saveStep (positionId : String) (s : SaveSystem W) : SaveAction W → Option (SaveSystem W)
  | .read w =>
    match s.phase w, s.redis.row with
    | .idle _, some r =>
      some { s with
        phase := update s.phase w (.idle (some r))
        seen := update s.seen w s.writes }
    | _, _ => none
  | .edit w position =>
    match s.phase w with
    | .idle (some held) =>
      some (s.enter w (.idle (some { position with version := held.version })) s.redis)
    | _ => none
  | .call w =>
    match s.phase w with
    | .idle (some p) => some (s.enter w (savePhase p) s.redis)
    | _ => none
  | .command w => s.command positionId w
  | .expireMarker => if s.redis.moved then some { s with redis.moved := false } else none
  | .expireRow =>
    if s.redis.rowExpires then some { s with redis.row := none, redis.rowExpires := false }
    else none

end CtsEngine
