import CtsEngine.Foundation.Findings
import CtsEngine.StopLevels.AggregatePlans
import CtsEngine.VenueReply.OrderResults

/-!
# The audit before an entry

`auditLiveEntryProtectionAdmission` of `lib/live-entry-protection-admission.ts`: before an entry is
placed, the rows of the connection are checked for their stop-loss and take-profit orders, and the
slots for their security stop.  What is found is attributed to a slot where it can be, and what
cannot be halts the whole connection.

A row is any object, read under the names that the venues and the store use.  Numbers are exact.
-/

namespace CtsEngine.EntryAdmission

open Keyed

open VenueReply (Value)
open StopLevels (aggregateProtectionSlot)

/-! ## Reading rows -/

/-- `text`. -/
def textOf (value : Value) : String := trim (if value.isNullish then "" else value.toText)

/-- `finite`. -/
def finiteOf (value : Value) : ℚ :=
  match value.toNumber with
  | .finite q => q
  | _ => 0

/-- `row.first ?? row.second ?? ...`. -/
def firstOf (row : Value) (names : List String) : Value :=
  names.foldr (fun name rest => (row.get name).coalesce rest) .undefined

def directionOf (row : Value) : Option Direction :=
  let explicit := toLowerCase (textOf (firstOf row ["direction", "positionSide", "position_side"]))
  if explicit = "long" ∨ explicit = "buy" then some .long
  else if explicit = "short" ∨ explicit = "sell" then some .short
  else
    let side := toLowerCase (textOf (row.get "side"))
    let signed := finiteOf (firstOf row ["positionAmt", "position_amount", "size"])
    if side = "long" then some .long
    else if side = "short" then some .short
    else if 0 < signed then some .long
    else if signed < 0 then some .short
    else none

def quantityOf (row : Value) : ℚ :=
  |finiteOf (firstOf row ["executedQuantity", "positionAmt", "position_amount", "size", "quantity",
    "contracts", "positionSize", "lots", "volume"])|

def quantityTolerance (row : Value) : ℚ :=
  max (1 / 10 ^ 10) (|finiteOf (row.get "quantityStep")| / 2)

def protectionOrderIds (row : Value) : List String :=
  let coverage := match row.get "controlOrderSetCoverage" with
    | .object fields => fields.map fun field => textOf (field.2.get "securityStopOrderId")
    | _ => []
  (textOf (row.get "securityStopOrderId") :: coverage).filter (· ≠ "")

def armedQuantityMatches (expected : ℚ) (raw : Value) (tolerance : ℚ) : Bool :=
  decide (0 < finiteOf raw ∧ |finiteOf raw - expected| ≤ tolerance)

/-- `String(value)` where there is a value. -/
def optionalText (value : Value) : Option String :=
  if value.isNullish then none else some value.toText

/-- The ids by which a row names its owner. -/
def ownerIds (row : Value) : OwnerIds where
  connectionId := optionalText (firstOf row ["connectionId", "connection_id"])
  systemTrackingId := optionalText (firstOf row ["system_tracking_id", "systemTrackingId"])
  connectionTrackingId :=
    optionalText (firstOf row ["connection_tracking_id", "connectionTrackingId"])

/-- `aggregateProtectionSlot(row.symbol, direction)`. -/
def slotFor (row : Value) (direction : Direction) : String :=
  let symbol := row.get "symbol"
  aggregateProtectionSlot (if symbol.isTruthy then symbol.toText else "") direction

/-- The slot of a row with a direction. -/
def rowSlot (row : Value) : Option String := (directionOf row).map (slotFor row)

/-- `slotOfRow`: a row that is not `short` is taken for a long one. -/
def slotOfRow (row : Value) : String :=
  slotFor row (if toLowerCase (textOf (row.get "direction")) = "short" then .short else .long)

/-- `row.controlOrderScope === "symbol_direction"`. -/
def isShared (row : Value) : Bool :=
  match row.get "controlOrderScope" with
  | .text scope => decide (scope = "symbol_direction")
  | _ => false

/-- `a === b`, of values that are no objects. -/
def strictEquals : Value → Value → Bool
  | .undefined, .undefined => true
  | .null, .null => true
  | .boolean a, .boolean b => a == b
  | .number a, .number b => a.eq b
  | .text a, .text b => a == b
  | _, _ => false

/-! ## The rows of the audit -/

/-- The arguments. -/
structure AdmissionInput where
  connectionId : String
  candidateId : String := ""
  symbol : String
  direction : Direction
  positions : List Value
  venuePositions : List Value
  overallControlOrdersOnly : Option Bool := none
  mutatingRowId : String := ""
  liveOrderIds : List String

/-- `ACTIVE_STATUSES`. -/
def activeStatuses : List String :=
  ["open", "filled", "partially_filled", "placed", "pending_fill", "placed_unconfirmed", "closing",
    "closing_partial"]

/-- `PENDING_ENTRY_STATUSES`. -/
def pendingEntryStatuses : List String := ["placed", "pending_fill", "placed_unconfirmed"]

def statusOf (row : Value) : String := toLowerCase (textOf (row.get "status"))

def neverReachedVenue (row : Value) : Bool :=
  decide (quantityOf row ≤ 0) && decide (textOf (row.get "orderId") = "") &&
    decide (textOf (row.get "exchangeOrderId") = "") &&
    decide (textOf ((row.get "exchangeData").get "orderId") = "")

/-- A change of the row is under way, and it is not the row that runs the audit. -/
def isMutating (mutatingRowId : String) (row : Value) : Bool :=
  (decide (mutatingRowId = "") || decide (textOf (row.get "id") ≠ mutatingRowId)) &&
    (["pendingSystemAction", "pendingQuantityMutation", "pendingReduction",
        "pendingAccumulation"].any (fun name => (row.get name).isTruthy) ||
      decide (0 < finiteOf (row.get "aggregateProtectionMutationRequestedAt")))

namespace AdmissionInput

variable (input : AdmissionInput)

/-- The row belongs to the connection. -/
def owns (row : Value) : Bool := isExactSystemPositionOwner (ownerIds row) input.connectionId

/-- A row of the connection that counts. -/
def isOwned (row : Value) : Bool :=
  input.owns row && !(decide (trim input.candidateId ≠ "") &&
      decide (textOf (row.get "id") = trim input.candidateId)) &&
    decide (statusOf row ∈ activeStatuses) && !neverReachedVenue row

def owned : List Value := input.positions.filter input.isOwned

def venueQuantityBySlot : List (String × ℚ) :=
  input.venuePositions.foldl (fun bySlot row =>
    match rowSlot row with
    | none => bySlot
    | some key => put bySlot key ((get? bySlot key).getD 0 + quantityOf row)) []

/-- The control order of a row is live. -/
def isLive (id : String) : Bool := decide (id ∈ input.liveOrderIds)

/-- A control order of the row is no longer live. -/
def ownControlFilled (row : Value) : Bool :=
  let filled := fun id : String => decide (id ≠ "") && !input.isLive id
  filled (textOf (row.get "stopLossOrderId")) || filled (textOf (row.get "takeProfitOrderId"))

def closedOnVenue (row : Value) : Bool :=
  (rowSlot row).any fun key =>
    input.ownControlFilled row && decide ((get? input.venueQuantityBySlot key).getD 0 ≤ 0)

/-- The rows of the connection with a quantity. -/
def executedAll : List Value := input.owned.filter fun row => 0 < quantityOf row

def executed : List Value := input.executedAll.filter fun row => !input.closedOnVenue row

/-- An entry that is not confirmed. -/
def pendingEntries : List Value :=
  input.owned.filter fun row => decide (statusOf row ∈ pendingEntryStatuses)

/-- A close that is under way. -/
def closingRows : List Value := input.owned.filter fun row => hasPrefix "closing" (statusOf row)

/-- A change that is under way, other than the one that runs the audit. -/
def mutatingRows : List Value := input.owned.filter (isMutating (trim input.mutatingRowId))

/-- The row is not in the mode of the connection. -/
def scopeViolations (row : Value) : List String :=
  match input.overallControlOrdersOnly with
  | none => []
  | some overall =>
    if isShared row = overall then [] else ["owned_control_scope_transition_pending"]

/-- The control order of a leg is missing. -/
def missingOrder (row : Value) (field violation : String) : List String :=
  let id := textOf (row.get field)
  if id = "" ∨ input.isLive id = false then [violation] else []

/-- The armed quantity of a leg is not the quantity of the row. -/
def wrongQuantity (row : Value) (field violation : String) : List String :=
  if armedQuantityMatches (quantityOf row)
      (firstOf row [field, "protectionArmedQuantity"]) (quantityTolerance row) then []
  else [violation]

/-- The violations of the control orders of a row. -/
def rowViolations (row : Value) : List String :=
  input.missingOrder row "stopLossOrderId" "owned_row_stop_loss_missing" ++
    input.missingOrder row "takeProfitOrderId" "owned_row_take_profit_missing" ++
    wrongQuantity row "stopLossArmedQuantity" "owned_row_stop_loss_quantity_mismatch" ++
    wrongQuantity row "takeProfitArmedQuantity" "owned_row_take_profit_quantity_mismatch"

/-- A row with controls of its own; the scope alone is not attributed. -/
def rowReport (row : Value) : Findings.Report String String :=
  if isShared row then (input.scopeViolations row, none)
  else (input.scopeViolations row ++ input.rowViolations row, rowSlot row)

/-! ## Checks of one slot -/

/-- The sum of the quantities of rows. -/
def totalQuantity (rows : List Value) : ℚ := (rows.map quantityOf).sum

/-- `Math.max(...rows.map(quantityTolerance), 1e-10)`. -/
def slotTolerance (rows : List Value) : ℚ := (rows.map quantityTolerance).foldl max (1 / 10 ^ 10)

/-- The row that runs the audit has the controls of its slot cancelled for its change. -/
def settledHandoff (rows : List Value) : Bool :=
  decide (trim input.mutatingRowId ≠ "") &&
    (rows.any fun row => decide (textOf (row.get "id") = trim input.mutatingRowId)) &&
    rows.any fun row =>
      decide (0 < finiteOf (row.get "aggregateProtectionMutationRequestedAt")) &&
        decide (0 < finiteOf (row.get "aggregateProtectionMutationSettledAt"))

/-- The legs with shared orders. -/
def legs : List String := ["stopLoss", "takeProfit"]

/-- The shared order of a leg is held by the leader, for all rows. -/
def legViolations (rows : List Value) (leader : Value) (leg : String) : List String :=
  let id := textOf (leader.get (leg ++ "OrderId"))
  (if input.settledHandoff rows then []
    else
      (if id = "" ∨ input.isLive id = false then ["owned_shared_" ++ leg ++ "_missing"] else []) ++
      if armedQuantityMatches (totalQuantity rows) (leader.get (leg ++ "ArmedQuantity"))
          (slotTolerance rows) then []
      else ["owned_shared_" ++ leg ++ "_quantity_mismatch"]) ++
  if rows.any fun row => !strictEquals (row.get "id") (leader.get "id") &&
      decide (textOf (row.get (leg ++ "OrderId")) ≠ "") then
    ["owned_shared_child_control_present"]
  else []

/-- The rows that lead their slot. -/
def leaders (rows : List Value) : List Value :=
  rows.filter fun row => (row.get "aggregateProtectionOwner").isTrue

/-- The violations of the shared controls of a slot. -/
def sharedViolations (rows : List Value) : List String :=
  if rows.any isShared then
    match leaders rows with
    | [leader] =>
      if rows.any fun row => !isShared row then ["owned_shared_control_owner_mismatch"]
      else legs.flatMap (input.legViolations rows leader)
    | _ => ["owned_shared_control_owner_mismatch"]
  else []

/-- The live security stops of a slot. -/
def securityIds (rows : List Value) : List String :=
  ((rows.flatMap protectionOrderIds).filter input.isLive).dedup

/-- `owner`: the first row whose security stop is live. -/
def securityOwner (rows : List Value) : Option Value :=
  rows.find? fun row =>
    decide (textOf (row.get "securityStopOrderId") ≠ "") &&
      input.isLive (textOf (row.get "securityStopOrderId"))

/-- The violations of the security stop of a slot. -/
def securityViolations (rows : List Value) : List String :=
  if input.settledHandoff rows then []
  else
    (if (input.securityIds rows).length = 1 then [] else ["owned_slot_security_stop_incomplete"]) ++
    if (input.securityOwner rows).any fun owner => armedQuantityMatches (totalQuantity rows)
        (owner.get "securityStopArmedQuantity") (slotTolerance rows) then []
    else ["owned_slot_security_quantity_mismatch"]

/-- The violations of a slot. -/
def slotReport (group : String × List Value) : Findings.Report String String :=
  (input.sharedViolations group.2 ++ input.securityViolations group.2, some group.1)

/-- `bySlot`: the rows of each slot. -/
def bySlot : List (String × List Value) :=
  collect (fun row => (rowSlot row).getD "") (fun _ => []) (fun rows row => rows ++ [row])
    (input.executed.filter fun row => (rowSlot row).isSome)

/-- The rows without a direction. -/
def directionReport : Findings.Report String String :=
  ((input.executed.filter fun row => (rowSlot row).isNone).map
    fun _ => "owned_row_direction_missing", none)

/-! ## The slot of the candidate -/

def candidateSymbol : String := symbolKey (trim input.symbol)

def candidateSlot : String := aggregateProtectionSlot input.candidateSymbol input.direction

def physicalRows : List Value :=
  input.executed.filter fun row => rowSlot row = some input.candidateSlot

def venueRows : List Value :=
  input.venuePositions.filter fun row =>
    decide (symbolKey (textOf (row.get "symbol")) = input.candidateSymbol) &&
      decide (directionOf row = some input.direction)

def systemSlotQuantity : ℚ := totalQuantity input.physicalRows

def venueSlotQuantity : ℚ := totalQuantity input.venueRows

/-- `slotTolerance`. -/
def candidateTolerance : ℚ :=
  max ((input.physicalRows.map quantityTolerance).foldl max (1 / 10 ^ 8))
    (max (input.systemSlotQuantity * (1 / 10 ^ 8)) (input.venueSlotQuantity * (1 / 10 ^ 8)))

/-- The violations of the slot of the candidate. -/
def candidateReport : Findings.Report String String :=
  ((if 1 < input.venueRows.length then ["venue_physical_slot_ambiguous"] else []) ++
    (if 0 < input.systemSlotQuantity ∧ input.venueSlotQuantity ≤ 0 then
      ["owned_physical_slot_missing_on_venue"]
    else if 0 < input.systemSlotQuantity ∧
        input.venueSlotQuantity + input.candidateTolerance < input.systemSlotQuantity then
      ["venue_physical_slot_quantity_not_fully_owned"]
    else []), some input.candidateSlot)

/-- The rows in between, each noted under its slot. -/
def barriers : Findings.Log String String :=
  (((Findings.Log.mk [] [] 0).bar "owned_entry_confirmation_pending"
    (input.pendingEntries.map slotOfRow)).bar "owned_quantity_mutation_pending"
    (input.closingRows.map slotOfRow)).bar "owned_quantity_mutation_pending"
    (input.mutatingRows.map slotOfRow)

/-- The checks in their order. -/
def reports : List (Findings.Report String String) :=
  input.executed.map input.rowReport ++ [input.directionReport] ++
    input.bySlot.map input.slotReport ++ [input.candidateReport]

/-- What the checks found. -/
def findings : Findings.Log String String := input.barriers.reportAll input.reports

end AdmissionInput

structure LiveEntryProtectionAdmissionAudit where
  offendingSlots : List String
  connectionLevelViolation : Bool
  safe : Bool
  violations : List String
  ownedActiveRows : ℕ
  ownedExecutedRows : ℕ
  physicalSlotRows : ℕ
  systemSlotQuantity : ℚ
  venueSlotQuantity : ℚ
  physicalSlotAlreadyExists : Bool
  requiredNewControlOrders : ℕ

def auditLiveEntryProtectionAdmission (input : AdmissionInput) :
    LiveEntryProtectionAdmissionAudit where
  offendingSlots := input.findings.places
  connectionLevelViolation := decide (input.findings.attributed < input.findings.violations.length)
  safe := decide (input.findings.violations.length = 0)
  violations := input.findings.violations.foldl MapIterator.insert []
  ownedActiveRows := input.owned.length
  ownedExecutedRows := input.executed.length
  physicalSlotRows := input.physicalRows.length
  systemSlotQuantity := input.systemSlotQuantity
  venueSlotQuantity := input.venueSlotQuantity
  physicalSlotAlreadyExists := !input.physicalRows.isEmpty
  requiredNewControlOrders :=
    if 0 < input.physicalRows.length then
      if input.overallControlOrdersOnly.getD (input.physicalRows.all isShared) then 0 else 2
    else 3

end CtsEngine.EntryAdmission
