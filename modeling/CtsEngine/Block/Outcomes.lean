import CtsEngine.Block.Lifecycle
import CtsEngine.Foundation.PositionNotional

/-!
# Block outcomes of a closed position

`lib/block-count-outcomes.ts`: a settled close consumes one unit of every matching pause of its
symbol, prunes the lanes that are provably inactive and folds its own result into the lanes of its
Block legs.  The changes are decided from the lanes of one symbol, read together with the version of
the connection's hash, and committed by a script that compares the version.

The Redis keys of one connection are the record `BlockRedis`; the two scripts are the functions
`readSymbolStates` and `commitBlockOutcome` on it.
-/

namespace CtsEngine

open Function

/-! ### The position that is closed -/

/-- A Block leg of a position row, as far as the close reads it. -/
structure BlockLeg where
  setKey : Option String
  lifecycleKey : Option String
  blockCount : Option ℚ
  quantity : Option ℚ
  entryPrice : Option ℚ
  incrementSteps : Option ℚ
  effectiveIncrementStep : Option ℚ
  pauseCount : Option ℚ
  targetSatisfied : Option Bool
  addedAt : Option ℚ

/-- An entry of `partialOrderExecutions`, as far as the close reads it. -/
structure PartialExecutionMark where
  appliedQuantity : Option ℚ
  cumulativeFilledQuantity : Option ℚ
  updatedAt : Option ℚ

/-- A position row, as far as `updateBlockLifecycleForClose` reads it. -/
structure ClosingPosition where
  connectionId : String
  id : String
  symbol : String
  direction : Option String
  side : Option String
  status : String
  realizedPnL : Option ℚ
  realizedPnlComplete : Option Bool
  pnlAccountingComplete : Option Bool
  setKey : Option String
  parentSetKey : Option String
  accumulatedSetKeys : List String
  blockLegs : List BlockLeg
  totalExecutedQuantity : Option ℚ
  quantity : Option ℚ
  averageExecutionPrice : Option ℚ
  entryPrice : Option ℚ
  partialOrderExecutions : List PartialExecutionMark
  market : PositionMarket

variable (p : ClosingPosition)

/-- The direction of the close, when it is `long` or `short`. -/
def ClosingPosition.closeDirection : Option Direction :=
  Direction.ofString (strOrEmpty (strOr p.direction p.side))

/-- The early returns of `updateBlockLifecycleForClose`: the row names its connection, id, symbol
and direction, it is closed, and its result is known and settled. -/
def ClosingPosition.isSettledClose : Bool :=
  p.connectionId ≠ "" && p.id ≠ "" && symbolKey p.symbol ≠ "" && p.closeDirection.isSome &&
    p.status = "closed" && p.realizedPnlComplete ≠ some false &&
    p.pnlAccountingComplete ≠ some false && p.realizedPnL.isSome

/-- The separator between a source Set key and its Block suffix. -/
def blockSuffix : String := "#block:"

/-- The Set keys whose lanes belong to the position. -/
def ClosingPosition.sourceKeys : List String :=
  (([p.setKey, p.parentSetKey] ++ p.accumulatedSetKeys.map some ++
      p.blockLegs.map fun leg => strOr leg.lifecycleKey leg.setKey).filterMap
    fun key => strOr key none).map (splitFirst blockSuffix)

/-! ### Stored lanes -/

/-- A field value of the pause hash: JSON that does not parse, or a stored lane. -/
inductive StoredLane
  | malformed
  | lane (state : LaneState)

def parseState : StoredLane → Option LaneState
  | .malformed => none
  | .lane state => some state

/-- `BLOCK_PAUSE_STATE_RETENTION_SECONDS`. -/
def blockPauseStateRetentionSeconds : ℚ := 30 * 24 * 60 * 60

variable (state : LaneState)

/-- The retention rule: a lane is inactive when it neither pauses nor recovers, is not backed by an
active Block position and was not updated for the retention time. -/
def isBlockPauseStateInactive (now : ℚ) (activeSetKeys : List String) : Bool :=
  if 0 < state.remaining.getD 0 || state.recovering = some true then false
  else if strOrEmpty state.setKey ≠ "" && activeSetKeys.contains (strOrEmpty state.setKey) then
    false
  else if state.updatedAt.getD 0 ≤ 0 then false
  else blockPauseStateRetentionSeconds * 1000 < now - state.updatedAt.getD 0

/-- A change of one field: delete it, or store a new value. -/
inductive LaneChange
  | delete
  | store (value : StoredLane)

/-- One close of a position together with the Block positions that are active on its symbol. -/
structure CloseCall where
  position : ClosingPosition
  activeSetKeys : List String

/-- `state.sourceKey || String(state.setKey || "").split("#block:")[0]`. -/
def LaneState.sourceKeyOf : String :=
  (strOr state.sourceKey none).getD (splitFirst blockSuffix (strOrEmpty state.setKey))

/-- Whether the close consumes one unit of the lane's pause. -/
def laneMatches : Bool :=
  ((strOr state.direction none).all fun d => some d = p.closeDirection.map Direction.toString) &&
    p.sourceKeys.contains state.sourceKeyOf && 0 < state.remaining.getD 0

variable (call : CloseCall)

/-- What the close does to one stored lane of its symbol: it consumes one unit of a matching pause,
removing the lane at zero, and prunes a lane that is inactive. -/
def laneChange (now : ℚ) (field : String) (raw : StoredLane) : Option LaneChange :=
  if hasPrefix "__" field then none
  else match parseState raw with
    | none => none
    | some state =>
      if symbolKey (strOrEmpty state.symbol) ≠ symbolKey call.position.symbol then none
      else if laneMatches call.position state then
        let remaining := max 0 (state.remaining.getD 0 - 1)
        some (if 0 < remaining then
          .store (.lane { state with remaining := some remaining, updatedAt := some now })
        else .delete)
      else if isBlockPauseStateInactive state now call.activeSetKeys then some .delete
      else none

/-- Whether a reduction was applied before the leg was added, so that the row-wide result cannot be
split off for this leg. -/
def reductionPrecedesLeg (leg : BlockLeg) : Bool :=
  p.partialOrderExecutions.any fun execution =>
    0 < ((numOr execution.appliedQuantity execution.cumulativeFilledQuantity).getD 0) &&
      0 < execution.updatedAt.getD 0 &&
      (leg.addedAt.any fun addedAt => execution.updatedAt.getD 0 < addedAt)

/-- The settled result of one leg: its share of the row's result, corrected by the difference
between the row's average entry and the leg's own entry. -/
def settledLegPnl (direction : Direction) (pnl : ℚ) (leg : BlockLeg) : ℚ :=
  let entry := numOrConst leg.entryPrice 0
  let quantity := numOrConst leg.quantity 0
  let total := numOrConst (numOr p.totalExecutedQuantity p.quantity) 0
  let averageEntry := numOrConst (numOr p.averageExecutionPrice p.entryPrice) 0
  if 0 < quantity ∧ 0 < entry ∧ 0 < averageEntry ∧ 0 < total then
    pnl * quantity / total + (if direction = .long then 1 else -1) *
      (resolvePositionNotionalUsd p.market quantity averageEntry -
        resolvePositionNotionalUsd p.market quantity entry)
  else pnl

/-- The field and the new lane of one Block leg, or `none` when the leg is skipped. -/
def legChange (now : ℚ) (direction : Direction) (pnl : ℚ) (stored : String → Option StoredLane)
    (leg : BlockLeg) : Option (String × LaneChange) :=
  let p := call.position
  if strOrEmpty leg.setKey = "" ∨ leg.targetSatisfied = some false ∨
      ¬ 0 < leg.blockCount.getD 0 then none
  else
    let lifecycleKey := strOrEmpty (strOr leg.lifecycleKey leg.setKey)
    let symbol := symbolKey p.symbol
    let field := symbol ++ "|" ++ lifecycleKey
    if reductionPrecedesLeg p leg then none
    else
      let lane := advanceBlockCountLifecycle ((stored field).bind parseState)
        { setKey := lifecycleKey
          symbol := symbol
          direction := direction.toString
          sourceKey := splitFirst blockSuffix lifecycleKey
          blockCount := leg.blockCount.getD 0
          incrementSteps := numOrConst leg.incrementSteps 2
          executedIncrementStep := numOrConst leg.effectiveIncrementStep 1
          pauseCount := max 1 (numOrConst (numOr leg.pauseCount leg.blockCount) 1)
          netPnl := settledLegPnl p direction pnl leg
          updatedAt := now }
      some (field, .store (.lane lane.toLane))

/-- The changes of one close, decided from the stored lanes of its symbol: first every stored lane,
then every leg in turn, a later change of a field replacing an earlier one. -/
def closeChanges (now : ℚ) (stored : String → Option StoredLane) : String → Option LaneChange :=
  match call.position.closeDirection, call.position.realizedPnL with
  | some direction, some pnl =>
    call.position.blockLegs.foldl (fun changes leg =>
        match legChange call now direction pnl stored leg with
        | some (field, change) => update changes field (some change)
        | none => changes)
      (fun field => (stored field).bind (laneChange call now field))
  | _, _ => fun _ => none

/-- The keys of one connection, with the index of the hash already built. -/
structure BlockRedis where
  /-- `block_count_pause:{conn}`, without its reserved fields. -/
  lanes : String → Option StoredLane
  /-- `block_count_pause_index:{conn}:{SYMBOL}`. -/
  index : String → String → Bool
  /-- Field `__version` of the hash. -/
  version : ℕ
  /-- `block_count_pause_processed:{conn}:{id}`. -/
  processed : String → Bool

/-- Script `READ_SYMBOL_STATES`: the version and the stored lanes that the index of the symbol
names. -/
def readSymbolStates (redis : BlockRedis) (symbol : String) : ℕ × (String → Option StoredLane) :=
  (redis.version, fun field => if redis.index symbol field then redis.lanes field else none)

/-- The lanes after the changes of one commit. -/
def applyLaneChanges (changes : String → Option LaneChange) (lanes : String → Option StoredLane) :
    String → Option StoredLane :=
  fun field => match changes field with
    | none => lanes field
    | some .delete => none
    | some (.store value) => some value

/-- The symbol index after the changes of one commit. -/
def applyIndexChanges (changes : String → Option LaneChange) (members : String → Bool) :
    String → Bool :=
  fun field => match changes field with
    | none => members field
    | some .delete => false
    | some (.store _) => true

/-- Script `COMMIT_BLOCK_OUTCOME`: reply `2` for a processed position, `0` when the version moved,
and `1` after writing the changed fields, the next version and the processed marker. -/
def commitBlockOutcome (redis : BlockRedis) (version : ℕ) (changes : String → Option LaneChange)
    (symbol positionId : String) : ℕ × BlockRedis :=
  if redis.processed positionId then (2, redis)
  else if redis.version ≠ version then (0, redis)
  else (1,
    { lanes := applyLaneChanges changes redis.lanes
      index := update redis.index symbol (applyIndexChanges changes (redis.index symbol))
      version := redis.version + 1
      processed := update redis.processed positionId true })

end CtsEngine
