import CtsEngine.Foundation.JsValue

/-!
# The recovery lifecycle of one Block Count

`lib/block-volume-ratio.cjs`: one lane (a Count of a Block Set on one symbol) holds an increment
step, a count of non-positive results and a pause.  `advanceBlockCountLifecycle` folds one settled
result into it.

A lane is stored as JSON and read back as `Partial<BlockCountLifecycle>`, so the stored form has
optional fields; the advanced form has all of them.
-/

namespace CtsEngine

/-- Side of a position. -/
inductive Direction
  | long
  | short
  deriving DecidableEq

/-- The string that the source stores for a direction. -/
def Direction.toString : Direction → String
  | .long => "long"
  | .short => "short"

/-- `String(value).toLowerCase()`, when it is one of `long` and `short`. -/
def Direction.ofString (value : String) : Option Direction :=
  if toLowerCase value = "long" then some .long
  else if toLowerCase value = "short" then some .short
  else none

/-- One Count's recovery state, with every field present. -/
structure BlockCountLifecycle where
  setKey : String
  symbol : String
  direction : String
  sourceKey : String
  blockCount : ℚ
  incrementSteps : ℚ
  incrementStep : ℚ
  nonPositiveCount : ℚ
  recovering : Bool
  remaining : ℚ
  pauseCount : ℚ
  updatedAt : ℚ

/-- `Partial<BlockCountLifecycle>`: what a stored lane parses to. -/
structure LaneState where
  setKey : Option String
  symbol : Option String
  direction : Option String
  sourceKey : Option String
  blockCount : Option ℚ
  incrementSteps : Option ℚ
  incrementStep : Option ℚ
  nonPositiveCount : Option ℚ
  recovering : Option Bool
  remaining : Option ℚ
  pauseCount : Option ℚ
  updatedAt : Option ℚ

/-- A complete lifecycle as the stored lane that it serialises to. -/
def BlockCountLifecycle.toLane (l : BlockCountLifecycle) : LaneState where
  setKey := some l.setKey
  symbol := some l.symbol
  direction := some l.direction
  sourceKey := some l.sourceKey
  blockCount := some l.blockCount
  incrementSteps := some l.incrementSteps
  incrementStep := some l.incrementStep
  nonPositiveCount := some l.nonPositiveCount
  recovering := some l.recovering
  remaining := some l.remaining
  pauseCount := some l.pauseCount
  updatedAt := some l.updatedAt

/-- `BLOCK_INCREMENT_STEPS_DEFAULT`. -/
def blockIncrementStepsDefault : ℚ := 3

/-- `BLOCK_INCREMENT_STEPS_MIN`. -/
def blockIncrementStepsMin : ℤ := 1

/-- `BLOCK_INCREMENT_STEPS_MAX`. -/
def blockIncrementStepsMax : ℤ := 6

/-- Levels are clamped to `1..6`; a value that is not finite counts as the default. -/
def normalizeBlockIncrementSteps (value : Option ℚ) : ℤ :=
  max blockIncrementStepsMin (min blockIncrementStepsMax ⌊value.getD blockIncrementStepsDefault⌋)

/-- The requested step, at least one and at most the normalised number of steps. -/
def blockEffectiveIncrementStep (count : ℚ) (steps : Option ℚ) (requestedStep : ℚ) : ℤ :=
  if count ≤ 0 then 0
  else min (max 1 ⌊numOrConst (some requestedStep) 1⌋) (normalizeBlockIncrementSteps steps)

/-- The settled result handed to `advanceBlockCountLifecycle`. -/
structure LifecycleInput where
  setKey : String
  symbol : String
  direction : String
  sourceKey : String
  blockCount : ℚ
  incrementSteps : ℚ
  executedIncrementStep : ℚ
  pauseCount : ℚ
  netPnl : ℚ
  updatedAt : ℚ

/-- One Count's recovery is independent from every other Count and source.  A positive result
pauses the Count and resets the step; `count` non-positive results in a row raise the step. -/
def advanceBlockCountLifecycle (previous : Option LaneState) (input : LifecycleInput) :
    BlockCountLifecycle :=
  let steps := normalizeBlockIncrementSteps (some input.incrementSteps)
  let count : ℤ := max 1 ⌊input.blockCount⌋
  let current := blockEffectiveIncrementStep count (some (steps : ℚ))
    (max (numOrConst (previous.bind LaneState.incrementStep) 1)
      (numOrConst (some input.executedIncrementStep) 1))
  let positive := decide (0 < input.netPnl)
  let nonPositive : ℚ :=
    if positive then 0 else numOrConst (previous.bind LaneState.nonPositiveCount) 0 + 1
  let advance := !positive && decide ((count : ℚ) ≤ nonPositive) && decide (current < steps)
  { setKey := input.setKey
    symbol := input.symbol
    direction := input.direction
    sourceKey := input.sourceKey
    blockCount := count
    incrementSteps := steps
    incrementStep := if positive then 1 else (min steps (current + if advance then 1 else 0) : ℤ)
    nonPositiveCount := if positive || advance then 0 else min (count : ℚ) nonPositive
    recovering := !positive
    remaining := if positive then (max 1 ⌊input.pauseCount⌋ : ℤ) else 0
    pauseCount := input.pauseCount
    updatedAt := input.updatedAt }

end CtsEngine
