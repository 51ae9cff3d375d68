import CtsEngine.Foundation.JsValue
import CtsEngine.OrderQuantity.Rounding

/-!
# The exposure ceiling of an entry

Before an entry is submitted, the budget that is left for its slot is read from the venue:
`resolveLiveOrderExposureCeiling` values the rows of the slot and takes the own share of them from
the ceiling, and `capSubmittedLiveQuantity` cuts the quantity down to what is left.  The market is
crypto, so a notional is a quantity times a price.
-/

namespace CtsEngine.ExposureCeiling

open OrderQuantity

inductive LiveOrderDirection
  | long
  | short
deriving DecidableEq

/-- Why an entry is refused. -/
inductive Refusal
  | fallbackBalance
  | noFiniteCeiling
  | noSnapshot
  | snapshotUnavailable (reason : String)
  | unvaluedPosition
  | ceilingOccupied
  | noConversion
  | belowMinimum
  | cannotFit
deriving DecidableEq

/-! ## Rows of the venue -/

/-- A position row of the venue.  A field that is missing or no finite number is `none`. -/
structure PositionRow where
  symbol : Option String := none
  instrument : Option String := none
  contract : Option String := none
  quantity : Option ℚ := none
  qty : Option ℚ := none
  contracts : Option ℚ := none
  size : Option ℚ := none
  positionAmt : Option ℚ := none
  positionSize : Option ℚ := none
  lots : Option ℚ := none
  volume : Option ℚ := none
  entryPrice : Option ℚ := none
  avgPrice : Option ℚ := none
  averagePrice : Option ℚ := none
  openPrice : Option ℚ := none
  markPrice : Option ℚ := none
  currentPrice : Option ℚ := none
  direction : Option String := none
  positionSide : Option String := none
  position_side : Option String := none
  side : Option String := none
  position_amount : Option ℚ := none
  positionSizeSigned : Option ℚ := none
deriving DecidableEq

/-- The first number of the candidates that meets a condition. -/
def firstNumber (p : ℚ → Bool) (candidates : List (Option ℚ)) : Option ℚ :=
  (candidates.filterMap id).find? p

variable (row : PositionRow)

def orderQuantityFromPosition : ℚ :=
  ((firstNumber (· ≠ 0) [row.quantity, row.qty, row.contracts, row.size, row.positionAmt,
    row.positionSize, row.lots, row.volume]).map abs).getD 0

def orderPriceFromPosition (fallback : ℚ) : ℚ :=
  (firstNumber (0 < ·) [row.entryPrice, row.avgPrice, row.averagePrice, row.openPrice,
    row.markPrice, row.currentPrice]).getD fallback

/-- The symbol of a row, normalized. -/
def PositionRow.snapshotSymbol : String :=
  symbolKey (strOrEmpty (row.symbol <|> row.instrument <|> row.contract))

/-- The direction that a text names. -/
def directionOf (candidate : Option String) : Option LiveOrderDirection :=
  let normalized := toLowerCase (trim (strOrEmpty candidate))
  if normalized = "long" ∨ normalized = "buy" then some .long
  else if normalized = "short" ∨ normalized = "sell" then some .short
  else none

def snapshotDirection : Option LiveOrderDirection :=
  match [row.direction, row.positionSide, row.position_side, row.side].findSome? directionOf with
  | some direction => some direction
  | none =>
    (firstNumber (· ≠ 0) [row.positionAmt, row.position_amount, row.positionSizeSigned]).map
      fun parsed => if 0 < parsed then .long else .short

/-- What a connector answers to a position read. -/
inductive PositionsReply
  | failed (message : String)
  /-- The connector says that its last snapshot is not confirmed. -/
  | unconfirmed
  | notArray
  | rows (rows : List PositionRow)
deriving DecidableEq

/-- How a connector reads positions. -/
inductive Connector
  | getPositions (reply : PositionsReply)
  /-- Without `getPositions`; the reply is for the symbol and direction that are asked for. -/
  | getPosition (reply : PositionsReply)
  | neither
deriving DecidableEq

/-- The text of a failed read. -/
def unavailableText (message : String) : String :=
  "authoritative venue position snapshot unavailable (" ++ message ++ ")"

def unconfirmedText : String := "authoritative venue position snapshot was not confirmed"

/-- The rows of the slot among the rows that are not zero, when it is clear whose they are. -/
def rowsOfSlot (direction : LiveOrderDirection) (nonZeroRows : List PositionRow) :
    Except String (List PositionRow) :=
  if (nonZeroRows.any fun row => row.snapshotSymbol = "") ∧ 1 < nonZeroRows.length then
    .error "authoritative venue position snapshot has ambiguous symbol ownership"
  else if nonZeroRows.any fun row => snapshotDirection row = none then
    .error "authoritative venue position snapshot has ambiguous direction ownership"
  else .ok (nonZeroRows.filter fun row => snapshotDirection row = some direction)

def readAuthoritativePositionRows (connector : Connector) (symbol : String)
    (direction : LiveOrderDirection) : Except String (List PositionRow) :=
  match connector with
  | .getPositions (.failed message) => .error (unavailableText message)
  | .getPositions .unconfirmed => .error unconfirmedText
  | .getPositions .notArray => .error "authoritative venue positions response was not an array"
  | .getPositions (.rows snapshot) =>
    let rows := snapshot.filter fun row =>
      row.snapshotSymbol = "" ∨ row.snapshotSymbol = symbolKey symbol
    rowsOfSlot direction (rows.filter fun row => 0 < orderQuantityFromPosition row)
  | .getPosition (.failed message) => .error (unavailableText message)
  | .getPosition .unconfirmed => .error unconfirmedText
  | .getPosition .notArray => .ok []
  | .getPosition (.rows snapshot) =>
    .ok (snapshot.filter fun row => 0 < orderQuantityFromPosition row)
  | .neither => .error "connector cannot provide an authoritative position snapshot"

/-! ## The budget that is left -/

/-- `orderNotionalUsd` of a crypto market. -/
def orderNotionalUsd (quantity price : ℚ) : ℚ :=
  if 0 < quantity * price then quantity * price else 0

/-- What `VolumeCalculator.calculateVolumeForConnection` says of a connection. -/
structure VolumeResult where
  balanceIsFallback : Bool
  maxExecutionNotionalUsd : Option ℚ

/-- The parts of an order that its ceiling depends on. -/
structure EntryInput where
  reduceOnly : Bool
  direction : LiveOrderDirection
  /-- The hint of the caller. -/
  maxExecutionNotionalUsd : Option ℚ
  /-- `isAuthorizedMaintenanceVstSoakExposure`. -/
  isAuthorizedVst : Bool
  volumeResult : VolumeResult
  ownSlotQuantity : Option ℚ

/-- The ceiling before the exposure of the slot is taken from it. -/
def totalCeiling (input : EntryInput) : Except Refusal ℚ :=
  let explicit := input.maxExecutionNotionalUsd.filter (0 < ·)
  let resolved : Except Refusal (Option ℚ) :=
    if input.isAuthorizedVst ∧ explicit ≠ none then .ok explicit
    else if input.volumeResult.balanceIsFallback then .error .fallbackBalance
    else match input.volumeResult.maxExecutionNotionalUsd, explicit with
      | some ceiling, some hint => .ok (some (min ceiling hint))
      | ceiling, _ => .ok ceiling
  match resolved with
  | .error refusal => .error refusal
  | .ok none => .error .noFiniteCeiling
  | .ok (some ceiling) => if 0 < ceiling then .ok ceiling else .error .noFiniteCeiling

/-- The notional and the quantity of the rows of a slot. -/
def sumRows (marketPrice : ℚ) : List PositionRow → ℚ × ℚ → Except Refusal (ℚ × ℚ)
  | [], sums => .ok sums
  | row :: rest, (notional, total) =>
    let currentQuantity := orderQuantityFromPosition row
    if ¬ 0 < currentQuantity then sumRows marketPrice rest (notional, total)
    else
      let positionNotional :=
        orderNotionalUsd currentQuantity (orderPriceFromPosition row marketPrice)
      if ¬ 0 < positionNotional then .error .unvaluedPosition
      else sumRows marketPrice rest (notional + positionNotional, total + currentQuantity)

/-- The part of the notional that the own quantity takes; without an own quantity it is all of
it. -/
def ownNotionalUsd (ownSlotQuantity : Option ℚ) (notional total : ℚ) : ℚ :=
  match ownSlotQuantity with
  | none => notional
  | some ownQuantity =>
    if 0 ≤ ownQuantity ∧ ownQuantity * (1 + 1 / 10 ^ 6) + 1 / 10 ^ 12 < total then
      notional * (if 0 < total then ownQuantity / total else 0)
    else notional

/-- The result of `resolveLiveOrderExposureCeiling`. -/
structure Ceiling where
  maxNotionalUsd : ℚ
  currentNotionalUsd : ℚ

def resolveLiveOrderExposureCeiling (input : EntryInput) (connector : Connector) (symbol : String)
    (marketPrice : ℚ) : Except Refusal Ceiling :=
  if input.reduceOnly then .ok ⟨0, 0⟩
  else
    match totalCeiling input with
    | .error refusal => .error refusal
    | .ok ceiling =>
      if connector = .neither then .error .noSnapshot
      else
        match readAuthoritativePositionRows connector symbol input.direction with
        | .error reason => .error (.snapshotUnavailable reason)
        | .ok positions =>
          match sumRows marketPrice positions (0, 0) with
          | .error refusal => .error refusal
          | .ok (notional, total) =>
            let current := ownNotionalUsd input.ownSlotQuantity notional total
            if 0 < ceiling - current then .ok ⟨ceiling - current, current⟩
            else .error .ceilingOccupied

/-- A quantity that is to be submitted. -/
structure Submitted where
  quantity : ℚ
  marketPrice : ℚ
  rules : NormalizedQuantityRules
  adjusted : Bool

/-- The quantity is below the executable minimum. -/
def BelowMinimum (rules : NormalizedQuantityRules) (quantity : ℚ) : Prop :=
  0 < rules.minQuantity ∧ quantity + 1 / 10 ^ 12 < rules.minQuantity

instance (rules : NormalizedQuantityRules) (quantity : ℚ) :
    Decidable (BelowMinimum rules quantity) :=
  inferInstanceAs (Decidable (_ ∧ _))

def capSubmittedLiveQuantity (submitted : Submitted) (ceiling : ℚ) : Except Refusal Submitted :=
  let unitNotional := orderNotionalUsd 1 submitted.marketPrice
  if ¬ 0 < unitNotional then .error .noConversion
  else
    let maximum := roundQuantityDown (ceiling / unitNotional) submitted.rules
    if ¬ 0 < maximum ∨ BelowMinimum submitted.rules maximum then .error .belowMinimum
    else
      let quantity := roundQuantityDown (min submitted.quantity maximum) submitted.rules
      let notional := orderNotionalUsd quantity submitted.marketPrice
      if ¬ 0 < quantity ∨ BelowMinimum submitted.rules quantity ∨ ¬ 0 < notional ∨
          ceiling + 1 / 10 ^ 8 < notional then .error .cannotFit
      else .ok { submitted with
        quantity := quantity
        adjusted := submitted.adjusted || quantity ≠ submitted.quantity }

end CtsEngine.ExposureCeiling
