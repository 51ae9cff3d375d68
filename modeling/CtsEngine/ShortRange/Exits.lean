import CtsEngine.Block.Lifecycle
import CtsEngine.Foundation.Keyed
import CtsEngine.Replay.Candles
import Mathlib.Data.List.Sort

/-!
# Exit evaluation on one-minute bars

`lib/short-range-exits.ts`.  `simulateExits` walks every bar with a map of the open positions,
`simulateMakerExits` does so for post-only entries that rest before they fill, and `sparseExits`
scans forward from each signal and remembers per key when it is free again.

The three evaluators exit a position by one chain of comparisons.  Those of `simulateExits` and
`simulateMakerExits` are `exitOnBar` with the strictness as a parameter: a maker target needs a
trade-through, and a gap through it fills at the target.  An entry of `simulateExits` is a
`Filled` that was filled at its decision price and time.
-/

namespace CtsEngine

open Keyed

structure ResearchSignal where
  type : String
  direction : Direction
  rule : String
  entryTime : ℤ
  entryPrice : ℚ
  takeProfitPct : Option ℚ := none
  stopLossPct : Option ℚ := none
  deriving DecidableEq

structure ExitConfig where
  takeProfitPct : ℚ
  stopLossPct : ℚ
  trailingStartPct : Option ℚ := none
  trailingStopRatio : Option ℚ := none
  maxHoldMs : Option ℚ

structure MakerExecution where
  entryOffsetPct : ℚ
  fillWindowMinutes : ℚ

inductive ResearchCloseReason
  | takeProfit
  | stopLoss
  | maxHold
  | trailingStop
  deriving DecidableEq

inductive ExitLeg
  | maker
  | taker
  deriving DecidableEq

structure ResearchClose where
  type : String
  direction : Direction
  rule : String
  entryTime : ℤ
  exitTime : ℤ
  entryPrice : ℚ
  exitPrice : ℚ
  grossPct : ℚ
  reason : ResearchCloseReason

structure MakerResearchClose extends ResearchClose where
  fillTime : ℤ
  exitLeg : ExitLeg

structure MakerResult where
  closes : List MakerResearchClose
  placed : ℕ
  missed : ℕ

/-! ## What a signal and a configuration say -/

/-- The key of which one position may be open. -/
def ResearchSignal.key (signal : ResearchSignal) : String :=
  signal.type ++ "|" ++ signal.direction.toString ++ "|" ++ signal.rule

def ResearchSignal.long (signal : ResearchSignal) : Bool := decide (signal.direction = .long)

def signalTakeProfitPct (signal : ResearchSignal) (config : ExitConfig) : ℚ :=
  positiveOr signal.takeProfitPct config.takeProfitPct

def signalStopLossPct (signal : ResearchSignal) (config : ExitConfig) : ℚ :=
  positiveOr signal.stopLossPct config.stopLossPct

namespace ExitConfig

variable (config : ExitConfig)

/-- The move that arms trailing; `none` is a fixed target. -/
def trailingStart : Option ℚ :=
  match config.trailingStartPct with
  | some pct => if 0 < pct then some pct else none
  | none => none

def giveBack : ℚ := min 1 (max 0 (config.trailingStopRatio.getD 0))

/-- The longest hold: the configured one, or four hours, and one minute at least. -/
def holdMs : ℚ := max minuteMs (numOrConst config.maxHoldMs (4 * 60 * minuteMs))

end ExitConfig

/-- The signals in the order of their entry times, simultaneous ones as they were given. -/
def orderedSignals (signals : List ResearchSignal) : List ResearchSignal :=
  signals.insertionSort fun a b => a.entryTime ≤ b.entryTime

/-! ## Leaving a position -/

/-- A position on the bars: `OpenEntry` and `Filled` of the source. -/
structure Filled where
  signal : ResearchSignal
  entryPrice : ℚ
  fillTime : ℤ
  stopPrice : ℚ
  targetPrice : ℚ
  bestPrice : ℚ
  trailing : Bool
  deriving DecidableEq

/-- A signal filled at a price and time. -/
def Filled.enter (config : ExitConfig) (signal : ResearchSignal) (entryPrice : ℚ)
    (fillTime : ℤ) : Filled where
  signal := signal
  entryPrice := entryPrice
  fillTime := fillTime
  stopPrice := levelAt entryPrice signal.long (-1) (signalStopLossPct signal config)
  targetPrice := levelAt entryPrice signal.long 1 (signalTakeProfitPct signal config)
  bestPrice := entryPrice
  trailing := false

/-- The exit of a position; `barEnd` is the close time of its bar. -/
structure BarExit where
  time : ℤ
  barEnd : ℤ
  price : ℚ
  reason : ResearchCloseReason
  leg : ExitLeg
  deriving DecidableEq

/-- The leg of a target: a strict one is a resting maker order. -/
def targetLeg (strict : Bool) : ExitLeg := if strict then .maker else .taker

/-- What `settle` books. -/
def Filled.researchClose (entry : Filled) (exit : BarExit) : ResearchClose where
  type := entry.signal.type
  direction := entry.signal.direction
  rule := entry.signal.rule
  entryTime := entry.signal.entryTime
  exitTime := exit.time
  entryPrice := entry.entryPrice
  exitPrice := exit.price
  grossPct := (exit.price - entry.entryPrice) / entry.entryPrice * 100 *
    (if entry.signal.long then 1 else -1)
  reason := exit.reason

def Filled.makerClose (entry : Filled) (exit : BarExit) : MakerResearchClose where
  toResearchClose := entry.researchClose exit
  fillTime := entry.fillTime
  exitLeg := exit.leg

/-- The exit at the end of the longest hold. -/
def holdExit (config : ExitConfig) (bar : ReplayCandle) (fillTime : ℤ) : Option BarExit :=
  if config.holdMs ≤ ((bar.barEnd - fillTime : ℤ) : ℚ) then
    some ⟨bar.barEnd, bar.barEnd, bar.close, .maxHold, .taker⟩
  else none

/-- The position after the bar moved its best price; the move is not yet compared. -/
def Filled.withBest (entry : Filled) (bar : ReplayCandle) : Filled :=
  { entry with bestPrice :=
      if entry.signal.long then max entry.bestPrice bar.high else min entry.bestPrice bar.low }

/-- The favourable move in percent. -/
def Filled.movePct (entry : Filled) : ℚ :=
  (entry.bestPrice - entry.entryPrice) / entry.entryPrice * 100 *
    (if entry.signal.long then 1 else -1)

/-- The position with its stop moved to the trail where that is nearer. -/
def Filled.armed (config : ExitConfig) (entry : Filled) : Filled :=
  let trail := entry.entryPrice + (entry.bestPrice - entry.entryPrice) * (1 - config.giveBack)
  { entry with
    trailing := true
    stopPrice :=
      if (if entry.signal.long then decide (entry.stopPrice < trail)
        else decide (trail < entry.stopPrice)) then trail else entry.stopPrice }

/-- The loop over the open positions: what one bar does to one position. -/
def exitOnBar (strict : Bool) (config : ExitConfig) (bar : ReplayCandle) (entry : Filled) :
    Option BarExit × Filled :=
  let long := entry.signal.long
  let stop := entry.stopPrice
  let stopReason : ResearchCloseReason := if entry.trailing then .trailingStop else .stopLoss
  if bar.timestamp < entry.fillTime then (none, entry)
  else if stopHit long bar.openPrice stop then
    (some ⟨bar.timestamp, bar.barEnd, bar.openPrice, stopReason, .taker⟩, entry)
  else if config.trailingStart = none ∧ targetHit strict long bar.openPrice entry.targetPrice then
    (some ⟨bar.timestamp, bar.barEnd, if strict then entry.targetPrice else bar.openPrice,
      .takeProfit, targetLeg strict⟩, entry)
  else if stopHit long (bar.worst long) stop then
    (some ⟨bar.barEnd, bar.barEnd, stop, stopReason, .taker⟩, entry)
  else
    match config.trailingStart with
    | none =>
      if targetHit strict long (bar.best long) entry.targetPrice then
        (some ⟨bar.barEnd, bar.barEnd, entry.targetPrice, .takeProfit, targetLeg strict⟩, entry)
      else (holdExit config bar entry.fillTime, entry)
    | some start =>
      let best := entry.withBest bar
      if start ≤ best.movePct then
        let armed := best.armed config
        if stopHit long bar.close armed.stopPrice then
          (some ⟨bar.barEnd, bar.barEnd, bar.close, .trailingStop, .taker⟩, armed)
        else (holdExit config bar entry.fillTime, armed)
      else (holdExit config bar entry.fillTime, best)

/-- The positions that a bar closes, with their exits. -/
def settledOn (strict : Bool) (config : ExitConfig) (bar : ReplayCandle) (opened : List Filled) :
    List (Filled × BarExit) :=
  opened.filterMap fun entry =>
    let (exit, entry) := exitOnBar strict config bar entry
    exit.map (entry, ·)

/-- The positions that a bar leaves open. -/
def keptOn (strict : Bool) (config : ExitConfig) (bar : ReplayCandle) (opened : List Filled) :
    List Filled :=
  opened.filterMap fun entry =>
    let (exit, entry) := exitOnBar strict config bar entry
    if exit = none then some entry else none

/-- The loop over the signals decided at a bar's close: signals of earlier times are passed over, a
signal whose key is busy is no entry, later signals stay. -/
def enterOn (barEnd : ℤ) : List String → List ResearchSignal →
    List ResearchSignal × List ResearchSignal
  | _, [] => ([], [])
  | busy, signal :: rest =>
    if signal.entryTime ≤ barEnd then
      if signal.entryTime ≠ barEnd ∨ signal.key ∈ busy then enterOn barEnd busy rest
      else
        let (later, entered) := enterOn barEnd (signal.key :: busy) rest
        (later, signal :: entered)
    else (signal :: rest, [])

/-! ## The walks over all bars -/

/-- The variables of `simulateExits`. -/
structure ExitRun where
  closes : List ResearchClose := []
  opened : List Filled := []
  pending : List ResearchSignal

/-- One bar of `simulateExits`. -/
def simulateBar (config : ExitConfig) (run : ExitRun) (bar : ReplayCandle) : ExitRun :=
  let kept := keptOn false config bar run.opened
  let (later, entered) := enterOn bar.barEnd (kept.map (·.signal.key)) run.pending
  { closes := run.closes ++
      (settledOn false config bar run.opened).map fun (entry, exit) => entry.researchClose exit
    opened := kept ++
      entered.map fun signal => Filled.enter config signal signal.entryPrice signal.entryTime
    pending := later }

def simulateExits (bars : List ReplayCandle) (signals : List ResearchSignal)
    (config : ExitConfig) : List ResearchClose :=
  (bars.foldl (simulateBar config) { pending := orderedSignals signals }).closes

/-- A post-only entry that waits to be traded through. -/
structure Resting where
  signal : ResearchSignal
  limit : ℚ
  expiresAt : ℤ

namespace MakerExecution

variable (maker : MakerExecution)

/-- `Math.max(1, Math.round(maker.fillWindowMinutes)) * MINUTE_MS`. -/
def windowMs : ℤ := max 1 ⌊maker.fillWindowMinutes + 1 / 2⌋ * minuteMs

def offset : ℚ := max 0 maker.entryOffsetPct

/-- The order that a signal rests at its decision close. -/
def rest (signal : ResearchSignal) : Resting where
  signal := signal
  limit := levelAt signal.entryPrice signal.long (-1) maker.offset
  expiresAt := signal.entryTime + maker.windowMs

end MakerExecution

def tradesThrough (long : Bool) (bar : ReplayCandle) (limit : ℚ) : Bool :=
  if long then decide (bar.low < limit) else decide (limit < bar.high)

/-- The price of a fill; a gap through the limit fills at the open. -/
def fillPrice (long : Bool) (bar : ReplayCandle) (limit : ℚ) : ℚ :=
  if long then min limit bar.openPrice else max limit bar.openPrice

/-- What one bar does to a resting entry. -/
inductive RestingOutcome
  | rests
  | expires
  | stopped (entry : Filled) (exit : BarExit)
  | fills (entry : Filled)
  deriving DecidableEq

/-- The loop over the resting entries. -/
def restingOnBar (config : ExitConfig) (bar : ReplayCandle) (order : Resting) : RestingOutcome :=
  let long := order.signal.long
  if bar.timestamp < order.signal.entryTime then .rests
  else if order.expiresAt ≤ bar.timestamp then .expires
  else if ¬ tradesThrough long bar order.limit then .rests
  else
    let filled := Filled.enter config order.signal (fillPrice long bar order.limit) bar.timestamp
    -- only the adverse exit is assumed possible on the fill bar
    if stopHit long (bar.worst long) filled.stopPrice then
      .stopped filled ⟨bar.barEnd, bar.barEnd, filled.stopPrice, .stopLoss, .taker⟩
    else .fills { filled with fillTime := bar.barEnd }

/-- The resting entries that a bar fills for good. -/
def filledOn (config : ExitConfig) (bar : ReplayCandle) (resting : List Resting) : List Filled :=
  resting.filterMap fun order => match restingOnBar config bar order with
    | .fills entry => some entry
    | _ => none

/-- The resting entries that a bar fills and stops, with their exits. -/
def stoppedOn (config : ExitConfig) (bar : ReplayCandle) (resting : List Resting) :
    List (Filled × BarExit) :=
  resting.filterMap fun order => match restingOnBar config bar order with
    | .stopped entry exit => some (entry, exit)
    | _ => none

/-- The entries that still rest after a bar. -/
def restingOn (config : ExitConfig) (bar : ReplayCandle) (resting : List Resting) : List Resting :=
  resting.filter fun order => restingOnBar config bar order = .rests

/-- The number of entries that a bar finds expired. -/
def expiredOn (config : ExitConfig) (bar : ReplayCandle) (resting : List Resting) : ℕ :=
  resting.countP fun order => restingOnBar config bar order = .expires

/-- The variables of `simulateMakerExits`. -/
structure MakerRun where
  closes : List MakerResearchClose := []
  placed : ℕ := 0
  missed : ℕ := 0
  opened : List Filled := []
  resting : List Resting := []
  pending : List ResearchSignal

/-- One bar of `simulateMakerExits`. -/
def simulateMakerBar (config : ExitConfig) (maker : MakerExecution) (run : MakerRun)
    (bar : ReplayCandle) : MakerRun :=
  let opened := keptOn true config bar run.opened ++ filledOn config bar run.resting
  let resting := restingOn config bar run.resting
  let (later, entered) := enterOn bar.barEnd
    (opened.map (·.signal.key) ++ resting.map (·.signal.key)) run.pending
  { closes := run.closes ++
      (settledOn true config bar run.opened ++ stoppedOn config bar run.resting).map
        fun (entry, exit) => entry.makerClose exit
    placed := run.placed + entered.length
    missed := run.missed + expiredOn config bar run.resting
    opened := opened
    resting := resting ++ entered.map maker.rest
    pending := later }

def simulateMakerExits (bars : List ReplayCandle) (signals : List ResearchSignal)
    (config : ExitConfig) (maker : MakerExecution) : MakerResult :=
  let run := bars.foldl (simulateMakerBar config maker) { pending := orderedSignals signals }
  { closes := run.closes, placed := run.placed, missed := run.missed + run.resting.length }

/-! ## The scan from signal to signal -/

/-- The body of the exit loop of `sparseExits`. -/
def fixedExitOn (strict long : Bool) (stop target : ℚ) (config : ExitConfig) (fillTime : ℤ)
    (bar : ReplayCandle) : Option BarExit :=
  if stopHit long bar.openPrice stop then
    some ⟨bar.timestamp, bar.barEnd, bar.openPrice, .stopLoss, .taker⟩
  else if targetHit strict long bar.openPrice target then
    some ⟨bar.timestamp, bar.barEnd, if strict then target else bar.openPrice, .takeProfit,
      targetLeg strict⟩
  else if stopHit long (bar.worst long) stop then
    some ⟨bar.barEnd, bar.barEnd, stop, .stopLoss, .taker⟩
  else if targetHit strict long (bar.best long) target then
    some ⟨bar.barEnd, bar.barEnd, target, .takeProfit, targetLeg strict⟩
  else holdExit config bar fillTime

/-- The fill loop of `sparseExits`: the bar that fills the order, with the bars after it. -/
def findFill (long : Bool) (limit : ℚ) (expiresAt : ℤ) : List ReplayCandle →
    Option (ReplayCandle × List ReplayCandle)
  | [] => none
  | bar :: rest =>
    if bar.timestamp < expiresAt then
      if tradesThrough long bar limit then some (bar, rest) else findFill long limit expiresAt rest
    else none

/-- The variables of `sparseExits`; a free time `⊤` is `Number.POSITIVE_INFINITY`. -/
structure SparseRun where
  closes : List MakerResearchClose := []
  placed : ℕ := 0
  missed : ℕ := 0
  freeAt : List (String × WithTop ℤ) := []

/-- `free !== undefined && signal.entryTime < free`. -/
def SparseRun.holdsKey (run : SparseRun) (signal : ResearchSignal) : Bool :=
  match get? run.freeAt signal.key with
  | some (WithTop.some free) => decide (signal.entryTime < free)
  | some ⊤ => true
  | none => false

/-- The end of one signal of `sparseExits`: the scan for the exit of an entry over the bars after
its fill. -/
def SparseRun.exitEntry (run : SparseRun) (strict : Bool) (config : ExitConfig) (entry : Filled)
    (bars : List ReplayCandle) : SparseRun :=
  match bars.findSome? (fixedExitOn strict entry.signal.long entry.stopPrice entry.targetPrice
    config entry.fillTime) with
  | none => { run with freeAt := put run.freeAt entry.signal.key ⊤ }
  | some exit =>
    { run with
      closes := run.closes ++ [entry.makerClose exit]
      freeAt := put run.freeAt entry.signal.key exit.barEnd }

/-- The maker part of one signal of `sparseExits`, over the bars from its decision close. -/
def SparseRun.placeMaker (run : SparseRun) (config : ExitConfig) (maker : MakerExecution)
    (signal : ResearchSignal) (bars : List ReplayCandle) : SparseRun :=
  let long := signal.long
  let limit := levelAt signal.entryPrice long (-1) maker.offset
  let expiresAt := signal.entryTime + maker.windowMs
  let placed := { run with placed := run.placed + 1 }
  match findFill long limit expiresAt bars with
  | none =>
    { placed with
      missed := placed.missed + 1
      freeAt := put placed.freeAt signal.key ((expiresAt + minuteMs : ℤ) : WithTop ℤ) }
  | some (fillBar, after) =>
    let filled := Filled.enter config signal (fillPrice long fillBar limit) fillBar.timestamp
    if stopHit long (fillBar.worst long) filled.stopPrice then
      { placed with
        closes := placed.closes ++ [filled.makerClose
          ⟨fillBar.barEnd, fillBar.barEnd, filled.stopPrice, .stopLoss, .taker⟩]
        freeAt := put placed.freeAt signal.key fillBar.barEnd }
    else placed.exitEntry true config { filled with fillTime := fillBar.barEnd } after

/-- One signal of `sparseExits`. -/
def sparseSignal (bars : List ReplayCandle) (barIndexAt : ℤ → Option ℕ) (config : ExitConfig)
    (maker : Option MakerExecution) (run : SparseRun) (signal : ResearchSignal) : SparseRun :=
  if run.holdsKey signal then run
  else
    match barIndexAt signal.entryTime with
    | none => run
    | some startIndex =>
      match maker with
      | none => run.exitEntry false config
          (Filled.enter config signal signal.entryPrice signal.entryTime) (bars.drop startIndex)
      | some maker => run.placeMaker config maker signal (bars.drop startIndex)

def sparseExits (bars : List ReplayCandle) (barIndexAt : ℤ → Option ℕ)
    (signals : List ResearchSignal) (config : ExitConfig) (maker : Option MakerExecution) :
    MakerResult :=
  let run := (orderedSignals signals).foldl (sparseSignal bars barIndexAt config maker) {}
  { closes := run.closes, placed := run.placed, missed := run.missed }

end CtsEngine
