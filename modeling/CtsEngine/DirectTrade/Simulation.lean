import CtsEngine.Dca.StepRuns
import CtsEngine.DirectTrade.Signals
import CtsEngine.Foundation.Rounding

/-!
# Simulated trades of Direct-Trade

`lib/direct-trade-coordination.ts`, `simulateTrades`, with what it uses of `lib/dca-strategy.ts`,
`lib/block-volume-ratio.cjs` and `lib/trading-round-trip-cost.cjs`.  An entry signal opens a
position; candle after candle the position is tested for its protection, trailed, tested for the
exit tactic and grown by DCA or Block legs, up to the hold horizon.  What it closed with is recorded
in the ledger of the base position and in one ledger for each Block count.
-/

namespace CtsEngine.DirectTrade

inductive DirectTradeTrailingMode
  | none
  | fixed
  | auto
  deriving DecidableEq

inductive DirectTradeExitTactic
  | bracket
  | momentumReversal
  | relative
  | time

/-- `DirectTradeSimTrade["exitReason"]`. -/
inductive ExitReason
  | tp
  | sl
  | trailing
  | momentumReversal
  | relativeReversal
  | timeout
  deriving DecidableEq

/-- What `evaluateDirectTradeSets` hands to `simulateTrades` beside candles and signals. -/
structure SimulationSettings where
  direction : Direction
  takeprofit : ℚ
  stoploss : ℚ
  trailing : Bool
  trailingMode : DirectTradeTrailingMode
  trailStart : ℚ
  trailStop : ℚ
  autoTrailSensitivity : Option ℚ
  exitTactic : DirectTradeExitTactic
  maxHoldMinutes : ℚ
  recentPositionWindow : ℕ
  positionCostPercent : ℚ
  blockCount : ℕ
  blockVolumeRatio : ℚ
  blockIncrementSteps : ℚ
  dcaProfile : Option DcaProfile

def maxHoldCandles (settings : SimulationSettings) (timeframeInMinutes : ℕ) : ℕ :=
  (max 1 ⌈settings.maxHoldMinutes / timeframeInMinutes⌉).toNat

/-! ## An open position -/

/-- One fill of a position, its weight relative to the first fill. -/
structure EntryLeg where
  price : ℚ
  weight : ℚ

/-- The variables of the position loop. -/
structure OpenPosition where
  averageEntryPrice : ℚ
  highWatermark : ℚ
  lowWatermark : ℚ
  bestMarketExitPrice : ℚ
  maxDrawdownMs : ℤ
  drawdownStart : Option ℤ
  trailingArmed : Bool
  entryLegs : List EntryLeg
  nextBlockCount : ℕ
  tpPrice : ℚ
  slPrice : ℚ
  nextDcaStep : ℕ
  lastDcaAt : Option ℤ

/-- What the position loop is left with at a `break`. -/
structure Exit where
  exitPrice : ℚ
  exitTime : ℤ
  exitReason : ExitReason

variable (direction : Direction)

/-- A price the given percentage away in the favourable direction. -/
def favourable (price percent : ℚ) : ℚ :=
  match direction with
  | .long => price * (1 + percent / 100)
  | .short => price * (1 - percent / 100)

/-- A price the given percentage away in the adverse direction. -/
def adverse (price percent : ℚ) : ℚ :=
  match direction with
  | .long => price * (1 - percent / 100)
  | .short => price * (1 + percent / 100)

def OpenPosition.start (settings : SimulationSettings) (entry : DirectTradeCandle) :
    OpenPosition where
  averageEntryPrice := entry.close
  highWatermark := entry.close
  lowWatermark := entry.close
  bestMarketExitPrice := entry.close
  maxDrawdownMs := 0
  drawdownStart := none
  trailingArmed := false
  entryLegs := [⟨entry.close, 1⟩]
  nextBlockCount := 1
  tpPrice := favourable settings.direction entry.close settings.takeprofit
  slPrice := adverse settings.direction entry.close settings.stoploss
  nextDcaStep := 1
  lastDcaAt := none

/-- The better of a price and a candle's best price. -/
def betterExitPrice (price : ℚ) (candle : DirectTradeCandle) : ℚ :=
  match direction with
  | .long => max price candle.high
  | .short => min price candle.low

/-- The stop and the target; a candle that touches both has touched the stop first. -/
def protectionExit (settings : SimulationSettings) (position : OpenPosition)
    (candle : DirectTradeCandle) : Option Exit :=
  let stopReason : ExitReason :=
    if settings.trailing && position.trailingArmed then .trailing else .sl
  match settings.direction with
  | .long =>
    if candle.low ≤ position.slPrice then some ⟨position.slPrice, candle.time, stopReason⟩
    else if position.tpPrice ≤ candle.high then some ⟨position.tpPrice, candle.time, .tp⟩
    else none
  | .short =>
    if position.slPrice ≤ candle.high then some ⟨position.slPrice, candle.time, stopReason⟩
    else if candle.low ≤ position.tpPrice then some ⟨position.tpPrice, candle.time, .tp⟩
    else none

/-- The distances at which a trail arms and follows. -/
structure TrailingParameters where
  trailStart : ℚ
  trailStop : ℚ

/-- The moves of a window in percent of the close before them. -/
def windowMoves (window : List DirectTradeCandle) : List ℚ :=
  (window.zip window.tail).filterMap fun pair =>
    if 0 < pair.1.close then some (|(pair.2.close - pair.1.close) / pair.1.close| * 100) else none

/-- `autoTrailingParameters` on its window of candles. -/
def autoTrailingOf (takeprofit sensitivity : ℚ) (window : List DirectTradeCandle) :
    TrailingParameters :=
  let volatility := average (windowMoves window)
  let avgVolume := average (window.map (·.volume))
  let activity := if 0 < avgVolume then (window.getLastD default).volume / avgVolume else 1
  let activityBoost := max (75 / 100) (min (135 / 100) activity)
  let safeSensitivity := max (1 / 2) (min (3 / 2) sensitivity)
  let trailStart := max (8 / 100) (min (takeprofit * (82 / 100))
    (max (takeprofit * (28 / 100 + safeSensitivity * (1 / 10)))
      (volatility * (11 / 10 + safeSensitivity * (35 / 100)) / activityBoost)))
  let trailStop := max (4 / 100) (min (trailStart * (82 / 100))
    (max (volatility * (35 / 100 + safeSensitivity * (12 / 100)))
      (trailStart * (32 / 100 + safeSensitivity * (8 / 100)))))
  ⟨trailStart, trailStop⟩

def autoTrailingParameters (takeprofit sensitivity : ℚ) (candles : List DirectTradeCandle)
    (index : ℕ) : TrailingParameters :=
  autoTrailingOf takeprofit sensitivity (Series.slice candles (max 1 (index - 12)) (index + 1))

def trailingParameters (settings : SimulationSettings) (candles : List DirectTradeCandle)
    (cursor : ℕ) : TrailingParameters :=
  if settings.trailingMode = .auto then
    autoTrailingParameters settings.takeprofit (settings.autoTrailSensitivity.getD 1) candles cursor
  else ⟨settings.trailStart, settings.trailStop⟩

/-- The update of the watermark, and of the stop once the trail is armed. -/
def trail (settings : SimulationSettings) (parameters : TrailingParameters)
    (position : OpenPosition) (candle : DirectTradeCandle) : OpenPosition :=
  match settings.direction with
  | .long =>
    if settings.trailing && decide (position.highWatermark < candle.high) then
      let position := { position with highWatermark := candle.high }
      if position.averageEntryPrice * (1 + parameters.trailStart / 100) ≤
          position.highWatermark then
        { position with
          slPrice := max position.slPrice
            (position.highWatermark * (1 - parameters.trailStop / 100))
          trailingArmed := true }
      else position
    else position
  | .short =>
    if settings.trailing && decide (candle.low < position.lowWatermark) then
      let position := { position with lowWatermark := candle.low }
      if position.lowWatermark ≤ position.averageEntryPrice * (1 - parameters.trailStart / 100) then
        { position with
          slPrice := min position.slPrice (position.lowWatermark * (1 + parameters.trailStop / 100))
          trailingArmed := true }
      else position
    else position

/-! ## Drawdown, exits and legs -/

/-- The time for which the close has been on the losing side of the average entry. -/
def countDrawdown (settings : SimulationSettings) (position : OpenPosition)
    (candle : DirectTradeCandle) : OpenPosition :=
  let pnl := match settings.direction with
    | .long => (candle.close - position.averageEntryPrice) / position.averageEntryPrice
    | .short => (position.averageEntryPrice - candle.close) / position.averageEntryPrice
  if pnl < 0 then
    let drawdownStart := position.drawdownStart.getD candle.time
    { position with
      drawdownStart := some drawdownStart
      maxDrawdownMs := max position.maxDrawdownMs (candle.time - drawdownStart) }
  else { position with drawdownStart := none }

def marketExitSignal (candles : List DirectTradeCandle) (index : ℕ) : Bool :=
  if index < 5 then false
  else
    let averageClose := average ((Series.slice candles (index - 5) index).map (·.close))
    match direction with
    | .long => (candles.getD index default).close < averageClose
    | .short => averageClose < (candles.getD index default).close

def relativeExitSignal (settings : SimulationSettings) (position : OpenPosition)
    (currentPrice : ℚ) : Bool :=
  let activation := max (1 / 10) (min (settings.takeprofit * (1 / 2)) (125 / 100))
  let retracement := max (6 / 100) (min (settings.takeprofit * (22 / 100)) (65 / 100))
  match settings.direction with
  | .long =>
    decide (position.averageEntryPrice * (1 + activation / 100) ≤ position.highWatermark) &&
      decide (currentPrice ≤ position.highWatermark * (1 - retracement / 100))
  | .short =>
    decide (position.lowWatermark ≤ position.averageEntryPrice * (1 - activation / 100)) &&
      decide (position.lowWatermark * (1 + retracement / 100) ≤ currentPrice)

/-- The exits of the tactics, all at the close of the candle. -/
def tacticExit (settings : SimulationSettings) (holdCandles : ℕ) (candles : List DirectTradeCandle)
    (index cursor : ℕ) (position : OpenPosition) : Option Exit :=
  let candle := candles.getD cursor default
  match settings.exitTactic with
  | .bracket => none
  | .momentumReversal =>
    if marketExitSignal settings.direction candles cursor then
      some ⟨candle.close, candle.time, .momentumReversal⟩
    else none
  | .relative =>
    if relativeExitSignal settings position candle.close then
      some ⟨candle.close, candle.time, .relativeReversal⟩
    else none
  | .time =>
    if holdCandles ≤ cursor - index then some ⟨candle.close, candle.time, .timeout⟩ else none

def calculateDcaTakeProfitPrice (profile : DcaProfile)
    (initialEntryPrice averageEntryPrice takeProfitPct : ℚ) : ℚ :=
  if averageEntryPrice ≤ 0 then 0
  else
    let reference := if profile.takeProfitMode = .firstEntry ∧ 0 < initialEntryPrice then
      initialEntryPrice else averageEntryPrice
    let targetPct := if profile.takeProfitMode = .breakevenPlus then profile.breakevenProfitPct
      else max 0 takeProfitPct
    if targetPct ≤ 0 then 0 else favourable direction reference targetPct

/-- The price at which the next DCA step is taken. -/
def dcaTriggerPrice (settings : SimulationSettings) (profile : DcaProfile)
    (initialEntryPrice : ℚ) (position : OpenPosition) : ℚ :=
  adverse settings.direction initialEntryPrice
    (profile.stepDistancesPct.getD (position.nextDcaStep - 1) 0)

/-- The DCA step that is due is touched by the candle, and the last one is long enough ago. -/
def dcaTouched (settings : SimulationSettings) (profile : DcaProfile) (initialEntryPrice : ℚ)
    (position : OpenPosition) (candle : DirectTradeCandle) : Bool :=
  let triggerPrice := dcaTriggerPrice settings profile initialEntryPrice position
  let triggerTouched := match settings.direction with
    | .long => decide (candle.low ≤ triggerPrice)
    | .short => decide (triggerPrice ≤ candle.high)
  let cooldownElapsed := position.lastDcaAt.all fun at_ =>
    profile.cooldownSeconds * 1000 ≤ (candle.time - at_ : ℤ)
  triggerTouched && cooldownElapsed

/-- At most one DCA leg for a candle. -/
def addDcaLeg (settings : SimulationSettings) (initialEntryPrice : ℚ) (position : OpenPosition)
    (candle : DirectTradeCandle) : OpenPosition :=
  match settings.dcaProfile with
  | none => position
  | some profile =>
    if position.nextDcaStep ≤ profile.maxSteps ∧
        dcaTouched settings profile initialEntryPrice position candle then
      let currentWeight := (position.entryLegs.map (·.weight)).sum
      let addWeight := calculateDcaAddQuantity 1
        (profile.stepVolumeMultipliers.getD (position.nextDcaStep - 1) 0) currentWeight
        profile.maxPositionVolumeRatio
      let next := if 0 < addWeight then
          let triggerPrice := dcaTriggerPrice settings profile initialEntryPrice position
          let entryLegs := position.entryLegs ++ [⟨triggerPrice, addWeight⟩]
          let averageEntryPrice :=
            (entryLegs.map fun leg => leg.price * leg.weight).sum / (currentWeight + addWeight)
          { position with
            entryLegs := entryLegs
            averageEntryPrice := averageEntryPrice
            tpPrice := calculateDcaTakeProfitPrice settings.direction profile initialEntryPrice
              averageEntryPrice settings.takeprofit
            lastDcaAt := some candle.time }
        else position
      { next with nextDcaStep := position.nextDcaStep + 1 }
    else position

def calculateBlockVolumeMultiplier (blockCount : ℕ) (volumeRatio incrementSteps : ℚ) : ℚ :=
  if ¬ (0 < blockCount ∧ 0 < volumeRatio) then 0
  else toFixed12 (1 + blockCount * volumeRatio *
    blockEffectiveIncrementStep blockCount (some incrementSteps) 1)

/-- A candle with a signal adds the next Block leg at its close. -/
def addBlockLeg (settings : SimulationSettings) (signal : Bool) (position : OpenPosition)
    (candle : DirectTradeCandle) : OpenPosition :=
  if 0 < settings.blockCount ∧ signal ∧ position.nextBlockCount ≤ settings.blockCount then
    let multiplier := fun count => calculateBlockVolumeMultiplier count settings.blockVolumeRatio
      settings.blockIncrementSteps
    let previousMultiplier :=
      if position.nextBlockCount = 1 then 1 else multiplier (position.nextBlockCount - 1)
    let addWeight := max 0 (multiplier position.nextBlockCount - previousMultiplier)
    { position with
      entryLegs := if 0 < addWeight then position.entryLegs ++ [⟨candle.close, addWeight⟩]
        else position.entryLegs
      nextBlockCount := position.nextBlockCount + 1 }
  else position

/-! ## The position loop -/

section Loop

variable (settings : SimulationSettings) (timeframeInMinutes : ℕ)
  (candles : List DirectTradeCandle) (signals : List Bool)

/-- One candle of the position loop: the position after it, and the exit if it closes. -/
def candleStep (index cursor : ℕ) (position : OpenPosition) : OpenPosition × Option Exit :=
  let candle := candles.getD cursor default
  let position := { position with
    bestMarketExitPrice := betterExitPrice settings.direction position.bestMarketExitPrice candle }
  match protectionExit settings position candle with
  | some exit => (position, some exit)
  | none =>
    let trailed := trail settings (trailingParameters settings candles cursor) position candle
    let position := countDrawdown settings trailed candle
    match tacticExit settings (maxHoldCandles settings timeframeInMinutes) candles index cursor
      position with
    | some exit => (position, some exit)
    | none =>
      let initialEntryPrice := (candles.getD index default).close
      let grown := addDcaLeg settings initialEntryPrice position candle
      (addBlockLeg settings (signals.getD cursor false) grown candle, none)

/-- How the position loop ends. -/
structure Walk where
  position : OpenPosition
  lastIndex : ℕ
  exit : Option Exit

/-- The position loop over the next candles, as many as the data and the hold horizon leave. -/
def walk (index : ℕ) : ℕ → ℕ → OpenPosition → Walk
  | 0, lastIndex, position => ⟨position, lastIndex, none⟩
  | steps + 1, lastIndex, position =>
    match candleStep settings timeframeInMinutes candles signals index (lastIndex + 1) position with
    | (next, some exit) => ⟨next, lastIndex + 1, some exit⟩
    | (next, none) => walk index steps (lastIndex + 1) next

/-- The candles that the position loop can read: what is left of the data, at most the horizon. -/
def candlesToWalk (index : ℕ) : ℕ :=
  min (candles.length - 1 - index) (maxHoldCandles settings timeframeInMinutes)

/-- A position that has been simulated.  `ended` is not in the source: it says that an exit or the
hold horizon closed the position, and not the end of the data. -/
structure SimulatedPosition where
  entryLegs : List EntryLeg
  exitPrice : ℚ
  exitReason : ExitReason
  bestMarketExitPrice : ℚ
  drawdownTimeMin : ℚ
  lastIndex : ℕ
  ended : Bool

/-- The body of the outer loop at a candle with a signal. -/
def simulatePosition (index : ℕ) : SimulatedPosition :=
  let entry := candles.getD index default
  let walked := walk settings timeframeInMinutes candles signals index
    (candlesToWalk settings timeframeInMinutes candles index) index
    (OpenPosition.start settings entry)
  let exit := walked.exit.getD ⟨entry.close, entry.time, .timeout⟩
  let final := candles.getD walked.lastIndex default
  -- a position that was not closed gets the close of the last candle read
  let exit := if exit.exitTime = entry.time then ⟨final.close, final.time, .timeout⟩ else exit
  let analysisEnd := min (candles.length - 1) (index + maxHoldCandles settings timeframeInMinutes)
  let horizon := Series.slice candles (walked.lastIndex + 1) (analysisEnd + 1)
  { entryLegs := walked.position.entryLegs
    exitPrice := exit.exitPrice
    exitReason := exit.exitReason
    bestMarketExitPrice := horizon.foldl (betterExitPrice settings.direction)
      walked.position.bestMarketExitPrice
    drawdownTimeMin := walked.position.maxDrawdownMs / 60000
    lastIndex := walked.lastIndex
    ended := walked.exit.isSome ||
      decide (maxHoldCandles settings timeframeInMinutes ≤ candles.length - 1 - index) }

/-- The outer loop from an index on, with fuel for its rounds. -/
def positionsFrom : ℕ → ℕ → List SimulatedPosition
  | 0, _ => []
  | fuel + 1, index =>
    if index < candles.length - 1 then
      if signals.getD index false then
        let position := simulatePosition settings timeframeInMinutes candles signals index
        position :: positionsFrom fuel (max (index + 1) (position.lastIndex + 1))
      else positionsFrom fuel (index + 1)
    else []

/-- The positions that the outer loop opens, one after another. -/
def simulatedPositions : List SimulatedPosition :=
  positionsFrom settings timeframeInMinutes candles signals candles.length 14

end Loop

/-! ## The ledgers -/

/-- What a ledger keeps of a closed position. -/
structure DirectTradeSimTrade where
  pnlPercent : ℚ
  bestMarketExitPnlPercent : ℚ
  drawdownTimeMin : ℚ
  exitReason : ExitReason
  volumeMultiplier : ℚ
  costExposureMultiplier : ℚ
  deriving DecidableEq

structure DirectTradeSimulationMetricsBase where
  totalTrades : ℕ
  wins : ℕ
  totalProfit : ℚ
  totalLoss : ℚ
  totalPnl : ℚ
  bestMarketExitPnl : ℚ
  totalDrawdownTimeMin : ℚ
  maxDrawdownTimeMin : ℚ
  totalVolumeMultiplier : ℚ
  totalCostExposureMultiplier : ℚ
  maxVolumeMultiplier : ℚ
  recentPositions : List DirectTradeSimTrade
  deriving DecidableEq

def createMetrics : DirectTradeSimulationMetricsBase := ⟨0, 0, 0, 0, 0, 0, 0, 0, 0, 0, 0, []⟩

structure DirectTradeSimulationMetrics where
  base : DirectTradeSimulationMetricsBase
  blockLadders : Option (List DirectTradeSimulationMetricsBase)

def simulatedCloseCostPercent (positionCostPct : ℚ) : ℚ :=
  max (15 / 100) (if 0 < positionCostPct then positionCostPct else 0)

/-- A ledger: of the base position, or of a Block count. -/
inductive Ledger
  | base
  | ladder (ladderIndex : ℕ)

/-- The legs that a ledger counts. -/
def ledgerLegs (settings : SimulationSettings) (ledger : Ledger) (entryLegs : List EntryLeg) :
    List EntryLeg :=
  match ledger with
  | .base =>
    if 0 < settings.blockCount ∧ settings.dcaProfile = none then entryLegs.take 1 else entryLegs
  | .ladder ladderIndex => entryLegs.take (ladderIndex + 2)

/-- The gross result of the legs at a price, in percent of the first fill. -/
def grossPercent (legs : List EntryLeg) (price : ℚ) : ℚ :=
  let initialPrice := (legs.headD ⟨0, 0⟩).price
  (legs.map fun leg => leg.weight * match direction with
    | .long => (price - leg.price) / initialPrice * 100
    | .short => (leg.price - price) / initialPrice * 100).sum

/-- What `record` derives from a position for a ledger. -/
def recordedTrade (settings : SimulationSettings) (ledger : Ledger)
    (position : SimulatedPosition) : DirectTradeSimTrade :=
  let legs := ledgerLegs settings ledger position.entryLegs
  let initialPrice := (legs.headD ⟨0, 0⟩).price
  let costExposureMultiplier := (legs.map fun leg => leg.weight * leg.price / initialPrice).sum
  let cost := simulatedCloseCostPercent settings.positionCostPercent * costExposureMultiplier
  { pnlPercent := grossPercent settings.direction legs position.exitPrice - cost
    bestMarketExitPnlPercent :=
      grossPercent settings.direction legs position.bestMarketExitPrice - cost
    drawdownTimeMin := position.drawdownTimeMin
    exitReason := position.exitReason
    volumeMultiplier := (legs.map (·.weight)).sum
    costExposureMultiplier := costExposureMultiplier }

def record (settings : SimulationSettings) (target : DirectTradeSimulationMetricsBase)
    (trade : DirectTradeSimTrade) : DirectTradeSimulationMetricsBase :=
  let recent := target.recentPositions ++ [trade]
  { totalTrades := target.totalTrades + 1
    wins := if 0 < trade.pnlPercent then target.wins + 1 else target.wins
    totalProfit :=
      if 0 < trade.pnlPercent then target.totalProfit + trade.pnlPercent else target.totalProfit
    totalLoss :=
      if 0 < trade.pnlPercent then target.totalLoss else target.totalLoss + |trade.pnlPercent|
    totalPnl := target.totalPnl + trade.pnlPercent
    bestMarketExitPnl := target.bestMarketExitPnl + trade.bestMarketExitPnlPercent
    totalDrawdownTimeMin := target.totalDrawdownTimeMin + trade.drawdownTimeMin
    maxDrawdownTimeMin := max target.maxDrawdownTimeMin trade.drawdownTimeMin
    totalVolumeMultiplier := target.totalVolumeMultiplier + trade.volumeMultiplier
    totalCostExposureMultiplier := target.totalCostExposureMultiplier + trade.costExposureMultiplier
    maxVolumeMultiplier := max target.maxVolumeMultiplier trade.volumeMultiplier
    recentPositions :=
      if settings.recentPositionWindow < recent.length then recent.tail else recent }

/-- The metrics of a ledger after the positions are recorded one after another. -/
def ledgerMetrics (settings : SimulationSettings) (ledger : Ledger)
    (positions : List SimulatedPosition) : DirectTradeSimulationMetricsBase :=
  (positions.map (recordedTrade settings ledger)).foldl (record settings) createMetrics

/-- The metrics that recording the positions leaves. -/
def metricsOf (settings : SimulationSettings) (positions : List SimulatedPosition) :
    DirectTradeSimulationMetrics where
  base := ledgerMetrics settings .base positions
  blockLadders := if 0 < settings.blockCount then
      some ((List.range settings.blockCount).map fun ladderIndex =>
        ledgerMetrics settings (.ladder ladderIndex) positions)
    else none

def simulateTrades (settings : SimulationSettings) (timeframeInMinutes : ℕ)
    (candles : List DirectTradeCandle) (signals : List Bool) : DirectTradeSimulationMetrics :=
  metricsOf settings (simulatedPositions settings timeframeInMinutes candles signals)

variable (settings : SimulationSettings)

lemma index_le_walk_lastIndex (minutes : ℕ)
    (candles : List DirectTradeCandle) (signals : List Bool) (index steps lastIndex : ℕ)
    (position : OpenPosition) :
    let walked := walk settings minutes candles signals index steps lastIndex position
    lastIndex ≤ walked.lastIndex ∧ walked.lastIndex ≤ lastIndex + steps := by
  induction steps generalizing lastIndex position with
  | zero => exact ⟨le_rfl, le_rfl⟩
  | succ steps ih =>
    unfold walk
    split
    · exact ⟨Nat.le_succ _, by dsimp only; omega⟩
    · rename_i next _
      obtain ⟨hlow, hhigh⟩ := ih (lastIndex + 1) next
      exact ⟨by omega, by omega⟩

/-- Every round of the outer loop moves on, so that one round for each candle is enough. -/
lemma positionsFrom_enough (minutes : ℕ)
    (candles : List DirectTradeCandle) (signals : List Bool) (extra : ℕ) {fuel index : ℕ}
    (h : candles.length ≤ index + fuel) :
    positionsFrom settings minutes candles signals (fuel + extra) index =
      positionsFrom settings minutes candles signals fuel index := by
  induction fuel generalizing index with
  | zero =>
    cases extra with
    | zero => rfl
    | succ extra =>
      have hend : ¬ index < candles.length - 1 := by omega
      exact if_neg hend
  | succ fuel ih =>
    rw [Nat.add_right_comm, positionsFrom, positionsFrom]
    dsimp only
    have hnext := ih (Nat.le_of_lt_succ (by omega : candles.length < index + 1 + fuel + 1))
    have hpast : candles.length ≤ max (index + 1)
        ((simulatePosition settings minutes candles signals index).lastIndex + 1) + fuel := by
      omega
    rw [hnext, ih hpast]

lemma totalTrades_ledgerMetrics (ledger : Ledger)
    (positions : List SimulatedPosition) :
    (ledgerMetrics settings ledger positions).totalTrades = positions.length := by
  have hfold : ∀ (trades : List DirectTradeSimTrade) (target : DirectTradeSimulationMetricsBase),
      (trades.foldl (record settings) target).totalTrades = target.totalTrades + trades.length := by
    intro trades
    induction trades with
    | nil => exact fun _ => rfl
    | cons trade trades ih =>
      intro target
      rw [List.foldl_cons, ih, List.length_cons]
      change target.totalTrades + 1 + _ = _
      omega
  unfold ledgerMetrics
  rw [hfold, List.length_map]
  exact Nat.zero_add _

/-- A bracket of one percent on both sides, held for at most an hour. -/
def bracketSettings : SimulationSettings where
  direction := .long
  takeprofit := 1
  stoploss := 1
  trailing := false
  trailingMode := .none
  trailStart := 0
  trailStop := 0
  autoTrailSensitivity := none
  exitTactic := .bracket
  maxHoldMinutes := 60
  recentPositionWindow := 12
  positionCostPercent := 1 / 10
  blockCount := 0
  blockVolumeRatio := 1
  blockIncrementSteps := 3
  dcaProfile := none

end CtsEngine.DirectTrade
