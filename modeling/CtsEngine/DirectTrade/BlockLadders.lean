import CtsEngine.DirectTrade.BlockLegs

/-!
# One pass for all Block counts

`simulateTrades` with `n` Block counts against the simulation of the base position and against the
simulations of the single counts.
-/

namespace CtsEngine.DirectTrade

open List Ladder

variable {settings : SimulationSettings} (minutes : ℕ) (candles : List DirectTradeCandle)
  (signals : List Bool)

/-- The closes that the position opened at an index offers. -/
def positionCloses (settings : SimulationSettings) (minutes : ℕ) (candles : List DirectTradeCandle)
    (signals : List Bool) (index : ℕ) : List ℚ :=
  offeredCloses settings minutes candles signals index
    (candlesToWalk settings minutes candles index) index
    (OpenPosition.start settings (candles.getD index default))

/-- The legs of the position opened at an index, for a number of Block counts. -/
def positionLegs (settings : SimulationSettings) (minutes : ℕ) (candles : List DirectTradeCandle)
    (signals : List Bool) (blockCount index : ℕ) : List EntryLeg :=
  ⟨(candles.getD index default).close, 1⟩ ::
    blockLegs settings 1 ((positionCloses settings minutes candles signals index).take blockCount)

lemma simulatePosition_withBlockCount (hdca : settings.dcaProfile = none) (blockCount index : ℕ) :
    simulatePosition (settings.withBlockCount blockCount) minutes candles signals index =
      { simulatePosition (settings.withBlockCount 0) minutes candles signals index with
        entryLegs := positionLegs settings minutes candles signals blockCount index } := by
  have hwalk : walk (settings.withBlockCount blockCount) minutes candles signals index
          (candlesToWalk (settings.withBlockCount blockCount) minutes candles index) index
          (OpenPosition.start (settings.withBlockCount blockCount)
            (candles.getD index default)) = _ :=
    walk_withLegs minutes candles signals hdca blockCount index
      (candlesToWalk settings minutes candles index) index
      (OpenPosition.start settings (candles.getD index default))
      [⟨(candles.getD index default).close, 1⟩] le_rfl
  unfold simulatePosition
  dsimp only
  rw [hwalk]
  rfl

/-- The candles at which the base simulation opens positions. -/
def openings (settings : SimulationSettings) (minutes : ℕ) (candles : List DirectTradeCandle)
    (signals : List Bool) : ℕ → ℕ → List ℕ
  | 0, _ => []
  | fuel + 1, index =>
    if index < candles.length - 1 then
      if signals.getD index false then
        index :: openings settings minutes candles signals fuel (max (index + 1)
          ((simulatePosition (settings.withBlockCount 0) minutes candles signals index).lastIndex +
            1))
      else openings settings minutes candles signals fuel (index + 1)
    else []

lemma positionsFrom_withBlockCount (hdca : settings.dcaProfile = none) (blockCount fuel index : ℕ) :
    positionsFrom (settings.withBlockCount blockCount) minutes candles signals fuel index =
      (openings settings minutes candles signals fuel index).map
        (simulatePosition (settings.withBlockCount blockCount) minutes candles signals) := by
  induction fuel generalizing index with
  | zero => rfl
  | succ fuel ih =>
    rw [positionsFrom, openings]
    by_cases hidx : index < candles.length - 1
    · rw [if_pos hidx, if_pos hidx]
      by_cases hsig : signals.getD index false = true
      · have hlast :
            (simulatePosition (settings.withBlockCount blockCount) minutes candles signals
              index).lastIndex =
            (simulatePosition (settings.withBlockCount 0) minutes candles signals
              index).lastIndex := by
          rw [simulatePosition_withBlockCount minutes candles signals hdca blockCount]
        rw [if_pos hsig, if_pos hsig, map_cons, ← ih, ← hlast]
      · rw [if_neg hsig, if_neg hsig, ih]
    · rw [if_neg hidx, if_neg hidx]
      rfl

/-! ## The ledgers -/

lemma recordedTrade_withBlockCount (m n : ℕ) (ledger : Ledger) (position : SimulatedPosition)
    {legs legs' : List EntryLeg}
    (hlegs : ledgerLegs (settings.withBlockCount m) ledger legs =
      ledgerLegs (settings.withBlockCount n) ledger legs') :
    recordedTrade (settings.withBlockCount m) ledger { position with entryLegs := legs } =
      recordedTrade (settings.withBlockCount n) ledger { position with entryLegs := legs' } := by
  unfold recordedTrade
  rw [hlegs]
  rfl

lemma ledgerMetrics_withBlockCount (hdca : settings.dcaProfile = none) {m n : ℕ} {ledger : Ledger}
    (hlegs : ∀ index, ledgerLegs (settings.withBlockCount m) ledger
          (positionLegs settings minutes candles signals m index) =
        ledgerLegs (settings.withBlockCount n) ledger
          (positionLegs settings minutes candles signals n index)) :
    ledgerMetrics (settings.withBlockCount m) ledger
        (simulatedPositions (settings.withBlockCount m) minutes candles signals) =
      ledgerMetrics (settings.withBlockCount n) ledger
        (simulatedPositions (settings.withBlockCount n) minutes candles signals) := by
  have htrade : ∀ index, recordedTrade (settings.withBlockCount m) ledger
          (simulatePosition (settings.withBlockCount m) minutes candles signals index) =
        recordedTrade (settings.withBlockCount n) ledger
          (simulatePosition (settings.withBlockCount n) minutes candles signals index) := by
    intro index
    rw [simulatePosition_withBlockCount minutes candles signals hdca m,
      simulatePosition_withBlockCount minutes candles signals hdca n]
    exact recordedTrade_withBlockCount m n ledger _ (hlegs index)
  unfold ledgerMetrics simulatedPositions
  rw [positionsFrom_withBlockCount minutes candles signals hdca,
    positionsFrom_withBlockCount minutes candles signals hdca, map_map, map_map]
  exact congrArg (List.foldl (record settings) createMetrics)
    (map_congr_left fun index _ => htrade index)

/-- Without DCA the base ledger takes the first fill alone, whatever the number of counts. -/
lemma ledgerLegs_base (hdca : settings.dcaProfile = none) (blockCount index : ℕ) :
    ledgerLegs (settings.withBlockCount blockCount) .base
        (positionLegs settings minutes candles signals blockCount index) =
      [⟨(candles.getD index default).close, 1⟩] := by
  unfold ledgerLegs
  by_cases hcnt : 0 < blockCount
  · exact if_pos ⟨hcnt, hdca⟩
  · obtain rfl : blockCount = 0 := by omega
    exact if_neg fun hboth => hcnt hboth.1

lemma ledgerLegs_ladder (blockCount index : ℕ) {k : ℕ} (hk : 1 ≤ k) :
    ledgerLegs (settings.withBlockCount blockCount) (.ladder (k - 1))
        (positionLegs settings minutes candles signals blockCount index) =
      ⟨(candles.getD index default).close, 1⟩ :: (blockLegs settings 1
        ((positionCloses settings minutes candles signals index).take blockCount)).take k := by
  have htake : k - 1 + 2 = k + 1 := by omega
  unfold ledgerLegs
  dsimp only
  rw [htake]
  rfl

/-- How a trade was closed, and how long it was in drawdown. -/
def DirectTradeSimTrade.closing (trade : DirectTradeSimTrade) : ExitReason × ℚ :=
  (trade.exitReason, trade.drawdownTimeMin)

/-- The two ledgers have the same trades, exits and drawdown times. -/
structure SameClosings (one other : DirectTradeSimulationMetricsBase) : Prop where
  totalTrades : one.totalTrades = other.totalTrades
  totalDrawdownTimeMin : one.totalDrawdownTimeMin = other.totalDrawdownTimeMin
  maxDrawdownTimeMin : one.maxDrawdownTimeMin = other.maxDrawdownTimeMin
  recentPositions : one.recentPositions.map (·.closing) = other.recentPositions.map (·.closing)

lemma SameClosings.record {one other : DirectTradeSimulationMetricsBase}
    (h : SameClosings one other) {trade trade' : DirectTradeSimTrade}
    (htrade : trade.closing = trade'.closing) :
    SameClosings (record settings one trade) (record settings other trade') := by
  have hdraw : trade.drawdownTimeMin = trade'.drawdownTimeMin := congrArg Prod.snd htrade
  have hrecen : (one.recentPositions ++ [trade]).map (·.closing) =
      (other.recentPositions ++ [trade']).map (·.closing) := by
    rw [map_append, map_append, h.recentPositions, map_singleton, map_singleton, htrade]
  have hlen := congrArg List.length hrecen
  rw [length_map, length_map] at hlen
  refine ⟨?_, ?_, ?_, ?_⟩
  · exact congrArg (· + 1) h.totalTrades
  · exact congrArg₂ (· + ·) h.totalDrawdownTimeMin hdraw
  · exact congrArg₂ max h.maxDrawdownTimeMin hdraw
  · unfold DirectTrade.record
    dsimp only
    rw [hlen]
    split
    · rw [map_tail, map_tail, hrecen]
    · exact hrecen

lemma sameClosings_ledgerMetrics (one other : Ledger) (positions : List SimulatedPosition) :
    SameClosings (ledgerMetrics settings one positions)
      (ledgerMetrics settings other positions) := by
  have hfold : ∀ left right : DirectTradeSimulationMetricsBase, SameClosings left right →
      SameClosings ((positions.map (recordedTrade settings one)).foldl (record settings) left)
        ((positions.map (recordedTrade settings other)).foldl (record settings) right) := by
    induction positions with
    | nil => exact fun left right h => h
    | cons position positions ih =>
      exact fun left right h => ih _ _ (h.record rfl)
  exact hfold _ _ ⟨rfl, rfl, rfl, rfl⟩

/-! ## One pass equals separate simulations -/

/-- The ledger of a count in the metrics of a run. -/
def DirectTradeSimulationMetrics.blockLadder (metrics : DirectTradeSimulationMetrics) (k : ℕ) :
    Option DirectTradeSimulationMetricsBase :=
  metrics.blockLadders.bind (·[k - 1]?)

/-- The position without its legs: where, when and why it was closed. -/
def SimulatedPosition.course (position : SimulatedPosition) : SimulatedPosition :=
  { position with entryLegs := [] }

/-- What the run with `n` counts shares with the base run: its metrics, and how and when every
position is closed. -/
structure SharedCourse (settings : SimulationSettings) (minutes : ℕ)
    (candles : List DirectTradeCandle) (signals : List Bool) (k n : ℕ) : Prop where
  base_eq : (simulateTrades (settings.withBlockCount n) minutes candles signals).base =
      (simulateTrades (settings.withBlockCount 0) minutes candles signals).base
  sameClosings : ∃ ladder,
      (simulateTrades (settings.withBlockCount n) minutes candles signals).blockLadder k =
        some ladder ∧
      SameClosings ladder (simulateTrades (settings.withBlockCount 0) minutes candles signals).base
  sameCourses :
    (simulatedPositions (settings.withBlockCount n) minutes candles signals).map (·.course) =
      (simulatedPositions (settings.withBlockCount 0) minutes candles signals).map (·.course)

/-- What the ledger of count `k` in the run with `n` counts shares with the run with `k` counts, and
the volume of its trades that have all their legs. -/
structure SeparateLadder (settings : SimulationSettings) (minutes : ℕ)
    (candles : List DirectTradeCandle) (signals : List Bool) (k n : ℕ) : Prop where
  ladder_eq : (simulateTrades (settings.withBlockCount n) minutes candles signals).blockLadder k =
      (simulateTrades (settings.withBlockCount k) minutes candles signals).blockLadder k
  volumeMultiplier : ∀ position ∈
      simulatedPositions (settings.withBlockCount n) minutes candles signals,
    (ledgerLegs (settings.withBlockCount n) (.ladder (k - 1)) position.entryLegs).length = k + 1 →
      (recordedTrade (settings.withBlockCount n) (.ladder (k - 1)) position).volumeMultiplier =
        calculateBlockVolumeMultiplier k settings.blockVolumeRatio settings.blockIncrementSteps

/-- One pass with `n` counts does the work of the base run and of the run with `k` counts. -/
structure OnePass (settings : SimulationSettings) (minutes : ℕ) (candles : List DirectTradeCandle)
    (signals : List Bool) (k n : ℕ) : Prop
    extends SharedCourse settings minutes candles signals k n,
      SeparateLadder settings minutes candles signals k n

lemma simulatedPositions_withBlockCount (hdca : settings.dcaProfile = none) (blockCount : ℕ) :
    simulatedPositions (settings.withBlockCount blockCount) minutes candles signals =
      (openings settings minutes candles signals candles.length 14).map
        (simulatePosition (settings.withBlockCount blockCount) minutes candles signals) :=
  positionsFrom_withBlockCount minutes candles signals hdca blockCount _ _

lemma blockLadder_simulateTrades {k n : ℕ} (hk : 1 ≤ k) (hkn : k ≤ n) :
    (simulateTrades (settings.withBlockCount n) minutes candles signals).blockLadder k =
      some (ledgerMetrics (settings.withBlockCount n) (.ladder (k - 1))
        (simulatedPositions (settings.withBlockCount n) minutes candles signals)) := by
  have hladd : (simulateTrades (settings.withBlockCount n) minutes candles signals).blockLadders =
      some ((List.range n).map fun ladderIndex =>
        ledgerMetrics (settings.withBlockCount n) (.ladder ladderIndex)
          (simulatedPositions (settings.withBlockCount n) minutes candles signals)) :=
    if_pos (hk.trans hkn)
  unfold DirectTradeSimulationMetrics.blockLadder
  rw [hladd, Option.bind_some, getElem?_map,
    getElem?_range (show k - 1 < n by omega), Option.map_some]

lemma volumeMultiplier_of_length {k n : ℕ} (hk : 1 ≤ k)
    (hkn : k ≤ n) (hcnts : Ladder.Unskipped (AddsLeg settings) k n) (index : ℕ)
    (hlen : (ledgerLegs (settings.withBlockCount n) (.ladder (k - 1))
      (positionLegs settings minutes candles signals n index)).length = k + 1) :
    ((ledgerLegs (settings.withBlockCount n) (.ladder (k - 1))
      (positionLegs settings minutes candles signals n index)).map (·.weight)).sum =
      calculateBlockVolumeMultiplier k settings.blockVolumeRatio settings.blockIncrementSteps := by
  rw [ledgerLegs_ladder minutes candles signals n index hk, take_climb hkn hcnts]
    at hlen ⊢
  set closes := (positionCloses settings minutes candles signals index).take k
  rw [length_cons, Nat.add_right_cancel_iff] at hlen
  have hclos : closes.length = k := le_antisymm (length_take_le _ _)
    (hlen.ge.trans (length_climb_le 1 closes))
  have hadds := (length_climb_eq_iff 1 closes).mp (hlen.trans hclos.symm)
  have hleg : ∀ later (close : ℚ), AddsLeg settings (later + 1) →
      (blockLeg settings (later + 1) close).weight =
        reachedMultiplier settings (later + 1) - reachedMultiplier settings later :=
    fun later close hadds => max_eq_right (lt_max_iff.mp hadds |>.resolve_left (lt_irrefl 0)).le
  have hsum := sum_climb hleg hadds
  have hreach : reachedMultiplier settings k = calculateBlockVolumeMultiplier k
      settings.blockVolumeRatio settings.blockIncrementSteps := if_neg (by omega)
  rw [hclos, Nat.zero_add k] at hsum
  rw [map_cons, sum_cons, hsum, ← hreach]
  exact add_sub_cancel (1 : ℚ) _

/-- One pass over the candles closes every position as the base run does.  The ledger of a count is
that of a simulation of this count alone, unless a count that rounding leaves without a leg comes
before a later one that adds a leg. -/
theorem simulateTrades_onePass (settings : SimulationSettings) (minutes : ℕ)
    (candles : List DirectTradeCandle) (signals : List Bool) (hdca : settings.dcaProfile = none)
    {k n : ℕ} (hk : 1 ≤ k) (hkn : k ≤ n) :
    SharedCourse settings minutes candles signals k n ∧ (Ladder.Unskipped (AddsLeg settings) k n →
        SeparateLadder settings minutes candles signals k n) := by
  constructor
  · have hbase : (simulateTrades (settings.withBlockCount n) minutes candles signals).base =
        (simulateTrades (settings.withBlockCount 0) minutes candles signals).base :=
      ledgerMetrics_withBlockCount minutes candles signals hdca fun index => by
        rw [ledgerLegs_base minutes candles signals hdca,
          ledgerLegs_base minutes candles signals hdca]
    constructor
    case base_eq => exact hbase
    case sameClosings =>
      rw [← hbase]
      exact ⟨_, blockLadder_simulateTrades minutes candles signals hk hkn,
        sameClosings_ledgerMetrics _ _ _⟩
    case sameCourses =>
      rw [simulatedPositions_withBlockCount minutes candles signals hdca,
        simulatedPositions_withBlockCount minutes candles signals hdca, map_map, map_map]
      refine map_congr_left fun index _ => ?_
      change (simulatePosition (settings.withBlockCount n) minutes candles signals index).course = _
      rw [simulatePosition_withBlockCount minutes candles signals hdca n]
      rfl
  · intro hcounts
    constructor
    case ladder_eq =>
      rw [blockLadder_simulateTrades minutes candles signals hk hkn,
        blockLadder_simulateTrades minutes candles signals hk le_rfl]
      refine congrArg some
        (ledgerMetrics_withBlockCount minutes candles signals hdca fun index => ?_)
      have hself : (blockLegs settings 1
          ((positionCloses settings minutes candles signals index).take k)).length ≤ k :=
        (length_climb_le 1 _).trans (length_take_le _ _)
      rw [ledgerLegs_ladder minutes candles signals n index hk,
        ledgerLegs_ladder minutes candles signals k index hk, take_climb hkn hcounts,
        take_of_length_le hself]
    case volumeMultiplier =>
      intro position hposition hlength
      rw [simulatedPositions_withBlockCount minutes candles signals hdca, mem_map] at hposition
      obtain ⟨index, _, rfl⟩ := hposition
      rw [simulatePosition_withBlockCount minutes candles signals hdca n] at hlength ⊢
      exact volumeMultiplier_of_length minutes candles signals hk hkn hcounts index hlength

/-- Eighteen candles at one price. -/
def levelCandles : List DirectTradeCandle :=
  (List.range 18).map fun slot => ⟨slot * 300000, 100, 100, 100, 1⟩

/-- A signal at the entry and at the two candles after it. -/
def threeSignals : List Bool := replicate 14 false ++ [true, true, true]

/-- The bracket with a Block ratio. -/
def blockSettings (blockVolumeRatio : ℚ) : SimulationSettings :=
  { bracketSettings with blockVolumeRatio }

theorem simulateTrades_onePass_levelCandles :
    OnePass (blockSettings (1 / 2)) 5 levelCandles threeSignals 1 2 :=
  have hpass := simulateTrades_onePass (blockSettings (1 / 2)) 5 levelCandles threeSignals rfl
    le_rfl one_le_two
  ⟨hpass.1, hpass.2 (unskipped_of_ratio (.inr (by decide +kernel)) 1 2)⟩

/-- With a ratio of `3 * 10 ^ (-13)` the first count is rounded away and the second adds a leg,
which the ledger of the first count takes. -/
theorem not_onePass_roundedCount :
    ¬ ∀ (settings : SimulationSettings) (minutes : ℕ) (candles : List DirectTradeCandle)
      (signals : List Bool) (k n : ℕ), settings.dcaProfile = none → 1 ≤ k → k ≤ n →
      OnePass settings minutes candles signals k n := by
  intro h
  have hone := (h (blockSettings (3 / 10 ^ 13)) 5 levelCandles threeSignals 1 2 rfl le_rfl
    one_le_two).ladder_eq
  exact absurd hone (by decide +kernel)

end CtsEngine.DirectTrade
