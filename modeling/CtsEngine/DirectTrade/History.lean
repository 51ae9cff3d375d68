import CtsEngine.DirectTrade.Simulation

/-!
# What a later candle can change in the history

The simulation of a candle set cut at a time, against the simulation of the whole set.  Everything
the position loop reads at a candle is read up to that candle, so a position that an exit or the
hold horizon has closed is the same in both; the outer loop opens the same next position after it.
A position that only the end of the data has stopped is recorded as a timeout at the last close.
-/

namespace CtsEngine.DirectTrade

open List SimulatedPosition

/-! ## Positions on longer data -/

lemma causal_autoTrailingParameters (takeprofit sensitivity : ℚ) :
    Series.Causal (autoTrailingParameters takeprofit sensitivity) :=
  (Series.causal_slice (fun index => max 1 (index - 12)) (fun index => index + 1)
    fun _ => le_rfl).map fun _ => autoTrailingOf takeprofit sensitivity

lemma causal_trailingParameters (settings : SimulationSettings) :
    Series.Causal (trailingParameters settings) := by
  intro candles rest cursor hcurso
  unfold trailingParameters
  rw [causal_autoTrailingParameters _ _ candles rest cursor hcurso]

lemma causal_marketExitSignal (direction : Direction) :
    Series.Causal (marketExitSignal direction) := by
  intro candles rest index hidx
  unfold marketExitSignal
  rw [Series.slice_append candles rest hidx.le, getD_append candles rest default _ hidx]

section Longer

variable {settings : SimulationSettings} {minutes : ℕ} {candles rest : List DirectTradeCandle}
  {signals signals' : List Bool}

lemma candleStep_append (hsigs : ∀ i < candles.length, signals'.getD i false = signals.getD i false)
    {index cursor : ℕ} (hidx : index ≤ cursor) (hcurso : cursor < candles.length)
    (position : OpenPosition) :
    candleStep settings minutes (candles ++ rest) signals' index cursor position =
      candleStep settings minutes candles signals index cursor position := by
  have htact : ∀ p, tacticExit settings (maxHoldCandles settings minutes) (candles ++ rest) index
      cursor p = tacticExit settings (maxHoldCandles settings minutes) candles index cursor p := by
    intro p
    unfold tacticExit
    rw [causal_marketExitSignal settings.direction candles rest cursor hcurso,
      getD_append candles rest default _ hcurso]
  unfold candleStep
  rw [hsigs cursor hcurso, getD_append candles rest default _ hcurso,
    getD_append candles rest default _ (hidx.trans_lt hcurso),
    causal_trailingParameters settings candles rest cursor hcurso]
  simp only [htact]

lemma walk_append (hsigs : ∀ i < candles.length, signals'.getD i false = signals.getD i false)
    {index steps lastIndex : ℕ} (hidx : index ≤ lastIndex)
    (hsteps : lastIndex + steps < candles.length) (position : OpenPosition) :
    walk settings minutes (candles ++ rest) signals' index steps lastIndex position =
      walk settings minutes candles signals index steps lastIndex position := by
  induction steps generalizing lastIndex position with
  | zero => rfl
  | succ steps ih =>
    have hstep : candleStep settings minutes (candles ++ rest) signals' index (lastIndex + 1)
        position = candleStep settings minutes candles signals index (lastIndex + 1) position :=
      candleStep_append hsigs (by omega) (by omega) position
    unfold walk
    rw [hstep]
    split
    · rfl
    · exact ih (by omega) (by omega) _

lemma walk_more {index steps lastIndex : ℕ} {position : OpenPosition} (extra : ℕ)
    (h : (walk settings minutes candles signals index steps lastIndex position).exit.isSome) :
    walk settings minutes candles signals index (steps + extra) lastIndex position =
      walk settings minutes candles signals index steps lastIndex position := by
  induction steps generalizing lastIndex position with
  | zero => cases h
  | succ steps ih =>
    rw [Nat.add_right_comm]
    unfold walk at h ⊢
    split
    · rfl
    · rename_i next hstep
      rw [hstep] at h
      exact ih h

/-- The position without its best market exit, which looks ahead by design. -/
def SimulatedPosition.causal (position : SimulatedPosition) : SimulatedPosition :=
  { position with bestMarketExitPrice := 0 }

@[simp] lemma SimulatedPosition.causal_lastIndex (position : SimulatedPosition) :
    position.causal.lastIndex = position.lastIndex := rfl

/-- Later candles leave a position that has ended as it was. -/
lemma simulatePosition_append
    (hsigs : ∀ i < candles.length, signals'.getD i false = signals.getD i false) {index : ℕ}
    (hidx : index < candles.length - 1)
    (hended : (simulatePosition settings minutes candles signals index).ended = true) :
    (simulatePosition settings minutes (candles ++ rest) signals' index).causal =
      (simulatePosition settings minutes candles signals index).causal := by
  have hent : (candles ++ rest).getD index default = candles.getD index default :=
    getD_append candles rest default _ (by omega)
  set hold := maxHoldCandles settings minutes with hhold
  set start := OpenPosition.start settings (candles.getD index default) with hst
  set walked := walk settings minutes candles signals index
    (candlesToWalk settings minutes candles index) index start with hwalke
  have hshort : candlesToWalk settings minutes candles index ≤ candles.length - 1 - index :=
    min_le_left _ _
  have hended' : walked.exit.isSome = true ∨ hold ≤ candles.length - 1 - index := by
    have hor := hended
    unfold simulatePosition at hor
    simpa only [Bool.or_eq_true, decide_eq_true_eq] using hor
  -- the longer data leave at least as many candles to walk
  have hlong : candlesToWalk settings minutes (candles ++ rest) index =
      min (candles.length + rest.length - 1 - index) hold := by
    unfold candlesToWalk
    rw [length_append]
  have hsame : walk settings minutes (candles ++ rest) signals' index
      (candlesToWalk settings minutes (candles ++ rest) index) index start = walked := by
    have hwalk : walk settings minutes (candles ++ rest) signals' index
        (candlesToWalk settings minutes candles index) index start = walked :=
      walk_append hsigs le_rfl (by omega) start
    have hle : candlesToWalk settings minutes candles index ≤
        candlesToWalk settings minutes (candles ++ rest) index := by
      rw [hlong]
      unfold candlesToWalk
      omega
    obtain ⟨extra, hextra⟩ := Nat.exists_eq_add_of_le hle
    rcases hended' with hexit | hhoriz
    · rw [hextra, walk_more extra (by rw [hwalk]; exact hexit), hwalk]
    · have heq : candlesToWalk settings minutes (candles ++ rest) index =
          candlesToWalk settings minutes candles index := by
        rw [hlong]
        unfold candlesToWalk
        omega
      rw [heq, hwalk]
  have hlast : walked.lastIndex < candles.length := by
    have hbd := (index_le_walk_lastIndex settings minutes candles signals index
      (candlesToWalk settings minutes candles index) index start).2
    rw [← hwalke] at hbd
    omega
  have hendedLong : (decide (hold ≤ (candles ++ rest).length - 1 - index) || walked.exit.isSome) =
      (decide (hold ≤ candles.length - 1 - index) || walked.exit.isSome) := by
    rcases hended' with hexit | hhoriz
    · rw [hexit, Bool.or_true, Bool.or_true]
    · have hhoriz' : hold ≤ (candles ++ rest).length - 1 - index := by
        rw [length_append]
        omega
      rw [decide_eq_true hhoriz, decide_eq_true hhoriz']
  unfold causal simulatePosition
  dsimp only
  rw [hent, hsame, getD_append candles rest default _ hlast, Bool.or_comm, hendedLong, Bool.or_comm]

/-- **The recorded positions are a prefix.** When every position of the shorter data has ended, the
longer data open the same positions first. -/
lemma simulatedPositions_append
    (hsigs : ∀ i < candles.length, signals'.getD i false = signals.getD i false)
    (hended : ∀ position ∈ simulatedPositions settings minutes candles signals,
      position.ended = true) :
    (simulatedPositions settings minutes candles signals).map causal <+:
      (simulatedPositions settings minutes (candles ++ rest) signals').map
        causal := by
  have hroun : ∀ fuel index,
      (∀ position ∈ positionsFrom settings minutes candles signals fuel index,
        position.ended = true) →
      (positionsFrom settings minutes candles signals fuel index).map causal <+:
        (positionsFrom settings minutes (candles ++ rest) signals' fuel index).map
          causal := by
    intro fuel
    induction fuel with
    | zero => exact fun _ _ => prefix_rfl
    | succ fuel ih =>
      intro index hended
      by_cases hidx : index < candles.length - 1
      · have hidx' : index < (candles ++ rest).length - 1 := by
          rw [length_append]
          omega
        unfold positionsFrom at hended ⊢
        rw [if_pos hidx] at hended ⊢
        rw [if_pos hidx', hsigs index (by omega)]
        by_cases hsig : signals.getD index false = true
        · rw [if_pos hsig] at hended ⊢
          rw [if_pos hsig]
          have hsame : (simulatePosition settings minutes (candles ++ rest) signals' index).causal =
              (simulatePosition settings minutes candles signals index).causal :=
            simulatePosition_append hsigs hidx (hended _ (mem_cons_self ..))
          have hlast := congrArg lastIndex hsame
          rw [causal_lastIndex] at hlast
          rw [map_cons, map_cons, hsame, hlast]
          refine (prefix_cons_inj _).mpr (ih _ fun position hmem => ?_)
          exact hended position (mem_cons_of_mem _ hmem)
        · rw [if_neg hsig] at hended ⊢
          rw [if_neg hsig]
          exact ih _ hended
      · -- the shorter data end here
        unfold positionsFrom
        rw [if_neg hidx]
        exact nil_prefix
  have hfuel : positionsFrom settings minutes candles signals (candles.length + rest.length) 14 =
      positionsFrom settings minutes candles signals candles.length 14 :=
    positionsFrom_enough settings minutes candles signals rest.length (Nat.le_add_left _ _)
  have hrun := hroun (candles ++ rest).length 14
  rw [length_append, hfuel] at hrun
  unfold simulatedPositions at hended ⊢
  rw [length_append]
  exact hrun hended

end Longer

/-! ## The history at a cut -/

section History

variable (cut : ℤ) (sets : CandlesByTimeframe) (entry : EntrySettings)
  (settings : SimulationSettings)

/-- The positions that an evaluation of a candle set simulates; without a composite there are
none. -/
def tradedPositions (sets : CandlesByTimeframe) (entry : EntrySettings)
    (settings : SimulationSettings) : List SimulatedPosition :=
  match buildCompositeSignals sets entry false with
  | none => []
  | some composed => simulatedPositions settings composed.minutes composed.candles composed.signals

/-- The closed trades that a ledger is given, one after another. -/
def closedTrades (sets : CandlesByTimeframe) (entry : EntrySettings)
    (settings : SimulationSettings) (ledger : Ledger) : List DirectTradeSimTrade :=
  (tradedPositions sets entry settings).map (recordedTrade settings ledger)

/-- A trade without its best market exit. -/
def DirectTradeSimTrade.causal (trade : DirectTradeSimTrade) : DirectTradeSimTrade :=
  { trade with bestMarketExitPnlPercent := 0 }

/-- The history is not rewritten: what the cut candle set gave is what the whole set gives. -/
structure HistoryKept : Prop where
  /-- Closed primary candles keep their entry signals. -/
  signals : ∀ index < (closedPrimaries cut sets entry).length,
    (entrySignals sets entry).getD index false =
      (entrySignals (upTo cut sets) entry).getD index false
  /-- The trades of every ledger are the first trades of the longer series. -/
  trades : ∀ ledger,
    (closedTrades (upTo cut sets) entry settings ledger).map DirectTradeSimTrade.causal <+:
      (closedTrades sets entry settings ledger).map DirectTradeSimTrade.causal
  /-- A position that is open at the end of the data enters no statistic. -/
  statistics : metricsOf settings (tradedPositions (upTo cut sets) entry settings) =
    metricsOf settings ((tradedPositions (upTo cut sets) entry settings).filter
      ended)

/-- No position is open at the last candle that is closed at the cut. -/
def NothingOpen : Prop :=
  ∀ position ∈ tradedPositions (upTo cut sets) entry settings, position.ended = true

end History

lemma buildCompositeSignals_isSome_of_upTo {cut : ℤ} {sets : CandlesByTimeframe}
    {entry : EntrySettings} {composed : CompositeSignals}
    (h : buildCompositeSignals (upTo cut sets) entry false = some composed) :
    ∃ composed', buildCompositeSignals sets entry false = some composed' := by
  cases hfull : buildCompositeSignals sets entry false with
  | some composed' => exact ⟨composed', rfl⟩
  | none =>
    obtain ⟨primaryFrame, hprim, -, hlong⟩ := buildCompositeSignals_eq_some h
    obtain ⟨frame, hframe, hshort⟩ := exists_short_of_none hprim hfull
    have hlen := hlong frame hframe
    rw [upTo_append_after cut sets frame, length_append] at hshort
    omega

lemma tradedPositions_upTo {cut : ℤ} {sets : CandlesByTimeframe} {entry : EntrySettings}
    {settings : SimulationSettings} (hopen : NoOpenFrame cut sets entry)
    (hended : NothingOpen cut sets entry settings) :
    (tradedPositions (upTo cut sets) entry settings).map causal <+:
      (tradedPositions sets entry settings).map causal := by
  unfold NothingOpen at hended
  cases hcut : buildCompositeSignals (upTo cut sets) entry false with
  | none =>
    unfold tradedPositions
    rw [hcut]
    exact nil_prefix
  | some composed =>
    obtain ⟨composed', hfull⟩ := buildCompositeSignals_isSome_of_upTo hcut
    obtain ⟨primaryFrame, hprim, hcomp, -⟩ := buildCompositeSignals_eq_some hcut
    obtain ⟨primaryFrame', hprim', hcomp', -⟩ := buildCompositeSignals_eq_some hfull
    obtain rfl : primaryFrame = primaryFrame' := Option.some.inj (hprim.symm.trans hprim')
    have hclos : closedPrimaries cut sets entry = composed.candles := by
      unfold closedPrimaries primaryFrame?
      rw [hprim, hcomp]
      rfl
    have hsigs : ∀ index < composed.candles.length,
        composed'.signals.getD index false = composed.signals.getD index false := by
      intro index hidx
      have hclos : index < (closedPrimaries cut sets entry).length := by rwa [hclos]
      have hkept := entrySignals_upTo hopen hclos
      unfold entrySignals at hkept
      rwa [hcut, hfull] at hkept
    have hcands : composed'.candles = composed.candles ++ after cut sets primaryFrame := by
      rw [hcomp, hcomp']
      exact upTo_append_after cut sets primaryFrame
    have hminut : composed'.minutes = composed.minutes := by rw [hcomp, hcomp']
    unfold tradedPositions at hended ⊢
    rw [hcut] at hended ⊢
    rw [hfull]
    dsimp only at hended ⊢
    rw [hcands, hminut]
    exact simulatedPositions_append hsigs hended

/-- **When the history is kept.** As long as a cut shifts no confirmed candle, the history at the
cut is kept exactly when no position is open at its last candle: signals and trades are then those
of the longer series, and otherwise the open position is recorded as if it had closed. -/
theorem historyKept_iff_nothingOpen (cut : ℤ) (sets : CandlesByTimeframe) (entry : EntrySettings)
    (settings : SimulationSettings) (hopen : NoOpenFrame cut sets entry) :
    HistoryKept cut sets entry settings ↔ NothingOpen cut sets entry settings := by
  constructor
  · intro hkept
    -- the base ledger counts as many trades as there are positions
    have htrades := congrArg (fun metrics => metrics.base.totalTrades) hkept.statistics
    have hbase : ∀ positions, (metricsOf settings positions).base.totalTrades = positions.length :=
      totalTrades_ledgerMetrics settings .base
    rw [hbase, hbase] at htrades
    exact length_filter_eq_length_iff.mp htrades.symm
  · intro hended
    refine ⟨fun index hindex => entrySignals_upTo hopen hindex, fun ledger => ?_, ?_⟩
    · have hrecorded := (tradedPositions_upTo hopen hended).map
        fun position => (recordedTrade settings ledger position).causal
      unfold closedTrades
      rw [map_map, map_map] at hrecorded ⊢
      exact hrecorded
    · rw [filter_eq_self.mpr hended]

/-! ## A breakout, cut after its entry and after its target -/

/-- The five-minute candle of a slot, flat at a price. -/
def flatCandle (slot : ℕ) (price : ℚ) : DirectTradeCandle := ⟨slot * 300000, price, price, price, 1⟩

/-- Fourteen candles at 100, the breakout to 101, one more candle there, and the rise to 103. -/
def breakoutCandles : List DirectTradeCandle :=
  (List.range 14).map (flatCandle · 100) ++
    [flatCandle 14 101, flatCandle 15 101, flatCandle 16 103]

lemma breakoutCandles_sorted : breakoutCandles.Pairwise fun a b => a.time < b.time := by
  decide +kernel

/-- The candle set of the breakout: no other frame has candles. -/
def breakoutSets : CandlesByTimeframe
  | .m5 => ⟨breakoutCandles, breakoutCandles_sorted⟩
  | _ => ⟨[], List.Pairwise.nil⟩

/-- Breakouts on the five-minute frame. -/
def breakoutEntry : EntrySettings where
  frames := [.m5]
  direction := .long
  tactic := .breakout
  entryTiming := .current
  activityVolumeRatio := 1

/-- Fourteen candles at 100, and two at 101. -/
def lateCandles (slot : ℕ → ℕ) (next : ℕ) : List DirectTradeCandle :=
  (List.range 14).map (fun i => flatCandle (slot i) 100) ++ [flatCandle next 101, flatCandle 45 101]

lemma lateCandles_sorted :
    ((lateCandles (30 + ·) 44).Pairwise fun a b => a.time < b.time) ∧
      (lateCandles (3 * ·) 42).Pairwise fun a b => a.time < b.time := by
  decide +kernel

/-- The breakout on the five-minute and on the quarter-hour frame; the last quarter of an hour has
begun with the last five minutes. -/
def lateSets : CandlesByTimeframe
  | .m5 => ⟨lateCandles (30 + ·) 44, lateCandles_sorted.1⟩
  | .m15 => ⟨lateCandles (3 * ·) 42, lateCandles_sorted.2⟩
  | .m30 => ⟨[], List.Pairwise.nil⟩

/-- The last confirmed quarter of an hour of a closed five-minute candle is another one at the
cut, where the last one is not there, and the signal of the candle is lost. -/
lemma entrySignals_rewritten_lateBreakout :
    let entry := { breakoutEntry with frames := [.m5, .m15], entryTiming := .lastConfirmed }
    (entrySignals lateSets entry).getD 15 false = true ∧
      (entrySignals (upTo (46 * 300000) lateSets) entry).getD 15 false = false := by
  decide +kernel

/-- Cut after the candle that reaches the target, the history is kept. -/
theorem historyKept_closedBreakout :
    HistoryKept (17 * 300000) breakoutSets breakoutEntry bracketSettings ∧
      (tradedPositions (upTo (17 * 300000) breakoutSets) breakoutEntry
        bracketSettings).length = 1 :=
  ⟨(historyKept_iff_nothingOpen (17 * 300000) breakoutSets breakoutEntry bracketSettings
    (.inl rfl)).mpr (by unfold NothingOpen; decide +kernel), by decide +kernel⟩

/-- Cut one candle earlier, the open position is recorded as a timeout that lost its costs; the
longer series records a target that was reached. -/
theorem not_historyKept_openBreakout :
    ¬ ∀ cut sets entry settings, HistoryKept cut sets entry settings := by
  intro h
  have hkept := (h (16 * 300000) breakoutSets breakoutEntry bracketSettings).trades .base
  exact absurd hkept (by decide +kernel)

end CtsEngine.DirectTrade
