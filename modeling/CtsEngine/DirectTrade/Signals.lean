import CtsEngine.Block.Lifecycle
import CtsEngine.Foundation.Keyed
import CtsEngine.Foundation.Series
import CtsEngine.Replay.Candles
import Mathlib.Data.List.Sort

/-!
# Entry signals of Direct-Trade

`lib/direct-trade-coordination.ts`, `entrySignal` and `buildCompositeSignals`, with
`lib/wilder-rsi.ts`.  A candle set holds one series of closed candles for each timeframe, sorted by
time as `resampleCandles` returns them.  Every frame gives each of its candles an entry signal; a
candle of the smallest frame has the composite signal when the last known candle of every frame has
one.  Which candles of a frame are known at a decision depends on the entry timing.

A candle set cut at a time keeps the candles that are closed by it.
-/

namespace CtsEngine

open List Keyed Bool Series

namespace DirectTrade

/-! ## Candles -/

inductive DirectTradeTimeframe
  | m5
  | m15
  | m30

def timeframeMinutes : DirectTradeTimeframe → ℕ
  | .m5 => 5
  | .m15 => 15
  | .m30 => 30

/-- `DirectTradeCandle`; the open is read by no decision. -/
structure DirectTradeCandle where
  time : ℤ
  high : ℚ
  low : ℚ
  close : ℚ
  volume : ℚ
  deriving Inhabited

/-- A series as `resampleCandles` returns it: one candle for a time, in the order of the times. -/
structure CandleSeries where
  candles : List DirectTradeCandle
  sorted : candles.Pairwise fun a b => a.time < b.time

/-- `Partial<Record<DirectTradeTimeframe, DirectTradeCandle[]>>`; a missing frame has no candles. -/
abbrev CandlesByTimeframe := DirectTradeTimeframe → CandleSeries

def closesAt (frame : DirectTradeTimeframe) (candle : DirectTradeCandle) : ℤ :=
  candle.time + timeframeMinutes frame * 60000

variable (cut : ℤ)

/-- The candle is closed at the time of the cut or before. -/
def closedBy (frame : DirectTradeTimeframe) (candle : DirectTradeCandle) : Bool :=
  closesAt frame candle ≤ cut

variable (candlesByTimeframe : CandlesByTimeframe)

/-- The candle set as it was at the cut. -/
def upTo : CandlesByTimeframe := fun frame =>
  ⟨(candlesByTimeframe frame).candles.filter (closedBy cut frame),
    (candlesByTimeframe frame).sorted.filter _⟩

/-- The candles that close later than the cut. -/
def after (frame : DirectTradeTimeframe) : List DirectTradeCandle :=
  (candlesByTimeframe frame).candles.filter fun candle => !closedBy cut frame candle

lemma upTo_append_after (sets : CandlesByTimeframe) (frame : DirectTradeTimeframe) :
    (sets frame).candles = (upTo cut sets frame).candles ++ after cut sets frame := by
  refine eq_filter_append_filter_not (sets frame).sorted fun a _ b _ hlt hb => ?_
  unfold closedBy closesAt at hb ⊢
  rw [decide_eq_true_eq] at hb ⊢
  omega

variable {frame primaryFrame : DirectTradeTimeframe} {sets : CandlesByTimeframe}
  {candle primary : DirectTradeCandle} {index : ℕ} {settings : EntrySettings}

lemma not_closedBy_of_mem_after {cut : ℤ} (h : candle ∈ after cut sets frame) :
    closedBy cut frame candle = false := by
  simpa using (mem_filter.mp h).2

/-! ## The signal of one frame -/

/-- The average gain and loss that Wilder's smoothing carries on. -/
structure WilderAverages where
  averageGain : ℚ
  averageLoss : ℚ

variable (closes : List ℚ)

/-- The changes between neighbouring closes. -/
def changes : List ℚ := zipWith (fun a b => b - a) closes closes.tail

/-- One step of the seed: the change counts as a gain or a loss. -/
def WilderAverages.seed (averages : WilderAverages) (change : ℚ) : WilderAverages :=
  if 0 < change then { averages with averageGain := averages.averageGain + change }
  else { averages with averageLoss := averages.averageLoss - change }

/-- One step of Wilder's smoothing. -/
def WilderAverages.smooth (period : ℕ) (averages : WilderAverages) (change : ℚ) :
    WilderAverages where
  averageGain := (averages.averageGain * (period - 1) + max 0 change) / period
  averageLoss := (averages.averageLoss * (period - 1) + max 0 (-change)) / period

/-- `value` of `wilderRsiSeries`. -/
def WilderAverages.value (averages : WilderAverages) : ℚ :=
  if averages.averageLoss = 0 then (if 0 < averages.averageGain then 100 else 50)
  else if averages.averageGain = 0 then 0
  else 100 - 100 / (1 + averages.averageGain / averages.averageLoss)

/-- `latestWilderRsi`: the last entry of `wilderRsiSeries`, or 50 when the series is too short. -/
def latestWilderRsi (periodInput : ℕ) : ℚ :=
  let period := max 2 periodInput
  if closes.length ≤ period then 50
  else
    let sums := ((changes closes).take period).foldl WilderAverages.seed ⟨0, 0⟩
    let averages : WilderAverages := ⟨sums.averageGain / period, sums.averageLoss / period⟩
    (((changes closes).drop period).foldl (WilderAverages.smooth period) averages).value

def rsi : ℚ := latestWilderRsi closes (min 14 (max 2 (closes.length - 1)))

def average (values : List ℚ) : ℚ := if values.length = 0 then 0 else values.sum / values.length

inductive DirectTradeEntryTactic
  | momentum
  | meanReversion
  | breakout
  | relative

inductive DirectTradeEntryTiming
  | current
  | lastConfirmed
  deriving DecidableEq

/-- What `evaluateDirectTradeSets` hands to `buildCompositeSignals` beside the candles. -/
structure EntrySettings where
  frames : List DirectTradeTimeframe
  direction : Direction
  tactic : DirectTradeEntryTactic
  entryTiming : DirectTradeEntryTiming
  activityVolumeRatio : ℚ

/-- `entrySignal` after the activity gate: the tactic's conditions on the fourteen candles before
the decision candle, the candle before it and the decision candle. -/
def tacticSignal (direction : Direction) (tactic : DirectTradeEntryTactic)
    (history : List DirectTradeCandle) (previous current : DirectTradeCandle) : Bool :=
  let closes := history.map (·.close)
  let recentHigh := (history.map (·.high)).max?.getD 0
  let recentLow := (history.map (·.low)).min?.getD 0
  let ema5 := average (closes.drop (closes.length - 5))
  let ema14 := average closes
  let currentRsi := rsi (closes ++ [current.close])
  let momentum :=
    if 0 < previous.close then (current.close - previous.close) / previous.close else 0
  match tactic, direction with
  | .meanReversion, .long => decide (currentRsi < 35 ∧ current.close > ema5 ∧ ema5 ≥ ema14)
  | .meanReversion, .short => decide (currentRsi > 65 ∧ current.close < ema5 ∧ ema5 ≤ ema14)
  | .breakout, .long => decide (current.close > recentHigh ∧ momentum > 0)
  | .breakout, .short => decide (current.close < recentLow ∧ momentum < 0)
  | .relative, direction =>
    let referenceMove := if 0 < ema14 then (current.close - ema14) / ema14 else 0
    let range := recentHigh - recentLow
    let rangePosition := if 0 < range then (current.close - recentLow) / range else 1 / 2
    match direction with
    | .long => decide (referenceMove > 1 / 1000 ∧ rangePosition ≥ 55 / 100 ∧ ema5 ≥ ema14 ∧
        currentRsi ≥ 45 ∧ currentRsi < 72)
    | .short => decide (referenceMove < -1 / 1000 ∧ rangePosition ≤ 45 / 100 ∧ ema5 ≤ ema14 ∧
        currentRsi ≤ 55 ∧ currentRsi > 28)
  | .momentum, .long => decide (momentum > 2 / 1000 ∧ ema5 > ema14 ∧ currentRsi < 72)
  | .momentum, .short => decide (momentum < -2 / 1000 ∧ ema5 < ema14 ∧ currentRsi > 28)

variable (liveSnapshot : Bool) (entryTiming : DirectTradeEntryTiming)

/-- The index of the candle that decides: `last_confirmed` takes the one before. -/
def effectiveIndex (index : ℕ) : ℤ :=
  match entryTiming with
  | .current => index
  | .lastConfirmed => index - 1

def entrySignal (settings : EntrySettings) (candles : List DirectTradeCandle) (index : ℕ) : Bool :=
  if effectiveIndex settings.entryTiming index < 14 then false
  else
    let effective := (effectiveIndex settings.entryTiming index).toNat
    let history := slice candles (effective - 14) effective
    let current := candles.getD effective default
    let previous := candles.getD (effective - 1) default
    let averageVolume := average (history.map (·.volume))
    let activeEnough := averageVolume ≤ 0 ∨
      current.volume ≥ averageVolume * max 0 settings.activityVolumeRatio
    if ¬ activeEnough then false
    else tacticSignal settings.direction settings.tactic history previous current

/-- A frame's signals by the time of the candle. -/
def signalMap (settings : EntrySettings) (candles : List DirectTradeCandle) : List (ℤ × Bool) :=
  (List.range candles.length).foldl (fun signals index =>
    put signals (candles.getD index default).time (entrySignal settings candles index)) []

/-- `signalByFrame.get(frame)?.get(candle.time) === true`. -/
def signalOf (settings : EntrySettings) (candles : List DirectTradeCandle)
    (candle : DirectTradeCandle) : Bool :=
  get? (signalMap settings candles) candle.time == some true

/-- The wait after the open of a candle before its final values are used. -/
def closeDelay (frame : DirectTradeTimeframe) : ℤ :=
  if liveSnapshot = false ∧ entryTiming = .current then timeframeMinutes frame * 60000 else 0

/-- The condition under which a frame's cursor reads on at the decision of a primary candle. -/
def known (settings : EntrySettings) (primaryFrame : DirectTradeTimeframe)
    (frame : DirectTradeTimeframe) (primary candle : DirectTradeCandle) : Bool :=
  let decisionAt := closesAt primaryFrame primary
  decide (candle.time ≤ primary.time) &&
    decide (candle.time + closeDelay liveSnapshot settings.entryTiming frame ≤ decisionAt)

/-- What `buildCompositeSignals` returns. -/
structure CompositeSignals where
  candles : List DirectTradeCandle
  signals : List Bool
  minutes : ℕ

def minimumSignalCandles : ℕ := 15

/-- The frames from the smallest to the largest. -/
def orderedFrames (frames : List DirectTradeTimeframe) : List DirectTradeTimeframe :=
  frames.insertionSort fun left right => timeframeMinutes left ≤ timeframeMinutes right

/-- `buildCompositeSignals`.  Every frame has its own cursor and the last signal it has read. -/
def buildCompositeSignals (settings : EntrySettings) (liveSnapshot : Bool) :
    Option CompositeSignals :=
  let ordered := orderedFrames settings.frames
  match ordered with
  | [] => none
  | primaryFrame :: _ =>
    if ordered.any fun frame =>
        (candlesByTimeframe frame).candles.length < minimumSignalCandles then
      none
    else
      let primary := (candlesByTimeframe primaryFrame).candles
      some {
        candles := primary
        signals := scan (known liveSnapshot settings primaryFrame)
          (fun frame => signalOf settings (candlesByTimeframe frame).candles)
          (fun lastSignals => ordered.all fun frame => lastSignals frame == some true)
          (fun frame => ⟨(candlesByTimeframe frame).candles, none⟩) primary
        minutes := timeframeMinutes primaryFrame }

/-! ## What the signals read -/

lemma effectiveIndex_le (index : ℕ) : effectiveIndex entryTiming index ≤ index := by
  cases entryTiming <;> unfold effectiveIndex <;> dsimp only <;> omega

variable (settings)

lemma causal_entrySignal : Series.Causal (entrySignal settings) := by
  intro candles rest index hidx
  have hle := effectiveIndex_le settings.entryTiming index
  unfold entrySignal
  by_cases hearly : effectiveIndex settings.entryTiming index < 14
  · rw [if_pos hearly, if_pos hearly]
  · have heffec : (effectiveIndex settings.entryTiming index).toNat < candles.length := by omega
    dsimp only
    rw [slice_append candles rest heffec.le, getD_append candles rest default _ heffec,
      getD_append candles rest default _ (by omega)]

lemma CandleSeries.time_lt (series : CandleSeries) {i j : ℕ} (hij : i < j)
    (hj : j < series.candles.length) :
    (series.candles.getD i default).time < (series.candles.getD j default).time := by
  have hlt := pairwise_iff_getElem.mp series.sorted i j (hij.trans hj) hj hij
  rwa [getD_eq_getElem _ _ (hij.trans hj), getD_eq_getElem _ _ hj]

lemma signalOf_getD (series : CandleSeries)
    (h : index < series.candles.length) :
    signalOf settings series.candles (series.candles.getD index default) =
      entrySignal settings series.candles index := by
  have hget : get? (signalMap settings series.candles)
      (series.candles.getD index default).time =
        some (entrySignal settings series.candles index) := by
    have hmap : signalMap settings series.candles =
        ((List.range series.candles.length).map fun i => ((series.candles.getD i default).time,
          entrySignal settings series.candles i)).foldl
            (fun signals entry => put signals entry.1 entry.2) [] := by
      rw [foldl_map]
      rfl
    have hmem : ((series.candles.getD index default).time,
        entrySignal settings series.candles index) ∈
        (List.range series.candles.length).map fun i => ((series.candles.getD i default).time,
          entrySignal settings series.candles i) :=
      mem_map.mpr ⟨index, mem_range.mpr h, rfl⟩
    rw [hmap]
    refine get?_foldl_put_of_agree hmem (fun entry hent hkey => ?_) []
    obtain ⟨i, hi, rfl⟩ := mem_map.mp hent
    -- two candles of a series have different times
    rcases Nat.lt_trichotomy i index with hlt | rfl | hlt
    · exact absurd hkey (series.time_lt hlt h).ne
    · rfl
    · exact absurd hkey (series.time_lt hlt (mem_range.mp hi)).ne'
  unfold signalOf
  rw [hget]
  cases entrySignal settings series.candles index <;> rfl

lemma exists_getD_of_mem {candles : List DirectTradeCandle} (h : candle ∈ candles) :
    ∃ index < candles.length, candles.getD index default = candle := by
  obtain ⟨index, hidx, rfl⟩ := mem_iff_getElem.mp h
  exact ⟨index, hidx, getD_eq_getElem _ _ hidx⟩

lemma signalOf_upTo (cut : ℤ) (sets : CandlesByTimeframe)
    (frame : DirectTradeTimeframe) (h : candle ∈ (upTo cut sets frame).candles) :
    signalOf settings (sets frame).candles candle =
      signalOf settings (upTo cut sets frame).candles candle := by
  obtain ⟨index, hidx, rfl⟩ := exists_getD_of_mem h
  have hlen : index < (sets frame).candles.length := by
    rw [upTo_append_after cut sets frame, length_append]
    omega
  have hcand : (upTo cut sets frame).candles.getD index default =
      (sets frame).candles.getD index default := by
    rw [upTo_append_after cut sets frame]
    exact (getD_append _ _ _ _ hidx).symm
  rw [signalOf_getD settings _ hidx, hcand, signalOf_getD settings _ hlen,
    upTo_append_after cut sets frame]
  exact causal_entrySignal settings _ _ index hidx

variable {settings}

/-- The composite signal of a primary candle, read from the whole series of every frame. -/
def compositeAt (sets : CandlesByTimeframe) (settings : EntrySettings) (liveSnapshot : Bool)
    (primaryFrame : DirectTradeTimeframe) (primary : DirectTradeCandle) : Bool :=
  (orderedFrames settings.frames).all fun frame =>
    lastKnown (known liveSnapshot settings primaryFrame frame primary)
      (signalOf settings (sets frame).candles) (sets frame).candles == some true

lemma compositeAt_iff (sets : CandlesByTimeframe) (settings : EntrySettings) (liveSnapshot : Bool)
    (primaryFrame : DirectTradeTimeframe) (primary : DirectTradeCandle) :
    compositeAt sets settings liveSnapshot primaryFrame primary = true ↔
      ∀ frame ∈ orderedFrames settings.frames,
        lastKnown (known liveSnapshot settings primaryFrame frame primary)
          (signalOf settings (sets frame).candles) (sets frame).candles = some true := by
  unfold compositeAt
  rw [all_eq_true]
  exact forall₂_congr fun frame _ => beq_iff_eq

lemma known_grows (settings : EntrySettings) (primaryFrame : DirectTradeTimeframe)
    (series : CandleSeries) :
    Series.Grows (known liveSnapshot settings primaryFrame) series.candles := by
  refine series.sorted.imp fun {p q} hlt frame candle hknown => ?_
  unfold known closesAt at hknown ⊢
  simp only [and_eq_true, decide_eq_true_eq] at hknown ⊢
  omega

/-- **The signals are the composite signals of the primary candles.** -/
lemma buildCompositeSignals_eq_some {liveSnapshot : Bool} {composed : CompositeSignals}
    (h : buildCompositeSignals sets settings liveSnapshot = some composed) :
    ∃ primaryFrame, (orderedFrames settings.frames).head? = some primaryFrame ∧
      composed = ⟨(sets primaryFrame).candles,
        (sets primaryFrame).candles.map (compositeAt sets settings liveSnapshot primaryFrame),
        timeframeMinutes primaryFrame⟩ ∧
      ∀ frame ∈ orderedFrames settings.frames,
        minimumSignalCandles ≤ (sets frame).candles.length := by
  unfold buildCompositeSignals at h
  cases hord : orderedFrames settings.frames with
  | nil => rw [hord] at h; cases h
  | cons primaryFrame others =>
    rw [hord] at h
    obtain ⟨hlong, hcomp⟩ := Option.ite_none_left_eq_some.mp h
    refine ⟨primaryFrame, rfl, ?_, fun frame hframe => ?_⟩
    · rw [← Option.some.inj hcomp,
        scan_eq_map _ _ (known_grows liveSnapshot settings primaryFrame (sets primaryFrame))]
      unfold compositeAt
      rw [hord]
    · by_contra hshort
      exact hlong (any_eq_true.mpr ⟨frame, hframe, decide_eq_true (not_le.mp hshort)⟩)

lemma exists_short_of_none {liveSnapshot : Bool}
    (hprim : (orderedFrames settings.frames).head? = some primaryFrame)
    (h : buildCompositeSignals sets settings liveSnapshot = none) :
    ∃ frame ∈ orderedFrames settings.frames,
      (sets frame).candles.length < minimumSignalCandles := by
  unfold buildCompositeSignals at h
  cases hord : orderedFrames settings.frames with
  | nil => rw [hord] at hprim; cases hprim
  | cons first others =>
    rw [hord] at h
    by_contra hnone
    push Not at hnone
    have hlong : ¬ (first :: others).any
        (fun frame => (sets frame).candles.length < minimumSignalCandles) = true := by
      rw [any_eq_true]
      rintro ⟨frame, hframe, hlt⟩
      exact absurd (of_decide_eq_true hlt) (not_lt.mpr (hnone frame hframe))
    exact Option.some_ne_none _ ((if_neg hlong).symm.trans h)

/-- There is no signal while the candles of a frame that have begun decide by one of its first
fourteen. -/
lemma compositeAt_of_early (hframe : frame ∈ orderedFrames settings.frames)
    (hearly : ∀ index < (sets frame).candles.length,
      ((sets frame).candles.getD index default).time ≤ primary.time →
        effectiveIndex settings.entryTiming index < 14) (liveSnapshot : Bool)
    (primaryFrame : DirectTradeTimeframe) :
    compositeAt sets settings liveSnapshot primaryFrame primary = false := by
  refine eq_false_iff.mpr fun htrue => ?_
  have hlast := (compositeAt_iff ..).mp htrue frame hframe
  obtain ⟨candle, hmem, hknown, hsig⟩ := exists_of_lastKnown hlast
  obtain ⟨index, hidx, rfl⟩ := exists_getD_of_mem hmem
  unfold known at hknown
  rw [and_eq_true, decide_eq_true_eq] at hknown
  have hnone : entrySignal settings (sets frame).candles index = false :=
    if_pos (hearly index hidx hknown.1)
  rw [signalOf_getD settings _ hidx, hnone] at hsig
  cases hsig

/-- No candle of the frame behind the first fifteen has begun at a primary candle. -/
def FewBegun (sets : CandlesByTimeframe) (frame : DirectTradeTimeframe)
    (primary : DirectTradeCandle) : Prop :=
  ∀ candle ∈ (sets frame).candles.drop minimumSignalCandles, primary.time < candle.time

/-- The candle before the last one that has begun is then too early for a signal. -/
lemma compositeAt_of_fewBegun (htime : settings.entryTiming = .lastConfirmed)
    (hframe : frame ∈ orderedFrames settings.frames) (hfew : FewBegun sets frame primary)
    (liveSnapshot : Bool) (primaryFrame : DirectTradeTimeframe) :
    compositeAt sets settings liveSnapshot primaryFrame primary = false := by
  refine compositeAt_of_early hframe (fun index hidx hbegun => ?_) liveSnapshot primaryFrame
  rw [htime, effectiveIndex]
  by_contra hlate
  have hback : minimumSignalCandles ≤ index := by
    unfold minimumSignalCandles
    omega
  rw [getD_eq_getElem _ _ hidx] at hbegun
  exact absurd hbegun (not_le.mpr (hfew _ (mem_drop_iff_getElem.mpr
    ⟨index - minimumSignalCandles, by omega, by congr 1; omega⟩)))

/-- A candle set that is cut has not more candles that have begun. -/
lemma FewBegun.upTo (h : FewBegun sets frame primary) : FewBegun (upTo cut sets) frame primary := by
  unfold FewBegun at h
  rw [upTo_append_after cut sets frame, drop_append] at h
  exact fun candle hmem => h candle (mem_append_left _ hmem)

/-- The entry signals on a candle set; without a composite there are none. -/
def entrySignals (sets : CandlesByTimeframe) (settings : EntrySettings) : List Bool :=
  ((buildCompositeSignals sets settings false).map CompositeSignals.signals).getD []

/-- The frame whose candles are traded. -/
def primaryFrame? (settings : EntrySettings) : Option DirectTradeTimeframe :=
  (orderedFrames settings.frames).head?

/-- The primary candles that are closed at the cut. -/
def closedPrimaries (sets : CandlesByTimeframe) (settings : EntrySettings) :
    List DirectTradeCandle :=
  (primaryFrame? settings).elim [] fun frame => (upTo cut sets frame).candles

lemma entrySignals_getD (hprim : primaryFrame? settings = some primaryFrame)
    (sets : CandlesByTimeframe) (hidx : index < (sets primaryFrame).candles.length) :
    (entrySignals sets settings).getD index false = compositeAt sets settings false primaryFrame
        ((sets primaryFrame).candles.getD index default) := by
  unfold entrySignals
  cases hcomp : buildCompositeSignals sets settings false with
  | some composed =>
    obtain ⟨frame, hframe, rfl, -⟩ := buildCompositeSignals_eq_some hcomp
    obtain rfl : frame = primaryFrame := Option.some.inj (hframe.symm.trans hprim)
    rw [Option.map_some, Option.getD_some, getD_eq_getElem _ _ (by simpa using hidx),
      getElem_map, getD_eq_getElem _ _ hidx]
  | none =>
    obtain ⟨frame, hframe, hshort⟩ := exists_short_of_none hprim hcomp
    unfold minimumSignalCandles at hshort
    rw [compositeAt_of_early hframe fun index hlen _ =>
      (effectiveIndex_le _ index).trans_lt (by omega)]
    rfl

/-- No candle that has begun at a primary candle is open at the cut. -/
def BegunClosed (sets : CandlesByTimeframe) (settings : EntrySettings)
    (primary : DirectTradeCandle) : Prop :=
  ∀ frame ∈ settings.frames, ∀ candle ∈ (sets frame).candles, candle.time ≤ primary.time →
    closedBy cut frame candle = true

/-- Signals of the current candle; or else, at each primary candle that is closed at the cut, no
candle has begun that is open at the cut, or a frame is too young for a confirmed signal: the
condition under which a cut shifts no confirmed candle. -/
def NoOpenFrame (sets : CandlesByTimeframe) (settings : EntrySettings) : Prop :=
  settings.entryTiming = .current ∨ ∀ primary ∈ closedPrimaries cut sets settings,
      BegunClosed cut sets settings primary ∨ ∃ frame ∈ settings.frames, FewBegun sets frame primary

section

variable {cut : ℤ} (hopen : settings.entryTiming = .current ∨ BegunClosed cut sets settings primary)
  (hclos : primary ∈ (upTo cut sets primaryFrame).candles)

include hopen hclos

/-- What a closed primary candle knows is closed. -/
lemma closedBy_of_known (hframe : frame ∈ settings.frames)
    (hcand : candle ∈ (sets frame).candles)
    (hknown : known false settings primaryFrame frame primary candle = true) :
    closedBy cut frame candle = true := by
  unfold known at hknown
  rw [and_eq_true, decide_eq_true_eq, decide_eq_true_eq] at hknown
  rcases hopen with hcur | hopen
  · have hend : closedBy cut primaryFrame primary = true := (mem_filter.mp hclos).2
    unfold closedBy closesAt at hend ⊢
    rw [decide_eq_true_eq] at hend ⊢
    have hdelay : closeDelay false settings.entryTiming frame = timeframeMinutes frame * 60000 :=
      if_pos ⟨rfl, hcur⟩
    rw [hdelay] at hknown
    exact hknown.2.trans hend
  · exact hopen frame hframe candle hcand hknown.1

/-- The cut keeps the signal of a primary candle that knows no open candle. -/
lemma compositeAt_of_begunClosed : compositeAt sets settings false primaryFrame primary =
      compositeAt (upTo cut sets) settings false primaryFrame primary := by
  refine eq_iff_iff.mpr ?_
  rw [compositeAt_iff, compositeAt_iff]
  refine forall₂_congr fun frame hframe => ?_
  have hmem : frame ∈ settings.frames := (perm_insertionSort ..).mem_iff.mp hframe
  have hunkn : ∀ candle ∈ after cut sets frame,
      ¬ known false settings primaryFrame frame primary candle = true := by
    intro candle hafter hknown
    have hcand : candle ∈ (sets frame).candles := mem_of_mem_filter hafter
    have hend := closedBy_of_known hopen hclos hmem hcand hknown
    rw [not_closedBy_of_mem_after hafter] at hend
    cases hend
  have hkept : lastKnown (known false settings primaryFrame frame primary)
      (signalOf settings (sets frame).candles) (sets frame).candles =
        lastKnown (known false settings primaryFrame frame primary)
          (signalOf settings (sets frame).candles) (upTo cut sets frame).candles := by
    conv_lhs => rw [upTo_append_after cut sets frame]
    rw [lastKnown_append hunkn, ← upTo_append_after]
  rw [hkept, lastKnown_congr fun candle hcand =>
    signalOf_upTo settings cut sets frame hcand]

end

/-- The cut keeps the signals of the primary candles. -/
lemma compositeAt_upTo {cut : ℤ} (hopen : NoOpenFrame cut sets settings)
    (hprim : primaryFrame? settings = some primaryFrame)
    (hclos : primary ∈ (upTo cut sets primaryFrame).candles) :
    compositeAt sets settings false primaryFrame primary =
      compositeAt (upTo cut sets) settings false primaryFrame primary := by
  cases htime : settings.entryTiming with
  | current => exact compositeAt_of_begunClosed (.inl htime) hclos
  | lastConfirmed =>
    have hmem : primary ∈ closedPrimaries cut sets settings := by
      unfold closedPrimaries
      rwa [hprim]
    rcases hopen.resolve_left (by simp [htime]) primary hmem with hbegun | ⟨frame, hframe, hfew⟩
    · exact compositeAt_of_begunClosed (.inr hbegun) hclos
    · have hord : frame ∈ orderedFrames settings.frames :=
        (perm_insertionSort ..).mem_iff.mpr hframe
      rw [compositeAt_of_fewBegun htime hord hfew,
        compositeAt_of_fewBegun htime hord (hfew.upTo cut)]

/-- **Signals are not rewritten.** Every primary candle that is closed at the cut has the entry
signal that it had at the cut. -/
lemma entrySignals_upTo {cut : ℤ} (hopen : NoOpenFrame cut sets settings)
    (hidx : index < (closedPrimaries cut sets settings).length) :
    (entrySignals sets settings).getD index false =
      (entrySignals (upTo cut sets) settings).getD index false := by
  cases hprim : primaryFrame? settings with
  | none =>
    unfold closedPrimaries at hidx
    rw [hprim] at hidx
    exact absurd hidx (Nat.not_lt_zero index)
  | some primaryFrame =>
    unfold closedPrimaries at hidx
    rw [hprim] at hidx
    have hlen : index < (sets primaryFrame).candles.length := by
      rw [upTo_append_after cut sets primaryFrame, length_append]
      exact Nat.lt_add_right _ hidx
    have hcand : (sets primaryFrame).candles.getD index default =
        (upTo cut sets primaryFrame).candles.getD index default := by
      rw [upTo_append_after cut sets primaryFrame]
      exact getD_append _ _ _ _ hidx
    have hclos : (upTo cut sets primaryFrame).candles.getD index default ∈
        (upTo cut sets primaryFrame).candles := by
      have hin : index < (upTo cut sets primaryFrame).candles.length := hidx
      rw [getD_eq_getElem _ _ hin]
      exact getElem_mem hin
    rw [entrySignals_getD hprim sets hlen, entrySignals_getD hprim (upTo cut sets) hidx,
      hcand, compositeAt_upTo hopen hprim hclos]

end DirectTrade

end CtsEngine
