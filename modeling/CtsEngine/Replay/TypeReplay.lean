import CtsEngine.Block.Lifecycle
import CtsEngine.Foundation.Keyed
import CtsEngine.Replay.Candles
import Mathlib.Data.List.Sort

/-!
# The replay of the direct indication types

`lib/trade-engine/prehistoric-type-replay.ts`: `replayDirectIndicationTypes` normalises the bars,
resumes the stored open positions and walks the complete bars.  Each bar first closes the positions
that reach a level, then, with ninety minutes of complete history, opens a position for every
indication row whose key is free.

The indication rules, the step indicators and the protection are functions of other files or of the
caller; they are parameters (`ReplayCode`, `TypeReplayInput`).  Cancelling and yielding have no
effect on the result and are left out.
-/

open List Keyed

namespace CtsEngine

/-! ## Bars as they come -/

/-- A present field of a raw bar, as `Number` and `Date.parse` read it; `none` is `NaN`. -/
structure RawValue where
  number : Option ℚ := none
  date : Option ℚ := none

/-- A raw bar under the names that `normalizeBars` accepts; an absent field is `none`. -/
structure RawBar where
  timestamp : Option RawValue := none
  time : Option RawValue := none
  t : Option RawValue := none
  openPrice : Option RawValue := none
  o : Option RawValue := none
  high : Option RawValue := none
  h : Option RawValue := none
  low : Option RawValue := none
  l : Option RawValue := none
  close : Option RawValue := none
  c : Option RawValue := none
  price : Option RawValue := none
  volume : Option RawValue := none
  v : Option RawValue := none

/-- `Number(value)` of a field; an absent one reads as `NaN`. -/
def numberOf (value : Option RawValue) : Option ℚ := value.bind RawValue.number

/-- `timestampMs`: positive numbers below `10 ^ 10` are seconds. -/
def timestampMs (value : Option RawValue) : Option ℚ :=
  match numberOf value with
  | some n =>
    if 0 < n then some (if n < 10000000000 then n * 1000 else n) else value.bind RawValue.date
  | none => value.bind RawValue.date

namespace RawBar

variable (bar : RawBar)

def timestampMs : Option ℚ := CtsEngine.timestampMs (bar.timestamp <|> bar.time <|> bar.t)

def closePrice : Option ℚ := numberOf (bar.close <|> bar.c <|> bar.price)

/-- The candle of a valid bar, aligned to its minute. -/
def candle : Option ReplayCandle :=
  match bar.timestampMs, bar.closePrice with
  | some timestamp, some close =>
    if 0 < close then
      let opened := positiveOr (numberOf (bar.openPrice <|> bar.o)) close
      let high := positiveOr (numberOf (bar.high <|> bar.h)) close
      let low := positiveOr (numberOf (bar.low <|> bar.l)) close
      some
        { timestamp := ⌊timestamp / minuteMs⌋ * minuteMs
          openPrice := opened
          high := max (max high opened) close
          low := min (min low opened) close
          close := close
          volume := (numberOf (bar.volume <|> bar.v)).getD 0 }
    else none
  | _, _ => none

end RawBar

/-- `byMinute` of `normalizeBars`: a repeated minute keeps its last bar. -/
def byMinute (raw : List RawBar) : List (ℤ × ReplayCandle) :=
  raw.foldl (fun minutes bar => match bar.candle with
    | some candle => put minutes candle.timestamp candle
    | none => minutes) []

def normalizeBars (raw : List RawBar) : List ReplayCandle :=
  ((byMinute raw).map Prod.snd).insertionSort fun left right => left.timestamp ≤ right.timestamp

structure TypeReplayOpenPosition where
  key : String
  type : String
  direction : Direction
  rule : String
  entryTime : ℚ
  entryPrice : ℚ
  takeProfitPct : ℚ
  stopLossPct : ℚ
  deriving DecidableEq

structure StoredOpenPosition where
  type : Option String
  direction : Option String
  rule : Option String
  entryTime : Option ℚ
  entryPrice : Option ℚ
  takeProfitPct : Option ℚ
  stopLossPct : Option ℚ

/-- The stored form of an open position. -/
def TypeReplayOpenPosition.stored (position : TypeReplayOpenPosition) : StoredOpenPosition where
  type := position.type
  direction := position.direction.toString
  rule := position.rule
  entryTime := position.entryTime
  entryPrice := position.entryPrice
  takeProfitPct := position.takeProfitPct
  stopLossPct := position.stopLossPct

def replayKey (type : String) (direction : Direction) (rule : String) : String :=
  type ++ "|" ++ direction.toString ++ "|" ++ rule

/-- `value?.direction` when it is one of the two. -/
def storedDirection (direction : Option String) : Option Direction :=
  if direction = some "long" then some .long
  else if direction = some "short" then some .short
  else none

def normalizeOpenPosition (value : StoredOpenPosition) : Option TypeReplayOpenPosition :=
  let type := strOrEmpty value.type
  let rule := strOrEmpty value.rule
  match storedDirection value.direction, value.entryTime, value.entryPrice, value.takeProfitPct,
    value.stopLossPct with
  | some direction, some entryTime, some entryPrice, some takeProfitPct, some stopLossPct =>
    if type ≠ "" ∧ rule ≠ "" ∧ 0 < entryTime ∧ 0 < entryPrice ∧ 0 < takeProfitPct ∧
        0 < stopLossPct then
      some ⟨replayKey type direction rule, type, direction, rule, entryTime, entryPrice,
        takeProfitPct, stopLossPct⟩
    else none
  | _, _, _, _, _ => none

/-- What the replay reads of an indication row. -/
structure IndicationRow where
  type : String
  validated : Option Bool := none
  profitFactor : Option ℚ := none
  profit_factor : Option ℚ := none
  direction : Option String := none
  metadataDirection : Option String := none
  combined : Bool := false
  timeframeMinutes : Option ℕ := none
  timeframe : Option ℕ := none
  mode : Option String := none

/-- `MAIN_TRADE_BASE_PF_RATIO_MIN`. -/
def mainTradeBasePfRatioMin : ℚ := 8 / 10

/-- `ENGINE_STAGE_HISTORY_MINUTES`. -/
def engineStageHistoryMinutes : ℕ := 90

variable (row : IndicationRow)

def rowDirection : Option Direction :=
  Direction.ofString ((row.metadataDirection <|> row.direction).getD "")

def rowRule : String :=
  if row.type = "trend" then
    if row.combined then "combined"
    else "tf" ++ toString ((row.timeframeMinutes <|> row.timeframe).getD 0)
  else (strOr row.mode none).getD "default"

def passesStrategyValidity : Bool :=
  match row.validated with
  | some validated => validated
  | none =>
    match row.profitFactor <|> row.profit_factor with
    | some pf => decide (pf = 0 ∨ mainTradeBasePfRatioMin ≤ pf)
    | none => true

/-! ## The input -/

structure ReplayProtection where
  takeProfitPct : ℚ
  stopLossPct : ℚ

/-- What `computeDirectIndications` is given. -/
structure DirectInput (Settings Summaries : Type) where
  symbol : String
  candles : List ReplayCandle
  pricesOldestFirst : List ℚ
  positionCostPct : ℚ
  indicationSettings : Settings
  stepIndicators : Summaries
  coordinatedTimeframes : List ℤ
  current : ReplayCandle
  now : ℤ

/-- The functions of other files that the replay calls. -/
structure ReplayCode (Settings Summaries : Type) where
  /-- `settings.autoEnabled !== false` -/
  autoEnabled : Settings → Bool
  /-- The coordinated timeframes of the settings, in whole minutes. -/
  coordinatedTimeframes : Settings → List ℤ
  /-- `commonMultiRangeCoordinationFor(…).passed` -/
  coordinationPassed : List ℚ → ℚ → Settings → Bool
  computeDirectIndications : DirectInput Settings Summaries →
    List IndicationRow × List IndicationRow
  simulatedCloseCostPercent : ℚ → ℚ
  commonWindowStartMs : ℤ → ℤ
  /-- The empty summaries `{}`. -/
  noSummaries : Summaries

structure TypeReplayInput (Settings Summaries : Type) where
  symbol : String
  bars : List RawBar
  rangeStartMs : Option ℚ
  rangeEndMs : Option ℚ
  positionCostPct : Option ℚ
  indicationSettings : Settings
  protectionFor : String → ℚ → IndicationRow → ReplayProtection
  stepIndicatorsFor : Option (List ReplayCandle → List ℤ → Summaries)
  stepIndicatorSeries : Option (List ReplayCandle → List ℤ → ℕ → Summaries)
  maxHoldMs : Option ℚ := none
  initialOpen : List StoredOpenPosition := []
  resumeAfterMs : Option ℚ := none

inductive ReplayCloseReason
  | takeProfit
  | stopLoss
  | maxHold
  deriving DecidableEq

structure TypeReplayClose where
  type : String
  direction : Direction
  rule : String
  entryTime : ℚ
  exitTime : ℚ
  entryPrice : ℚ
  exitPrice : ℚ
  takeProfitPct : ℚ
  stopLossPct : ℚ
  grossPct : ℚ
  netPct : ℚ
  positionCostPct : ℚ
  holdMinutes : ℚ
  reason : ReplayCloseReason
  deriving DecidableEq

structure TypeReplayResult where
  closes : List TypeReplayClose
  steps : ℕ
  stepIndicatorCalls : ℕ
  signals : List (String × ℕ)
  openAtEnd : ℕ
  opened : List TypeReplayOpenPosition
  lastBarMs : Option ℤ

/-- The variables of the replay. -/
structure ReplayRun where
  opened : List (String × TypeReplayOpenPosition)
  closes : List TypeReplayClose := []
  steps : ℕ := 0
  stepIndicatorCalls : ℕ := 0
  signals : List (String × ℕ) := []
  lastBarMs : Option ℤ := none

def ReplayRun.finish (run : ReplayRun) : TypeReplayResult where
  closes := run.closes
  steps := run.steps
  stepIndicatorCalls := run.stepIndicatorCalls
  signals := run.signals
  openAtEnd := run.opened.length
  opened := run.opened.map Prod.snd
  lastBarMs := run.lastBarMs

section Replay

variable {Settings Summaries : Type} (code : ReplayCode Settings Summaries)
  (input : TypeReplayInput Settings Summaries)

namespace TypeReplayInput

def holdMs : ℚ := max minuteMs (numOrConst input.maxHoldMs (4 * 60 * 60 * 1000))

def costPct : ℚ := positiveOr input.positionCostPct (1 / 10)

def startMs (bars : List ReplayCandle) : ℚ :=
  numOrConst input.rangeStartMs ((bars.head?.map (·.timestamp)).getD 0)

def endMs (bars : List ReplayCandle) : ℚ := numOrConst input.rangeEndMs (lastClose bars)

/-- A bar that a previous call processed. -/
def isHistory (bar : ReplayCandle) : Bool :=
  match numOr input.resumeAfterMs none with
  | some resumeAfterMs => decide ((bar.timestamp : ℚ) ≤ resumeAfterMs)
  | none => false

end TypeReplayInput

/-! ## One bar -/

/-- The exit of a position on a bar: its time, price and reason. -/
def replayExit (bar : ReplayCandle) (position : TypeReplayOpenPosition) :
    Option (ℚ × ℚ × ReplayCloseReason) :=
  let long := decide (position.direction = .long)
  let stopPrice := levelAt position.entryPrice long (-1) position.stopLossPct
  let targetPrice := levelAt position.entryPrice long 1 position.takeProfitPct
  if (bar.timestamp : ℚ) < position.entryTime then none
  else if stopHit long bar.openPrice stopPrice then some (bar.timestamp, bar.openPrice, .stopLoss)
  else if targetHit false long bar.openPrice targetPrice then
    some (bar.timestamp, bar.openPrice, .takeProfit)
  else if stopHit long (bar.worst long) stopPrice then some (bar.barEnd, stopPrice, .stopLoss)
  else if targetHit false long (bar.best long) targetPrice then
    some (bar.barEnd, targetPrice, .takeProfit)
  else if input.holdMs ≤ bar.barEnd - position.entryTime then
    some (bar.barEnd, bar.close, .maxHold)
  else none

/-- The close that `settle` books. -/
def replayClose (position : TypeReplayOpenPosition) (exitTime exitPrice : ℚ)
    (reason : ReplayCloseReason) : TypeReplayClose :=
  let grossPct := (exitPrice - position.entryPrice) / position.entryPrice * 100 *
    (if position.direction = .long then 1 else -1)
  { type := position.type
    direction := position.direction
    rule := position.rule
    entryTime := position.entryTime
    exitTime := exitTime
    entryPrice := position.entryPrice
    exitPrice := exitPrice
    takeProfitPct := position.takeProfitPct
    stopLossPct := position.stopLossPct
    grossPct := grossPct
    netPct := grossPct - code.simulatedCloseCostPercent input.costPct
    positionCostPct := input.costPct
    holdMinutes := (exitTime - position.entryTime) / minuteMs
    reason := reason }

def settleExits (bar : ReplayCandle) (run : ReplayRun) : ReplayRun :=
  { run with
    closes := run.closes ++ run.opened.filterMap fun entry =>
      (replayExit input bar entry.2).map fun (time, price, reason) =>
        replayClose code input entry.2 time price reason
    opened := run.opened.filter fun entry => (replayExit input bar entry.2).isNone }

/-- One row of a decision: it may open a position at the bar's close. -/
def enterRow (bar : ReplayCandle) (run : ReplayRun) (row : IndicationRow) : ReplayRun :=
  if passesStrategyValidity row then
    match rowDirection row with
    | none => run
    | some direction =>
      if row.type = "" then run
      else
        let signals := put run.signals row.type ((get? run.signals row.type).getD 0 + 1)
        let rule := rowRule row
        let key := replayKey row.type direction rule
        let protection := input.protectionFor row.type (row.profitFactor.getD 0) row
        if (get? run.opened key).isSome then { run with signals := signals }
        else if 0 < protection.takeProfitPct ∧ 0 < protection.stopLossPct then
          { run with
            signals := signals
            opened := put run.opened key
              ⟨key, row.type, direction, rule, bar.barEnd, bar.close, protection.takeProfitPct,
                protection.stopLossPct⟩ }
        else { run with signals := signals }
  else run

/-- `commonWindowSlice`: the anchored window that ends at a bar. -/
def commonWindowSlice (bars : List ReplayCandle) (index : ℕ) : List ReplayCandle :=
  match bars[index]? with
  | some bar =>
    (bars.take (index + 1)).dropWhile fun other =>
      other.timestamp < code.commonWindowStartMs bar.timestamp
  | none => []

/-- `autoSeries`: the step indicators of the whole replay, when Auto is enabled. -/
def autoSeries : Option (List ReplayCandle → List ℤ → ℕ → Summaries) :=
  if code.autoEnabled input.indicationSettings then input.stepIndicatorSeries else none

/-- The step indicators at a bar, from the series or else from the window of the bar. -/
def stepIndicatorsAt (bars : List ReplayCandle) (index : ℕ) : Summaries :=
  let timeframes := code.coordinatedTimeframes input.indicationSettings
  match autoSeries code input with
  | some series => series bars timeframes index
  | none =>
    match input.stepIndicatorsFor with
    | some summariesFor => summariesFor (commonWindowSlice code bars index) timeframes
    | none => code.noSummaries

/-- The decision at a bar's close, on its complete history. -/
def decideBar (bars history : List ReplayCandle) (bar : ReplayCandle) (index : ℕ)
    (run : ReplayRun) : ReplayRun :=
  let settings := input.indicationSettings
  let prices := history.map ReplayCandle.close
  let autoPossible := ((autoSeries code input).isSome || input.stepIndicatorsFor.isSome) &&
    code.autoEnabled settings && code.coordinationPassed prices input.costPct settings
  let stepIndicators :=
    if autoPossible then stepIndicatorsAt code input bars index else code.noSummaries
  let direct := code.computeDirectIndications
    { symbol := input.symbol
      candles := history
      pricesOldestFirst := prices
      positionCostPct := input.costPct
      indicationSettings := settings
      stepIndicators := stepIndicators
      coordinatedTimeframes := code.coordinatedTimeframes settings
      current := bar
      now := bar.barEnd }
  (direct.1 ++ direct.2).foldl (enterRow input bar)
    { run with
      stepIndicatorCalls := run.stepIndicatorCalls + if autoPossible then 1 else 0
      steps := run.steps + 1 }

/-- One bar that is complete and not yet processed. -/
def processBar (bars : List ReplayCandle) (bar : ReplayCandle) (index : ℕ)
    (run : ReplayRun) : ReplayRun :=
  let run := { settleExits code input bar run with lastBarMs := some bar.timestamp }
  if index + 1 < engineStageHistoryMinutes ∨ (bar.barEnd : ℚ) < input.startMs bars then run
  else
    let history := (bars.take (index + 1)).drop (index + 1 - engineStageHistoryMinutes)
    match history.head? with
    | none => run
    | some oldest =>
      if bar.timestamp - oldest.timestamp ≠ (engineStageHistoryMinutes - 1) * minuteMs then run
      else decideBar code input bars history bar index run

/-- The loop over the bars. -/
def replayBars (bars : List ReplayCandle) : List (ReplayCandle × ℕ) → ReplayRun → ReplayRun
  | [], run => run
  | (bar, index) :: rest, run =>
    if input.isHistory bar then replayBars bars rest run
    else if input.endMs bars < bar.barEnd then run
    else replayBars bars rest (processBar code input bars bar index run)

/-- The positions that a call resumes. -/
def resumedOpen (stored : List StoredOpenPosition) : List (String × TypeReplayOpenPosition) :=
  (stored.filterMap normalizeOpenPosition).foldl
    (fun opened position => put opened position.key position) []

def replayDirectIndicationTypes : TypeReplayResult :=
  let bars := normalizeBars input.bars
  (replayBars code input bars bars.zipIdx { opened := resumedOpen input.initialOpen }).finish

end Replay

end CtsEngine

/-! ## The bars up to a split -/

namespace CtsEngine

/-- The bar is not later than the split. -/
def RawBar.upTo (split : ℚ) (bar : RawBar) : Bool :=
  match bar.timestampMs with
  | some time => decide (time ≤ split)
  | none => true

/-- The split does not fall between two bars of one minute. -/
def KeepsMinutes (split : ℚ) (raw : List RawBar) : Prop :=
  ∀ a ∈ raw, ∀ b ∈ raw, ∀ candle ∈ a.candle, ∀ other ∈ b.candle,
    candle.timestamp = other.timestamp → a.upTo split = b.upTo split

/-- A minute of the bars up to the split. -/
def FirstMinute (split : ℚ) (raw : List RawBar) (minute : ℤ) : Prop :=
  ∃ bar ∈ raw, bar.upTo split = true ∧ ∃ candle ∈ bar.candle, candle.timestamp = minute

namespace RawBar

variable {bar : RawBar} {candle : ReplayCandle}

lemma candle_spec (h : candle ∈ bar.candle) :
    ∃ time, bar.timestampMs = some time ∧ candle.timestamp = ⌊time / minuteMs⌋ * minuteMs ∧
      0 < candle.close := by
  unfold RawBar.candle at h
  split at h
  · rename_i time close htime hcl
    split at h
    · rename_i hpos
      cases h
      exact ⟨time, htime, rfl, hpos⟩
    · cases h
  · cases h

lemma minute_dvd (h : candle ∈ bar.candle) : minuteMs ∣ candle.timestamp := by
  obtain ⟨time, -, hminut, -⟩ := candle_spec h
  exact ⟨_, hminut.trans (mul_comm _ _)⟩

lemma minute_le (h : candle ∈ bar.candle) {time : ℚ} (htime : bar.timestampMs = some time) :
    (candle.timestamp : ℚ) ≤ time ∧ time < candle.barEnd := by
  obtain ⟨time', htime', hminut, -⟩ := candle_spec h
  obtain rfl := Option.some.inj (htime.symm.trans htime')
  have hpos : (0 : ℚ) < minuteMs := by exact_mod_cast minuteMs_pos
  unfold ReplayCandle.barEnd
  rw [hminut]
  push_cast
  have hle : (⌊time / minuteMs⌋ : ℚ) ≤ time / minuteMs := Int.floor_le _
  have hlt : time / minuteMs < ⌊time / minuteMs⌋ + 1 := Int.lt_floor_add_one _
  constructor
  · calc (⌊time / minuteMs⌋ : ℚ) * minuteMs ≤ time / minuteMs * minuteMs :=
          mul_le_mul_of_nonneg_right hle hpos.le
      _ = time := div_mul_cancel₀ time hpos.ne'
  · calc time = time / minuteMs * minuteMs := (div_mul_cancel₀ time hpos.ne').symm
      _ < (⌊time / minuteMs⌋ + 1) * minuteMs := mul_lt_mul_of_pos_right hlt hpos
      _ = ⌊time / minuteMs⌋ * minuteMs + minuteMs := by rw [add_mul, one_mul]

end RawBar

variable (raw : List RawBar)

lemma byMinute_append_singleton (bar : RawBar) :
    byMinute (raw ++ [bar]) = match bar.candle with
      | some candle => put (byMinute raw) candle.timestamp candle
      | none => byMinute raw := by
  unfold byMinute
  rw [foldl_append]
  rfl

lemma byMinute_spec : KeysUnique (byMinute raw) ∧
    ∀ entry ∈ byMinute raw, entry.2.timestamp = entry.1 ∧ ∃ bar ∈ raw, entry.2 ∈ bar.candle := by
  induction raw using reverseRecOn with
  | nil => exact ⟨nodup_nil, forall_mem_nil _⟩
  | append_singleton raw bar ih =>
    obtain ⟨huniq, hents⟩ := ih
    rw [byMinute_append_singleton]
    cases hcand : bar.candle with
    | none =>
      refine ⟨huniq, fun entry hent => ?_⟩
      obtain ⟨hkey, other, hoth, hmem⟩ := hents entry hent
      exact ⟨hkey, other, mem_append_left _ hoth, hmem⟩
    | some candle =>
      refine ⟨huniq.put _ _, fun entry hent => ?_⟩
      rcases mem_put hent with rfl | hold
      · exact ⟨rfl, bar, mem_concat_self, hcand⟩
      · obtain ⟨hkey, other, hoth, hmem⟩ := hents entry hold
        exact ⟨hkey, other, mem_append_left _ hoth, hmem⟩

lemma byMinute_filter {raw : List RawBar} {p : RawBar → Bool} {q : ℤ → Bool}
    (h : ∀ bar ∈ raw, ∀ candle ∈ bar.candle, p bar = q candle.timestamp) :
    byMinute (raw.filter p) = (byMinute raw).filter fun entry => q entry.1 := by
  induction raw using reverseRecOn with
  | nil => rfl
  | append_singleton raw bar ih =>
    specialize ih fun other hoth => h other (mem_append_left _ hoth)
    have hbar := h bar (mem_concat_self)
    rw [filter_append, byMinute_append_singleton]
    by_cases hp : p bar = true
    · have hkeep : [bar].filter p = [bar] := by simp [hp]
      rw [hkeep, byMinute_append_singleton, ih]
      cases hcand : bar.candle with
      | none => rfl
      | some candle => exact (filter_put_of_pos _ _ (hbar candle hcand ▸ hp)).symm
    · have hp := eq_false_of_ne_true hp
      have hdrop : [bar].filter p = [] := by simp [hp]
      rw [hdrop, append_nil, ih]
      cases hcand : bar.candle with
      | none => rfl
      | some candle => exact (filter_put_of_neg _ _ (hbar candle hcand ▸ hp)).symm

lemma normalizeBars_spec : (normalizeBars raw).Pairwise (fun a b => a.timestamp < b.timestamp) ∧
      ∀ candle ∈ normalizeBars raw, ∃ bar ∈ raw, candle ∈ bar.candle := by
  obtain ⟨huniq, hents⟩ := byMinute_spec raw
  have hperm : (normalizeBars raw).Perm ((byMinute raw).map Prod.snd) := perm_insertionSort ..
  constructor
  · have hnodup : ((normalizeBars raw).map (·.timestamp)).Nodup := by
      refine ((hperm.map _).nodup_iff).mpr ?_
      rw [map_map]
      have hkeys : (byMinute raw).map ((·.timestamp) ∘ Prod.snd) = (byMinute raw).map Prod.fst :=
        map_congr_left fun entry hent => (hents entry hent).1
      rw [hkeys]
      exact huniq
    have hsort : (normalizeBars raw).Pairwise fun a b => a.timestamp ≤ b.timestamp :=
      pairwise_insertionSort _ _
    exact hsort.imp₂ (fun a b hle hne => lt_of_le_of_ne hle hne) (pairwise_map.mp hnodup)
  · intro candle hcand
    obtain ⟨entry, hent, rfl⟩ := mem_map.mp (hperm.mem_iff.mp hcand)
    exact (hents entry hent).2

lemma normalizeBars_filter {raw : List RawBar} {p : RawBar → Bool} (q : ℤ → Bool)
    (h : ∀ bar ∈ raw, ∀ candle ∈ bar.candle, p bar = q candle.timestamp) :
    normalizeBars (raw.filter p) = (normalizeBars raw).filter fun bar => q bar.timestamp := by
  have hperm : ∀ raw, (normalizeBars raw).Perm ((byMinute raw).map Prod.snd) := fun raw =>
    perm_insertionSort ..
  refine List.Perm.eq_of_pairwise (fun a b _ _ hab hba => ?_) (normalizeBars_spec _).1
    ((normalizeBars_spec raw).1.filter _) ?_
  · exact absurd hab (not_lt.mpr (le_of_lt hba))
  · refine (hperm _).trans (List.Perm.trans ?_ ((hperm raw).symm.filter _))
    rw [byMinute_filter h, filter_map]
    refine List.Perm.of_eq (congrArg _ (filter_congr fun entry hent => ?_))
    rw [Function.comp_apply, (byMinute_spec raw).2 entry hent |>.1]

open Classical in
lemma normalizeBars_upTo {split : ℚ} {raw : List RawBar} (hkeeps : KeepsMinutes split raw) :
    ∃ later, normalizeBars raw = normalizeBars (raw.filter (·.upTo split)) ++ later := by
  have hpick : ∀ bar ∈ raw, ∀ candle ∈ bar.candle,
      bar.upTo split = decide (FirstMinute split raw candle.timestamp) := by
    intro bar hbar candle hcand
    rw [Bool.eq_iff_iff, decide_eq_true_eq]
    constructor
    · exact fun hup => ⟨bar, hbar, hup, candle, hcand, rfl⟩
    · rintro ⟨other, hoth, hup, candle', hcand', hminut⟩
      rw [← hkeeps other hoth bar hbar candle' hcand' candle hcand hminut]
      exact hup
  obtain ⟨hsort, hfrom⟩ := normalizeBars_spec raw
  rw [normalizeBars_filter (fun minute => decide (FirstMinute split raw minute)) hpick]
  refine ⟨_, eq_filter_append_filter_not hsort fun a ha b hb hab hfst => ?_⟩
  obtain ⟨bar, hbar, hcand⟩ := hfrom a ha
  obtain ⟨other, hoth, hup, candle, hcand', hminut⟩ := of_decide_eq_true hfst
  refine decide_eq_true ⟨bar, hbar, ?_, a, hcand, rfl⟩
  -- the bar of an earlier minute is earlier
  obtain ⟨time, htime, -⟩ := RawBar.candle_spec hcand
  obtain ⟨time', htime', -⟩ := RawBar.candle_spec hcand'
  have hle : a.barEnd ≤ candle.timestamp := by
    have ha := RawBar.minute_dvd hcand
    have hb := RawBar.minute_dvd hcand'
    rw [← hminut] at hab
    unfold ReplayCandle.barEnd
    unfold minuteMs at ha hb ⊢
    omega
  have hlt := (RawBar.minute_le hcand htime).2
  have hge := (RawBar.minute_le hcand' htime').1
  unfold RawBar.upTo at hup ⊢
  rw [htime'] at hup
  rw [htime]
  have hsplit : time' ≤ split := of_decide_eq_true hup
  have hcast : (a.barEnd : ℚ) ≤ candle.timestamp := by exact_mod_cast hle
  exact decide_eq_true (by linarith)

end CtsEngine
