import CtsEngine.Replay.Resumption
import CtsEngine.ShortRange.PlainExits

/-!
# Simulated exits and the exits of the replay

`replayDirectIndicationTypes` decides entries and exits in one pass; `simulateExits` evaluates the
exits of entries that were captured once, and closes like the replay:
`simulateExits_refines_replay`. -/

namespace CtsEngine

open List ResearchSignal Keyed Int TypeReplayClose ReplayCandle

section Replay

variable {Settings Summaries : Type} (code : ReplayCode Settings Summaries)
  (input : TypeReplayInput Settings Summaries)

/-! ## The signals of a replay -/

/-- The signal of a row that the replay counts, with the protection of the row. -/
def rowSignal (bar : ReplayCandle) (row : IndicationRow) : Option ResearchSignal :=
  if passesStrategyValidity row ∧ row.type ≠ "" then
    (rowDirection row).map fun direction =>
      let protection := input.protectionFor row.type (row.profitFactor.getD 0) row
      { type := row.type
        direction := direction
        rule := rowRule row
        entryTime := bar.barEnd
        entryPrice := bar.close
        takeProfitPct := some protection.takeProfitPct
        stopLossPct := some protection.stopLossPct }
  else none

/-- The bars up to a decision that it is made on. -/
def decisionHistory (bars : List ReplayCandle) (index : ℕ) : List ReplayCandle :=
  (bars.take (index + 1)).drop (index + 1 - engineStageHistoryMinutes)

/-- The replay decides at a bar: it is in the range and its history is complete. -/
def decidesAt (bars : List ReplayCandle) (bar : ReplayCandle) (index : ℕ) : Bool :=
  !decide (index + 1 < engineStageHistoryMinutes ∨ (bar.barEnd : ℚ) < input.startMs bars) &&
    (decisionHistory bars index).head?.any fun oldest =>
      decide (bar.timestamp - oldest.timestamp = (engineStageHistoryMinutes - 1) * minuteMs)

def decisionRows (bars : List ReplayCandle) (bar : ReplayCandle) (index : ℕ) :
    List IndicationRow :=
  let settings := input.indicationSettings
  let history := decisionHistory bars index
  let prices := history.map close
  let autoPossible := ((autoSeries code input).isSome || input.stepIndicatorsFor.isSome) &&
    code.autoEnabled settings && code.coordinationPassed prices input.costPct settings
  let direct := code.computeDirectIndications
    { symbol := input.symbol
      candles := history
      pricesOldestFirst := prices
      positionCostPct := input.costPct
      indicationSettings := settings
      stepIndicators :=
        if autoPossible then stepIndicatorsAt code input bars index else code.noSummaries
      coordinatedTimeframes := code.coordinatedTimeframes settings
      current := bar
      now := bar.barEnd }
  if decidesAt input bars bar index then direct.1 ++ direct.2 else []

/-- The bars that a replay walks, with their indexes. -/
def walkedBars (bars : List ReplayCandle) (entries : List (ReplayCandle × ℕ)) :
    List (ReplayCandle × ℕ) :=
  entries.filter fun entry =>
    !input.isHistory entry.1 && decide ((entry.1.barEnd : ℚ) ≤ input.endMs bars)

/-- The signals of some bars. -/
def signalsOf (bars : List ReplayCandle) (entries : List (ReplayCandle × ℕ)) :
    List ResearchSignal :=
  entries.flatMap fun entry =>
    (decisionRows code input bars entry.1 entry.2).filterMap (rowSignal input entry.1)

/-- Every row that the replay counts as a signal, in the order of its decisions. -/
def acceptedSignals : List ResearchSignal :=
  let bars := normalizeBars input.bars
  signalsOf code input bars (walkedBars input bars bars.zipIdx)

/-- The bars that are complete by the end of the range. -/
def completeBars : List ReplayCandle :=
  (normalizeBars input.bars).filter fun bar =>
    decide ((bar.barEnd : ℚ) ≤ input.endMs (normalizeBars input.bars))

end Replay

/-- The signal has a take-profit and a stop-loss of its own. -/
def ResearchSignal.isProtected (signal : ResearchSignal) : Bool :=
  signal.takeProfitPct.any (0 < ·) && signal.stopLossPct.any (0 < ·)

/-- The reason in the words of the research. -/
def ReplayCloseReason.research : ReplayCloseReason → ResearchCloseReason
  | .takeProfit => .takeProfit
  | .stopLoss => .stopLoss
  | .maxHold => .maxHold

/-- The data that a simulated and a replayed close have in common. -/
structure CloseFacts where
  type : String
  direction : Direction
  rule : String
  entryTime : ℚ
  exitTime : ℚ
  entryPrice : ℚ
  exitPrice : ℚ
  grossPct : ℚ
  reason : ResearchCloseReason
  deriving DecidableEq

def TypeReplayClose.facts (close : TypeReplayClose) : CloseFacts :=
  ⟨close.type, close.direction, close.rule, close.entryTime, close.exitTime, close.entryPrice,
    close.exitPrice, close.grossPct, close.reason.research⟩

def ResearchClose.facts (close : ResearchClose) : CloseFacts :=
  ⟨close.type, close.direction, close.rule, close.entryTime, close.exitTime, close.entryPrice,
    close.exitPrice, close.grossPct, close.reason⟩

/-- The position that the replay opens for a signal. -/
def ResearchSignal.position (signal : ResearchSignal) : TypeReplayOpenPosition where
  key := signal.key
  type := signal.type
  direction := signal.direction
  rule := signal.rule
  entryTime := signal.entryTime
  entryPrice := signal.entryPrice
  takeProfitPct := signal.takeProfitPct.getD 0
  stopLossPct := signal.stopLossPct.getD 0

/-- The position that the simulation opens for a signal. -/
def ResearchSignal.filled (config : ExitConfig) (signal : ResearchSignal) : Filled :=
  Filled.enter config signal signal.entryPrice signal.entryTime

section Exits

variable {Settings Summaries : Type} {code : ReplayCode Settings Summaries}
  {input : TypeReplayInput Settings Summaries} {config : ExitConfig} {signal : ResearchSignal}

lemma ResearchSignal.pcts_of_isProtected (h : signal.isProtected = true) (config : ExitConfig) :
    signalTakeProfitPct signal config = signal.takeProfitPct.getD 0 ∧
      signalStopLossPct signal config = signal.stopLossPct.getD 0 := by
  obtain ⟨htake, hstop⟩ := Bool.and_eq_true_iff.mp h
  unfold signalTakeProfitPct signalStopLossPct positiveOr
  constructor
  · cases hpct : signal.takeProfitPct with
    | none => simp [hpct] at htake
    | some pct => exact if_pos (by simpa [hpct] using htake)
  · cases hpct : signal.stopLossPct with
    | none => simp [hpct] at hstop
    | some pct => exact if_pos (by simpa [hpct] using hstop)

lemma facts_researchClose (config : ExitConfig) (signal : ResearchSignal) (exit : BarExit)
    (reason : ReplayCloseReason) (hreas : exit.reason = reason.research) :
    ((signal.filled config).researchClose exit).facts =
      (replayClose code input signal.position exit.time exit.price reason).facts := by
  by_cases hlong : signal.direction = .long
  · simp [ResearchClose.facts, facts, Filled.researchClose, replayClose,
      filled, Filled.enter, ResearchSignal.position, long, hreas,
      hlong]
  · simp [ResearchClose.facts, facts, Filled.researchClose, replayClose,
      filled, Filled.enter, ResearchSignal.position, long, hreas,
      hlong]

variable (code) in
lemma exitOnBar_filled (hfixed : config.trailingStart = none) (hhold : config.holdMs = input.holdMs)
    (h : signal.isProtected = true) (bar : ReplayCandle) :
    ∃ exit, exitOnBar false config bar (signal.filled config) = (exit, signal.filled config) ∧
      (exit.map fun e => ((signal.filled config).researchClose e).facts) =
        (replayExit input bar signal.position).map fun e =>
          (replayClose code input signal.position e.1 e.2.1 e.2.2).facts := by
  obtain ⟨htake, hstop⟩ := pcts_of_isProtected h config
  obtain ⟨stop, hstopPr⟩ : ∃ stop, levelAt signal.entryPrice signal.long (-1)
    (signal.stopLossPct.getD 0) = stop := ⟨_, rfl⟩
  obtain ⟨target, htgtPric⟩ : ∃ target, levelAt signal.entryPrice signal.long 1
    (signal.takeProfitPct.getD 0) = target := ⟨_, rfl⟩
  have hbef : ((bar.timestamp : ℚ) < signal.position.entryTime) ↔
      bar.timestamp < signal.entryTime := cast_lt
  have hheld : (input.holdMs ≤ (bar.barEnd : ℚ) - signal.position.entryTime) ↔
      config.holdMs ≤ ((bar.barEnd - signal.entryTime : ℤ) : ℚ) := by
    rw [hhold, cast_sub]
    rfl
  have hrepl : replayExit input bar signal.position =
      if bar.timestamp < signal.entryTime then none
      else if stopHit signal.long bar.openPrice stop then
        some ((bar.timestamp : ℚ), bar.openPrice, .stopLoss)
      else if targetHit false signal.long bar.openPrice target then
        some ((bar.timestamp : ℚ), bar.openPrice, .takeProfit)
      else if stopHit signal.long (bar.worst signal.long) stop then
        some ((bar.barEnd : ℚ), stop, .stopLoss)
      else if targetHit false signal.long (bar.best signal.long) target then
        some ((bar.barEnd : ℚ), target, .takeProfit)
      else if config.holdMs ≤ ((bar.barEnd - signal.entryTime : ℤ) : ℚ) then
        some ((bar.barEnd : ℚ), bar.close, .maxHold)
      else none := by
    unfold replayExit
    simp only [hbef, hheld]
    rw [← hstopPr, ← htgtPric]
    rfl
  have hfill : (signal.filled config).stopPrice = stop ∧
      (signal.filled config).targetPrice = target := by
    rw [← hstopPr, ← htgtPric, ← htake, ← hstop]
    exact ⟨rfl, rfl⟩
  have hsimul : exitOnBar false config bar (signal.filled config) =
      (if bar.timestamp < signal.entryTime then none
      else if stopHit signal.long bar.openPrice stop then
        some ⟨bar.timestamp, bar.barEnd, bar.openPrice, .stopLoss, .taker⟩
      else if targetHit false signal.long bar.openPrice target then
        some ⟨bar.timestamp, bar.barEnd, bar.openPrice, .takeProfit, .taker⟩
      else if stopHit signal.long (bar.worst signal.long) stop then
        some ⟨bar.barEnd, bar.barEnd, stop, .stopLoss, .taker⟩
      else if targetHit false signal.long (bar.best signal.long) target then
        some ⟨bar.barEnd, bar.barEnd, target, .takeProfit, .taker⟩
      else if config.holdMs ≤ ((bar.barEnd - signal.entryTime : ℤ) : ℚ) then
        some ⟨bar.barEnd, bar.barEnd, bar.close, .maxHold, .taker⟩
      else none, signal.filled config) := by
    unfold exitOnBar holdExit
    rw [hfill.1, hfill.2, hfixed]
    simp only [filled, Filled.enter, targetLeg, true_and, if_false, Bool.false_eq_true]
    by_cases hlong : config.holdMs ≤ ((bar.barEnd - signal.entryTime : ℤ) : ℚ)
    · simp only [hlong, if_true]
      split_ifs <;> rfl
    · simp only [hlong, if_false]
      split_ifs <;> rfl
  refine ⟨_, hsimul, ?_⟩
  rw [hrepl]
  split_ifs
  · rfl
  · exact congrArg some (facts_researchClose config signal _ .stopLoss rfl)
  · exact congrArg some (facts_researchClose config signal _ .takeProfit rfl)
  · exact congrArg some (facts_researchClose config signal _ .stopLoss rfl)
  · exact congrArg some (facts_researchClose config signal _ .takeProfit rfl)
  · exact congrArg some (facts_researchClose config signal _ .maxHold rfl)
  · rfl

end Exits

/-! ## One bar -/

/-- The entry of the replay's map for a signal. -/
def ResearchSignal.openEntry (signal : ResearchSignal) : String × TypeReplayOpenPosition :=
  (signal.key, signal.position)

section Bar

variable {Settings Summaries : Type} {code : ReplayCode Settings Summaries}
  {input : TypeReplayInput Settings Summaries} {config : ExitConfig}
  {holders : List ResearchSignal} {bar : ReplayCandle}

variable (code) in
lemma settledOn_filled (hfixed : config.trailingStart = none)
    (hhold : config.holdMs = input.holdMs) (bar : ReplayCandle)
    (h : ∀ signal ∈ holders, signal.isProtected = true) (run : ReplayRun)
    (hopen : run.opened = holders.map openEntry) :
    (settleExits code input bar run).closes.map facts =
      run.closes.map facts ++
        (settledOn false config bar (holders.map (filled config))).map
          fun entry => (entry.1.researchClose entry.2).facts := by
  unfold settleExits settledOn
  dsimp only
  rw [hopen, map_append, map_filterMap, map_filterMap, filterMap_map, filterMap_map]
  congr 1
  refine filterMap_congr fun signal hsig => ?_
  obtain ⟨exit, hexit, hfacts⟩ := exitOnBar_filled code hfixed hhold (h signal hsig) bar
  dsimp only [Function.comp_apply, openEntry]
  rw [hexit, Option.map_map, Option.map_map]
  exact hfacts.symm

variable (code) in
lemma keptOn_filled (hfixed : config.trailingStart = none)
    (hhold : config.holdMs = input.holdMs) (bar : ReplayCandle)
    (h : ∀ signal ∈ holders, signal.isProtected = true) (run : ReplayRun)
    (hopen : run.opened = holders.map openEntry) :
    ∃ kept : List ResearchSignal, kept.Sublist holders ∧
      keptOn false config bar (holders.map (filled config)) = kept.map (filled config) ∧
      (settleExits code input bar run).opened = kept.map openEntry := by
  refine ⟨holders.filter fun signal => (replayExit input bar signal.position).isNone,
    filter_sublist, ?_, ?_⟩
  · unfold keptOn
    rw [filterMap_map, ← filterMap_eq_filter, map_filterMap]
    refine filterMap_congr fun signal hsig => ?_
    obtain ⟨exit, hexit, hfacts⟩ := exitOnBar_filled code hfixed hhold (h signal hsig) bar
    dsimp only [Function.comp_apply]
    rw [hexit]
    cases hrepl : replayExit input bar signal.position with
    | none =>
      rw [hrepl, Option.map_none, Option.map_eq_none_iff] at hfacts
      simp [hfacts, Option.guard, hrepl]
    | some left =>
      have hsome : exit ≠ none := by
        rintro rfl
        rw [hrepl] at hfacts
        cases hfacts
      simp [hsome, Option.guard, hrepl]
  · unfold settleExits
    dsimp only
    rw [hopen, filter_map]
    rfl

/-- The signal of a row that has a protection of its own. -/
def protectedSignal (input : TypeReplayInput Settings Summaries) (bar : ReplayCandle)
    (row : IndicationRow) : Option ResearchSignal :=
  (rowSignal input bar row).filter ResearchSignal.isProtected

lemma protectedSignal_spec {row : IndicationRow} {signal : ResearchSignal}
    (h : protectedSignal input bar row = some signal) :
    signal.isProtected = true ∧ signal.entryTime = bar.barEnd := by
  obtain ⟨hrow, hprot⟩ := Option.filter_eq_some_iff.mp h
  refine ⟨hprot, ?_⟩
  unfold rowSignal at hrow
  split at hrow
  · obtain ⟨direction, -, rfl⟩ := Option.map_eq_some_iff.mp hrow
    rfl
  · cases hrow

variable (input bar) in
lemma enterRow_spec (run : ReplayRun) (hopen : run.opened = holders.map openEntry)
    (row : IndicationRow) :
    (enterRow input bar run row).closes = run.closes ∧
      (enterRow input bar run row).opened =
        (holders ++ (protectedSignal input bar row).toList.filter fun signal =>
          !(holders.map ResearchSignal.key).contains signal.key).map openEntry := by
  have hbusy : ∀ key, (get? run.opened key).isSome = true ↔
      key ∈ holders.map ResearchSignal.key := by
    intro key
    rw [isSome_get?_iff, hopen, map_map]
    rfl
  unfold enterRow protectedSignal rowSignal
  cases hvalid : passesStrategyValidity row with
  | false => simp [hopen]
  | true =>
    cases hdir : rowDirection row with
    | none => simp [hopen]
    | some direction =>
      by_cases htype : row.type = ""
      · simp [htype, hopen]
      · obtain ⟨protection, hprotn⟩ :
          ∃ protection, input.protectionFor row.type (row.profitFactor.getD 0) row = protection :=
          ⟨_, rfl⟩
        obtain ⟨signal, hsig⟩ : ∃ signal : ResearchSignal, signal =
          { type := row.type
            direction := direction
            rule := rowRule row
            entryTime := bar.barEnd
            entryPrice := bar.close
            takeProfitPct := some protection.takeProfitPct
            stopLossPct := some protection.stopLossPct } := ⟨_, rfl⟩
        have hkey : replayKey row.type direction (rowRule row) = signal.key := by
          rw [hsig]
          rfl
        have hprot : signal.isProtected =
            decide (0 < protection.takeProfitPct ∧ 0 < protection.stopLossPct) := by
          rw [hsig]
          simp [ResearchSignal.isProtected]
        simp only [hprotn, hkey, htype, if_true, if_false, true_and, not_false_eq_true,
          Option.map_some, ne_eq, ← hsig]
        by_cases hin : signal.key ∈ holders.map ResearchSignal.key
        · rw [if_pos ((hbusy _).mpr hin)]
          refine ⟨rfl, hopen.trans ?_⟩
          have hnone : ((some signal).filter ResearchSignal.isProtected).toList.filter
              (fun signal => !(holders.map ResearchSignal.key).contains signal.key) = [] := by
            rw [filter_eq_nil_iff]
            intro other hoth
            obtain rfl : signal = other := by
              obtain ⟨heq, -⟩ := Option.filter_eq_some_iff.mp (Option.mem_toList.mp hoth)
              exact Option.some.inj heq
            simpa using hin
          rw [hnone, append_nil]
        · rw [if_neg fun h => hin ((hbusy _).mp h)]
          by_cases hpct : 0 < protection.takeProfitPct ∧ 0 < protection.stopLossPct
          · rw [if_pos hpct]
            refine ⟨rfl, ?_⟩
            have hnew : signal.key ∉ run.opened.map Prod.fst := fun h =>
              hin ((hbusy _).mp (isSome_get?_iff.mpr h))
            have hone : ((some signal).filter ResearchSignal.isProtected).toList.filter
                (fun signal => !(holders.map ResearchSignal.key).contains signal.key) =
                  [signal] := by
              rw [Option.filter_some, hprot, if_pos (decide_eq_true hpct)]
              simpa using hin
            rw [put_of_new _ hnew, hopen, hone, map_append, hsig]
            rfl
          · rw [if_neg hpct]
            refine ⟨rfl, hopen.trans ?_⟩
            rw [Option.filter_some, hprot, if_neg (by simpa using hpct)]
            simp

lemma enterOn_of_later {barEnd : ℤ} {busy : List String} {later : List ResearchSignal}
    (h : ∀ signal ∈ later, barEnd < signal.entryTime) :
    enterOn barEnd busy later = (later, []) := by
  cases later with
  | nil => rfl
  | cons signal later =>
    rw [enterOn, if_neg (not_le.mpr (h signal (mem_cons_self ..)))]

variable (input) in
lemma enterRows_spec {later : List ResearchSignal}
    (hlate : ∀ signal ∈ later, bar.barEnd < signal.entryTime) (rows : List IndicationRow)
    {run : ReplayRun} (hopen : run.opened = holders.map openEntry)
    {busy : List String} (hbusy : ∀ key, key ∈ busy ↔ key ∈ holders.map ResearchSignal.key) :
    ∃ entered, enterOn bar.barEnd busy (rows.filterMap (protectedSignal input bar) ++ later) =
        (later, entered) ∧
      (rows.foldl (enterRow input bar) run).opened = (holders ++ entered).map openEntry ∧
      (rows.foldl (enterRow input bar) run).closes = run.closes ∧
      ∀ signal ∈ entered, signal.isProtected = true := by
  induction rows generalizing run holders busy with
  | nil => exact ⟨[], enterOn_of_later hlate, by simpa using hopen, rfl, by simp⟩
  | cons row rows ih =>
    obtain ⟨hclos, hnext⟩ := enterRow_spec input bar run hopen row
    rw [foldl_cons]
    cases hsig : protectedSignal input bar row with
    | none =>
      rw [hsig] at hnext
      rw [filterMap_cons_none hsig]
      obtain ⟨entered, henter, hlast, hdone, hall⟩ := ih (by simpa using hnext) hbusy
      exact ⟨entered, henter, hlast, hdone.trans hclos, hall⟩
    | some signal =>
      obtain ⟨hprot, htime⟩ := protectedSignal_spec hsig
      rw [hsig] at hnext
      rw [filterMap_cons_some hsig, cons_append, enterOn, if_pos htime.le]
      by_cases hin : signal.key ∈ holders.map ResearchSignal.key
      · rw [if_pos (.inr ((hbusy _).mpr hin))]
        have hsame : (enterRow input bar run row).opened = holders.map openEntry := by
          rw [hnext, Option.toList_some, filter_cons_of_neg (by simpa using hin)]
          simp
        obtain ⟨entered, henter, hlast, hdone, hall⟩ := ih hsame hbusy
        exact ⟨entered, henter, hlast, hdone.trans hclos, hall⟩
      · rw [if_neg (not_or.mpr ⟨not_not.mpr htime, fun h => hin ((hbusy _).mp h)⟩)]
        have hmore : (enterRow input bar run row).opened = (holders ++ [signal]).map openEntry := by
          rw [hnext, Option.toList_some, filter_cons_of_pos (by simpa using hin), filter_nil]
        have hbusy' : ∀ key, key ∈ signal.key :: busy ↔
            key ∈ (holders ++ [signal]).map ResearchSignal.key := by
          intro key
          rw [mem_cons, hbusy, map_append, mem_append, map_singleton, mem_singleton, or_comm]
        obtain ⟨entered, henter, hlast, hdone, hall⟩ := ih hmore hbusy'
        refine ⟨signal :: entered, ?_, ?_, hdone.trans hclos, ?_⟩
        · rw [henter]
        · rw [hlast, append_assoc, singleton_append]
        · exact forall_mem_cons.mpr ⟨hprot, hall⟩

variable (code input bar) in
lemma processBar_spec (bars : List ReplayCandle) (index : ℕ) (run : ReplayRun) :
    ∃ settled, processBar code input bars bar index run =
        (decisionRows code input bars bar index).foldl (enterRow input bar) settled ∧
      settled.opened = (settleExits code input bar run).opened ∧
      settled.closes = (settleExits code input bar run).closes ∧
      settled.signals = run.signals := by
  unfold processBar decisionRows decidesAt decideBar decisionHistory
  dsimp only
  split
  · next hearly =>
    exact ⟨{ settleExits code input bar run with lastBarMs := some bar.timestamp },
      by simp [hearly], rfl, rfl, rfl⟩
  · next hlate =>
    split
    · next hnone =>
      exact ⟨{ settleExits code input bar run with lastBarMs := some bar.timestamp },
        by simp [hnone], rfl, rfl, rfl⟩
    · next oldest holdes =>
      split
      · next hgap =>
        exact ⟨{ settleExits code input bar run with lastBarMs := some bar.timestamp },
          by simp [holdes, hgap], rfl, rfl, rfl⟩
      · next hcomp =>
        have hdecid : (!decide (index + 1 < engineStageHistoryMinutes ∨
            (bar.barEnd : ℚ) < input.startMs bars) &&
          ((bars.take (index + 1)).drop (index + 1 - engineStageHistoryMinutes)).head?.any
            fun oldest => decide (bar.timestamp - oldest.timestamp =
              (engineStageHistoryMinutes - 1) * minuteMs)) = true := by
          rw [holdes]
          simpa [hlate] using hcomp
        rw [if_pos hdecid]
        exact ⟨_, rfl, rfl, rfl, rfl⟩

end Bar

/-! ## The two walks -/

section Walks

variable {Settings Summaries : Type} {code : ReplayCode Settings Summaries}
  {input : TypeReplayInput Settings Summaries} {config : ExitConfig} {bars : List ReplayCandle}
  {entries : List (ReplayCandle × ℕ)} {run : ReplayRun} {sim : ExitRun}

/-- The protected signals of some bars. -/
def protectedOf (code : ReplayCode Settings Summaries) (input : TypeReplayInput Settings Summaries)
    (bars : List ReplayCandle) (entries : List (ReplayCandle × ℕ)) : List ResearchSignal :=
  (signalsOf code input bars entries).filter ResearchSignal.isProtected

lemma protectedOf_cons (entry : ReplayCandle × ℕ) (entries : List (ReplayCandle × ℕ)) :
    protectedOf code input bars (entry :: entries) =
      (decisionRows code input bars entry.1 entry.2).filterMap (protectedSignal input entry.1) ++
        protectedOf code input bars entries := by
  unfold protectedOf signalsOf
  rw [flatMap_cons, filter_append, filter_filterMap]
  rfl

lemma exists_of_mem_protectedOf {signal : ResearchSignal}
    (h : signal ∈ protectedOf code input bars entries) :
    ∃ entry ∈ entries, signal.entryTime = entry.1.barEnd := by
  induction entries with
  | nil => cases h
  | cons entry entries ih =>
    rw [protectedOf_cons] at h
    rcases mem_append.mp h with hnow | hlate
    · obtain ⟨row, -, hrow⟩ := mem_filterMap.mp hnow
      exact ⟨entry, mem_cons_self .., (protectedSignal_spec hrow).2⟩
    · obtain ⟨other, hoth, htime⟩ := ih hlate
      exact ⟨other, mem_cons_of_mem _ hoth, htime⟩

/-- The two walks before the bars `entries`: they booked the same closes, and the same positions
are open, in the same order. -/
structure Corresponds (code : ReplayCode Settings Summaries)
    (input : TypeReplayInput Settings Summaries) (config : ExitConfig) (bars : List ReplayCandle)
    (entries : List (ReplayCandle × ℕ)) (run : ReplayRun) (sim : ExitRun) : Prop where
  closes : sim.closes.map ResearchClose.facts = run.closes.map facts
  opened : ∃ holders : List ResearchSignal, (∀ signal ∈ holders, signal.isProtected = true) ∧
    sim.opened = holders.map (filled config) ∧
    run.opened = holders.map openEntry
  pending : sim.pending = protectedOf code input bars entries

/-- A bar keeps replay and simulation alike. -/
lemma Corresponds.step (hfixed : config.trailingStart = none)
    (hhold : config.holdMs = input.holdMs) {entry : ReplayCandle × ℕ}
    (h : Corresponds code input config bars (entry :: entries) run sim)
    (hlate : ∀ other ∈ entries, entry.1.timestamp < other.1.timestamp) :
    Corresponds code input config bars entries
      (processBar code input bars entry.1 entry.2 run) (simulateBar config sim entry.1) := by
  obtain ⟨holders, hprot, hfill, hopen⟩ := h.opened
  have hclos := settledOn_filled code hfixed hhold entry.1 hprot run hopen
  obtain ⟨kept, hsub, hkept, hleft⟩ := keptOn_filled code hfixed hhold entry.1 hprot run hopen
  obtain ⟨settled, hproc, hsettl, hsettlClos, -⟩ :=
    processBar_spec code input entry.1 bars entry.2 run
  have hpend : ∀ signal ∈ protectedOf code input bars entries,
      entry.1.barEnd < signal.entryTime := by
    intro signal hsig
    obtain ⟨other, hoth, htime⟩ := exists_of_mem_protectedOf hsig
    have hlt := hlate other hoth
    unfold barEnd at htime ⊢
    omega
  have hbusy : ∀ key, key ∈ (kept.map (filled config)).map (·.signal.key) ↔
      key ∈ kept.map ResearchSignal.key := by
    intro key
    rw [map_map]
    rfl
  obtain ⟨entered, henter, hafter, hdone, hall⟩ := enterRows_spec input hpend
    (decisionRows code input bars entry.1 entry.2) (hsettl.trans hleft) hbusy
  have hpart : simulateBar config sim entry.1 =
      { closes := sim.closes ++ (settledOn false config entry.1 sim.opened).map
          fun settled => settled.1.researchClose settled.2
        opened := kept.map (ResearchSignal.filled config) ++ entered.map (filled config)
        pending := protectedOf code input bars entries } := by
    unfold simulateBar
    rw [hfill, hkept, h.pending, protectedOf_cons]
    dsimp only
    rw [henter]
    rfl
  rw [hproc, hpart]
  constructor
  case closes =>
    rw [hdone, hsettlClos, hclos, map_append, h.closes, hfill, map_map]
    rfl
  case opened =>
    refine ⟨kept ++ entered, ?_, ?_, hafter⟩
    · intro signal hsig
      rcases mem_append.mp hsig with hkeep | henters
      · exact hprot signal (hsub.subset hkeep)
      · exact hall signal henters
    · rw [map_append]
  case pending => rfl

lemma Corresponds.walk (hfixed : config.trailingStart = none) (hhold : config.holdMs = input.holdMs)
    (hsort : entries.Pairwise fun a b => a.1.timestamp < b.1.timestamp)
    (h : Corresponds code input config bars entries run sim) :
    ((entries.map Prod.fst).foldl (simulateBar config) sim).closes.map ResearchClose.facts =
      (processBars code input bars entries run).closes.map facts := by
  induction entries generalizing run sim with
  | nil => exact h.closes
  | cons entry entries ih =>
    obtain ⟨hlate, hsort⟩ := pairwise_cons.mp hsort
    exact ih hsort (h.step hfixed hhold hlate)

/-- Bars that end before every signal do nothing while no position is open. -/
lemma foldl_simulateBar_idle (config : ExitConfig) {early : List ReplayCandle}
    {pending : List ResearchSignal}
    (h : ∀ bar ∈ early, ∀ signal ∈ pending, bar.barEnd < signal.entryTime) :
    early.foldl (simulateBar config) { pending := pending } = { pending := pending } := by
  induction early with
  | nil => rfl
  | cons bar early ih =>
    obtain ⟨hbar, hrest⟩ := forall_mem_cons.mp h
    have hidle : simulateBar config { pending := pending } bar = { pending := pending } := by
      unfold simulateBar
      dsimp only
      rw [enterOn_of_later hbar]
      rfl
    rw [foldl_cons, hidle]
    exact ih hrest

lemma replayBars_walked (hsort : entries.Pairwise fun a b => a.1.timestamp < b.1.timestamp)
    (run : ReplayRun) : replayBars code input bars entries run =
      processBars code input bars (walkedBars input bars entries) run := by
  induction entries generalizing run with
  | nil => rfl
  | cons entry entries ih =>
    obtain ⟨hlate, hrest⟩ := pairwise_cons.mp hsort
    obtain ⟨bar, index⟩ := entry
    unfold walkedBars at ih ⊢
    rw [replayBars]
    cases hhist : input.isHistory bar with
    | true =>
      rw [filter_cons_of_neg (by simp [hhist])]
      exact ih hrest run
    | false =>
      by_cases hend : input.endMs bars < (bar.barEnd : ℚ)
      · -- the bars after an incomplete one are incomplete
        have hnone : ((bar, index) :: entries).filter (fun entry => !input.isHistory entry.1 &&
            decide ((entry.1.barEnd : ℚ) ≤ input.endMs bars)) = [] := by
          rw [filter_eq_nil_iff]
          intro other hoth
          have hle : bar.barEnd ≤ other.1.barEnd := by
            rcases mem_cons.mp hoth with rfl | hmem
            · exact le_rfl
            · have hlt := hlate other hmem
              unfold barEnd
              dsimp only at hlt
              omega
          have hpast : input.endMs bars < (other.1.barEnd : ℚ) :=
            hend.trans_le (cast_le.mpr hle)
          simp [not_le.mpr hpast]
        rw [if_pos hend, hnone]
        rfl
      · rw [if_neg hend, filter_cons_of_pos (by simp [hhist, not_lt.mp hend])]
        exact ih hrest _

lemma protectedOf_sorted (hsort : entries.Pairwise fun a b => a.1.timestamp < b.1.timestamp) :
    (protectedOf code input bars entries).Pairwise fun a b => a.entryTime ≤ b.entryTime := by
  induction entries with
  | nil => exact List.Pairwise.nil
  | cons entry entries ih =>
    obtain ⟨hlate, hrest⟩ := pairwise_cons.mp hsort
    have hnow : ∀ signal ∈ (decisionRows code input bars entry.1 entry.2).filterMap
        (protectedSignal input entry.1), signal.entryTime = entry.1.barEnd := by
      intro signal hsig
      obtain ⟨row, -, hrow⟩ := mem_filterMap.mp hsig
      exact (protectedSignal_spec hrow).2
    rw [protectedOf_cons]
    refine pairwise_append.mpr ⟨?_, ih hrest, fun a ha b hb => ?_⟩
    · refine pairwise_iff_forall_sublist.mpr fun {a b} hsub => ?_
      rw [hnow a (hsub.subset (by simp)), hnow b (hsub.subset (by simp))]
    · obtain ⟨other, hoth, htime⟩ := exists_of_mem_protectedOf hb
      have hlt := hlate other hoth
      rw [hnow a ha, htime]
      unfold barEnd
      omega

lemma orderedSignals_of_sorted {signals : List ResearchSignal}
    (h : signals.Pairwise fun a b => a.entryTime ≤ b.entryTime) :
    orderedSignals signals = signals := List.Pairwise.insertionSort_eq h

lemma pairwise_zipIdx (hsort : bars.Pairwise fun a b => a.timestamp < b.timestamp) :
    bars.zipIdx.Pairwise fun a b => a.1.timestamp < b.1.timestamp := by
  have hmapp : (bars.zipIdx.map Prod.fst).Pairwise fun a b => a.timestamp < b.timestamp := by
    rw [zipIdx_map_fst]
    exact hsort
  rw [pairwise_map] at hmapp
  exact hmapp

lemma isHistory_of_lt {a b : ReplayCandle} (hlt : a.timestamp < b.timestamp)
    (h : input.isHistory b = true) : input.isHistory a = true := by
  unfold TypeReplayInput.isHistory at h ⊢
  split at h
  · next resumeAfterMs hresum =>
    have hle : (a.timestamp : ℚ) ≤ b.timestamp := cast_le.mpr hlt.le
    exact decide_eq_true (hle.trans (of_decide_eq_true h))
  · cases h

end Walks

/-- **The simulated exits refine the replay.**  Over the complete bars of a replay that starts
without open positions, and without trailing, `simulateExits` returns the closes of the replay in
their order. -/
theorem simulateExits_refines_replay {Settings Summaries : Type}
    (code : ReplayCode Settings Summaries) (input : TypeReplayInput Settings Summaries)
    (config : ExitConfig) (hfresh : resumedOpen input.initialOpen = [])
    (hfixed : config.trailingStart = none) (hhold : config.maxHoldMs = input.maxHoldMs) :
    (simulateExits (completeBars input)
        ((acceptedSignals code input).filter ResearchSignal.isProtected) config).map
        ResearchClose.facts =
      (replayDirectIndicationTypes code input).closes.map facts := by
  obtain ⟨bars, hbars⟩ : ∃ bars, normalizeBars input.bars = bars := ⟨_, rfl⟩
  have hsorted : bars.Pairwise fun a b => a.timestamp < b.timestamp :=
    hbars ▸ (normalizeBars_spec input.bars).1
  have hentries := pairwise_zipIdx hsorted
  have hwalked : (walkedBars input bars bars.zipIdx).Pairwise fun a b =>
      a.1.timestamp < b.1.timestamp := hentries.filter _
  have hholdMs : config.holdMs = input.holdMs := by
    unfold ExitConfig.holdMs TypeReplayInput.holdMs
    rw [hhold]
    norm_num [minuteMs]
  -- the complete bars are the history, on which nothing happens, and the bars that are walked
  have hsplit : completeBars input =
      (completeBars input).filter input.isHistory ++
        (walkedBars input bars bars.zipIdx).map Prod.fst := by
    have hlive : (completeBars input).filter (fun bar => !input.isHistory bar) =
        (walkedBars input bars bars.zipIdx).map Prod.fst := by
      have hmapped := filter_map (f := Prod.fst) (l := bars.zipIdx) (p := fun bar =>
        !input.isHistory bar && decide ((bar.barEnd : ℚ) ≤ input.endMs bars))
      rw [zipIdx_map_fst] at hmapped
      unfold completeBars walkedBars
      rw [hbars, filter_filter, hmapped]
      rfl
    have hcomplete : (completeBars input).Pairwise fun a b => a.timestamp < b.timestamp := by
      unfold completeBars
      rw [hbars]
      exact hsorted.filter _
    rw [← hlive]
    exact eq_filter_append_filter_not hcomplete
      fun a _ b _ hlt hhistory => isHistory_of_lt hlt hhistory
  have hsignals : (acceptedSignals code input).filter ResearchSignal.isProtected =
      protectedOf code input bars (walkedBars input bars bars.zipIdx) := by
    unfold acceptedSignals protectedOf
    rw [hbars]
  have hidle : ∀ bar ∈ (completeBars input).filter input.isHistory,
      ∀ signal ∈ protectedOf code input bars (walkedBars input bars bars.zipIdx),
        bar.barEnd < signal.entryTime := by
    intro bar hbar signal hsignal
    obtain ⟨entry, hentry, htime⟩ := exists_of_mem_protectedOf hsignal
    have hlive := (mem_filter.mp hentry).2
    have hhistory := (mem_filter.mp hbar).2
    have hlt : bar.timestamp < entry.1.timestamp := by
      by_contra hle
      rcases (not_lt.mp hle).lt_or_eq with hlt | heq
      · simp [isHistory_of_lt hlt hhistory] at hlive
      · have hsame : input.isHistory entry.1 = input.isHistory bar := by
          unfold TypeReplayInput.isHistory
          rw [heq]
        simp [hsame, hhistory] at hlive
    rw [htime]
    unfold barEnd
    omega
  have hstart : Corresponds code input config bars (walkedBars input bars bars.zipIdx)
      { opened := [] }
      { pending := protectedOf code input bars (walkedBars input bars bars.zipIdx) } :=
    ⟨rfl, ⟨[], by simp, rfl, rfl⟩, rfl⟩
  have hwalk := hstart.walk hfixed hholdMs hwalked
  unfold simulateExits replayDirectIndicationTypes ReplayRun.finish
  dsimp only
  rw [hsignals, orderedSignals_of_sorted (protectedOf_sorted hwalked), hbars, hfresh,
    replayBars_walked hentries, hsplit, foldl_append, foldl_simulateBar_idle config hidle]
  exact hwalk

/-! ## Ninety minutes and one more -/

/-- The agreement over all bars and all counted rows, whatever the input of the replay. -/
def AgreesWithReplay {Settings Summaries : Type} (code : ReplayCode Settings Summaries)
    (input : TypeReplayInput Settings Summaries) (config : ExitConfig) : Prop :=
  (simulateExits (normalizeBars input.bars) (acceptedSignals code input) config).map
      ResearchClose.facts =
    (replayDirectIndicationTypes code input).closes.map facts

instance {Settings Summaries : Type} (code : ReplayCode Settings Summaries)
    (input : TypeReplayInput Settings Summaries) (config : ExitConfig) :
    Decidable (AgreesWithReplay code input config) :=
  inferInstanceAs (Decidable (_ = _))

/-- A rule that wants one long position, after ninety minutes. -/
def oneSignal : ReplayCode Unit Unit where
  autoEnabled := fun _ => false
  coordinatedTimeframes := fun _ => []
  coordinationPassed := fun _ _ _ => false
  computeDirectIndications := fun direct =>
    (if direct.now = 1200005400000 then [{ type := "direction", direction := some "long" }] else [],
      [])
  simulatedCloseCostPercent := fun pct => pct
  commonWindowStartMs := id
  noSummaries := ()

/-- A bar at `100` that reaches a price. -/
def minuteBar (minute : ℕ) (high : ℚ) : RawBar :=
  { timestamp := some { number := some (1200000000000 + 60000 * minute) }
    close := some { number := some 100 }
    high := some { number := some high } }

/-- Ninety-one minutes at `100`; the last one reaches `102`. -/
def minutesReplay (protection : ReplayProtection) (rangeEndMs : Option ℚ) :
    TypeReplayInput Unit Unit where
  symbol := "BTCUSDT"
  bars := (List.range 90).map (minuteBar · 100) ++ [minuteBar 90 102]
  rangeStartMs := none
  rangeEndMs := rangeEndMs
  positionCostPct := none
  indicationSettings := ()
  protectionFor := fun _ _ _ => protection
  stepIndicatorsFor := none
  stepIndicatorSeries := none
  maxHoldMs := some 3600000

/-- Stop and target at one percent. -/
def onePercent : ExitConfig where
  takeProfitPct := 1
  stopLossPct := 1
  maxHoldMs := some 3600000

theorem simulateExits_refines_replay_oneSignal :
    (simulateExits (completeBars (minutesReplay ⟨1, 1⟩ none))
        ((acceptedSignals oneSignal (minutesReplay ⟨1, 1⟩ none)).filter
          ResearchSignal.isProtected) onePercent).map ResearchClose.facts =
      (replayDirectIndicationTypes oneSignal (minutesReplay ⟨1, 1⟩ none)).closes.map
        facts ∧
    (replayDirectIndicationTypes oneSignal (minutesReplay ⟨1, 1⟩ none)).closes.length = 1 :=
  ⟨simulateExits_refines_replay oneSignal (minutesReplay ⟨1, 1⟩ none) onePercent rfl rfl rfl,
    by decide +kernel⟩

/-- A position of an earlier call. -/
def carriedReplay : TypeReplayInput Unit Unit :=
  { minutesReplay ⟨1, 1⟩ none with
    bars := [minuteBar 90 102]
    initialOpen := [{ type := some "direction", direction := some "long", rule := some "default"
                      entryTime := some 1200005400000, entryPrice := some 100
                      takeProfitPct := some 1, stopLossPct := some 1 }] }

/-- The closes differ where a counted row has no take-profit, where the range ends before the bars,
and where a position is carried over. -/
theorem simulateExits_differsFromReplay :
    ¬ AgreesWithReplay oneSignal (minutesReplay ⟨0, 1⟩ none) onePercent ∧
      ¬ AgreesWithReplay oneSignal (minutesReplay ⟨1, 1⟩ (some 1200005400000)) onePercent ∧
      ¬ AgreesWithReplay oneSignal carriedReplay onePercent := by
  refine ⟨?_, ?_, ?_⟩
  · decide +kernel
  · decide +kernel
  · decide +kernel

end CtsEngine
