import CtsEngine.Replay.TypeReplay

/-!
# A resumed replay continues the first one

A replay of the bars up to a split is continued by a replay of all the bars that starts with the
open positions of the first and skips its bars.  The bars up to the split are normalised to a
first part of all the bars, so both calls process each bar as one call over all the bars would:
same index, same history, same decision.  What is carried over are the open positions, which pass
the validation of stored ones unchanged (`Resumable`).
-/

namespace CtsEngine

open List Prod TypeReplayOpenPosition TypeReplayInput

/-! ## A run beside the run that it continues -/

variable {Settings Summaries : Type} {code : ReplayCode Settings Summaries}
  {input : TypeReplayInput Settings Summaries}

/-- The bars of the entries, one after the other. -/
def processBars (code : ReplayCode Settings Summaries) (input : TypeReplayInput Settings Summaries)
    (bars : List ReplayCandle) (entries : List (ReplayCandle × ℕ)) (run : ReplayRun) : ReplayRun :=
  entries.foldl (fun run entry => processBar code input bars entry.1 entry.2 run) run

/-- The run `part` goes on from closes `done` and a last bar `last` as the run `whole` does. -/
structure Resumes (done : List TypeReplayClose) (last : Option ℤ) (whole part : ReplayRun) :
    Prop where
  opened : whole.opened = part.opened
  closes : whole.closes = done ++ part.closes
  lastBarMs : whole.lastBarMs = (part.lastBarMs <|> last)

namespace Resumes

variable {done : List TypeReplayClose} {last : Option ℤ} {whole part : ReplayRun}

section

variable (h : Resumes done last whole part)

include h

lemma enterRow (bar : ReplayCandle) (row : IndicationRow) :
    Resumes done last (enterRow input bar whole row) (enterRow input bar part row) := by
  unfold CtsEngine.enterRow
  dsimp only
  rw [h.opened]
  split
  · split
    · exact h
    · split
      · exact h
      · split
        · exact ⟨rfl, h.closes, h.lastBarMs⟩
        · split
          · exact ⟨rfl, h.closes, h.lastBarMs⟩
          · exact ⟨rfl, h.closes, h.lastBarMs⟩
  · exact h

lemma enterRows (bar : ReplayCandle)
    (rows : List IndicationRow) : Resumes done last
      (rows.foldl (CtsEngine.enterRow input bar) whole)
      (rows.foldl (CtsEngine.enterRow input bar) part) := by
  induction rows generalizing whole part with
  | nil => exact h
  | cons row rows ih => exact ih (h.enterRow bar row)

lemma decideBar (bars history : List ReplayCandle)
    (bar : ReplayCandle) (index : ℕ) : Resumes done last
      (decideBar code input bars history bar index whole)
      (decideBar code input bars history bar index part) := by
  apply enterRows
  exact ⟨h.opened, h.closes, h.lastBarMs⟩

lemma processBar (bars : List ReplayCandle)
    (bar : ReplayCandle) (index : ℕ) : Resumes done last
      (processBar code input bars bar index whole)
      (processBar code input bars bar index part) := by
  have hsettl : Resumes done last
      { settleExits code input bar whole with lastBarMs := some bar.timestamp }
      { settleExits code input bar part with lastBarMs := some bar.timestamp } := by
    unfold settleExits
    rw [h.opened, h.closes, append_assoc]
    exact ⟨rfl, rfl, rfl⟩
  unfold CtsEngine.processBar
  dsimp only
  split
  · exact hsettl
  · split
    · exact hsettl
    · split
      · exact hsettl
      · exact hsettl.decideBar bars _ bar index

lemma processBars (bars : List ReplayCandle)
    (entries : List (ReplayCandle × ℕ)) : Resumes done last
      (processBars code input bars entries whole) (processBars code input bars entries part) := by
  induction entries generalizing whole part with
  | nil => exact h
  | cons entry entries ih => exact ih (h.processBar bars entry.1 entry.2)

end

end Resumes

lemma replayBars_eq {bars : List ReplayCandle} {entries : List (ReplayCandle × ℕ)}
    (hcomp : ∀ entry ∈ entries, ((entry.1.barEnd : ℤ) : ℚ) ≤ input.endMs bars)
    (run : ReplayRun) : replayBars code input bars entries run =
      processBars code input bars (entries.filter fun entry => !input.isHistory entry.1) run := by
  induction entries generalizing run with
  | nil => rfl
  | cons entry entries ih =>
    obtain ⟨hent, hents⟩ := forall_mem_cons.mp hcomp
    obtain ⟨bar, index⟩ := entry
    rw [replayBars]
    cases hhist : input.isHistory bar with
    | true =>
      rw [filter_cons_of_neg (by simp [hhist])]
      exact ih hents run
    | false =>
      rw [if_neg (not_lt.mpr hent), filter_cons_of_pos (by simp [hhist])]
      exact ih hents _

/-- The step indicators at a bar read the bars up to it. -/
def TypeReplayInput.Causal (input : TypeReplayInput Settings Summaries) : Prop :=
  ∀ series ∈ input.stepIndicatorSeries, ∀ bars later timeframes index, index < bars.length →
    series (bars ++ later) timeframes index = series bars timeframes index

section First

variable {first later : List ReplayCandle} {index : ℕ}

lemma commonWindowSlice_append (hidx : index < first.length) :
    commonWindowSlice code (first ++ later) index = commonWindowSlice code first index := by
  unfold commonWindowSlice
  rw [getElem?_append_left hidx, take_append_of_le_length hidx]

section

variable (hcaus : input.Causal) (hidx : index < first.length)

include hcaus hidx

lemma stepIndicatorsAt_append : stepIndicatorsAt code input (first ++ later) index =
      stepIndicatorsAt code input first index := by
  unfold stepIndicatorsAt
  rw [commonWindowSlice_append hidx]
  cases hser : autoSeries code input with
  | none => rfl
  | some series =>
    have hmem : series ∈ input.stepIndicatorSeries := by
      unfold autoSeries at hser
      split at hser
      · exact hser
      · cases hser
    exact hcaus series hmem first later _ index hidx

lemma decideBar_append (history : List ReplayCandle) (bar : ReplayCandle) (run : ReplayRun) :
    decideBar code input (first ++ later) history bar index run =
      decideBar code input first history bar index run := by
  unfold decideBar
  rw [stepIndicatorsAt_append hcaus hidx]

lemma processBar_append (bar : ReplayCandle) (run : ReplayRun) :
    processBar code input (first ++ later) bar index run =
      processBar code input first bar index run := by
  have hst : input.startMs (first ++ later) = input.startMs first := by
    cases first with
    | nil => cases hidx
    | cons oldest first => rfl
  unfold processBar
  rw [hst, take_append_of_le_length hidx]
  simp only [decideBar_append hcaus hidx]

end

end First

/-! ## Stored positions are read back -/

/-- A position that is read back from its stored form. -/
def TypeReplayOpenPosition.Resumable (position : TypeReplayOpenPosition) : Prop :=
  normalizeOpenPosition position.stored = some position

variable {position : TypeReplayOpenPosition}

lemma resumable_iff : position.Resumable ↔
    position.key = replayKey position.type position.direction position.rule ∧
      position.type ≠ "" ∧ position.rule ≠ "" ∧ 0 < position.entryTime ∧
      0 < position.entryPrice ∧ 0 < position.takeProfitPct ∧ 0 < position.stopLossPct := by
  have hdir : storedDirection (some position.direction.toString) = some position.direction := by
    cases position.direction <;> rfl
  obtain ⟨key, type, direction, rule, entryTime, entryPrice, takeProfitPct, stopLossPct⟩ := position
  unfold TypeReplayOpenPosition.Resumable normalizeOpenPosition stored
  rw [hdir]
  dsimp only
  constructor
  · intro h
    split at h
    · rename_i hvalid
      have heq := Option.some.inj h
      exact ⟨(congrArg TypeReplayOpenPosition.key heq).symm, hvalid⟩
    · cases h
  · rintro ⟨rfl, hvalid⟩
    exact if_pos hvalid

lemma resumable_of_normalize {value : StoredOpenPosition}
    (h : normalizeOpenPosition value = some position) : position.Resumable := by
  unfold normalizeOpenPosition at h
  dsimp only at h
  split at h
  · split at h
    · rename_i hvalid
      cases h
      exact resumable_iff.mpr ⟨rfl, hvalid⟩
    · cases h
  · cases h

/-- Open positions that a later call resumes as they are. -/
structure OpenOk (opened : List (String × TypeReplayOpenPosition)) : Prop where
  unique : Keyed.KeysUnique opened
  entries : ∀ entry ∈ opened, entry.2.key = entry.1 ∧ entry.2.Resumable

variable {opened : List (String × TypeReplayOpenPosition)}

lemma OpenOk.put (h : OpenOk opened) {key : String}
    (hkey : position.key = key) (hpos : position.Resumable) :
    OpenOk (Keyed.put opened key position) := by
  refine ⟨h.unique.put _ _, fun entry hent => ?_⟩
  rcases Keyed.mem_put hent with rfl | hold
  · exact ⟨hkey, hpos⟩
  · exact h.entries entry hold

lemma openOk_resumedOpen (stored : List StoredOpenPosition) : OpenOk (resumedOpen stored) := by
  unfold resumedOpen
  induction stored using reverseRecOn with
  | nil => exact ⟨nodup_nil, forall_mem_nil _⟩
  | append_singleton stored value ih =>
    rw [filterMap_append, foldl_append]
    cases hval : normalizeOpenPosition value with
    | none => simpa [hval] using ih
    | some position =>
      simp only [filterMap_cons, hval]
      exact ih.put rfl (resumable_of_normalize hval)

lemma OpenOk.resumedOpen (h : OpenOk opened) :
    resumedOpen ((opened.map snd).map stored) = opened := by
  have hread : ((opened.map snd).map stored).filterMap
      normalizeOpenPosition = opened.map snd := by
    rw [filterMap_map]
    refine (filterMap_congr fun position hpos => ?_).trans filterMap_some
    obtain ⟨entry, hent, rfl⟩ := mem_map.mp hpos
    exact (h.entries entry hent).2
  have hput : ∀ record, (opened.map snd).foldl
      (fun record position => Keyed.put record position.key position) record =
        opened.foldl (fun record entry => Keyed.put record entry.1 entry.2) record := by
    intro record
    rw [foldl_map]
    exact foldl_ext _ _ _ fun record entry hent => by rw [(h.entries entry hent).1]
  have hnodup : ((([] : List (String × TypeReplayOpenPosition)) ++ opened).map fst).Nodup :=
    h.unique
  unfold CtsEngine.resumedOpen
  rw [hread, hput, Keyed.foldl_put_of_new hnodup, nil_append]

lemma rowRule_ne_empty (row : IndicationRow) : rowRule row ≠ "" := by
  unfold rowRule
  split
  · split
    · decide
    · intro h
      have hlen := congrArg String.length h
      rw [String.length_append] at hlen
      have htwo : "tf".length = 2 := by decide
      have hnone : "".length = 0 := by decide
      omega
  · unfold strOr
    split
    · split
      · decide
      · rename_i mode _ hmode
        exact hmode
    · decide

lemma OpenOk.filter (h : OpenOk opened) (p : String × TypeReplayOpenPosition → Bool) :
    OpenOk (opened.filter p) :=
  ⟨h.unique.sublist (filter_sublist.map _),
    fun entry hent => h.entries entry (mem_of_mem_filter hent)⟩

section Bar

variable {bar : ReplayCandle} {run : ReplayRun}

lemma OpenOk.enterRow (h : OpenOk run.opened) (hcl : 0 < bar.close) (hend : 0 < bar.barEnd)
    (row : IndicationRow) : OpenOk (enterRow input bar run row).opened := by
  unfold CtsEngine.enterRow
  dsimp only
  split
  · split
    · exact h
    · split
      · exact h
      · rename_i htype
        split
        · exact h
        · split
          · rename_i hprotn
            have hent : (0 : ℚ) < (bar.barEnd : ℤ) := by exact_mod_cast hend
            refine h.put rfl (resumable_iff.mpr ?_)
            exact ⟨rfl, htype, rowRule_ne_empty row, hent, hcl, hprotn.1, hprotn.2⟩
          · exact h
  · exact h

lemma OpenOk.processBar (h : OpenOk run.opened) (hcl : 0 < bar.close) (hend : 0 < bar.barEnd)
    (bars : List ReplayCandle) (index : ℕ) :
    OpenOk (processBar code input bars bar index run).opened := by
  have hsettl : OpenOk (settleExits code input bar run).opened := h.filter _
  have hrows : ∀ (rows : List IndicationRow) (run : ReplayRun), OpenOk run.opened →
      OpenOk (rows.foldl (CtsEngine.enterRow input bar) run).opened := by
    intro rows
    induction rows with
    | nil => exact fun run hrun => hrun
    | cons row rows ih => exact fun run hrun => ih _ (hrun.enterRow hcl hend row)
  unfold CtsEngine.processBar
  dsimp only
  split
  · exact hsettl
  · split
    · exact hsettl
    · split
      · exact hsettl
      · exact hrows _ _ hsettl

lemma lastBarMs_processBar (bars : List ReplayCandle) (index : ℕ) :
    (processBar code input bars bar index run).lastBarMs = some bar.timestamp := by
  have hrow : ∀ (run : ReplayRun) (row : IndicationRow),
      (enterRow input bar run row).lastBarMs = run.lastBarMs := by
    intro run row
    unfold enterRow
    dsimp only
    repeat' split
    all_goals rfl
  have hrows : ∀ (rows : List IndicationRow) (run : ReplayRun),
      (rows.foldl (enterRow input bar) run).lastBarMs = run.lastBarMs := by
    intro rows
    induction rows with
    | nil => exact fun run => rfl
    | cons row rows ih => exact fun run => (ih _).trans (hrow run row)
  unfold processBar
  dsimp only
  split
  · rfl
  · split
    · rfl
    · split
      · rfl
      · unfold decideBar
        rw [hrows]

end Bar

/-! ## The two calls -/

/-- The call on the bars up to a split. -/
def TypeReplayInput.upTo (input : TypeReplayInput Settings Summaries) (split : ℚ) :
    TypeReplayInput Settings Summaries :=
  { input with bars := input.bars.filter (·.upTo split) }

/-- The call on all the bars that resumes after a result. -/
def TypeReplayInput.resume (input : TypeReplayInput Settings Summaries)
    (result : TypeReplayResult) : TypeReplayInput Settings Summaries :=
  { input with
    initialOpen := result.opened.map stored
    resumeAfterMs := result.lastBarMs.map fun lastBarMs => (lastBarMs : ℚ) }

/-- Bars that are fit for a replay: not before the epoch and complete at the end of the range. -/
structure TypeReplayInput.Fit (input : TypeReplayInput Settings Summaries) : Prop where
  epoch : ∀ bar ∈ input.bars, ∀ candle ∈ bar.candle, 0 ≤ candle.timestamp
  complete : ∃ rangeEndMs, input.rangeEndMs = some rangeEndMs ∧
    ∀ bar ∈ normalizeBars input.bars, ((bar.barEnd : ℤ) : ℚ) ≤ rangeEndMs

section Calls

variable {first later : List ReplayCandle} {run : ReplayRun}

lemma TypeReplayInput.Fit.epoch_normalized (hfit : input.Fit) :
    ∀ bar ∈ normalizeBars input.bars, 0 ≤ bar.timestamp := by
  intro bar hbar
  obtain ⟨raw, hraw, hcand⟩ := (normalizeBars_spec input.bars).2 bar hbar
  exact hfit.epoch raw hraw bar hcand

/-- The bars end before the end of the range, whatever bars a call is given. -/
lemma TypeReplayInput.Fit.le_endMs (hfit : input.Fit) (bars : List ReplayCandle) :
    ∀ bar ∈ normalizeBars input.bars, ((bar.barEnd : ℤ) : ℚ) ≤ input.endMs bars := by
  intro bar hbar
  obtain ⟨rangeEndMs, hrange, hcomp⟩ := hfit.complete
  have hend := hcomp bar hbar
  have hpos : (0 : ℚ) < (bar.barEnd : ℤ) := by
    have hlt := bar.lt_barEnd
    have hepoch := hfit.epoch_normalized bar hbar
    exact_mod_cast lt_of_le_of_lt hepoch hlt
  have hne : rangeEndMs ≠ 0 := ne_of_gt (lt_of_lt_of_le hpos hend)
  unfold endMs numOrConst
  rw [hrange]
  simpa [numOr, hne] using hend

lemma processBars_append (hcaus : input.Causal) (run : ReplayRun) :
    processBars code input (first ++ later) first.zipIdx run =
      processBars code input first first.zipIdx run := by
  refine foldl_ext _ _ _ fun run entry hent => ?_
  have hidx : entry.2 < first.length := snd_lt_of_mem_zipIdx hent
  exact processBar_append hcaus hidx entry.1 run

lemma OpenOk.processBars (h : OpenOk run.opened) (bars : List ReplayCandle)
    {entries : List (ReplayCandle × ℕ)}
    (hents : ∀ entry ∈ entries, 0 < entry.1.close ∧ 0 < entry.1.barEnd) :
    OpenOk (processBars code input bars entries run).opened := by
  induction entries generalizing run with
  | nil => exact h
  | cons entry entries ih =>
    obtain ⟨⟨hcl, hend⟩, hents⟩ := forall_mem_cons.mp hents
    exact ih (h.processBar hcl hend bars entry.2) hents

lemma lastBarMs_processBars (bars : List ReplayCandle) (entries : List (ReplayCandle × ℕ))
    (last : ReplayCandle × ℕ) :
    (processBars code input bars (entries ++ [last]) run).lastBarMs = some last.1.timestamp := by
  unfold processBars
  rw [foldl_append]
  exact lastBarMs_processBar bars last.2

/-- A bar at the epoch changes nothing: no position can have been opened by then. -/
lemma processBar_epoch (hopen : OpenOk run.opened) {bar : ReplayCandle} (hbar : bar.timestamp = 0)
    (bars : List ReplayCandle) :
    processBar code input bars bar 0 run = { run with lastBarMs := some 0 } := by
  have hstays : ∀ entry ∈ run.opened, replayExit input bar entry.2 = none := by
    intro entry hent
    have hentTime := (resumable_iff.mp (hopen.entries entry hent).2).2.2.2.1
    unfold replayExit
    rw [hbar, if_pos (by exact_mod_cast hentTime)]
  have hsettl : settleExits code input bar run = run := by
    unfold settleExits
    rw [filterMap_eq_nil_iff.mpr fun entry hent => by rw [hstays entry hent]; rfl,
      filter_eq_self.mpr fun entry hent => by rw [hstays entry hent]; rfl,
      append_nil]
  have hearly : 0 + 1 < engineStageHistoryMinutes := by decide
  unfold processBar
  rw [if_pos (.inl hearly), hsettl, hbar]

lemma filter_isHistory_of_none (hresum : numOr input.resumeAfterMs none = none)
    (entries : List (ReplayCandle × ℕ)) :
    (entries.filter fun entry => !input.isHistory entry.1) = entries := by
  refine filter_eq_self.mpr fun entry _ => ?_
  unfold isHistory
  rw [hresum]
  rfl

lemma filter_isHistory_of_last {last : ReplayCandle} {time : ℚ}
    (hresum : numOr input.resumeAfterMs none = some time) (htime : time = last.timestamp)
    (hsort : (first ++ [last] ++ later).Pairwise fun a b => a.timestamp < b.timestamp) (n : ℕ) :
    (((first ++ [last]).zipIdx ++ later.zipIdx n).filter fun entry => !input.isHistory entry.1) =
      later.zipIdx n := by
  obtain ⟨hfst, -, hlate⟩ := pairwise_append.mp hsort
  have hpast : ∀ entry ∈ (first ++ [last]).zipIdx, ¬ (!input.isHistory entry.1) = true := by
    intro entry hent
    have hle : entry.1.timestamp ≤ last.timestamp := by
      rcases mem_append.mp (fst_mem_of_mem_zipIdx hent) with hmem | hmem
      · exact le_of_lt ((pairwise_append.mp hfst).2.2 _ hmem _ (mem_singleton_self _))
      · rw [mem_singleton.mp hmem]
    have hcast : (entry.1.timestamp : ℚ) ≤ time := by
      rw [htime]
      exact_mod_cast hle
    unfold isHistory
    rw [hresum]
    simpa using hcast
  have hcomin : ∀ entry ∈ later.zipIdx n, (!input.isHistory entry.1) = true := by
    intro entry hent
    have hlt := hlate last (mem_concat_self) _ (fst_mem_of_mem_zipIdx hent)
    have hcast : time < (entry.1.timestamp : ℚ) := by
      rw [htime]
      exact_mod_cast hlt
    unfold isHistory
    rw [hresum]
    simpa using hcast
  rw [filter_append, filter_eq_nil_iff.mpr hpast, filter_eq_self.mpr hcomin, nil_append]

/-- The later bars replay the same from the saved state. -/
lemma exists_resumes {done : ReplayRun} (hopen : OpenOk opened)
    (hdone : done = processBars code input (first ++ later) first.zipIdx { opened := opened })
    (hepoch : ∀ bar ∈ first ++ later, 0 ≤ bar.timestamp)
    (hsort : (first ++ later).Pairwise fun a b => a.timestamp < b.timestamp) :
    ∃ start, Resumes done.closes done.lastBarMs done start ∧
      processBars code input (first ++ later) ((first ++ later).zipIdx.filter fun entry =>
          !(input.resume done.finish).isHistory entry.1) { opened := done.opened } =
        processBars code input (first ++ later) (later.zipIdx first.length) start := by
  have hzip : (first ++ later).zipIdx = first.zipIdx ++ later.zipIdx first.length := by
    rw [zipIdx_append, Nat.zero_add]
  rcases eq_nil_or_concat' first with rfl | ⟨front, last, rfl⟩
  · -- no bar up to the split: the second call processes them all
    have hresum : numOr (input.resume done.finish).resumeAfterMs none = none := by
      rw [hdone]
      rfl
    refine ⟨{ opened := done.opened }, ?_, ?_⟩
    · rw [hdone]
      exact ⟨rfl, rfl, rfl⟩
    · rw [filter_isHistory_of_none hresum]
      rfl
  · have hlast : done.lastBarMs = some last.timestamp := by
      rw [hdone, zipIdx_append]
      exact lastBarMs_processBars _ _ (last, _)
    have hst : (input.resume done.finish).resumeAfterMs = some (last.timestamp : ℚ) := by
      unfold resume ReplayRun.finish
      rw [hlast]
      rfl
    by_cases hzero : last.timestamp = 0
    · -- a last bar at the epoch is read as no bar; it is then the only first bar
      have hnone : front = [] := by
        rw [eq_nil_iff_forall_not_mem]
        intro bar hbar
        have hbef := (pairwise_append.mp (pairwise_append.mp hsort).1).2.2 bar hbar
          last (mem_singleton_self last)
        have hle := hepoch bar (mem_append_left _ (mem_append_left _ hbar))
        omega
      subst hnone
      have hresum : numOr (input.resume done.finish).resumeAfterMs none = none := by
        rw [hst, hzero]
        rfl
      have hfst : done = { opened := opened, lastBarMs := some 0 } :=
        hdone.trans (processBar_epoch hopen hzero ([] ++ [last] ++ later))
      refine ⟨{ opened := opened, lastBarMs := some 0 }, ?_, ?_⟩
      · rw [hfst]
        exact ⟨rfl, rfl, rfl⟩
      · rw [filter_isHistory_of_none hresum, hfst]
        exact congrArg (fun run => List.foldl _ run _)
          (processBar_epoch hopen hzero ([] ++ [last] ++ later))
    · have hresum : numOr (input.resume done.finish).resumeAfterMs none =
          some (last.timestamp : ℚ) := by
        rw [hst]
        exact if_neg (by exact_mod_cast hzero)
      refine ⟨{ opened := done.opened }, ⟨rfl, (append_nil _).symm, rfl⟩, ?_⟩
      rw [hzip, filter_isHistory_of_last hresum rfl hsort]

end Calls

/-- **A resumed replay continues the first one.** For fit bars and a split between minutes, the
closes of the two calls, the open positions of the second and the last bar of the two are those of
one call over all the bars. -/
theorem replay_resume {split : ℚ} (hresume : input.resumeAfterMs = none) (hfit : input.Fit)
    (hcausal : input.Causal) (hkeeps : KeepsMinutes split input.bars) :
    (replayDirectIndicationTypes code (input.upTo split)).closes ++
        (replayDirectIndicationTypes code
          (input.resume (replayDirectIndicationTypes code (input.upTo split)))).closes =
      (replayDirectIndicationTypes code input).closes ∧
    (replayDirectIndicationTypes code
        (input.resume (replayDirectIndicationTypes code (input.upTo split)))).opened =
      (replayDirectIndicationTypes code input).opened ∧
    ((replayDirectIndicationTypes code
          (input.resume (replayDirectIndicationTypes code (input.upTo split)))).lastBarMs <|>
        (replayDirectIndicationTypes code (input.upTo split)).lastBarMs) =
      (replayDirectIndicationTypes code input).lastBarMs := by
  obtain ⟨later, hbars⟩ := normalizeBars_upTo hkeeps
  obtain ⟨hsorted, -⟩ := normalizeBars_spec input.bars
  have hepoch := hfit.epoch_normalized
  have hprice : ∀ bar ∈ normalizeBars input.bars, 0 < bar.close := by
    intro bar hbar
    obtain ⟨raw, -, hcandle⟩ := (normalizeBars_spec input.bars).2 bar hbar
    obtain ⟨-, -, -, hclose⟩ := RawBar.candle_spec hcandle
    exact hclose
  have hpositive : ∀ bar ∈ normalizeBars input.bars, 0 < bar.barEnd := fun bar hbar =>
    lt_of_le_of_lt (hepoch bar hbar) bar.lt_barEnd
  have hcomplete := hfit.le_endMs
  set first := normalizeBars (input.bars.filter (·.upTo split)) with hfirst
  set opened := resumedOpen input.initialOpen
  rw [hbars] at hsorted hepoch hprice hpositive hcomplete
  -- the run over the first bars, among all the bars
  set done := processBars code input (first ++ later) first.zipIdx { opened := opened } with hdone
  have hnone : numOr input.resumeAfterMs none = none := by
    rw [hresume]
    rfl
  have hnone' : numOr (input.upTo split).resumeAfterMs none = none := hnone
  have hfirstCall : replayDirectIndicationTypes code (input.upTo split) = done.finish := by
    have hcomplete' : ∀ entry ∈ first.zipIdx,
        ((entry.1.barEnd : ℤ) : ℚ) ≤ (input.upTo split).endMs first := fun entry hentry =>
      hcomplete first entry.1 (mem_append_left _ (fst_mem_of_mem_zipIdx hentry))
    calc replayDirectIndicationTypes code (input.upTo split)
        = (replayBars code (input.upTo split) first first.zipIdx { opened := opened }).finish := rfl
      _ = (processBars code input first first.zipIdx { opened := opened }).finish := by
          rw [replayBars_eq hcomplete', filter_isHistory_of_none hnone']
          rfl
      _ = done.finish := by rw [hdone, processBars_append hcausal]
  have hwhole : replayDirectIndicationTypes code input =
      (processBars code input (first ++ later) (later.zipIdx first.length) done).finish := by
    have hcomplete' : ∀ entry ∈ (first ++ later).zipIdx,
        ((entry.1.barEnd : ℤ) : ℚ) ≤ input.endMs (first ++ later) := fun entry hentry =>
      hcomplete (first ++ later) entry.1 (fst_mem_of_mem_zipIdx hentry)
    unfold replayDirectIndicationTypes
    dsimp only
    rw [hbars, replayBars_eq hcomplete', filter_isHistory_of_none hnone, zipIdx_append,
      Nat.zero_add, hdone]
    unfold processBars
    rw [foldl_append]
  rw [hfirstCall, hwhole]
  have hopen : OpenOk done.opened := by
    refine (openOk_resumedOpen input.initialOpen).processBars _ fun entry hentry => ?_
    have hmem := mem_append_left later (fst_mem_of_mem_zipIdx hentry)
    exact ⟨hprice _ hmem, hpositive _ hmem⟩
  obtain ⟨start, hresumes, hstart⟩ :=
    exists_resumes (openOk_resumedOpen input.initialOpen) hdone hepoch hsorted
  have hsecond : replayDirectIndicationTypes code (input.resume done.finish) =
      (processBars code input (first ++ later) (later.zipIdx first.length) start).finish := by
    have hcomplete' : ∀ entry ∈ (first ++ later).zipIdx,
        ((entry.1.barEnd : ℤ) : ℚ) ≤ (input.resume done.finish).endMs (first ++ later) :=
      fun entry hentry =>
        hcomplete (first ++ later) entry.1 (fst_mem_of_mem_zipIdx hentry)
    have hopened : resumedOpen (input.resume done.finish).initialOpen = done.opened :=
      hopen.resumedOpen
    unfold replayDirectIndicationTypes
    dsimp only
    rw [hopened, ← hstart]
    have hsame : normalizeBars (input.resume done.finish).bars = first ++ later := hbars
    rw [hsame, replayBars_eq hcomplete']
    rfl
  rw [hsecond]
  have hboth : Resumes done.closes done.lastBarMs
      (processBars code input (first ++ later) (later.zipIdx first.length) done)
      (processBars code input (first ++ later) (later.zipIdx first.length) start) :=
    hresumes.processBars _ _
  refine ⟨hboth.closes.symm, ?_, hboth.lastBarMs.symm⟩
  unfold ReplayRun.finish
  rw [hboth.opened]

/-! ## The two calls and one call on samples -/

/-- The two calls give the closes, the open positions and the last bar of one call. -/
def ResumesAsOne (code : ReplayCode Settings Summaries)
    (input : TypeReplayInput Settings Summaries) (split : ℚ) : Prop :=
  let first := replayDirectIndicationTypes code (input.upTo split)
  let second := replayDirectIndicationTypes code (input.resume first)
  let whole := replayDirectIndicationTypes code input
  first.closes ++ second.closes = whole.closes ∧ second.opened = whole.opened ∧
    second.lastBarMs = whole.lastBarMs

instance (split : ℚ) : Decidable (ResumesAsOne code input split) :=
  inferInstanceAs (Decidable (_ ∧ _ ∧ _))

/-- A long indication at every decision with step indicators. -/
def sampleReplayCode : ReplayCode Unit Bool where
  autoEnabled _ := true
  coordinatedTimeframes _ := [1, 5, 15, 30]
  coordinationPassed _ _ _ := true
  computeDirectIndications direct :=
    (if direct.stepIndicators then [{ type := "auto", direction := "long" }] else [], [])
  simulatedCloseCostPercent cost := cost
  commonWindowStartMs time := time - 90 * minuteMs
  noSummaries := false

def sampleReplayBar (time close : ℚ) : RawBar where
  timestamp := some { date := some time }
  close := some { number := some close }

def sampleReplayInput (bars : List RawBar) (series : List ReplayCandle → List ℤ → ℕ → Bool)
    (initialOpen : List StoredOpenPosition) : TypeReplayInput Unit Bool where
  symbol := "BTCUSDT"
  bars := bars
  rangeStartMs := some (-90 * 60000)
  rangeEndMs := some 6000000
  positionCostPct := some (1 / 10)
  indicationSettings := ()
  protectionFor _ _ _ := ⟨10, 5⟩
  stepIndicatorsFor := none
  stepIndicatorSeries := some series
  initialOpen := initialOpen

def sampleLong : StoredOpenPosition where
  type := "direction"
  direction := "long"
  rule := "momentum"
  entryTime := some 60000
  entryPrice := some 100
  takeProfitPct := some 10
  stopLossPct := some 5

def sampleRaw : List RawBar := [sampleReplayBar 120000 100, sampleReplayBar 180000 120]

def sampleReplay : TypeReplayInput Unit Bool :=
  sampleReplayInput sampleRaw (fun _ _ _ => true) [sampleLong]

theorem replay_resume_long :
    ((replayDirectIndicationTypes sampleReplayCode (sampleReplay.upTo 120000)).closes ++
      (replayDirectIndicationTypes sampleReplayCode (sampleReplay.resume
        (replayDirectIndicationTypes sampleReplayCode (sampleReplay.upTo 120000)))).closes).map
          (fun close => (close.exitTime, close.reason)) = [(180000, .takeProfit)] := by
  have hraw : ∀ bar ∈ sampleRaw, ∀ candle ∈ bar.candle, 0 ≤ candle.timestamp := by decide +kernel
  have hfit : sampleReplay.Fit := ⟨hraw, 6000000, rfl, by decide +kernel⟩
  have hcausal : sampleReplay.Causal := by
    intro series hseries bars later timeframes index _
    cases hseries
    rfl
  have hkeeps : KeepsMinutes 120000 sampleRaw := by
    unfold KeepsMinutes
    decide +kernel
  rw [(replay_resume rfl hfit hcausal hkeeps).1]
  decide +kernel

/-- Ninety minutes at a price of 100 from a time on, and one at 120. -/
def sampleRise (start : ℚ) : List RawBar :=
  (List.range 90).map (fun minute => sampleReplayBar (start + minute * 60000) 100) ++
    [sampleReplayBar (start + 90 * 60000) 120]

/-- No bar follows the split; the split divides a minute; a position is opened at the epoch; the
step indicators read later bars. -/
theorem not_resumesAsOne : ¬ ResumesAsOne sampleReplayCode
        (sampleReplayInput [sampleReplayBar 120000 100] (fun _ _ _ => true) []) 120000 ∧
    ¬ ResumesAsOne sampleReplayCode
        (sampleReplayInput [sampleReplayBar 120000 100, sampleReplayBar 150000 120]
          (fun _ _ _ => true) [sampleLong]) 120000 ∧
    ¬ ResumesAsOne sampleReplayCode
        (sampleReplayInput (sampleRise (-90 * 60000)) (fun _ _ _ => true) []) (-60000) ∧
    ¬ ResumesAsOne sampleReplayCode
        (sampleReplayInput (sampleRise 60000) (fun bars _ _ => 90 < bars.length) [])
        (90 * 60000) := by
  refine ⟨?_, ?_, ?_, ?_⟩
  · decide +kernel
  · decide +kernel
  · decide +kernel
  · decide +kernel

end CtsEngine
