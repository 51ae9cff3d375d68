import CtsEngine.Foundation.Occupancy
import CtsEngine.ShortRange.Exits

/-!
# The life of an entry

What becomes of a signal that is taken depends on the bars after its decision close and on nothing
else: the close it ends in, if any, the time its key is free again, and whether it is missed.  This
is its `Life`.  An evaluator then only decides which signals are taken, and that is
`Occupancy.taken` with the keys of the signals and the releases of their lives.
-/

namespace CtsEngine

open List Keyed Occupancy ResearchSignal

/-- What becomes of an entry. -/
structure Life where
  close : Option MakerResearchClose
  release : WithTop ℤ
  missed : Bool

/-- The life of a position over the bars after its fill. -/
def Filled.life (strict : Bool) (config : ExitConfig) (entry : Filled)
    (bars : List ReplayCandle) : Life :=
  match bars.findSome? (fixedExitOn strict entry.signal.long entry.stopPrice entry.targetPrice
    config entry.fillTime) with
  | none => ⟨none, ⊤, false⟩
  | some exit => ⟨some (entry.makerClose exit), exit.barEnd, false⟩

/-- The life of a resting entry over the bars from its decision close. -/
def Resting.life (config : ExitConfig) (order : Resting) : List ReplayCandle → Life
  | [] => ⟨none, (order.expiresAt + minuteMs : ℤ), true⟩
  | bar :: rest =>
    match restingOnBar config bar order with
    | .rests => order.life config rest
    | .expires => ⟨none, (order.expiresAt + minuteMs : ℤ), true⟩
    | .stopped entry exit => ⟨some (entry.makerClose exit), exit.barEnd, false⟩
    | .fills entry => entry.life true config rest

/-- The life of a signal that is taken. -/
def ResearchSignal.life (config : ExitConfig) (maker : Option MakerExecution)
    (signal : ResearchSignal) (bars : List ReplayCandle) : Life :=
  match maker with
  | none => (Filled.enter config signal signal.entryPrice signal.entryTime).life false config bars
  | some maker => (maker.rest signal).life config bars

/-- The bars that start at a time or later. -/
def barsFrom (bars : List ReplayCandle) (time : ℤ) : List ReplayCandle :=
  bars.dropWhile fun bar => bar.timestamp < time

/-- The life of a signal on a series of bars. -/
def lifeOn (bars : List ReplayCandle) (config : ExitConfig) (maker : Option MakerExecution)
    (signal : ResearchSignal) : Life :=
  signal.life config maker (barsFrom bars signal.entryTime)

/-- The time at which the key of a taken signal is free again. -/
def releaseOn (bars : List ReplayCandle) (config : ExitConfig) (maker : Option MakerExecution)
    (signal : ResearchSignal) : WithTop ℤ :=
  (lifeOn bars config maker signal).release

/-- The signals that are taken after `holders`. -/
def takenOn (bars : List ReplayCandle) (config : ExitConfig) (maker : Option MakerExecution)
    (holders signals : List ResearchSignal) : List ResearchSignal :=
  taken key entryTime (releaseOn bars config maker)
    holders signals

variable {bars after : List ReplayCandle} {config : ExitConfig} {bar : ReplayCandle}

lemma takenOn_append {maker : Option MakerExecution} (holders xs ys : List ResearchSignal) :
    takenOn bars config maker holders (xs ++ ys) = takenOn bars config maker holders xs ++
      takenOn bars config maker (holders ++ takenOn bars config maker holders xs) ys :=
  taken_append holders xs ys

lemma barsFrom_append {before : List ReplayCandle} {time : ℤ}
    (hbef : ∀ bar ∈ before, bar.timestamp < time) (hafter : ∀ bar ∈ after, time ≤ bar.timestamp) :
    barsFrom (before ++ after) time = after := by
  unfold barsFrom
  have hall : ∀ bar ∈ before, decide (bar.timestamp < time) = true := fun bar hbar =>
    decide_eq_true (hbef bar hbar)
  rw [dropWhile_append_of_pos hall]
  cases after with
  | nil => rfl
  | cons bar after =>
    have hbar := hafter bar (mem_cons_self ..)
    exact dropWhile_cons_of_neg (by simpa using hbar)

lemma Contiguous.before {before : List ReplayCandle} (h : Contiguous (before ++ bar :: after)) :
    ∀ prev ∈ before, prev.barEnd ≤ bar.timestamp := by
  induction before with
  | nil => exact fun prev hprev => by cases hprev
  | cons first before ih =>
    intro prev hprev
    rcases mem_cons.mp hprev with rfl | hprev
    · exact Contiguous.barEnd_le h bar (mem_append_right _ (mem_cons_self ..))
    · exact ih (Contiguous.tail h) prev hprev

lemma Contiguous.right {before : List ReplayCandle} (h : Contiguous (before ++ after)) :
    Contiguous after := List.IsChain.right_of_append h

lemma Contiguous.barsFrom_barEnd {before : List ReplayCandle}
    (h : Contiguous (before ++ bar :: after)) :
    barsFrom (before ++ bar :: after) bar.barEnd = after := by
  have hlt := bar.lt_barEnd
  rw [append_cons]
  refine barsFrom_append (fun prev hprev => ?_) h.right.barEnd_le
  rcases mem_append.mp hprev with hprev | hprev
  · have hend := h.before prev hprev
    have hprevLt := prev.lt_barEnd
    omega
  · obtain rfl := mem_singleton.mp hprev
    exact hlt

lemma Contiguous.barsFrom_timestamp {before : List ReplayCandle}
    (h : Contiguous (before ++ bar :: after)) :
    barsFrom (before ++ bar :: after) bar.timestamp = bar :: after := by
  refine barsFrom_append (fun prev hprev => ?_) (fun next hnext => ?_)
  · have hend := h.before prev hprev
    have hlt := prev.lt_barEnd
    omega
  · rcases mem_cons.mp hnext with rfl | hnext
    · exact le_rfl
    · have hend := h.right.barEnd_le next hnext
      have hlt := bar.lt_barEnd
      omega

/-! ## One bar of a life -/

lemma fixedExitOn_barEnd {strict long : Bool} {stop target : ℚ} {fillTime : ℤ} {exit : BarExit}
    (h : fixedExitOn strict long stop target config fillTime bar = some exit) :
    exit.barEnd = bar.barEnd := by
  unfold fixedExitOn holdExit at h
  split at h
  · cases h
    rfl
  · split at h
    · cases h
      rfl
    · split at h
      · cases h
        rfl
      · split at h
        · cases h
          rfl
        · split at h
          · cases h
            rfl
          · cases h

/-- The exit of a position on a bar, for a fixed target. -/
def Filled.fixedExit (strict : Bool) (config : ExitConfig) (entry : Filled)
    (bar : ReplayCandle) : Option BarExit :=
  fixedExitOn strict entry.signal.long entry.stopPrice entry.targetPrice config entry.fillTime bar

lemma exitOnBar_of_fixed {strict : Bool} {entry : Filled} (hfixed : config.trailingStart = none)
    (hent : entry.trailing = false) (hfill : entry.fillTime ≤ bar.timestamp) :
    exitOnBar strict config bar entry = (entry.fixedExit strict config bar, entry) := by
  unfold exitOnBar Filled.fixedExit fixedExitOn
  simp only [hfixed, hent, not_lt.mpr hfill, true_and, if_false]
  split
  · rfl
  · split
    · rfl
    · split
      · rfl
      · split <;> rfl

namespace Filled

variable {strict : Bool} {config : ExitConfig} {entry : Filled} {bar : ReplayCandle}
  {rest : List ReplayCandle}

lemma life_of_exit {exit : BarExit} (h : entry.fixedExit strict config bar = some exit) :
    entry.life strict config (bar :: rest) = ⟨some (entry.makerClose exit), bar.barEnd, false⟩ := by
  unfold life
  rw [findSome?_cons]
  unfold fixedExit at h
  rw [h, ← fixedExitOn_barEnd h]

lemma life_of_no_exit (h : entry.fixedExit strict config bar = none) :
    entry.life strict config (bar :: rest) = entry.life strict config rest := by
  unfold life
  rw [findSome?_cons]
  unfold fixedExit at h
  rw [h]

lemma lt_release {time : ℤ} (h : ∀ bar ∈ rest, time ≤ bar.timestamp) :
    Occupancy.Before time (entry.life strict config rest).release := by
  induction rest with
  | nil => exact before_top time
  | cons bar rest ih =>
    obtain ⟨hbar, hrest⟩ := forall_mem_cons.mp h
    cases hexit : entry.fixedExit strict config bar with
    | none =>
      rw [life_of_no_exit hexit]
      exact ih hrest
    | some exit =>
      rw [life_of_exit hexit]
      have hlt := bar.lt_barEnd
      exact before_coe.mpr (by omega)

lemma missed_life : (entry.life strict config rest).missed = false := by
  unfold life
  split <;> rfl

end Filled

lemma Resting.life_eq {order : Resting} (h : ∀ bar ∈ bars, order.signal.entryTime ≤ bar.timestamp) :
    order.life config bars =
      match findFill order.signal.long order.limit order.expiresAt bars with
      | none => ⟨none, (order.expiresAt + minuteMs : ℤ), true⟩
      | some (bar, after) =>
        let filled := Filled.enter config order.signal
          (fillPrice order.signal.long bar order.limit) bar.timestamp
        if stopHit order.signal.long (bar.worst order.signal.long) filled.stopPrice then
          ⟨some (filled.makerClose ⟨bar.barEnd, bar.barEnd, filled.stopPrice, .stopLoss, .taker⟩),
            bar.barEnd, false⟩
        else ({ filled with fillTime := bar.barEnd } : Filled).life true config after := by
  induction bars with
  | nil => rfl
  | cons bar rest ih =>
    obtain ⟨hbar, hrest⟩ := forall_mem_cons.mp h
    unfold Resting.life findFill restingOnBar
    simp only [not_lt.mpr hbar, if_false]
    by_cases hexp : order.expiresAt ≤ bar.timestamp
    · rw [if_pos hexp, if_neg (not_lt.mpr hexp)]
    · rw [if_neg hexp, if_pos (not_le.mp hexp)]
      cases hthrou : tradesThrough order.signal.long bar order.limit with
      | false =>
        exact ih hrest
      | true =>
        simp only [not_true_eq_false, if_true, if_false]
        generalize Filled.enter config order.signal
          (fillPrice order.signal.long bar order.limit) bar.timestamp = filled
        by_cases hstop :
            stopHit order.signal.long (bar.worst order.signal.long) filled.stopPrice = true
        · simp only [hstop, if_true]
        · simp only [hstop, Bool.false_eq_true, if_false]

/-! ## The scan takes the signals whose key is free -/

/-- Booking the life of a taken signal. -/
def SparseRun.book (run : SparseRun) (placed : ℕ) (key : String) (life : Life) : SparseRun where
  closes := run.closes ++ life.close.toList
  placed := run.placed + placed
  missed := run.missed + if life.missed then 1 else 0
  freeAt := put run.freeAt key life.release

lemma SparseRun.exitEntry_eq (run : SparseRun) (strict : Bool) (config : ExitConfig)
    (entry : Filled) (bars : List ReplayCandle) : run.exitEntry strict config entry bars =
      run.book 0 entry.signal.key (entry.life strict config bars) := by
  unfold exitEntry book Filled.life
  cases bars.findSome? (fixedExitOn strict entry.signal.long entry.stopPrice entry.targetPrice
    config entry.fillTime) with
  | none => simp
  | some exit => simp

lemma SparseRun.placeMaker_eq (run : SparseRun) (config : ExitConfig) (maker : MakerExecution)
    (signal : ResearchSignal) (h : ∀ bar ∈ bars, signal.entryTime ≤ bar.timestamp) :
    run.placeMaker config maker signal bars =
      run.book 1 signal.key ((maker.rest signal).life config bars) := by
  rw [Resting.life_eq h]
  unfold placeMaker MakerExecution.rest
  dsimp only
  cases findFill signal.long (levelAt signal.entryPrice signal.long (-1) maker.offset)
    (signal.entryTime + maker.windowMs) bars with
  | none => simp [book]
  | some fill =>
    dsimp only
    split
    · simp [book]
    · rw [exitEntry_eq]
      simp [book, Filled.enter]

/-- The placements that one taken signal counts as. -/
def placements (maker : Option MakerExecution) : ℕ := if maker.isSome then 1 else 0

section Sparse

variable {bars : List ReplayCandle} {barIndexAt : ℤ → Option ℕ} {config : ExitConfig}
  {maker : Option MakerExecution}

/-- The map of the timestamps of the bars to their positions. -/
def IndexOf (bars : List ReplayCandle) (barIndexAt : ℤ → Option ℕ) : Prop :=
  ∀ time index, barIndexAt time = some index ↔ ∃ bar, bars[index]? = some bar ∧ bar.timestamp = time

lemma Contiguous.drop_eq {index : ℕ} {bar : ReplayCandle} (h : Contiguous bars)
    (hbar : bars[index]? = some bar) : bars.drop index = barsFrom bars bar.timestamp := by
  obtain ⟨hlt, hget⟩ := List.getElem?_eq_some_iff.mp hbar
  have hdrop : bars.drop index = bar :: bars.drop (index + 1) := by
    rw [drop_eq_getElem_cons hlt, hget]
  have hsplit : bars = bars.take index ++ bar :: bars.drop (index + 1) := by
    rw [← hdrop, take_append_drop]
  rw [hdrop]
  rw [hsplit] at h
  have hfrom := h.barsFrom_timestamp
  rw [← hsplit] at hfrom
  exact hfrom.symm

lemma mem_barsFrom {time : ℤ} (h : Contiguous bars) :
    ∀ bar ∈ barsFrom bars time, time ≤ bar.timestamp := by
  unfold barsFrom
  cases hdrop : bars.dropWhile fun bar => decide (bar.timestamp < time) with
  | nil => exact fun bar hbar => by cases hbar
  | cons first rest =>
    have hfst : ¬ first.timestamp < time := by
      have hhead := head?_dropWhile_not
        (fun bar : ReplayCandle => decide (bar.timestamp < time)) bars
      rw [hdrop] at hhead
      simpa using hhead
    have hsuff : Contiguous (first :: rest) := by
      rw [← hdrop]
      exact List.IsChain.suffix h (dropWhile_suffix _)
    intro bar hbar
    rcases mem_cons.mp hbar with rfl | hbar
    · exact not_lt.mp hfst
    · have hend := hsuff.barEnd_le bar hbar
      have hlt := first.lt_barEnd
      omega

lemma SparseRun.holdsKey_iff (run : SparseRun) (signal : ResearchSignal) :
    run.holdsKey signal = true ↔ ∃ free, get? run.freeAt signal.key = some free ∧
      Occupancy.Before signal.entryTime free := by
  unfold holdsKey
  cases get? run.freeAt signal.key with
  | none => simp
  | some free =>
    cases free with
    | top => simp
    | coe free => simp

variable {run : SparseRun}

lemma sparseSignal_of_no_bar {signal : ResearchSignal} (h : barIndexAt signal.entryTime = none) :
    sparseSignal bars barIndexAt config maker run signal = run := by
  unfold sparseSignal
  rw [h, ite_self]

lemma sparseSignal_of_free {signal : ResearchSignal} {index : ℕ} (hcont : Contiguous bars)
    (hidx : IndexOf bars barIndexAt) (hbar : barIndexAt signal.entryTime = some index)
    (hfree : ¬ run.holdsKey signal = true) :
    sparseSignal bars barIndexAt config maker run signal =
      run.book (placements maker) signal.key (lifeOn bars config maker signal) := by
  have hdrop : bars.drop index = barsFrom bars signal.entryTime := by
    obtain ⟨bar, hget, htime⟩ := (hidx _ _).mp hbar
    rw [hcont.drop_eq hget, htime]
  have hafter : ∀ bar ∈ barsFrom bars signal.entryTime, signal.entryTime ≤ bar.timestamp :=
    mem_barsFrom hcont
  unfold sparseSignal lifeOn life
  rw [if_neg hfree, hbar]
  dsimp only
  rw [hdrop]
  cases maker with
  | none => exact run.exitEntry_eq ..
  | some maker => exact run.placeMaker_eq config maker signal hafter

/-- **The scan.** Over signals in the order of their times that all have a bar after them,
`sparseExits` books the lives of the signals that are taken. -/
theorem foldl_sparseSignal (hcont : Contiguous bars) (hidx : IndexOf bars barIndexAt)
    {signals holders : List ResearchSignal} {time : ℤ}
    (hsort : signals.Pairwise fun a b => a.entryTime ≤ b.entryTime)
    (htime : ∀ signal ∈ signals, time ≤ signal.entryTime)
    (hbar : ∀ signal ∈ signals, ∃ index, barIndexAt signal.entryTime = some index)
    (htrac : Occupancy.Tracks key (releaseOn bars config maker) run.freeAt
      holders time) :
    let lives := (takenOn bars config maker holders signals).map (lifeOn bars config maker)
    let after := signals.foldl (sparseSignal bars barIndexAt config maker) run
    after.closes = run.closes ++ lives.filterMap Life.close ∧
      after.placed = run.placed + lives.length * placements maker ∧
      after.missed = run.missed + lives.countP Life.missed := by
  induction signals generalizing holders run time with
  | nil => simp [takenOn, taken]
  | cons signal signals ih =>
    obtain ⟨hfst, hsort⟩ := pairwise_cons.mp hsort
    obtain ⟨hsig, -⟩ := forall_mem_cons.mp htime
    obtain ⟨⟨index, hidxAt⟩, hbar⟩ := forall_mem_cons.mp hbar
    have hnow := htrac.later hsig
    have hheld : run.holdsKey signal = true ↔
        Occupancy.Held key (releaseOn bars config maker) holders signal.key
          signal.entryTime :=
      (run.holdsKey_iff signal).trans (hnow _ _ le_rfl).symm
    rw [foldl_cons]
    by_cases hholds : run.holdsKey signal = true
    · have hskip : sparseSignal bars barIndexAt config maker run signal = run := by
        unfold sparseSignal
        rw [if_pos hholds]
      have htaken : takenOn bars config maker holders (signal :: signals) =
          takenOn bars config maker holders signals := by
        unfold takenOn
        rw [taken, if_pos (hheld.mp hholds)]
      rw [hskip, htaken]
      exact ih hsort hfst hbar hnow
    · have htaken : takenOn bars config maker holders (signal :: signals) =
          signal :: takenOn bars config maker (holders ++ [signal]) signals := by
        unfold takenOn
        rw [taken, if_neg fun h => hholds (hheld.mpr h)]
      rw [sparseSignal_of_free hcont hidx hidxAt hholds, htaken]
      obtain ⟨life, hlife⟩ : ∃ life, lifeOn bars config maker signal = life := ⟨_, rfl⟩
      have hnext : Occupancy.Tracks key (releaseOn bars config maker)
          (run.book (placements maker) signal.key life).freeAt (holders ++ [signal])
          signal.entryTime := by
        have htake := hnow.take fun h => hholds (hheld.mpr h)
        unfold releaseOn at htake ⊢
        rw [hlife] at htake
        exact htake
      obtain ⟨hclos, hplac, hmiss⟩ := ih hsort hfst hbar hnext
      rw [map_cons, hlife]
      refine ⟨?_, ?_, ?_⟩
      · rw [hclos]
        cases hcl : life.close <;> simp [SparseRun.book, hcl]
      · rw [hplac, length_cons]
        dsimp only [SparseRun.book]
        ring
      · rw [hmiss, countP_cons]
        dsimp only [SparseRun.book]
        omega

end Sparse

end CtsEngine
