import CtsEngine.ShortRange.PlainExits

/-!
# Post-only entries

`simulateMakerExits` also holds the entries that rest.  The rest of a resting entry's life is read
off the bars as that of an open position is, so the walk again takes the signals of
`Occupancy.taken` and books their lives.
-/

namespace CtsEngine

open List Nat Occupancy

variable {bars : List ReplayCandle} {config : ExitConfig} {maker : MakerExecution}

/-- An entry that rests at a time: its window is not over, and it ends with a whole minute. -/
structure Resting.Waits (order : Resting) (time : ℤ) : Prop where
  entryTime_le : order.signal.entryTime ≤ time
  le_expiresAt : time ≤ order.expiresAt
  aligned : minuteMs ∣ order.expiresAt - time

variable {bar : ReplayCandle} {holders : List ResearchSignal} {rest before : List ReplayCandle}
  {time : ℤ}

lemma Resting.Waits.later {order : Resting} (h : order.Waits bar.timestamp)
    (hlt : bar.timestamp < order.expiresAt) : order.Waits bar.barEnd := by
  obtain ⟨n, hn⟩ := h.aligned
  have hent := h.entryTime_le
  have hpos := minuteMs_pos
  have hn0 : 0 < n := by
    by_contra hle
    have hprod : minuteMs * n ≤ 0 := mul_nonpos_of_nonneg_of_nonpos hpos.le (not_lt.mp hle)
    omega
  have hone : minuteMs ≤ minuteMs * n := le_mul_of_one_le_right hpos.le hn0
  unfold ReplayCandle.barEnd
  refine ⟨by omega, by omega, n - 1, ?_⟩
  rw [mul_sub]
  omega

lemma MakerExecution.waits_rest (maker : MakerExecution) (signal : ResearchSignal) :
    (maker.rest signal).Waits signal.entryTime := by
  have hpos := minuteMs_pos
  have hwin : 0 ≤ maker.windowMs := by
    exact mul_nonneg (by omega) hpos.le
  refine ⟨le_rfl, ?_, ?_⟩
  · unfold rest
    dsimp only
    omega
  · unfold rest windowMs
    rw [add_sub_cancel_left]
    exact dvd_mul_left ..

lemma restingOnBar_cases (config : ExitConfig) {order : Resting}
    (h : order.signal.entryTime ≤ bar.timestamp) :
    (restingOnBar config bar order = .rests ∧ bar.timestamp < order.expiresAt) ∨
      (restingOnBar config bar order = .expires ∧ order.expiresAt ≤ bar.timestamp) ∨
      (∃ entry exit, restingOnBar config bar order = .stopped entry exit ∧
        exit.barEnd = bar.barEnd) ∨
      ∃ entry, restingOnBar config bar order = .fills entry ∧ entry.signal = order.signal ∧
        entry.Flat bar.barEnd := by
  unfold restingOnBar
  rw [if_neg (not_lt.mpr h)]
  by_cases hexp : order.expiresAt ≤ bar.timestamp
  · exact .inr (.inl ⟨if_pos hexp, hexp⟩)
  · rw [if_neg hexp]
    by_cases hthrou : tradesThrough order.signal.long bar order.limit = true
    · rw [if_neg (not_not.mpr hthrou)]
      dsimp only
      split
      · exact .inr (.inr (.inl ⟨_, _, rfl, rfl⟩))
      · exact .inr (.inr (.inr ⟨_, rfl, rfl, rfl, le_rfl⟩))
    · exact .inl ⟨if_pos hthrou, not_le.mp hexp⟩

/-- The keys of the resting entries with the rest of their lives. -/
def waiting (config : ExitConfig) (bars : List ReplayCandle) (resting : List Resting) :
    List (String × Life) :=
  resting.map fun order => (order.signal.key, order.life config bars)

def missedOf (lives : List (String × Life)) : ℕ := lives.countP (·.2.missed)

lemma missedOf_append (lives lives' : List (String × Life)) :
    missedOf (lives ++ lives') = missedOf lives + missedOf lives' := countP_append

variable (key : String) (life : Life) (lives : List (String × Life))

lemma missedOf_cons :
    missedOf ((key, life) :: lives) = missedOf lives + if life.missed then 1 else 0 :=
  countP_cons

lemma closesOf_cons : closesOf ((key, life) :: lives) = life.close.toList ++ closesOf lives := by
  unfold closesOf
  cases h : life.close <;> simp [h]

lemma missedOf_carried (opened : List Filled) : missedOf (carried true config bars opened) = 0 := by
  unfold missedOf carried
  simp [Filled.missed_life]

lemma closesOf_waiting_nil (resting : List Resting) :
    closesOf (waiting config [] resting) = [] := by
  unfold closesOf waiting
  rw [filterMap_map]
  exact filterMap_eq_nil_iff.mpr fun order _ => rfl

lemma missedOf_waiting_nil (resting : List Resting) :
    missedOf (waiting config [] resting) = resting.length := by
  unfold missedOf waiting
  rw [countP_map]
  exact countP_eq_length.mpr fun order _ => rfl

section Bar

variable {bar : ReplayCandle} {rest : List ReplayCandle} {resting : List Resting}

lemma Resting.life_cons (order : Resting) : order.life config (bar :: rest) =
      match restingOnBar config bar order with
      | .rests => order.life config rest
      | .expires => ⟨none, (order.expiresAt + minuteMs : ℤ), true⟩
      | .stopped entry exit => ⟨some (entry.makerClose exit), exit.barEnd, false⟩
      | .fills entry => entry.life true config rest := rfl

variable {order : Resting}

lemma Resting.Waits.lt_release {time : ℤ} (hwaits : order.Waits time)
    (h : ∀ bar ∈ rest, time ≤ bar.timestamp) :
    Occupancy.Before time (order.life config rest).release := by
  have hpos := minuteMs_pos
  have hexpir := hwaits.le_expiresAt
  have hafter : Occupancy.Before time ((order.expiresAt + minuteMs : ℤ) : WithTop ℤ) :=
    before_coe.mpr (by omega)
  induction rest with
  | nil => exact hafter
  | cons bar rest ih =>
    obtain ⟨hbar, hrest⟩ := forall_mem_cons.mp h
    have hlt := bar.lt_barEnd
    rw [life_cons]
    rcases restingOnBar_cases config (hwaits.entryTime_le.trans hbar) with ⟨ho, -⟩ | ⟨ho, -⟩ |
      ⟨entry, exit, ho, hend⟩ | ⟨entry, ho, -⟩
    · rw [ho]
      exact ih hrest
    · rw [ho]
      exact hafter
    · rw [ho]
      exact before_coe.mpr (by omega)
    · rw [ho]
      exact Filled.lt_release hrest

variable (resting)

lemma bar_cons_rests (h : restingOnBar config bar order = .rests) :
    stoppedOn config bar (order :: resting) = stoppedOn config bar resting ∧
      filledOn config bar (order :: resting) = filledOn config bar resting ∧
      restingOn config bar (order :: resting) = order :: restingOn config bar resting ∧
      expiredOn config bar (order :: resting) = expiredOn config bar resting := by
  simp [stoppedOn, filledOn, restingOn, expiredOn, h]

lemma bar_cons_expires (h : restingOnBar config bar order = .expires) :
    stoppedOn config bar (order :: resting) = stoppedOn config bar resting ∧
      filledOn config bar (order :: resting) = filledOn config bar resting ∧
      restingOn config bar (order :: resting) = restingOn config bar resting ∧
      expiredOn config bar (order :: resting) = expiredOn config bar resting + 1 := by
  simp [stoppedOn, filledOn, restingOn, expiredOn, h]

lemma bar_cons_stopped {entry : Filled} {exit : BarExit}
    (h : restingOnBar config bar order = .stopped entry exit) :
    stoppedOn config bar (order :: resting) = (entry, exit) :: stoppedOn config bar resting ∧
      filledOn config bar (order :: resting) = filledOn config bar resting ∧
      restingOn config bar (order :: resting) = restingOn config bar resting ∧
      expiredOn config bar (order :: resting) = expiredOn config bar resting := by
  simp [stoppedOn, filledOn, restingOn, expiredOn, h]

lemma bar_cons_fills {entry : Filled}
    (h : restingOnBar config bar order = .fills entry) :
    stoppedOn config bar (order :: resting) = stoppedOn config bar resting ∧
      filledOn config bar (order :: resting) = entry :: filledOn config bar resting ∧
      restingOn config bar (order :: resting) = restingOn config bar resting ∧
      expiredOn config bar (order :: resting) = expiredOn config bar resting := by
  simp [stoppedOn, filledOn, restingOn, expiredOn, h]

variable {resting}

lemma waiting_cons (order : Resting) : waiting config rest (order :: resting) =
      (order.signal.key, order.life config rest) :: waiting config rest resting := rfl

lemma carried_cons (strict : Bool) (entry : Filled) (opened : List Filled) :
    carried strict config rest (entry :: opened) =
      (entry.signal.key, entry.life strict config rest) :: carried strict config rest opened := rfl

section

variable (hrest : ∀ order ∈ resting, order.Waits bar.timestamp)

include hrest

lemma waiting_restingOn (k : String)
    {u : ℤ} (hu : bar.barEnd ≤ u) :
    (∃ life ∈ waiting config (bar :: rest) resting,
        life.1 = k ∧ Occupancy.Before u life.2.release) ↔
      ∃ life ∈ carried true config rest (filledOn config bar resting) ++
          waiting config rest (restingOn config bar resting),
        life.1 = k ∧ Occupancy.Before u life.2.release := by
  induction resting with
  | nil => exact Iff.rfl
  | cons order resting ih =>
    obtain ⟨hord, hrest⟩ := forall_mem_cons.mp hrest
    rw [waiting_cons, exists_mem_cons_iff, ih hrest, Resting.life_cons]
    rcases restingOnBar_cases config hord.entryTime_le with ⟨ho, -⟩ | ⟨ho, hexp⟩ |
      ⟨entry, exit, ho, hend⟩ | ⟨entry, ho, hsig, -⟩
    · obtain ⟨-, hfill, hstill, -⟩ := bar_cons_rests resting ho
      rw [ho, hfill, hstill, waiting_cons]
      simp only [mem_append, mem_cons, or_and_right, exists_or, exists_eq_left]
      exact or_left_comm
    · -- the window ended with the start of this bar, so the key is free at its close
      obtain ⟨-, hfill, hstill, -⟩ := bar_cons_expires resting ho
      have hnot : ¬ Occupancy.Before u ((order.expiresAt + minuteMs : ℤ) : WithTop ℤ) := by
        rw [before_coe]
        unfold ReplayCandle.barEnd at hu
        omega
      rw [ho, hfill, hstill]
      simp only [hnot, and_false, false_or]
    · obtain ⟨-, hfill, hstill, -⟩ := bar_cons_stopped resting ho
      have hnot : ¬ Occupancy.Before u (exit.barEnd : WithTop ℤ) := by
        rw [before_coe]
        omega
      rw [ho, hfill, hstill]
      simp only [hnot, and_false, false_or]
    · obtain ⟨-, hfill, hstill, -⟩ := bar_cons_fills resting ho
      rw [ho, hfill, hstill, carried_cons, cons_append, exists_mem_cons_iff, hsig]

lemma closesOf_waiting : (closesOf (waiting config (bar :: rest) resting)).Perm
      ((stoppedOn config bar resting).map (fun (entry, exit) => entry.makerClose exit) ++
        closesOf (carried true config rest (filledOn config bar resting) ++
          waiting config rest (restingOn config bar resting))) := by
  induction resting with
  | nil => exact List.Perm.refl _
  | cons order resting ih =>
    obtain ⟨hord, hrest⟩ := forall_mem_cons.mp hrest
    specialize ih hrest
    rw [waiting_cons, closesOf_cons, Resting.life_cons]
    rcases restingOnBar_cases config hord.entryTime_le with ⟨ho, -⟩ | ⟨ho, -⟩ |
      ⟨entry, exit, ho, -⟩ | ⟨entry, ho, -⟩
    · obtain ⟨hstop, hfill, hstill, -⟩ := bar_cons_rests resting ho
      rw [ho, hstop, hfill, hstill, waiting_cons, closesOf_append, closesOf_cons]
      rw [closesOf_append] at ih
      refine (ih.append_left _).trans ((perm_append_comm_assoc _ _ _).trans ?_)
      exact (perm_append_comm_assoc _ _ _).append_left _
    · obtain ⟨hstop, hfill, hstill, -⟩ := bar_cons_expires resting ho
      rw [ho, hstop, hfill, hstill]
      exact ih
    · obtain ⟨hstop, hfill, hstill, -⟩ := bar_cons_stopped resting ho
      rw [ho, hstop, hfill, hstill]
      exact ih.cons _
    · obtain ⟨hstop, hfill, hstill, -⟩ := bar_cons_fills resting ho
      rw [ho, hstop, hfill, hstill, carried_cons, cons_append, closesOf_cons]
      exact (ih.append_left _).trans (perm_append_comm_assoc _ _ _)

lemma missedOf_waiting : missedOf (waiting config (bar :: rest) resting) =
      expiredOn config bar resting + missedOf
        (waiting config rest (restingOn config bar resting)) := by
  induction resting with
  | nil => rfl
  | cons order resting ih =>
    obtain ⟨hord, hrest⟩ := forall_mem_cons.mp hrest
    rw [waiting_cons, missedOf_cons, Resting.life_cons, ih hrest]
    rcases restingOnBar_cases config hord.entryTime_le with ⟨ho, -⟩ | ⟨ho, -⟩ |
      ⟨entry, exit, ho, -⟩ | ⟨entry, ho, -⟩
    · obtain ⟨-, -, hstill, hexp⟩ := bar_cons_rests resting ho
      rw [ho, hstill, hexp, waiting_cons, missedOf_cons]
      exact add_assoc ..
    · obtain ⟨-, -, hstill, hexp⟩ := bar_cons_expires resting ho
      rw [ho, hstill]
      rw [if_pos rfl]
      omega
    · obtain ⟨-, -, hstill, hexp⟩ := bar_cons_stopped resting ho
      rw [ho, hstill, hexp]
      rfl
    · obtain ⟨-, -, hstill, hexp⟩ := bar_cons_fills resting ho
      rw [ho, hstill, hexp]
      rw [Filled.missed_life]
      rfl

end

end Bar

/-! ## The walk -/

/-- The state of `simulateMakerExits` before the bars `rest`, after `holders` were taken. -/
structure MakerWalkOk (bars : List ReplayCandle) (config : ExitConfig) (maker : MakerExecution)
    (rest : List ReplayCandle) (holders : List ResearchSignal) (time : ℤ) (run : MakerRun) :
    Prop where
  starts : ∀ bar ∈ rest.head?, bar.timestamp = time
  flat : ∀ entry ∈ run.opened, entry.Flat time
  waits : ∀ order ∈ run.resting, order.Waits time
  carries : Carries bars config (some maker) holders
    (carried true config rest run.opened ++ waiting config rest run.resting) time
  sorted : run.pending.Pairwise fun a b => a.entryTime ≤ b.entryTime
  decided : ∀ signal ∈ run.pending, ∃ bar ∈ rest, signal.entryTime = bar.barEnd

lemma carried_append (strict : Bool) (opened opened' : List Filled) :
    carried strict config bars (opened ++ opened') =
      carried strict config bars opened ++ carried strict config bars opened' := map_append

lemma exists_mem_append {A : Type*} {p : A → Prop} {xs ys : List A} :
    (∃ x ∈ xs ++ ys, p x) ↔ (∃ x ∈ xs, p x) ∨ ∃ x ∈ ys, p x := by
  simp only [mem_append, or_and_right, exists_or]

/-- The lives that go on after a bar, before its signals enter. -/
def goingOn (config : ExitConfig) (bar : ReplayCandle) (rest : List ReplayCandle)
    (run : MakerRun) : List (String × Life) :=
  carried true config rest (keptOn true config bar run.opened ++ filledOn config bar run.resting) ++
    waiting config rest (restingOn config bar run.resting)

section

variable (hfixed : config.trailingStart = none) {run : MakerRun}
  (h : MakerWalkOk bars config maker (bar :: rest) holders time run)

include hfixed h

lemma MakerWalkOk.carries_goingOn :
    Carries bars config (some maker) holders (goingOn config bar rest run) bar.barEnd := by
  have htime : bar.timestamp = time := h.starts bar rfl
  have hlt := bar.lt_barEnd
  have hflat : ∀ entry ∈ run.opened, entry.Flat bar.timestamp := htime ▸ h.flat
  have hwaits : ∀ order ∈ run.resting, order.Waits bar.timestamp := htime ▸ h.waits
  refine h.carries.congr (by omega) fun k u hu => ?_
  have hopen : (∃ life ∈ carried true config (bar :: rest) run.opened,
      life.1 = k ∧ Occupancy.Before u life.2.release) ↔
        ∃ life ∈ carried true config rest (keptOn true config bar run.opened),
          life.1 = k ∧ Occupancy.Before u life.2.release := carried_keptOn hfixed hflat k hu
  unfold goingOn
  rw [exists_mem_append, hopen, waiting_restingOn hwaits k hu, carried_append]
  simp only [exists_mem_append, or_assoc]

lemma MakerWalkOk.closesOf_bar : (closesOf (carried true config (bar :: rest) run.opened ++
      waiting config (bar :: rest) run.resting)).Perm
      ((settledOn true config bar run.opened ++ stoppedOn config bar run.resting).map
        (fun (entry, exit) => entry.makerClose exit) ++
          closesOf (goingOn config bar rest run)) := by
  have htime : bar.timestamp = time := h.starts bar rfl
  have hflat : ∀ entry ∈ run.opened, entry.Flat bar.timestamp := htime ▸ h.flat
  have hwaits : ∀ order ∈ run.resting, order.Waits bar.timestamp := htime ▸ h.waits
  have hopen : (closesOf (carried true config (bar :: rest) run.opened)).Perm
      ((settledOn true config bar run.opened).map (fun (entry, exit) => entry.makerClose exit) ++
        closesOf (carried true config rest (keptOn true config bar run.opened))) :=
    closesOf_carried hfixed hflat
  unfold goingOn
  rw [closesOf_append, carried_append, map_append]
  refine (hopen.append (closesOf_waiting hwaits)).trans ?_
  simp only [closesOf_append, append_assoc]
  exact (perm_append_comm_assoc _ _ _).append_left _

end

lemma MakerWalkOk.missedOf_bar {run : MakerRun}
    (h : MakerWalkOk bars config maker (bar :: rest) holders time run) :
    missedOf (carried true config (bar :: rest) run.opened ++
      waiting config (bar :: rest) run.resting) =
        expiredOn config bar run.resting + missedOf (goingOn config bar rest run) := by
  have htime : bar.timestamp = time := h.starts bar rfl
  have hwaits : ∀ order ∈ run.resting, order.Waits bar.timestamp := htime ▸ h.waits
  unfold goingOn
  rw [missedOf_append, missedOf_append, missedOf_carried, missedOf_carried, missedOf_waiting hwaits,
    zero_add, zero_add]

variable {resting : List Resting}

lemma flat_filledOn (hrest : ∀ order ∈ resting, order.Waits bar.timestamp) :
    ∀ entry ∈ filledOn config bar resting, entry.Flat bar.barEnd := by
  intro entry hent
  obtain ⟨order, hord, hfills⟩ := mem_filterMap.mp hent
  rcases restingOnBar_cases config (hrest order hord).entryTime_le with ⟨ho, -⟩ | ⟨ho, -⟩ |
    ⟨_, _, ho, -⟩ | ⟨_, ho, -, hflat⟩
  · rw [ho] at hfills
    cases hfills
  · rw [ho] at hfills
    cases hfills
  · rw [ho] at hfills
    cases hfills
  · rw [ho] at hfills
    cases hfills
    exact hflat

lemma waits_restingOn (hrest : ∀ order ∈ resting, order.Waits bar.timestamp) :
    ∀ order ∈ restingOn config bar resting, order.Waits bar.barEnd := by
  intro order hord
  obtain ⟨hmem, hrests⟩ := mem_filter.mp hord
  have hrests : restingOnBar config bar order = .rests := of_decide_eq_true hrests
  have hwaits := hrest order hmem
  rcases restingOnBar_cases config hwaits.entryTime_le with ⟨-, hopen⟩ | ⟨ho, -⟩ |
    ⟨_, _, ho, -⟩ | ⟨_, ho, -⟩
  · exact hwaits.later hopen
  · cases hrests.symm.trans ho
  · cases hrests.symm.trans ho
  · cases hrests.symm.trans ho

lemma flat_keptOn_filledOn (hfixed : config.trailingStart = none) {opened : List Filled}
    (hflat : ∀ entry ∈ opened, entry.Flat bar.timestamp)
    (hrest : ∀ order ∈ resting, order.Waits bar.timestamp) :
    ∀ entry ∈ keptOn true config bar opened ++ filledOn config bar resting,
      entry.Flat bar.barEnd := by
  intro entry hent
  rw [keptOn_eq hfixed hflat] at hent
  rcases mem_append.mp hent with hent | hent
  · exact (hflat entry (mem_of_mem_filter hent)).later bar.lt_barEnd.le
  · exact flat_filledOn hrest entry hent

/-- The keys of what goes on are those that the holders hold. -/
lemma Carries.mem_keys_iff {opened : List Filled}
    (h : Carries bars config (some maker) holders
      (carried true config rest opened ++ waiting config rest resting) bar.barEnd)
    (hsuff : Contiguous (bar :: rest)) (hrest : ∀ order ∈ resting, order.Waits bar.barEnd)
    (k : String) : k ∈ opened.map (·.signal.key) ++ resting.map (·.signal.key) ↔
      Occupancy.Held ResearchSignal.key (releaseOn bars config (some maker)) holders k
        bar.barEnd := by
  rw [h k bar.barEnd le_rfl, exists_mem_append, mem_append, mem_map, mem_map]
  refine or_congr ⟨?_, ?_⟩ ⟨?_, ?_⟩
  · rintro ⟨entry, hent, hkey⟩
    exact ⟨_, mem_map_of_mem hent, hkey, Filled.lt_release hsuff.barEnd_le⟩
  · rintro ⟨life, hlife, hkey, -⟩
    obtain ⟨entry, hent, rfl⟩ := mem_map.mp hlife
    exact ⟨entry, hent, hkey⟩
  · rintro ⟨order, hord, hkey⟩
    exact ⟨_, mem_map_of_mem hord, hkey, (hrest order hord).lt_release hsuff.barEnd_le⟩
  · rintro ⟨life, hlife, hkey, -⟩
    obtain ⟨order, hord, rfl⟩ := mem_map.mp hlife
    exact ⟨order, hord, hkey⟩

lemma waiting_append_rest {signals : List ResearchSignal}
    (hlife : ∀ signal ∈ signals,
      lifeOn bars config (some maker) signal = (maker.rest signal).life config rest) :
    waiting config rest (resting ++ signals.map maker.rest) =
      waiting config rest resting ++ livesOf bars config (some maker) signals := by
  unfold waiting livesOf
  rw [map_append, map_map]
  congr 1
  refine map_congr_left fun signal hsig => ?_
  rw [hlife signal hsig]
  rfl

/-- **One bar.** Some signals are placed; the state goes on with them as holders. -/
lemma MakerWalkOk.step (hfixed : config.trailingStart = none) {run : MakerRun}
    (hbars : bars = before ++ bar :: rest) (hcont : Contiguous bars)
    (h : MakerWalkOk bars config maker (bar :: rest) holders time run) :
    ∃ entered, MakerWalkOk bars config maker rest (holders ++ entered) bar.barEnd
        (simulateMakerBar config maker run bar) ∧
      takenOn bars config (some maker) holders run.pending = entered ++
        takenOn bars config (some maker) (holders ++ entered)
          (simulateMakerBar config maker run bar).pending ∧
      carried true config rest (simulateMakerBar config maker run bar).opened ++
          waiting config rest (simulateMakerBar config maker run bar).resting =
        goingOn config bar rest run ++ livesOf bars config (some maker) entered ∧
      (simulateMakerBar config maker run bar).placed = run.placed + entered.length := by
  have hsuff : Contiguous (bar :: rest) := (hbars ▸ hcont).right
  have htime : bar.timestamp = time := h.starts bar rfl
  have hflat : ∀ entry ∈ run.opened, entry.Flat bar.timestamp := htime ▸ h.flat
  have hwaits : ∀ order ∈ run.resting, order.Waits bar.timestamp := htime ▸ h.waits
  have hlife : ∀ signal : ResearchSignal, signal.entryTime = bar.barEnd →
      lifeOn bars config (some maker) signal = (maker.rest signal).life config rest := by
    intro signal hsig
    subst hbars
    exact lifeOn_of_barEnd hcont hsig
  have hwaitsRest : ∀ signal : ResearchSignal, signal.entryTime = bar.barEnd →
      (maker.rest signal).Waits bar.barEnd := fun signal hsig =>
    hsig ▸ maker.waits_rest signal
  obtain ⟨opened, hopen⟩ : ∃ opened,
      keptOn true config bar run.opened ++ filledOn config bar run.resting = opened := ⟨_, rfl⟩
  obtain ⟨resting, hrest⟩ : ∃ resting, restingOn config bar run.resting = resting := ⟨_, rfl⟩
  have hgoing : goingOn config bar rest run =
      carried true config rest opened ++ waiting config rest resting := by
    unfold goingOn
    rw [hopen, hrest]
  have hcarr := h.carries_goingOn hfixed
  rw [hgoing] at hcarr ⊢
  have hopenFlat : ∀ entry ∈ opened, entry.Flat bar.barEnd :=
    hopen ▸ flat_keptOn_filledOn hfixed hflat hwaits
  have hrestWait : ∀ order ∈ resting, order.Waits bar.barEnd := hrest ▸ waits_restingOn hwaits
  obtain ⟨group, hsplit, hgroup, hlate, henter⟩ := enterOn_spec h.sorted
    (fun signal hsig => hsuff.barEnd_le_of_decided (h.decided signal hsig))
    (fun signal _ hsig => by
      unfold releaseOn
      rw [hlife signal hsig]
      exact (hwaitsRest signal hsig).lt_release hsuff.barEnd_le)
    (hcarr.mem_keys_iff hsuff hrestWait)
  obtain ⟨after, hafter⟩ : ∃ after, enterOn bar.barEnd
      (opened.map (·.signal.key) ++ resting.map (·.signal.key)) run.pending = after := ⟨_, rfl⟩
  rw [hafter] at hsplit hlate henter
  have hnow : ∀ signal ∈ after.2, signal.entryTime = bar.barEnd := by
    intro signal hsig
    rw [henter] at hsig
    exact hgroup signal (mem_of_mem_taken hsig)
  have hbar : simulateMakerBar config maker run bar =
      { closes := run.closes ++
          (settledOn true config bar run.opened ++ stoppedOn config bar run.resting).map
            fun (entry, exit) => entry.makerClose exit
        placed := run.placed + after.2.length
        missed := run.missed + expiredOn config bar run.resting
        opened := opened
        resting := resting ++ after.2.map maker.rest
        pending := after.1 } := by
    unfold simulateMakerBar
    dsimp only
    rw [hopen, hrest, hafter]
  have hlives : carried true config rest opened ++
      waiting config rest (resting ++ after.2.map maker.rest) =
        carried true config rest opened ++ waiting config rest resting ++
          livesOf bars config (some maker) after.2 := by
    rw [waiting_append_rest fun signal hsig => hlife signal (hnow signal hsig), append_assoc]
  rw [hbar]
  refine ⟨after.2, ⟨hsuff.starts, hopenFlat, ?_, ?_, ?_, ?_⟩, ?_, hlives, rfl⟩
  · intro order hord
    rcases mem_append.mp hord with hord | hord
    · exact hrestWait order hord
    · obtain ⟨signal, hsig, rfl⟩ := mem_map.mp hord
      exact hwaitsRest signal (hnow signal hsig)
  · rw [hlives]
    exact hcarr.enter after.2
  · have hsort := h.sorted
    rw [hsplit] at hsort
    exact (pairwise_append.mp hsort).2.1
  · intro signal hsig
    have hmem : signal ∈ run.pending := hsplit ▸ mem_append_right group hsig
    exact Contiguous.decided_of_lt (hlate signal hsig) (h.decided signal hmem)
  · conv_lhs => rw [hsplit]
    rw [takenOn_append, ← henter]

/-- **The walk.** It books the closes of the open positions, of the resting entries and of the
signals that are taken, and counts those that are missed. -/
theorem MakerWalkOk.run (hfixed : config.trailingStart = none) (hcont : Contiguous bars)
    {run : MakerRun} (hbars : bars = before ++ rest)
    (h : MakerWalkOk bars config maker rest holders time run) :
    let taken := takenOn bars config (some maker) holders run.pending
    let lives := carried true config rest run.opened ++ waiting config rest run.resting ++
      livesOf bars config (some maker) taken
    let final := rest.foldl (simulateMakerBar config maker) run
    final.closes.Perm (run.closes ++ closesOf lives) ∧ final.placed = run.placed + taken.length ∧
      final.missed + final.resting.length = run.missed + missedOf lives := by
  induction rest generalizing before holders time run with
  | nil =>
    dsimp only
    rw [pending_eq_nil h.decided, closesOf_append, closesOf_append,
      closesOf_carried_nil, closesOf_waiting_nil, missedOf_append, missedOf_append,
      missedOf_carried, missedOf_waiting_nil]
    simp [takenOn, taken, livesOf, closesOf, missedOf]
  | cons bar rest ih =>
    obtain ⟨entered, hnext, htaken, hlives, hplac⟩ := h.step hfixed hbars hcont
    obtain ⟨hruns, hcnt, hmisse⟩ := ih (hbars.trans (append_cons before bar rest)) hnext
    dsimp only at hruns hcnt hmisse ⊢
    rw [hlives] at hruns hmisse
    rw [foldl_cons, htaken, livesOf_append]
    have hbar := h.closesOf_bar hfixed
    have hmiss := h.missedOf_bar
    generalize carried true config (bar :: rest) run.opened ++
      waiting config (bar :: rest) run.resting = now at hbar hmiss ⊢
    have hclos : (simulateMakerBar config maker run bar).closes = run.closes ++
        (settledOn true config bar run.opened ++ stoppedOn config bar run.resting).map
          fun (entry, exit) => entry.makerClose exit := rfl
    have hexp : (simulateMakerBar config maker run bar).missed =
        run.missed + expiredOn config bar run.resting := rfl
    refine ⟨hruns.trans ?_, ?_, ?_⟩
    · rw [hclos]
      simp only [closesOf_append, append_assoc]
      refine List.Perm.append_left _ ?_
      rw [← append_assoc]
      exact hbar.symm.append_right _
    · rw [hcnt, hplac, length_append, add_assoc]
    · rw [hmisse]
      simp only [missedOf_append]
      omega

/-! ## The last close -/

/-- Every signal decided at the last close finds its key held, by an entry that an earlier signal
placed. -/
def HeldAtLastClose (bars : List ReplayCandle) (config : ExitConfig) (maker : MakerExecution)
    (signals : List ResearchSignal) : Prop :=
  ∀ signal ∈ signals, signal.entryTime = lastClose bars →
    Occupancy.Held ResearchSignal.key (releaseOn bars config (some maker))
      (takenOn bars config (some maker) [] (earlySignals bars signals)) signal.key
      signal.entryTime

lemma simulateMakerExits_eq (hcont : Contiguous bars) (hfixed : config.trailingStart = none)
    {signals : List ResearchSignal} (hdec : DecidedOn bars signals) :
    let taken := takenOn bars config (some maker) [] (orderedSignals signals)
    let result := simulateMakerExits bars signals config maker
    result.closes.Perm (closesOf (livesOf bars config (some maker) taken)) ∧
      result.placed = taken.length ∧
      result.missed = missedOf (livesOf bars config (some maker) taken) := by
  obtain ⟨time, hst⟩ := exists_start bars
  have hwalk : MakerWalkOk bars config maker bars [] time { pending := orderedSignals signals } :=
    { starts := hst
      flat := forall_mem_nil _
      waits := forall_mem_nil _
      carries := carries_nil time
      sorted := orderedSignals_sorted signals
      decided := fun signal hsig => hdec signal (mem_orderedSignals.mp hsig) }
  obtain ⟨hclos, hplac, hmiss⟩ := hwalk.run hfixed hcont (nil_append bars).symm
  refine ⟨hclos, ?_, ?_⟩
  · exact hplac.trans (zero_add _)
  · exact hmiss.trans (zero_add _)

/-- **The scan and the post-only walk.** They return the same closes, up to their order, and the
same counts exactly when no signal is placed at the last close. -/
theorem sparseExits_refines_simulateMakerExits_iff {barIndexAt : ℤ → Option ℕ}
    {signals : List ResearchSignal} (hcontiguous : Contiguous bars)
    (hindex : IndexOf bars barIndexAt) (hfixed : config.trailingStart = none)
    (hdecided : DecidedOn bars signals) :
    ((sparseExits bars barIndexAt signals config (some maker)).closes.Perm
        (simulateMakerExits bars signals config maker).closes ∧
      (sparseExits bars barIndexAt signals config (some maker)).placed =
        (simulateMakerExits bars signals config maker).placed ∧
      (sparseExits bars barIndexAt signals config (some maker)).missed =
        (simulateMakerExits bars signals config maker).missed) ↔
      HeldAtLastClose bars config maker signals := by
  obtain ⟨hscan, hscanPlaced, hscanMissed⟩ :
      (sparseExits bars barIndexAt signals config (some maker)).closes = _ ∧ _ ∧ _ :=
    sparseExits_eq hcontiguous hindex hdecided
  obtain ⟨hwalk, hwalkPlaced, hwalkMissed⟩ :
      (simulateMakerExits bars signals config maker).closes.Perm _ ∧ _ ∧ _ :=
    simulateMakerExits_eq hcontiguous hfixed hdecided
  obtain ⟨early, hearly⟩ : ∃ early,
      takenOn bars config (some maker) [] (earlySignals bars signals) = early := ⟨_, rfl⟩
  obtain ⟨last, hlast⟩ : ∃ last,
      takenOn bars config (some maker) early (lastSignals bars signals) = last := ⟨_, rfl⟩
  have htaken : takenOn bars config (some maker) [] (orderedSignals signals) = early ++ last := by
    rw [orderedSignals_eq bars signals, takenOn_append, hearly, nil_append, hlast]
  have hnone : last = [] ↔ HeldAtLastClose bars config maker signals := by
    rw [← hlast]
    unfold takenOn HeldAtLastClose
    rw [taken_eq_nil_iff, hearly]
    constructor
    · intro h signal hsignal htime
      exact h signal (mem_lastSignals.mpr ⟨hsignal, by omega⟩)
    · intro h signal hsignal
      exact h signal (mem_lastSignals.mp hsignal).1 (hdecided.last hcontiguous hsignal).1
  rw [hearly] at hscan hscanPlaced hscanMissed
  rw [htaken, livesOf_append] at hwalk hwalkMissed
  rw [htaken] at hwalkPlaced
  have hend : closesOf (livesOf bars config (some maker) last) = [] :=
    hlast ▸ closesOf_lastSignals hcontiguous hdecided
  rw [closesOf_append, hend, append_nil] at hwalk
  rw [← hnone, hscan, hscanPlaced, hscanMissed, hwalkPlaced, hwalkMissed]
  constructor
  · rintro ⟨-, hplaced, -⟩
    have hlength : last.length = 0 := by
      rw [length_append] at hplaced
      simp only [livesOf, length_map, placements, Option.isSome_some, if_true] at hplaced
      omega
    exact length_eq_zero_iff.mp hlength
  · rintro rfl
    refine ⟨hwalk.symm, ?_, ?_⟩
    · simp [livesOf, placements]
    · rw [missedOf_append]
      rfl

def sampleMaker : MakerExecution where
  entryOffsetPct := 1 / 10
  fillWindowMinutes := 2

/-- Signals whose last one finds its key held by the open position of the one before. -/
def heldSignals : List ResearchSignal :=
  [sampleSignal .long 120000 100, sampleSignal .long 240000 91, sampleSignal .long 300000 91]

theorem sparseExits_refines_simulateMakerExits_iff_heldSignals :
    ((sparseExits sampleBars (barIndexOf sampleBars) heldSignals sampleConfig
        (some sampleMaker)).closes.Perm
          (simulateMakerExits sampleBars heldSignals sampleConfig sampleMaker).closes ∧
      (sparseExits sampleBars (barIndexOf sampleBars) heldSignals sampleConfig
        (some sampleMaker)).placed =
          (simulateMakerExits sampleBars heldSignals sampleConfig sampleMaker).placed ∧
      (sparseExits sampleBars (barIndexOf sampleBars) heldSignals sampleConfig
        (some sampleMaker)).missed =
          (simulateMakerExits sampleBars heldSignals sampleConfig sampleMaker).missed) ∧
      (simulateMakerExits sampleBars heldSignals sampleConfig sampleMaker).placed = 2 :=
  ⟨(sparseExits_refines_simulateMakerExits_iff sampleBars_contiguous sampleBars_contiguous.indexOf
      rfl (by unfold DecidedOn; decide)).mpr (by unfold HeldAtLastClose; decide +kernel),
    by decide +kernel⟩

/-- A signal of the last close is placed and missed by the walk and passed over by the scan. -/
theorem sparseExits_skips_lastClose :
    Contiguous sampleBars ∧ IndexOf sampleBars (barIndexOf sampleBars) ∧
      (∀ bar ∈ sampleBars, minuteMs ∣ bar.timestamp) ∧ sampleConfig.trailingStart = none ∧
      0 ≤ sampleMaker.entryOffsetPct ∧ DecidedOn sampleBars sampleSignals ∧
      ¬ ((sparseExits sampleBars (barIndexOf sampleBars) sampleSignals sampleConfig
          (some sampleMaker)).closes.Perm
            (simulateMakerExits sampleBars sampleSignals sampleConfig sampleMaker).closes ∧
        (sparseExits sampleBars (barIndexOf sampleBars) sampleSignals sampleConfig
          (some sampleMaker)).placed =
            (simulateMakerExits sampleBars sampleSignals sampleConfig sampleMaker).placed ∧
        (sparseExits sampleBars (barIndexOf sampleBars) sampleSignals sampleConfig
          (some sampleMaker)).missed =
            (simulateMakerExits sampleBars sampleSignals sampleConfig sampleMaker).missed) :=
  ⟨sampleBars_contiguous, sampleBars_contiguous.indexOf, by decide, rfl, by decide +kernel,
    by unfold DecidedOn; decide, fun h => absurd h.2.1 (by decide +kernel)⟩

end CtsEngine
