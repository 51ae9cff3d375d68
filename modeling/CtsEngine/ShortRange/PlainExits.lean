import CtsEngine.ShortRange.Lives

/-!
# The walk over the bars takes the same signals

`simulateExits` holds the open positions in a map and enters the signals of a bar after the bar's
exits.  Along the walk the positions that are open carry the rest of their lives: from the start of
the next bar on, a key is held exactly while an open position of it lives (`Carries`).  So the walk
takes the signals of `Occupancy.taken`, as the scan does, and books their closes, in the order in
which they close.
-/

namespace CtsEngine

open List Occupancy Filled ResearchSignal

variable {bars : List ReplayCandle} {config : ExitConfig} {maker : Option MakerExecution}

/-- The keys are held exactly by the lives that go on. -/
def Carries (bars : List ReplayCandle) (config : ExitConfig) (maker : Option MakerExecution)
    (holders : List ResearchSignal) (lives : List (String × Life)) (time : ℤ) : Prop :=
  ∀ k u, time ≤ u → (Occupancy.Held key (releaseOn bars config maker) holders k u ↔
    ∃ life ∈ lives, life.1 = k ∧ Occupancy.Before u life.2.release)

lemma carries_nil (time : ℤ) : Carries bars config maker [] [] time := by
  intro k u _
  simp [Occupancy.Held]

variable {holders pending signals : List ResearchSignal} {time time' : ℤ}
  {rest before : List ReplayCandle} {bar : ReplayCandle} {signal : ResearchSignal}
  {barIndexAt : ℤ → Option ℕ}

lemma Carries.congr {lives lives' : List (String × Life)}
    (h : Carries bars config maker holders lives time) (htime : time ≤ time')
    (hlives : ∀ k u, time' ≤ u → ((∃ life ∈ lives, life.1 = k ∧ Occupancy.Before u life.2.release) ↔
      ∃ life ∈ lives', life.1 = k ∧ Occupancy.Before u life.2.release)) :
    Carries bars config maker holders lives' time' :=
  fun k u hu => (h k u (htime.trans hu)).trans (hlives k u hu)

/-- The keys of signals with their lives. -/
def livesOf (bars : List ReplayCandle) (config : ExitConfig) (maker : Option MakerExecution)
    (signals : List ResearchSignal) : List (String × Life) :=
  signals.map fun signal => (signal.key, lifeOn bars config maker signal)

lemma livesOf_append (signals signals' : List ResearchSignal) :
    livesOf bars config maker (signals ++ signals') =
      livesOf bars config maker signals ++ livesOf bars config maker signals' := map_append

lemma Carries.enter {lives : List (String × Life)}
    (h : Carries bars config maker holders lives time) (entered : List ResearchSignal) :
    Carries bars config maker (holders ++ entered)
      (lives ++ livesOf bars config maker entered) time := by
  intro k u hu
  rw [held_append, h k u hu]
  constructor
  · rintro (⟨life, hlife, hkey⟩ | ⟨signal, hsig, hkey⟩)
    · exact ⟨life, mem_append_left _ hlife, hkey⟩
    · exact ⟨_, mem_append_right _ (mem_map_of_mem hsig), hkey⟩
  · rintro ⟨life, hlife, hkey⟩
    rcases mem_append.mp hlife with hlife | hlife
    · exact .inl ⟨life, hlife, hkey⟩
    · obtain ⟨signal, hsig, rfl⟩ := mem_map.mp hlife
      exact .inr ⟨signal, hsig, hkey⟩

/-- Entering takes the pending signals of the bar end only. -/
lemma enterOn_spec {barEnd : ℤ} {busy : List String}
    (hsort : pending.Pairwise fun a b => a.entryTime ≤ b.entryTime)
    (hpend : ∀ signal ∈ pending, barEnd ≤ signal.entryTime)
    (hrel : ∀ signal ∈ pending, signal.entryTime = barEnd →
      Occupancy.Before barEnd (releaseOn bars config maker signal)) (hbusy : ∀ k, k ∈ busy ↔
      Occupancy.Held key (releaseOn bars config maker) holders k barEnd) :
    ∃ group, pending = group ++ (enterOn barEnd busy pending).1 ∧
      (∀ signal ∈ group, signal.entryTime = barEnd) ∧
      (∀ signal ∈ (enterOn barEnd busy pending).1, barEnd < signal.entryTime) ∧
      (enterOn barEnd busy pending).2 = takenOn bars config maker holders group := by
  induction pending generalizing busy holders with
  | nil => exact ⟨[], rfl, forall_mem_nil _, forall_mem_nil _, rfl⟩
  | cons signal rest ih =>
    obtain ⟨hfst, hsort⟩ := pairwise_cons.mp hsort
    obtain ⟨hsig, hrest⟩ := forall_mem_cons.mp hpend
    obtain ⟨hlife, hrel⟩ := forall_mem_cons.mp hrel
    by_cases hlate : barEnd < signal.entryTime
    · rw [enterOn, if_neg (not_le.mpr hlate)]
      refine ⟨[], rfl, forall_mem_nil _, fun s hs => ?_, rfl⟩
      rcases mem_cons.mp hs with rfl | hs
      · exact hlate
      · exact hlate.trans_le (hfst s hs)
    · have hnow : signal.entryTime = barEnd := le_antisymm (not_lt.mp hlate) hsig
      rw [enterOn, if_pos hnow.le]
      by_cases hin : signal.key ∈ busy
      · rw [if_pos (.inr hin)]
        obtain ⟨group, hsplit, hgroup, hthen, henter⟩ := ih hsort hrest hrel hbusy
        refine ⟨signal :: group, ?_, forall_mem_cons.mpr ⟨hnow, hgroup⟩, hthen, ?_⟩
        · rw [cons_append, ← hsplit]
        · rw [henter]
          unfold takenOn
          rw [taken, hnow, if_pos ((hbusy signal.key).mp hin)]
      · rw [if_neg (not_or.mpr ⟨not_not.mpr hnow, hin⟩)]
        have hbusy' : ∀ k, k ∈ signal.key :: busy ↔
            Occupancy.Held key (releaseOn bars config maker) (holders ++ [signal])
              k barEnd := by
          intro k
          rw [held_append, held_singleton, mem_cons, ← hbusy k, or_comm,
            and_iff_left (hlife hnow), eq_comm]
        obtain ⟨group, hsplit, hgroup, hthen, henter⟩ := ih hsort hrest hrel hbusy'
        refine ⟨signal :: group, ?_, forall_mem_cons.mpr ⟨hnow, hgroup⟩, hthen, ?_⟩
        · rw [cons_append]
          rw [← hsplit]
        · dsimp only
          rw [henter]
          unfold takenOn
          rw [taken, hnow, if_neg fun h => hin ((hbusy signal.key).mpr h)]

/-! ## The open positions -/

/-- A position with its fixed stop that was filled by a time. -/
structure Filled.Flat (entry : Filled) (time : ℤ) : Prop where
  trailing : entry.trailing = false
  fillTime_le : entry.fillTime ≤ time

lemma Filled.Flat.later {entry : Filled} (h : entry.Flat time) (htime : time ≤ time') :
    entry.Flat time' := ⟨h.trailing, h.fillTime_le.trans htime⟩

lemma Filled.flat_enter (config : ExitConfig) (signal : ResearchSignal) (entryPrice : ℚ)
    (fillTime : ℤ) : (enter config signal entryPrice fillTime).Flat fillTime := ⟨rfl, le_rfl⟩

/-- The keys of the open positions with the rest of their lives. -/
def carried (strict : Bool) (config : ExitConfig) (bars : List ReplayCandle)
    (opened : List Filled) : List (String × Life) :=
  opened.map fun entry => (entry.signal.key, entry.life strict config bars)

/-- The closes of the lives that end. -/
def closesOf (lives : List (String × Life)) : List MakerResearchClose :=
  lives.filterMap fun life => life.2.close

lemma closesOf_append (lives lives' : List (String × Life)) :
    closesOf (lives ++ lives') = closesOf lives ++ closesOf lives' := filterMap_append

section Bar

variable {strict : Bool} {bar : ReplayCandle} {rest : List ReplayCandle} {opened : List Filled}

section

variable (hfixed : config.trailingStart = none) (hopen : ∀ entry ∈ opened, entry.Flat bar.timestamp)

include hfixed hopen

lemma keptOn_eq : keptOn strict config bar opened =
      opened.filter fun entry => entry.fixedExit strict config bar = none := by
  rw [← filterMap_eq_filter]
  refine filterMap_congr fun entry hent => ?_
  have hflat := hopen entry hent
  rw [exitOnBar_of_fixed hfixed hflat.trailing hflat.fillTime_le]
  simp [Option.guard]

lemma settledOn_eq : settledOn strict config bar opened = opened.filterMap fun entry =>
      (entry.fixedExit strict config bar).map (entry, ·) := by
  refine filterMap_congr fun entry hent => ?_
  have hflat := hopen entry hent
  rw [exitOnBar_of_fixed hfixed hflat.trailing hflat.fillTime_le]

lemma carried_keptOn (k : String) {u : ℤ}
    (hu : bar.barEnd ≤ u) :
    (∃ life ∈ carried strict config (bar :: rest) opened,
        life.1 = k ∧ Occupancy.Before u life.2.release) ↔
      ∃ life ∈ carried strict config rest (keptOn strict config bar opened),
        life.1 = k ∧ Occupancy.Before u life.2.release := by
  rw [keptOn_eq hfixed hopen]
  constructor
  · rintro ⟨life, hlife, hkey, hlt⟩
    obtain ⟨entry, hent, rfl⟩ := mem_map.mp hlife
    cases hexit : entry.fixedExit strict config bar with
    | none =>
      rw [life_of_no_exit hexit] at hlt
      exact ⟨_, mem_map_of_mem (mem_filter.mpr ⟨hent, decide_eq_true hexit⟩), hkey, hlt⟩
    | some exit =>
      rw [life_of_exit hexit] at hlt
      exact absurd (before_coe.mp hlt) (not_lt.mpr hu)
  · rintro ⟨life, hlife, hkey, hlt⟩
    obtain ⟨entry, hent, rfl⟩ := mem_map.mp hlife
    obtain ⟨hent, hexit⟩ := mem_filter.mp hent
    refine ⟨_, mem_map_of_mem hent, hkey, ?_⟩
    rw [life_of_no_exit (of_decide_eq_true hexit)]
    exact hlt

lemma closesOf_carried : (closesOf (carried strict config (bar :: rest) opened)).Perm
      ((settledOn strict config bar opened).map (fun (entry, exit) => entry.makerClose exit) ++
        closesOf (carried strict config rest (keptOn strict config bar opened))) := by
  rw [keptOn_eq hfixed hopen, settledOn_eq hfixed hopen]
  clear hopen
  unfold closesOf carried
  induction opened with
  | nil => exact List.Perm.refl _
  | cons entry opened ih =>
    cases hexit : entry.fixedExit strict config bar with
    | none =>
      rw [map_cons, life_of_no_exit hexit]
      cases hcl : (entry.life strict config rest).close with
      | none => simpa [hexit, hcl] using ih
      | some close => simpa [hexit, hcl] using (ih.cons close).trans perm_middle.symm
    | some exit =>
      rw [map_cons, life_of_exit hexit]
      simpa [hexit] using ih

end

end Bar

/-! ## The walk -/

/-- The state of `simulateExits` before the bars `rest`, after `holders` were taken. -/
structure WalkOk (bars : List ReplayCandle) (config : ExitConfig) (rest : List ReplayCandle)
    (holders : List ResearchSignal) (time : ℤ) (run : ExitRun) : Prop where
  starts : ∀ bar ∈ rest.head?, bar.timestamp = time
  flat : ∀ entry ∈ run.opened, entry.Flat time
  carries : Carries bars config none holders (carried false config rest run.opened) time
  sorted : run.pending.Pairwise fun a b => a.entryTime ≤ b.entryTime
  decided : ∀ signal ∈ run.pending, ∃ bar ∈ rest, signal.entryTime = bar.barEnd

lemma Contiguous.decided_of_lt (hlt : bar.barEnd < time)
    (h : ∃ next ∈ bar :: rest, time = next.barEnd) : ∃ next ∈ rest, time = next.barEnd := by
  obtain ⟨next, hnext, htime⟩ := h
  rcases mem_cons.mp hnext with rfl | hnext
  · omega
  · exact ⟨next, hnext, htime⟩

lemma Contiguous.barEnd_le_of_decided (hcont : Contiguous (bar :: rest))
    (h : ∃ next ∈ bar :: rest, time = next.barEnd) : bar.barEnd ≤ time := by
  obtain ⟨next, hnext, rfl⟩ := h
  rcases mem_cons.mp hnext with rfl | hnext
  · exact le_rfl
  · have hle := hcont.barEnd_le next hnext
    have hlt := next.lt_barEnd
    omega

lemma Contiguous.starts (hcont : Contiguous (bar :: rest)) :
    ∀ next ∈ rest.head?, next.timestamp = bar.barEnd := by
  cases rest with
  | nil => exact fun next hnext => by cases hnext
  | cons first rest =>
    intro next hnext
    cases hnext
    exact (isChain_cons_cons.mp hcont).1

lemma lifeOn_of_barEnd (hcont : Contiguous (before ++ bar :: rest))
    (hsig : signal.entryTime = bar.barEnd) :
    lifeOn (before ++ bar :: rest) config maker signal = signal.life config maker rest := by
  unfold lifeOn
  rw [hsig, hcont.barsFrom_barEnd]

/-- **One bar.** Some signals enter; the state goes on with them as holders. -/
lemma WalkOk.step (hfixed : config.trailingStart = none) {run : ExitRun}
    (hbars : bars = before ++ bar :: rest) (hcont : Contiguous bars)
    (h : WalkOk bars config (bar :: rest) holders time run) :
    ∃ entered, WalkOk bars config rest (holders ++ entered) bar.barEnd
      (simulateBar config run bar) ∧
      takenOn bars config none holders run.pending = entered ++
        takenOn bars config none (holders ++ entered) (simulateBar config run bar).pending ∧
      carried false config rest (simulateBar config run bar).opened =
        carried false config rest (keptOn false config bar run.opened) ++
          livesOf bars config none entered := by
  have hsuff : Contiguous (bar :: rest) := (hbars ▸ hcont).right
  have htime : bar.timestamp = time := h.starts bar rfl
  have hle : time ≤ bar.barEnd := by
    have hlt := bar.lt_barEnd
    omega
  have hflat : ∀ entry ∈ run.opened, entry.Flat bar.timestamp := htime ▸ h.flat
  have hlife : ∀ signal : ResearchSignal, signal.entryTime = bar.barEnd →
      lifeOn bars config none signal =
        (enter config signal signal.entryPrice signal.entryTime).life false config rest := by
    intro signal hsig
    subst hbars
    exact lifeOn_of_barEnd hcont hsig
  -- the positions that stay open carry the keys after the bar
  have hkept : Carries bars config none holders
      (carried false config rest (keptOn false config bar run.opened)) bar.barEnd :=
    h.carries.congr hle fun k u hu => carried_keptOn hfixed hflat k hu
  have hbusy : ∀ k, k ∈ (keptOn false config bar run.opened).map (·.signal.key) ↔
      Occupancy.Held key (releaseOn bars config none) holders k bar.barEnd := by
    intro k
    rw [hkept k bar.barEnd le_rfl, mem_map]
    constructor
    · rintro ⟨entry, hent, hkey⟩
      exact ⟨_, mem_map_of_mem hent, hkey, lt_release hsuff.barEnd_le⟩
    · rintro ⟨life, hlife, hkey, -⟩
      obtain ⟨entry, hent, rfl⟩ := mem_map.mp hlife
      exact ⟨entry, hent, hkey⟩
  obtain ⟨group, hsplit, hgroup, hlate, henter⟩ := enterOn_spec h.sorted
    (fun signal hsig => hsuff.barEnd_le_of_decided (h.decided signal hsig))
    (fun signal _ hsig => by
      unfold releaseOn
      rw [hlife signal hsig]
      exact lt_release hsuff.barEnd_le) hbusy
  obtain ⟨entered, heq⟩ : ∃ entered, (enterOn bar.barEnd
      ((keptOn false config bar run.opened).map (·.signal.key)) run.pending).2 = entered := ⟨_, rfl⟩
  have hnow : ∀ signal ∈ entered, signal.entryTime = bar.barEnd := by
    intro signal hsig
    rw [← heq, henter] at hsig
    exact hgroup signal (mem_of_mem_taken hsig)
  have hopen : carried false config rest (simulateBar config run bar).opened =
      carried false config rest (keptOn false config bar run.opened) ++
        livesOf bars config none entered := by
    unfold simulateBar carried livesOf
    dsimp only
    rw [heq, map_append, map_map]
    congr 1
    refine map_congr_left fun signal hsig => ?_
    rw [hlife signal (hnow signal hsig)]
    rfl
  have hpend : ∀ signal ∈ (simulateBar config run bar).pending, signal ∈ run.pending := by
    intro signal hsig
    rw [hsplit]
    exact mem_append_right group hsig
  refine ⟨entered, ⟨hsuff.starts, ?_, ?_, ?_, ?_⟩, ?_, hopen⟩
  · intro entry hent
    rcases mem_append.mp hent with hent | hent
    · rw [keptOn_eq hfixed hflat] at hent
      exact (h.flat entry (mem_of_mem_filter hent)).later hle
    · rw [heq] at hent
      obtain ⟨signal, hsig, rfl⟩ := mem_map.mp hent
      exact (flat_enter config signal _ _).later (hnow signal hsig).le
  · rw [hopen]
    exact hkept.enter entered
  · have hsort := h.sorted
    rw [hsplit] at hsort
    exact (pairwise_append.mp hsort).2.1
  · exact fun signal hsig =>
      Contiguous.decided_of_lt (hlate signal hsig) (h.decided signal (hpend signal hsig))
  · conv_lhs => rw [hsplit]
    unfold takenOn at henter ⊢
    rw [taken_append, ← henter, heq]
    rfl

lemma pending_eq_nil (h : ∀ signal ∈ pending,
    ∃ bar ∈ ([] : List ReplayCandle), signal.entryTime = bar.barEnd) : pending = [] := by
  refine eq_nil_iff_forall_not_mem.mpr fun signal hsig => ?_
  obtain ⟨bar, hbar, -⟩ := h signal hsig
  cases hbar

lemma closesOf_carried_nil (strict : Bool) (opened : List Filled) :
    closesOf (carried strict config [] opened) = [] := by
  unfold closesOf carried
  rw [filterMap_map]
  exact filterMap_eq_nil_iff.mpr fun entry _ => rfl

/-- **The walk.** It books the closes of the open positions and of the signals that are taken. -/
theorem WalkOk.run (hfixed : config.trailingStart = none) (hcont : Contiguous bars)
    {run : ExitRun} (hbars : bars = before ++ rest) (h : WalkOk bars config rest holders time run) :
    (rest.foldl (simulateBar config) run).closes.Perm (run.closes ++
      (closesOf (carried false config rest run.opened ++ livesOf bars config none
        (takenOn bars config none holders run.pending))).map (·.toResearchClose)) := by
  induction rest generalizing before holders time run with
  | nil =>
    rw [pending_eq_nil h.decided, closesOf_append, closesOf_carried_nil]
    simp [takenOn, taken, livesOf, closesOf]
  | cons bar rest ih =>
    obtain ⟨entered, hnext, htaken, hopen⟩ := h.step hfixed hbars hcont
    have hrun := ih (hbars.trans (append_cons before bar rest)) hnext
    have hflat : ∀ entry ∈ run.opened, entry.Flat bar.timestamp := h.starts bar rfl ▸ h.flat
    have hbar : (closesOf (carried false config (bar :: rest) run.opened)).Perm
        ((settledOn false config bar run.opened).map (fun (entry, exit) => entry.makerClose exit) ++
          closesOf (carried false config rest (keptOn false config bar run.opened))) :=
      closesOf_carried hfixed hflat
    have hclos : (simulateBar config run bar).closes = run.closes ++
        ((settledOn false config bar run.opened).map fun (entry, exit) =>
          entry.makerClose exit).map (·.toResearchClose) := by
      rw [map_map]
      rfl
    refine hrun.trans ?_
    rw [hopen, htaken, hclos, livesOf_append]
    simp only [closesOf_append, map_append, append_assoc]
    refine List.Perm.append_left _ ?_
    rw [← append_assoc, ← map_append]
    exact ((hbar.map _).symm).append_right _

/-! ## The scan and the last close -/

/-- The signals are decided at closes of the bars. -/
def DecidedOn (bars : List ReplayCandle) (signals : List ResearchSignal) : Prop :=
  ∀ signal ∈ signals, ∃ bar ∈ bars, signal.entryTime = bar.barEnd

/-- The signals before the last close, in the order of their times. -/
def earlySignals (bars : List ReplayCandle) (signals : List ResearchSignal) : List ResearchSignal :=
  (orderedSignals signals).filter fun signal => signal.entryTime < lastClose bars

/-- The signals of the last close. -/
def lastSignals (bars : List ReplayCandle) (signals : List ResearchSignal) : List ResearchSignal :=
  (orderedSignals signals).filter fun signal => ¬ signal.entryTime < lastClose bars

lemma lastClose_append (before : List ReplayCandle) (bar : ReplayCandle) :
    lastClose (before ++ [bar]) = bar.barEnd := by
  unfold lastClose
  rw [getLast?_append]
  rfl

lemma Contiguous.decided_cases (hcont : Contiguous bars) (h : ∃ bar ∈ bars, time = bar.barEnd) :
    (time = lastClose bars ∧ barsFrom bars time = [] ∧ ∀ bar ∈ bars, bar.timestamp ≠ time) ∨
      (time < lastClose bars ∧ ∃ bar ∈ bars, bar.timestamp = time) := by
  obtain ⟨bar, hbar, rfl⟩ := h
  obtain ⟨before, after, rfl⟩ := append_of_mem hbar
  cases after with
  | nil =>
    refine .inl ⟨(lastClose_append before bar).symm, hcont.barsFrom_barEnd, ?_⟩
    have hlt := bar.lt_barEnd
    intro other hoth
    rcases mem_append.mp hoth with hoth | hoth
    · have hend := hcont.before other hoth
      have hothLt := other.lt_barEnd
      omega
    · obtain rfl := mem_singleton.mp hoth
      omega
  | cons next after =>
    have hnext : next.timestamp = bar.barEnd := hcont.right.starts next rfl
    refine .inr ⟨?_, next, by simp, hnext⟩
    obtain ⟨rest, last, hlast⟩ : ∃ rest last, next :: after = rest ++ [last] :=
      ⟨_, _, (dropLast_append_getLast (cons_ne_nil next after)).symm⟩
    have hmem : last ∈ next :: after := hlast ▸ mem_append_right rest (mem_singleton_self _)
    have hle := hcont.right.barEnd_le last hmem
    have hlt := last.lt_barEnd
    rw [hlast, append_cons, ← append_assoc, lastClose_append]
    omega

lemma IndexOf.eq_none (hidx : IndexOf bars barIndexAt) (h : ∀ bar ∈ bars, bar.timestamp ≠ time) :
    barIndexAt time = none := by
  refine Option.eq_none_iff_forall_ne_some.mpr fun index hsome => ?_
  obtain ⟨bar, hget, htime⟩ := (hidx time index).mp hsome
  exact h bar (mem_of_getElem? hget) htime

lemma IndexOf.eq_some (hidx : IndexOf bars barIndexAt) (h : ∃ bar ∈ bars, bar.timestamp = time) :
    ∃ index, barIndexAt time = some index := by
  obtain ⟨bar, hbar, htime⟩ := h
  obtain ⟨index, hget⟩ := mem_iff_getElem?.mp hbar
  exact ⟨index, (hidx time index).mpr ⟨bar, hget, htime⟩⟩

lemma orderedSignals_sorted (signals : List ResearchSignal) :
    (orderedSignals signals).Pairwise fun a b => a.entryTime ≤ b.entryTime := by
  exact pairwise_insertionSort _ signals

lemma mem_orderedSignals : signal ∈ orderedSignals signals ↔ signal ∈ signals := mem_insertionSort _

lemma orderedSignals_eq (bars : List ReplayCandle) (signals : List ResearchSignal) :
    orderedSignals signals = earlySignals bars signals ++ lastSignals bars signals := by
  unfold earlySignals lastSignals
  have hsort := orderedSignals_sorted signals
  generalize orderedSignals signals = ordered at hsort
  induction ordered with
  | nil => rfl
  | cons signal ordered ih =>
    obtain ⟨hfst, hsort⟩ := pairwise_cons.mp hsort
    by_cases hlt : signal.entryTime < lastClose bars
    · rw [filter_cons_of_pos (by simpa using hlt), filter_cons_of_neg (by simpa using hlt),
        cons_append, ← ih hsort]
    · have hall : ∀ other ∈ signal :: ordered, ¬ other.entryTime < lastClose bars := by
        intro other hoth
        rcases mem_cons.mp hoth with rfl | hoth
        · exact hlt
        · exact fun h => hlt ((hfst other hoth).trans_lt h)
      rw [filter_eq_nil_iff.mpr (by simpa using hall),
        filter_eq_self.mpr (by simpa using hall), nil_append]

lemma mem_earlySignals :
    signal ∈ earlySignals bars signals ↔ signal ∈ signals ∧ signal.entryTime < lastClose bars := by
  unfold earlySignals
  rw [mem_filter, mem_orderedSignals, decide_eq_true_eq]

lemma mem_lastSignals :
    signal ∈ lastSignals bars signals ↔ signal ∈ signals ∧ ¬ signal.entryTime < lastClose bars := by
  unfold lastSignals
  rw [mem_filter, mem_orderedSignals, decide_eq_true_eq]

lemma DecidedOn.last (h : DecidedOn bars signals) (hcont : Contiguous bars)
    (hsig : signal ∈ lastSignals bars signals) :
    signal.entryTime = lastClose bars ∧ barsFrom bars signal.entryTime = [] ∧
      ∀ bar ∈ bars, bar.timestamp ≠ signal.entryTime := by
  obtain ⟨hmem, hlast⟩ := mem_lastSignals.mp hsig
  exact (hcont.decided_cases (h signal hmem)).resolve_right fun hearly => hlast hearly.1

/-- `sparseExits` books the lives of the signals that are taken before the last close. -/
theorem sparseExits_eq (hcont : Contiguous bars) (hidx : IndexOf bars barIndexAt)
    (hdec : DecidedOn bars signals) :
    let lives := livesOf bars config maker
      (takenOn bars config maker [] (earlySignals bars signals))
    let result := sparseExits bars barIndexAt signals config maker
    result.closes = closesOf lives ∧ result.placed = lives.length * placements maker ∧
      result.missed = lives.countP (·.2.missed) := by
  obtain ⟨early, hearly⟩ : ∃ early, earlySignals bars signals = early := ⟨_, rfl⟩
  have hskip : ∀ run, (lastSignals bars signals).foldl
      (sparseSignal bars barIndexAt config maker) run = run := by
    intro run
    rw [foldl_ext _ (fun run _ => run) run fun run signal hsig => sparseSignal_of_no_bar
      (hidx.eq_none (hdec.last hcont hsig).2.2)]
    exact foldl_fixed _
  have hsort : early.Pairwise fun a b => a.entryTime ≤ b.entryTime :=
    hearly ▸ (orderedSignals_sorted signals).filter _
  have hbar : ∀ signal ∈ early, ∃ index, barIndexAt signal.entryTime = some index := by
    intro signal hsig
    obtain ⟨hmem, hlt⟩ := mem_earlySignals.mp (hearly ▸ hsig)
    rcases hcont.decided_cases (hdec signal hmem) with ⟨hlast, -⟩ | ⟨-, hst⟩
    · omega
    · exact hidx.eq_some hst
  obtain ⟨time, htime⟩ : ∃ time, ∀ signal ∈ early, time ≤ signal.entryTime := by
    cases early with
    | nil => exact ⟨0, forall_mem_nil _⟩
    | cons first rest =>
      exact ⟨first.entryTime, forall_mem_cons.mpr ⟨le_rfl, (pairwise_cons.mp hsort).1⟩⟩
  have htrac : Occupancy.Tracks key (releaseOn bars config maker)
      ({} : SparseRun).freeAt [] time := tracks_nil time
  obtain ⟨hclos, hplac, hmiss⟩ := foldl_sparseSignal hcont hidx hsort htime hbar htrac
  unfold sparseExits
  dsimp only
  rw [orderedSignals_eq bars signals, foldl_append, hskip, hearly, hclos, hplac, hmiss]
  unfold livesOf closesOf
  simp only [filterMap_map, length_map, countP_map, Nat.zero_add]
  exact ⟨rfl, trivial, rfl⟩

lemma closesOf_lastSignals (hcont : Contiguous bars) (hdec : DecidedOn bars signals) :
    closesOf (livesOf bars config maker
      (takenOn bars config maker holders (lastSignals bars signals))) = [] := by
  unfold closesOf livesOf
  rw [filterMap_map]
  refine filterMap_eq_nil_iff.mpr fun signal hsig => ?_
  have hrest := (hdec.last hcont (mem_of_mem_taken hsig)).2.1
  dsimp only [Function.comp_apply]
  unfold lifeOn
  rw [hrest]
  cases maker <;> rfl

lemma exists_start (bars : List ReplayCandle) :
    ∃ time, ∀ bar ∈ bars.head?, bar.timestamp = time := by
  cases bars with
  | nil => exact ⟨0, nofun⟩
  | cons bar rest =>
    refine ⟨bar.timestamp, fun first hfst => ?_⟩
    cases hfst
    rfl

/-- **The scan refines the walk.** For a fixed target and signals decided at closes of the bars,
`sparseExits` without a maker execution returns the closes of `simulateExits`, up to their order. -/
theorem sparseExits_refines_simulateExits {bars : List ReplayCandle} {barIndexAt : ℤ → Option ℕ}
    {config : ExitConfig} {signals : List ResearchSignal} (hcontiguous : Contiguous bars)
    (hindex : IndexOf bars barIndexAt) (hfixed : config.trailingStart = none)
    (hdecided : DecidedOn bars signals) :
    ((sparseExits bars barIndexAt signals config none).closes.map (·.toResearchClose)).Perm
      (simulateExits bars signals config) := by
  have hsparse : (sparseExits bars barIndexAt signals config none).closes =
      closesOf (livesOf bars config none
        (takenOn bars config none [] (earlySignals bars signals))) :=
    (sparseExits_eq hcontiguous hindex hdecided).1
  obtain ⟨time, hstart⟩ := exists_start bars
  have hwalk : WalkOk bars config bars [] time { pending := orderedSignals signals } :=
    { starts := hstart
      flat := forall_mem_nil _
      carries := carries_nil time
      sorted := orderedSignals_sorted signals
      decided := fun signal hsignal => hdecided signal (mem_orderedSignals.mp hsignal) }
  have hrun := hwalk.run hfixed hcontiguous (nil_append bars).symm
  refine List.Perm.trans ?_ hrun.symm
  rw [hsparse]
  rw [orderedSignals_eq bars signals, takenOn_append, livesOf_append, closesOf_append,
    closesOf_append, closesOf_lastSignals hcontiguous hdecided]
  simp [carried, closesOf]

/-! ## A series of four bars -/

/-- The map of the timestamps that the callers build. -/
def barIndexOf (bars : List ReplayCandle) (time : ℤ) : Option ℕ :=
  bars.findIdx? fun bar => bar.timestamp = time

lemma Contiguous.indexOf (hcont : Contiguous bars) : IndexOf bars (barIndexOf bars) := by
  intro time index
  unfold barIndexOf
  rw [findIdx?_eq_some_iff_getElem]
  constructor
  · rintro ⟨hlt, htime, -⟩
    exact ⟨bars[index], getElem?_eq_getElem hlt, of_decide_eq_true htime⟩
  · rintro ⟨bar, hget, htime⟩
    obtain ⟨hlt, hbar⟩ := List.getElem?_eq_some_iff.mp hget
    refine ⟨hlt, decide_eq_true (hbar ▸ htime), fun j hj hoth => ?_⟩
    have hjlt : j < bars.length := hj.trans hlt
    have hoth : bars[j].timestamp = time := of_decide_eq_true hoth
    -- an earlier bar ends before this one starts
    have hmem : bars[j] ∈ bars.take index := mem_take_iff_getElem.mpr ⟨j, by omega, rfl⟩
    have hsplit : bars = bars.take index ++ bar :: bars.drop (index + 1) := by
      rw [← hbar, ← drop_eq_getElem_cons hlt, take_append_drop]
    rw [hsplit] at hcont
    have hend := hcont.before _ hmem
    have hltEnd := bars[j].lt_barEnd
    omega

def sampleBars : List ReplayCandle :=
  [⟨60000, 100, 101, 99, 100, 1⟩, ⟨120000, 100, 103, 99, 102, 1⟩, ⟨180000, 102, 102, 90, 91, 1⟩,
    ⟨240000, 91, 92, 90, 91, 1⟩]

def sampleSignal (direction : Direction) (entryTime : ℤ) (entryPrice : ℚ) : ResearchSignal where
  type := "direction"
  direction := direction
  rule := "momentum"
  entryTime := entryTime
  entryPrice := entryPrice

def sampleSignals : List ResearchSignal :=
  [sampleSignal .long 120000 100, sampleSignal .long 180000 102, sampleSignal .short 240000 91,
    sampleSignal .long 300000 91]

def sampleConfig : ExitConfig where
  takeProfitPct := 1
  stopLossPct := 2
  maxHoldMs := none

lemma sampleBars_contiguous : Contiguous sampleBars := by
  unfold Contiguous
  decide

theorem sparseExits_refines_simulateExits_fourBars :
    ((sparseExits sampleBars (barIndexOf sampleBars) sampleSignals sampleConfig none).closes.map
        (·.toResearchClose)).Perm (simulateExits sampleBars sampleSignals sampleConfig) ∧
      (simulateExits sampleBars sampleSignals sampleConfig).map (·.exitPrice) =
        [101, 2499 / 25, 9009 / 100] :=
  ⟨sparseExits_refines_simulateExits sampleBars_contiguous sampleBars_contiguous.indexOf rfl
    (by unfold DecidedOn; decide), by decide +kernel⟩

end CtsEngine
