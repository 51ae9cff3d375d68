import CtsEngine.Foundation.JsValue
import CtsEngine.Foundation.MapIterator
import CtsEngine.Transition.Runs

/-!
# The progress of the historic load

The workers of a historic load report every symbol to a tracker in Redis: a set of completed
symbols, a set of symbols with an error, a count of candles, and the gate keys that let realtime
start.  A report is a sequence of Redis commands, and the commands of different calls interleave.

What the tracker keeps for display only is not part of the model.
-/

namespace CtsEngine.HistoricGate

open Option Prod MapIterator

def normalizeSymbol (value : String) : String := toUpperCase (trim value)

/-- `finiteInt`; what is not a finite number counts as zero. -/
def finiteInt (value : Option ℚ) : ℕ := (value.map fun q => ⌊q⌋.toNat).getD 0

/-- A scan of a set, which is read in pages. -/
structure Scan where
  found : List String := []
  finished : Bool := false

/-- What `markComplete` has read. -/
structure Reading where
  total : Option ℕ := none
  completed : Scan := {}
  errors : Scan := {}

/-- How far a call of the tracker is. -/
inductive Call
  /-- `startSymbol` is about to take the symbol out of the errors. -/
  | starting (symbol : String)
  /-- `completeSymbol` is about to add the symbol to the completed ones. -/
  | completing (symbol : String) (candleCount : ℕ)
  /-- `completeSymbol` is about to take the symbol out of the errors, and owes its candles. -/
  | clearing (symbol : String) (owed : ℕ)
  /-- `completeSymbol` is about to count its candles. -/
  | counting (owed : ℕ)
  /-- `errorSymbol` is about to add the symbol to the errors. -/
  | erring (symbol : String)
  /-- `markComplete` reads. -/
  | marking (reading : Reading)
  /-- `markComplete` is about to write the scoped gate key. -/
  | opening
  /-- `markComplete` is about to write the legacy gate key. -/
  | openingLegacy
  /-- `markComplete` is about to delete the gate keys. -/
  | closing
  | returned

/-- The tracker of a connection, and the calls that run. -/
structure Tracker where
  symbols : List String := []
  completed : List String := []
  errors : List String := []
  totalSymbols : ℕ := 0
  totalCandles : ℕ := 0
  doneScoped : Bool := false
  doneLegacy : Bool := false
  calls : List Call := []
  /-- The symbols that were added to the completed ones, again or for the first time, with the
  candle counts of their reports. -/
  completions : List (String × ℕ) := []

variable (totalSymbols : List String)

/-- `initialize`: a new basket inherits neither progress nor gates. -/
def initializeBasket : Tracker :=
  let symbols := ((totalSymbols.map normalizeSymbol).filter (· ≠ "")).foldl MapIterator.insert []
  { symbols := symbols, totalSymbols := symbols.length }

/-- A set of symbols as `markComplete` counts it. -/
def distinct (members : List String) : List String :=
  ((members.map normalizeSymbol).filter (· ≠ "")).foldl insert []

/-- The verdict of `markComplete`. -/
def Ready (total : ℕ) (completed errors : List String) : Prop :=
  0 < total ∧ total ≤ (distinct completed).length ∧ (distinct errors).length = 0

instance (total : ℕ) (completed errors : List String) : Decidable (Ready total completed errors) :=
  inferInstanceAs (Decidable (_ ∧ _ ∧ _))

/-- A worker calls the tracker. -/
inductive Report
  | startSymbol (symbol : String)
  | completeSymbol (symbol : String) (candleCount : Option ℚ)
  | errorSymbol (symbol : String)
  | markComplete

/-- The first command of a call; a report of no symbol does nothing. -/
def Report.call : Report → Call
  | .startSymbol symbol =>
    if normalizeSymbol symbol = "" then .returned else .starting (normalizeSymbol symbol)
  | .completeSymbol symbol candleCount =>
    if normalizeSymbol symbol = "" then .returned
    else .completing (normalizeSymbol symbol) (finiteInt candleCount)
  | .errorSymbol symbol =>
    if normalizeSymbol symbol = "" then .returned else .erring (normalizeSymbol symbol)
  | .markComplete => .marking {}

/-- One of the two sets that `markComplete` scans. -/
inductive Scanned
  | completed
  | errors

/-- A single Redis command, or the step of a call that needs none. -/
inductive Event
  | report (report : Report)
  /-- The next command of a call. -/
  | command (call : ℕ)
  /-- A page of a scan: some members that the set has now.  Which other members a scan passes over
  is left open. -/
  | page (call : ℕ) (set : Scanned) (members : List String) (last : Bool)

/-- The symbol after the next command of a call, and the call after it. -/
def perform (s : Tracker) : Call → Option (Call × Tracker)
  | .starting symbol =>
    some (.returned, { s with errors := erase s.errors symbol })
  | .completing symbol candleCount =>
    some (.clearing symbol (if symbol ∈ s.completed then 0 else candleCount), { s with
        completed := insert s.completed symbol
        completions := s.completions ++ [(symbol, candleCount)] })
  | .clearing symbol owed =>
    some (if 0 < owed then .counting owed else .returned,
      { s with errors := erase s.errors symbol })
  | .counting owed => some (.returned, { s with totalCandles := s.totalCandles + owed })
  | .erring symbol => some (.returned, { s with errors := insert s.errors symbol })
  | .marking reading =>
    match reading.total with
    | none => some (.marking { reading with total := some s.totalSymbols }, s)
    | some total =>
      if reading.completed.finished ∧ reading.errors.finished then
        some (if Ready total reading.completed.found reading.errors.found then .opening
          else .closing, s)
      else none
  | .opening => some (.openingLegacy, { s with doneScoped := true })
  | .openingLegacy => some (.returned, { s with doneLegacy := true })
  | .closing => some (.returned, { s with doneScoped := false, doneLegacy := false })
  | .returned => none

/-- A page is added to a scan that is not at its end. -/
def Scan.read (scan : Scan) (members : List String) (last : Bool) : Option Scan :=
  if scan.finished then none else some ⟨scan.found ++ members, last⟩

/-- What `markComplete` has read after a page of one of its scans. -/
def Reading.page (reading : Reading) (set : Scanned) (members : List String) (last : Bool) :
    Option Reading :=
  match set with
  | .completed =>
    (reading.completed.read members last).map fun scan => { reading with completed := scan }
  | .errors => (reading.errors.read members last).map fun scan => { reading with errors := scan }

/-- The members of a scanned set. -/
def Tracker.members (s : Tracker) : Scanned → List String
  | .completed => s.completed
  | .errors => s.errors

def step (s : Tracker) : Event → Option Tracker
  | .report report => some { s with calls := s.calls ++ [report.call] }
  | .command i =>
    (s.calls[i]?).bind fun call =>
      (perform s call).map fun after => { after.2 with calls := s.calls.set i after.1 }
  | .page i set members last =>
    (s.calls[i]?).bind fun call =>
      match call with
      | .marking reading =>
        if ∀ member ∈ members, member ∈ s.members set then
          (reading.page set members last).map fun read =>
            { s with calls := s.calls.set i (.marking read) }
        else none
      | _ => none

/-! ## The gate of the historic load -/

open Transition

variable {s t : Tracker} {event : Event} {call after : Call} {i : ℕ}

/-- One of the two gate keys is set. -/
def Tracker.GateOpen (s : Tracker) : Prop := s.doneScoped = true ∨ s.doneLegacy = true

/-- Every symbol of the basket is completed. -/
def Tracker.Covered (s : Tracker) : Prop := ∀ symbol ∈ s.symbols, symbol ∈ s.completed

/-- The gate is open only on full success. -/
def Tracker.OpenOnSuccess (s : Tracker) : Prop := s.GateOpen → s.Covered ∧ s.errors = []

/-- The candle count of the first completion of a symbol. -/
def firstCount (completions : List (String × ℕ)) (symbol : String) : ℕ :=
  ((completions.find? fun completion => completion.1 = symbol).map snd).getD 0

/-- The candles that a call has still to count. -/
def Call.owed : Call → ℕ
  | .clearing _ owed => owed
  | .counting owed => owed
  | _ => 0

/-- The candles of the first completion of every completed symbol. -/
def Tracker.candles (s : Tracker) : ℕ := (s.completed.map (firstCount s.completions)).sum

/-- Unless a completion is between its two commands, the count is that of the first completions. -/
def Tracker.CountsCandles (s : Tracker) : Prop :=
  (∀ call ∈ s.calls, call.owed = 0) → s.totalCandles = s.candles

/-- The next command of the call does not let the gate and the sets part. -/
def Call.Safe (s : Tracker) : Call → Prop
  | .marking reading =>
    ∀ total ∈ reading.total, Ready total reading.completed.found reading.errors.found →
      ∀ symbol ∈ s.symbols, symbol ∈ reading.completed.found
  | .opening => s.errors = []
  | .openingLegacy => s.errors = []
  | .erring _ => ¬ s.GateOpen
  | _ => True

/-- The event does not let the gate and the sets part. -/
def SafeEvent (s : Tracker) : Event → Prop
  | .command i => ∀ call ∈ s.calls[i]?, call.Safe s
  | _ => True

instance (s : Tracker) : ∀ call : Call, Decidable (call.Safe s)
  | .marking _ => inferInstanceAs (Decidable (∀ total ∈ _, _ → _))
  | .opening => inferInstanceAs (Decidable (s.errors = []))
  | .openingLegacy => inferInstanceAs (Decidable (s.errors = []))
  | .erring _ => inferInstanceAs (Decidable (¬ (s.doneScoped = true ∨ s.doneLegacy = true)))
  | .starting _ | .completing .. | .clearing .. | .counting _ | .closing | .returned =>
    isTrue trivial

instance (s : Tracker) : ∀ event, Decidable (SafeEvent s event)
  | .command i => inferInstanceAs (Decidable (∀ call ∈ s.calls[i]?, call.Safe s))
  | .report _ | .page .. => isTrue trivial

/-- What holds as long as every event is safe. -/
structure Guarded (s : Tracker) : Prop where
  gate : s.OpenOnSuccess
  opening : Call.opening ∈ s.calls → s.Covered
  openingLegacy : Call.openingLegacy ∈ s.calls → s.Covered
  found : ∀ reading, Call.marking reading ∈ s.calls →
    ∀ member ∈ reading.completed.found, member ∈ s.completed

/-- What is counted and what is owed are the candles of the first completions. -/
structure Counted (s : Tracker) : Prop where
  total : s.totalCandles + (s.calls.map Call.owed).sum = s.candles
  logged : ∀ symbol, symbol ∈ s.completions.map fst ↔ symbol ∈ s.completed

/-! ### Counting -/

variable {completions : List (String × ℕ)} {symbol : String}

lemma firstCount_append (h : symbol ∈ completions.map fst) (more : List (String × ℕ)) :
    firstCount (completions ++ more) symbol = firstCount completions symbol := by
  obtain ⟨completion, hmem, hsym⟩ := List.mem_map.mp h
  have hfnd : (completions.find? fun completion => completion.1 = symbol).isSome :=
    List.find?_isSome.mpr ⟨completion, hmem, decide_eq_true hsym⟩
  unfold firstCount
  rw [List.find?_append, or_of_isSome hfnd]

lemma firstCount_append_self (candleCount : ℕ)
    (h : symbol ∉ completions.map fst) :
    firstCount (completions ++ [(symbol, candleCount)]) symbol = candleCount := by
  have hnone : (completions.find? fun completion => completion.1 = symbol) = none := by
    refine List.find?_eq_none.mpr fun completion hmem hsym => h ?_
    exact List.mem_map.mpr ⟨completion, hmem, of_decide_eq_true hsym⟩
  unfold firstCount
  rw [List.find?_append, hnone]
  simp

lemma candles_completing (h : ∀ symbol, symbol ∈ s.completions.map fst ↔ symbol ∈ s.completed)
    (symbol : String) (candleCount : ℕ) :
    ((insert s.completed symbol).map
        (firstCount (s.completions ++ [(symbol, candleCount)]))).sum =
      s.candles + if symbol ∈ s.completed then 0 else candleCount := by
  have hkept : s.completed.map (firstCount (s.completions ++ [(symbol, candleCount)])) =
      s.completed.map (firstCount s.completions) :=
    List.map_congr_left fun other hoth => firstCount_append ((h other).mpr hoth) _
  unfold MapIterator.insert Tracker.candles
  by_cases hmem : symbol ∈ s.completed
  · rw [if_pos hmem, if_pos hmem, hkept, add_zero]
  · rw [if_neg hmem, if_neg hmem, List.map_append, List.sum_append, hkept, List.map_singleton,
      List.sum_singleton, firstCount_append_self candleCount fun hlogg =>
        hmem ((h symbol).mp hlogg)]

/-- A command that completes nothing new moves what is owed to what is counted. -/
lemma Counted.move (h : Counted s) {s' : Tracker} (hat : s.calls[i]? = some call)
    (hcompd : s'.completed = s.completed) (hcomp : s'.completions = s.completions)
    (htot : s'.totalCandles + after.owed = s.totalCandles + call.owed) :
    Counted { s' with calls := s.calls.set i after } := by
  have hsum := sum_map_set Call.owed after hat
  have hbef := h.total
  constructor
  · have hcands : ({ s' with calls := s.calls.set i after } : Tracker).candles = s.candles := by
      simp only [Tracker.candles, hcompd, hcomp]
    rw [hcands]
    change s'.totalCandles + ((s.calls.set i after).map Call.owed).sum = s.candles
    omega
  · intro symbol
    rw [hcompd, hcomp]
    exact h.logged symbol

lemma perform_marking {reading : Reading} {s' : Tracker}
    (h : perform s (.marking reading) = some (after, s')) :
    s' = s ∧ (after = .marking { reading with total := some s.totalSymbols } ∧
        reading.total = none ∨
      ∃ total, reading.total = some total ∧
        (after = .opening ∧ Ready total reading.completed.found reading.errors.found ∨
          after = .closing)) := by
  unfold perform at h
  dsimp only at h
  rcases htot : reading.total with _ | total
  · rw [htot] at h
    cases h
    exact ⟨rfl, .inl ⟨rfl, rfl⟩⟩
  · rw [htot] at h
    obtain ⟨-, heq⟩ := ite_none_right_eq_some.mp h
    cases heq
    refine ⟨rfl, .inr ⟨total, rfl, ?_⟩⟩
    split
    · rename_i hready
      exact .inl ⟨rfl, hready⟩
    · exact .inr rfl

lemma page_eq_some {set : Scanned} {members : List String} {last : Bool}
    (h : step s (.page i set members last) = some t) :
    ∃ reading read, s.calls[i]? = some (.marking reading) ∧
      (∀ member ∈ members, member ∈ s.members set) ∧
      reading.page set members last = some read ∧
      t = { s with calls := s.calls.set i (.marking read) } := by
  obtain ⟨call, hat, hrest⟩ := bind_eq_some_iff.mp h
  split at hrest
  · rename_i reading
    obtain ⟨hmems, hread⟩ := ite_none_right_eq_some.mp hrest
    obtain ⟨read, hpage, rfl⟩ := map_eq_some_iff.mp hread
    exact ⟨reading, read, hat, hmems, hpage, rfl⟩
  · exact absurd hrest (by simp)

lemma Counted.perform (h : Counted s) {s' : Tracker} (hat : s.calls[i]? = some call)
    (hperf : perform s call = some (after, s')) :
    Counted { s' with calls := s.calls.set i after } := by
  rcases call with symbol | ⟨symbol, candleCount⟩ | ⟨symbol, owed⟩ | owed | symbol | reading | _ | _
    |
    _ | _
  · cases hperf
    exact h.move hat rfl rfl rfl
  · -- a new completion owes its candles
    cases hperf
    have hsum := sum_map_set Call.owed
      (.clearing symbol (if symbol ∈ s.completed then 0 else candleCount)) hat
    have hbef := h.total
    constructor
    · change s.totalCandles + ((s.calls.set i _).map Call.owed).sum =
        ((insert s.completed symbol).map
          (firstCount (s.completions ++ [(symbol, candleCount)]))).sum
      rw [candles_completing h.logged symbol candleCount, ← hbef, add_assoc]
      exact congrArg (s.totalCandles + ·) hsum
    · intro other
      rw [List.map_append, List.mem_append, h.logged]
      simp
  · cases hperf
    refine h.move hat rfl rfl (congrArg (s.totalCandles + ·) ?_)
    split
    · rfl
    · exact (Nat.eq_zero_of_not_pos ‹_›).symm
  · cases hperf
    exact h.move hat rfl rfl rfl
  · cases hperf
    exact h.move hat rfl rfl rfl
  · obtain ⟨rfl, ⟨rfl, -⟩ | ⟨total, -, ⟨rfl, -⟩ | rfl⟩⟩ := perform_marking hperf
    · exact h.move hat rfl rfl rfl
    · exact h.move hat rfl rfl rfl
    · exact h.move hat rfl rfl rfl
  · cases hperf
    exact h.move hat rfl rfl rfl
  · cases hperf
    exact h.move hat rfl rfl rfl
  · cases hperf
    exact h.move hat rfl rfl rfl
  · exact absurd hperf (by simp [HistoricGate.perform])

lemma Counted.step (h : Counted s) (hstep : step s event = some t) : Counted t := by
  rcases event with report | i | ⟨i, set, members, last⟩
  · cases hstep
    refine ⟨?_, h.logged⟩
    have howed : report.call.owed = 0 := by
      rcases report <;> simp only [Report.call] <;> (try split) <;> rfl
    have htot := h.total
    rw [List.map_append, List.sum_append, List.map_singleton, howed]
    exact htot
  · obtain ⟨call, hat, hrest⟩ := bind_eq_some_iff.mp hstep
    obtain ⟨⟨after, s'⟩, hperf, rfl⟩ := map_eq_some_iff.mp hrest
    exact h.perform hat hperf
  · obtain ⟨reading, read, hat, -, -, rfl⟩ := page_eq_some hstep
    exact h.move hat rfl rfl rfl

/-! ### The gate -/

lemma Guarded.move (h : Guarded s) {s' : Tracker} (hsymb : s'.symbols = s.symbols)
    (hcompd : ∀ symbol ∈ s.completed, symbol ∈ s'.completed)
    (hgate : s'.GateOpen → s'.Covered ∧ s'.errors = [])
    (hopen : after = .opening ∨ after = .openingLegacy → s'.Covered)
    (hfnd : ∀ reading, after = .marking reading →
      ∀ member ∈ reading.completed.found, member ∈ s'.completed) :
    Guarded { s' with calls := s.calls.set i after } := by
  have hcovd : s.Covered → s'.Covered := by
    intro hbef symbol hsym
    exact hcompd symbol (hbef symbol (hsymb ▸ hsym))
  refine ⟨hgate, fun hmem => ?_, fun hmem => ?_, fun reading hmem => ?_⟩
  · rcases mem_set_cases hmem with hnew | ⟨j, -, hj⟩
    · exact hopen (.inl hnew.symm)
    · exact hcovd (h.opening (List.mem_of_getElem? hj))
  · rcases mem_set_cases hmem with hnew | ⟨j, -, hj⟩
    · exact hopen (.inr hnew.symm)
    · exact hcovd (h.openingLegacy (List.mem_of_getElem? hj))
  · rcases mem_set_cases hmem with hnew | ⟨j, -, hj⟩
    · exact hfnd reading hnew.symm
    · exact fun member hmembe =>
        hcompd member (h.found reading (List.mem_of_getElem? hj) member hmembe)

lemma Tracker.OpenOnSuccess.erase (h : s.OpenOnSuccess) (symbol : String) :
    s.GateOpen → s.Covered ∧ erase s.errors symbol = [] := by
  intro hopen
  obtain ⟨hcovd, hemp⟩ := h hopen
  refine ⟨hcovd, ?_⟩
  rw [hemp]
  rfl

lemma Guarded.perform (h : Guarded s) {s' : Tracker} (hat : s.calls[i]? = some call)
    (hsafe : call.Safe s) (hperf : perform s call = some (after, s')) :
    Guarded { s' with calls := s.calls.set i after } := by
  have hmem := List.mem_of_getElem? hat
  rcases call with symbol | ⟨symbol, candleCount⟩ | ⟨symbol, owed⟩ | owed | symbol | reading | _ | _
    |
    _ | _
  · cases hperf
    exact h.move rfl (fun _ h => h) (h.gate.erase symbol) (by simp) (by simp)
  · cases hperf
    have hkept : ∀ other ∈ s.completed, other ∈ insert s.completed symbol :=
      fun other hoth => mem_insert.mpr (.inl hoth)
    refine h.move rfl hkept (fun hopen => ?_) (by simp) (by simp)
    obtain ⟨hcovd, hemp⟩ := h.gate hopen
    exact ⟨fun other hoth => hkept other (hcovd other hoth), hemp⟩
  · cases hperf
    refine h.move rfl (fun _ h => h) (h.gate.erase symbol) ?_ ?_
    · split <;> simp
    · split <;> simp
  · cases hperf
    exact h.move rfl (fun _ h => h) h.gate (by simp) (by simp)
  · cases hperf
    exact h.move rfl (fun _ h => h) (fun hopen => absurd hopen hsafe) (by simp) (by simp)
  · have hfnd := h.found reading hmem
    obtain ⟨rfl, ⟨rfl, -⟩ | ⟨total, htot, ⟨rfl, hready⟩ | rfl⟩⟩ := perform_marking hperf
    · refine h.move rfl (fun _ h => h) h.gate (by simp) fun other hoth => ?_
      obtain rfl := Call.marking.inj hoth
      exact hfnd
    · refine h.move rfl (fun _ h => h) h.gate (fun _ symbol hsym => ?_) (by simp)
      exact hfnd symbol (hsafe total htot hready symbol hsym)
    · exact h.move rfl (fun _ h => h) h.gate (by simp) (by simp)
  · cases hperf
    exact h.move rfl (fun _ h => h) (fun _ => ⟨h.opening hmem, hsafe⟩)
      (fun _ => h.opening hmem) (by simp)
  · cases hperf
    exact h.move rfl (fun _ h => h) (fun _ => ⟨h.openingLegacy hmem, hsafe⟩) (by simp) (by simp)
  · cases hperf
    exact h.move rfl (fun _ h => h) (fun hopen => absurd hopen (by simp [Tracker.GateOpen]))
      (by simp) (by simp)
  · exact absurd hperf (by simp [HistoricGate.perform])

lemma found_of_page {reading read : Reading} {set : Scanned} {members : List String} {last : Bool}
    (h : reading.page set members last = some read)
    (hmems : ∀ member ∈ members, member ∈ s.members set)
    (hfnd : ∀ member ∈ reading.completed.found, member ∈ s.completed) :
    ∀ member ∈ read.completed.found, member ∈ s.completed := by
  rcases set
  · obtain ⟨scan, hscan, rfl⟩ := map_eq_some_iff.mp h
    obtain ⟨-, heq⟩ := ite_none_left_eq_some.mp hscan
    cases heq
    intro member hmem
    exact (List.mem_append.mp hmem).elim (hfnd member) (hmems member)
  · obtain ⟨scan, -, rfl⟩ := map_eq_some_iff.mp h
    exact hfnd

lemma Guarded.step (h : Guarded s) (hsafe : SafeEvent s event) (hstep : step s event = some t) :
    Guarded t := by
  rcases event with report | i | ⟨i, set, members, last⟩
  · cases hstep
    have hcall : report.call ≠ .opening ∧ report.call ≠ .openingLegacy ∧
        ∀ reading, report.call = .marking reading → reading.completed.found = [] := by
      rcases report <;> simp only [Report.call] <;> (try split) <;>
        simp +contextual [eq_comm]
    refine ⟨h.gate, fun hmem => ?_, fun hmem => ?_, fun reading hmem => ?_⟩
    · rcases List.mem_append.mp hmem with hold | hnew
      · exact h.opening hold
      · exact absurd (List.mem_singleton.mp hnew).symm hcall.1
    · rcases List.mem_append.mp hmem with hold | hnew
      · exact h.openingLegacy hold
      · exact absurd (List.mem_singleton.mp hnew).symm hcall.2.1
    · rcases List.mem_append.mp hmem with hold | hnew
      · exact h.found reading hold
      · rw [hcall.2.2 reading (List.mem_singleton.mp hnew).symm]
        exact List.forall_mem_nil _
  · obtain ⟨call, hat, hrest⟩ := bind_eq_some_iff.mp hstep
    obtain ⟨⟨after, s'⟩, hperf, rfl⟩ := map_eq_some_iff.mp hrest
    exact h.perform hat (hsafe call hat) hperf
  · obtain ⟨reading, read, hat, hmems, hpage, rfl⟩ := page_eq_some hstep
    refine h.move rfl (fun _ h => h) h.gate (by simp) fun other hoth => ?_
    obtain rfl := Call.marking.inj hoth
    exact found_of_page hpage hmems (h.found reading (List.mem_of_getElem? hat))

lemma counted_initializeBasket : Counted (initializeBasket totalSymbols) :=
  ⟨rfl, fun _ => Iff.rfl⟩

lemma guarded_initializeBasket : Guarded (initializeBasket totalSymbols) where
  gate := fun hopen => absurd hopen (by simp [Tracker.GateOpen, initializeBasket])
  opening := nofun
  openingLegacy := nofun
  found := fun _ hmem => absurd hmem List.not_mem_nil

/-- **The historic gate.** In every run the candles that are counted are those of the first
completions; and the gate is open only on full success as long as a verdict of success has found the
whole basket, no error stands when a gate key is written, and no error is recorded behind an open
gate. -/
theorem openOnSuccess_of_safe (totalSymbols : List String) (events : List Event) :
    (∀ done s, done <+: events → run step (initializeBasket totalSymbols) done = some s →
      s.CountsCandles) ∧
    (Meets step SafeEvent (initializeBasket totalSymbols) events →
      ∀ done s, done <+: events → run step (initializeBasket totalSymbols) done = some s →
        s.OpenOnSuccess) := by
  constructor
  · intro done s _ hrun hrest
    have hcounted : Counted s :=
      invariant_of_step (fun _ _ _ h hstep => h.step hstep)
        (counted_initializeBasket totalSymbols) hrun
    have hnone : (s.calls.map Call.owed).sum = 0 := by
      refine List.sum_eq_zero fun owed howed => ?_
      obtain ⟨call, hcall, rfl⟩ := List.mem_map.mp howed
      exact hrest call hcall
    rw [← hcounted.total, hnone, add_zero]
  · rintro hmeets done s ⟨rest, rfl⟩ hrun
    have hguarded : Guarded s :=
      invariant_of_meets (fun _ _ _ h hsafe hstep => h.step hsafe hstep)
        (guarded_initializeBasket totalSymbols) hmeets.left hrun
    exact hguarded.gate

/-- An error of one of two symbols that are completed, command by command, while the gate is
opened. -/
def errorThenSuccess : List Event :=
  [.report (.errorSymbol "B"), .report (.completeSymbol "A" (some 10)), .command 1, .command 0,
    .report (.completeSymbol "B" (some 5)), .command 2, .command 1, .command 2,
    .report .markComplete, .command 1, .command 3, .page 3 .completed ["A", "B"] true,
    .page 3 .errors [] true, .command 3, .command 3, .command 2, .command 3]

theorem openOnSuccess_errorThenSuccess : ∃ s,
    run step (initializeBasket ["A", "B"]) errorThenSuccess = some s ∧ s.CountsCandles ∧
      s.OpenOnSuccess ∧ s.GateOpen ∧ s.totalCandles = 15 := by
  have hopens : (run step (initializeBasket ["A", "B"]) errorThenSuccess).any
      (fun s => s.doneScoped = true ∧ s.totalCandles = 15) = true := by
    decide +kernel
  obtain ⟨s, hrun, hs⟩ := (Option.any_eq_true _ _).mp hopens
  obtain ⟨hopen, htotal⟩ := of_decide_eq_true hs
  obtain ⟨hcounts, hgate⟩ := openOnSuccess_of_safe ["A", "B"] errorThenSuccess
  exact ⟨s, hrun, hcounts _ s (List.prefix_refl _) hrun,
    hgate (by decide +kernel) _ s (List.prefix_refl _) hrun, .inl hopen, htotal⟩

/-- A basket of two symbols of which one is completed, together with a symbol of an older basket. -/
theorem not_openOnSuccess_foreignSymbol : ¬ ∀ totalSymbols events done s, done <+: events →
      run step (initializeBasket totalSymbols) done = some s → s.OpenOnSuccess := by
  intro hall
  have hopens : (run step (initializeBasket ["A", "B"])
      [.report (.completeSymbol "A" (some 10)), .report (.completeSymbol "C" (some 10)),
        .report .markComplete, .command 0, .command 1, .command 2,
        .page 2 .completed ["A", "C"] true, .page 2 .errors [] true, .command 2, .command 2]).any
        (fun s => s.doneScoped = true ∧ s.symbols = ["A", "B"] ∧ s.completed = ["A", "C"]) =
      true := by
    decide +kernel
  obtain ⟨s, hrun, hs⟩ := (Option.any_eq_true _ _).mp hopens
  obtain ⟨hopen, hsymbols, hcompleted⟩ := of_decide_eq_true hs
  have hcovered := (hall _ _ _ s (List.prefix_refl _) hrun (.inl hopen)).1 "B" (by simp [hsymbols])
  rw [hcompleted] at hcovered
  exact absurd hcovered (by decide)

end CtsEngine.HistoricGate
