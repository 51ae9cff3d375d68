import CtsEngine.Foundation.Tally
import CtsEngine.TradeHistory.StoredPosition
import CtsEngine.Transition.Runs

/-!
# The contribution of a closed position

`buildLivePositionLifetimeContribution` turns a terminal row into the amounts that the lifetime
summary counts, and `recordLivePositionLifetimeContribution` adds them to the lanes of a connection.
The contributions of the last recorded positions are kept, so that a row that is recorded again
replaces what it has added before; older ones are pruned, and the watermark keeps the latest
closing time that was pruned.
-/

open List Keyed Option Prod Bool

namespace CtsEngine.LifetimeSummary

open StoredPosition (normalized)

/-! ## Rows -/

/-- A row as the summary reads it. -/
structure LifetimePosition extends StoredPosition where
  positionId : Option String := none
  openedAtSnake : StoredValue := .missing
  createdAtSnake : StoredValue := .missing
  closedAtSnake : StoredValue := .missing
  updatedAtSnake : StoredValue := .missing
  /-- `position.closeOrderId ?? position.close_order_id ?? position.exchangeData?.closeOrderId`. -/
  closeOrderIdText : Option String := none
  entryAccountingComplete : StoredValue := .missing
  /-- `resolvePositionLifetimeVolumeUsd(position)`. -/
  volumeUsd : ℚ := 0
  /-- `derivePositionRoi(position, pnl, true)`. -/
  roi : ℚ → Option ℚ := fun _ => none

/-- `TERMINAL_STATUSES`. -/
def terminalStatuses : List String := ["closed", "rejected", "cancelled", "canceled", "error"]

/-- `/^\d+(?:\.\d+)?$/`. -/
def isPlainNumeral (cs : List Char) : Bool :=
  !(leadingDigits 10 cs).isEmpty &&
    match afterDigits 10 cs with
    | [] => true
    | '.' :: fraction => !(leadingDigits 10 fraction).isEmpty && (afterDigits 10 fraction).isEmpty
    | _ => false

/-- Seconds are turned into milliseconds, and what is no positive number into zero. -/
def epochMilliseconds (value : Option ℚ) : ℚ :=
  match value with
  | some parsed => if parsed ≤ 0 then 0 else if parsed < 10000000000 then parsed * 1000 else parsed
  | none => 0

/-- `timestamp`.  `dateParse` is `Date.parse`, with zero for a text that is no date. -/
def timestamp (dateParse : String → ℚ) : StoredValue → ℚ
  | .number value => epochMilliseconds (some value)
  | .text value =>
    if isPlainNumeral (trim value).toList then epochMilliseconds (StoredValue.text value).toNumber
    else dateParse value
  | _ => 0

/-- `truthy`. -/
def truthyAccounting : StoredValue → Bool
  | .flag value => value
  | .number value => decide (value = 1)
  | .text value => ["1", "true", "yes", "on"].contains (toLowerCase (trim value))
  | _ => false

/-- The name of the lane of a source. -/
def sourceLane : LivePositionSource → String
  | .real => "real"
  | .simulated => "simulated"
  | .unknown => "unknown"

/-! ## Contributions -/

/-- `LivePositionLifetimeContribution`. -/
structure LifetimeContribution where
  schemaVersion : ℕ := 2
  positionId : String
  terminalAt : ℚ
  metrics : List (String × ℚ)

def add (metrics : List (String × ℚ)) (lane field : String) (value : ℚ) : List (String × ℚ) :=
  if value = 0 then metrics else tally metrics (lane ++ "." ++ field) value

namespace LifetimePosition

variable (dateParse : String → ℚ) (position : LifetimePosition)

/-- `openedAt`. -/
def openedAtMs : ℚ :=
  timestamp dateParse (position.openedAt.orElse (position.openedAtSnake.orElse
    (position.createdAt.orElse (position.createdAtSnake.orElse position.timestamp))))

/-- `closedAt`. -/
def closedAtMs : ℚ :=
  timestamp dateParse (position.closedAt.orElse (position.closedAtSnake.orElse
    (position.updatedAt.orElse position.updatedAtSnake)))

def executed : Bool := decide (0 < max 0 ((position.resolveConfirmedPositionQuantity true).getD 0))

def closedTrade : Bool := decide (normalized position.status = "closed") && position.executed

/-- What a closed trade adds to a lane before its accounting is looked at. -/
def tradeAmounts : List (String × ℚ) :=
  let direction := normalized (strOr position.direction position.side)
  let openedAt := position.openedAtMs dateParse
  let closedAt := position.closedAtMs dateParse
  let holdingMs := if 0 < openedAt ∧ openedAt ≤ closedAt then closedAt - openedAt else 0
  [("closedTrades", 1), ("lifetimeVolumeUsd", if position.executed then position.volumeUsd else 0)]
    ++ (if direction = "long" then [("longTrades", 1)] else [])
    ++ (if direction = "short" then [("shortTrades", 1)] else [])
    ++ (if 0 < holdingMs ∧ holdingMs < 60000 then [("under60Seconds", 1)] else [])
    ++ (if 0 < holdingMs ∧ holdingMs < 5 * 60000 then [("under5Minutes", 1)] else [])
    ++ [(if text position.closeOrderIdText = "" then "closeOrderIdMissing"
        else "closeOrderIdPresent", 1)]
    ++ [(if truthyAccounting position.entryAccountingComplete then "entryAccountingComplete"
        else "entryAccountingPending", 1)]

/-- What the settled result of a closed trade adds to a lane. -/
def resultAmounts (settledPnl : ℚ) : List (String × ℚ) :=
  let direction := normalized (strOr position.direction position.side)
  [("settledClosedTrades", 1), ("realizedPnl", settledPnl)]
    ++ (if 0 < settledPnl then [("wins", 1), ("grossProfit", settledPnl)]
        else if settledPnl < 0 then [("losses", 1), ("grossLoss", |settledPnl|)]
        else [("breakEven", 1)])
    ++ (if direction = "long" then [("longRealizedPnl", settledPnl)] else [])
    ++ (if direction = "short" then [("shortRealizedPnl", settledPnl)] else [])
    ++ (match position.roi settledPnl with
        | some roi => [("realizedRoiTotal", roi), ("realizedRoiCount", 1)]
        | none => [])

/-- What the row adds to each of its lanes. -/
def laneAmounts : List (String × ℚ) :=
  let status := normalized position.status
  [("terminalRows", 1)] ++ (if position.executed then [("executedRows", 1)] else [])
    ++ (if status = "rejected" then [("rejectedRows", 1)] else [])
    ++ (if status = "error" then [("errorRows", 1)] else [])
    ++ (if ["cancelled", "canceled"].contains status then [("cancelledRows", 1)] else [])
    ++ (if position.closedTrade then
        position.tradeAmounts dateParse ++
          match position.settledPnl with
          | none => [("accountingPending", 1)]
          | some settledPnl => position.resultAmounts settledPnl
      else [])

def buildLivePositionLifetimeContribution : Option LifetimeContribution :=
  let positionId := text (strOr position.id position.positionId)
  if !terminalStatuses.contains (normalized position.status) || positionId = "" then none
  else
    let closedAt := position.closedAtMs dateParse
    let updatedAt := timestamp dateParse (position.updatedAt.orElse position.updatedAtSnake)
    let lanes := ["all", sourceLane position.getLivePositionSource]
    some {
      positionId
      terminalAt := if closedAt ≠ 0 then closedAt else if updatedAt ≠ 0 then updatedAt
        else position.openedAtMs dateParse
      metrics := lanes.foldl (fun metrics lane => (position.laneAmounts dateParse).foldl
        (fun metrics amount => add metrics lane amount.1 amount.2) metrics) [] }

end LifetimePosition

/-! ## The summary of a connection -/

/-- The keys of the summary: the hash of the contributions, the list of their ids with the last
recorded one first, and the hash of the lanes with what counts the rows. -/
structure LifetimeStore where
  contributions : List (String × LifetimeContribution) := []
  order : List String := []
  lanes : List (String × ℚ) := []
  terminalIndexRows : ℕ := 0
  uniqueTerminalIndexRows : ℕ := 0
  ignoredHistoricReplays : ℕ := 0
  contributionWindowPruned : ℕ := 0
  contributionWindowPrunedBeforeAt : ℚ := 0
  schemaVersion : ℕ := 0
  updatedAt : ℚ := 0
  contributionWindowLimit : ℕ := 0

/-- `Math.max(1, Math.min(50_000, Math.floor(options.windowLimit || 10_000)))`. -/
def windowLimit : Option Double → ℕ
  | some (.finite q) => if q = 0 then 10000 else (max 1 (min 50000 ⌊q⌋)).toNat
  | some (.infinity negative) => if negative then 1 else 50000
  | _ => 10000

namespace LifetimeStore

/-- The id falls out of the window: its contribution is dropped and counted as pruned, and the
watermark is raised to its closing time. -/
def forget (s : LifetimeStore) (oldestId : String) : LifetimeStore :=
  match get? s.contributions oldestId with
  | none => s
  | some oldest =>
    { s with
      contributionWindowPrunedBeforeAt := max s.contributionWindowPrunedBeforeAt oldest.terminalAt
      contributions := s.contributions.filter (·.1 ≠ oldestId)
      contributionWindowPruned := s.contributionWindowPruned + 1 }

/-- One turn of the loop that prunes: `RPOP` of the oldest id. -/
def pruneOldest (s : LifetimeStore) : LifetimeStore :=
  match s.order.getLast? with
  | none => s
  | some oldestId => { s with order := s.order.dropLast }.forget oldestId

/-- The loop that prunes: it turns as long as there are more ids than the window holds. -/
def pruneWindow (limit : ℕ) (s : LifetimeStore) : LifetimeStore :=
  pruneOldest^[s.order.length - limit] s

/-- An unknown id is taken for an old row that comes again when it closed before the watermark. -/
def isHistoricReplay (s : LifetimeStore) (contribution : LifetimeContribution) : Bool :=
  (get? s.contributions contribution.positionId).isNone &&
    (decide (0 < s.contributionWindowPrunedBeforeAt) &&
      decide (contribution.terminalAt ≤ s.contributionWindowPrunedBeforeAt))

/-- The last `HSET` of a recording. -/
def stamp (s : LifetimeStore) (limit : ℕ) (now : ℚ) : LifetimeStore :=
  { s with schemaVersion := 2, updatedAt := now, contributionWindowLimit := limit }

/-- Take back what the id has added before, or count it as a new row. -/
def retract (s : LifetimeStore) (positionId : String) : LifetimeStore :=
  match get? s.contributions positionId with
  | some old =>
    { s with
      lanes := tallyAll s.lanes (old.metrics.map fun amount => (amount.1, -amount.2)) }
  | none =>
    { s with
      terminalIndexRows := s.terminalIndexRows + 1
      uniqueTerminalIndexRows := s.uniqueTerminalIndexRows + 1 }

/-- Add a contribution and put its id in front of the window. -/
def insert (s : LifetimeStore) (contribution : LifetimeContribution) : LifetimeStore :=
  { s with
    lanes := tallyAll s.lanes contribution.metrics
    contributions := put s.contributions contribution.positionId contribution
    order := contribution.positionId :: s.order.filter (· ≠ contribution.positionId) }

/-- `APPLY_CONTRIBUTION_LUA`.  The commands of the inline store are the same ones. -/
def applyContribution (s : LifetimeStore) (contribution : LifetimeContribution) (limit : ℕ)
    (now : ℚ) : LifetimeStore :=
  if s.isHistoricReplay contribution then
    { s with ignoredHistoricReplays := s.ignoredHistoricReplays + 1 }.stamp limit now
  else
    (((s.retract contribution.positionId).insert contribution).pruneWindow limit).stamp limit now

/-- A call of `recordLivePositionLifetimeContribution` with the time of its clock. -/
structure Recording where
  position : LifetimePosition
  limit : Option Double := none
  now : ℚ := 0

def recordLivePositionLifetimeContribution (dateParse : String → ℚ) (s : LifetimeStore)
    (call : Recording) : LifetimeStore :=
  match call.position.buildLivePositionLifetimeContribution dateParse with
  | none => s
  | some contribution => s.applyContribution contribution (windowLimit call.limit) call.now

end LifetimeStore

end CtsEngine.LifetimeSummary

namespace CtsEngine.LifetimeSummary

open LifetimeStore

open Transition (Meets run)

/-! ## What was recorded -/

/-- The history of the recordings: the ids of the window, the last recorded one first, and for each
recorded position what was recorded last while it was in the window. -/
structure Seen where
  window : List String := []
  last : List (String × LifetimeContribution) := []

/-- The window with an id in front. -/
def touch (limit : ℕ) (window : List String) (id : String) : List String :=
  (id :: window.filter (· ≠ id)).take limit

namespace Seen

/-- The position was recorded before. -/
def Recorded (seen : Seen) (id : String) : Prop := (get? seen.last id).isSome = true

instance (seen : Seen) (id : String) : Decidable (seen.Recorded id) :=
  inferInstanceAs (Decidable (_ = true))

/-- A recording counts for a position of the window and for a new position; one that has left the
window keeps what it had. -/
def record (seen : Seen) (contribution : LifetimeContribution) (limit : ℕ) : Seen :=
  if contribution.positionId ∈ seen.window ∨ ¬ seen.Recorded contribution.positionId then
    { window := touch limit seen.window contribution.positionId
      last := put seen.last contribution.positionId contribution }
  else seen

end Seen

/-- The store and the history after a call. -/
def recordingStep (dateParse : String → ℚ) (state : LifetimeStore × Seen)
    (call : LifetimeStore.Recording) : Option (LifetimeStore × Seen) :=
  some (state.1.recordLivePositionLifetimeContribution dateParse call,
    match call.position.buildLivePositionLifetimeContribution dateParse with
    | none => state.2
    | some contribution => state.2.record contribution (windowLimit call.limit))

/-- The lanes hold the sums over the recorded positions, and each of these is in the index or was
pruned. -/
structure CountsOnce (state : LifetimeStore × Seen) : Prop where
  lanes : ∀ field, amountAt state.1.lanes field =
    total (fun contribution => sumAt contribution.metrics field) state.2.last
  rows : state.1.contributions.length + state.1.contributionWindowPruned = state.2.last.length

/-- The watermark tells what the position is: one that is not in the window was recorded before
exactly if it closed before the watermark. -/
def ToldApart (dateParse : String → ℚ) (state : LifetimeStore × Seen)
    (call : LifetimeStore.Recording) : Prop :=
  ∀ contribution,
    call.position.buildLivePositionLifetimeContribution dateParse = some contribution →
      contribution.positionId ∈ state.2.window ∨ (state.2.Recorded contribution.positionId ↔
          0 < state.1.contributionWindowPrunedBeforeAt ∧
            contribution.terminalAt ≤ state.1.contributionWindowPrunedBeforeAt)

/-! ## The window -/

/-- The list of the ids and the hash of the contributions have the same ids. -/
structure Indexed (s : LifetimeStore) : Prop where
  nodup : s.order.Nodup
  unique : KeysUnique s.contributions
  mem_order : ∀ id, id ∈ s.order ↔ (get? s.contributions id).isSome = true

/-- What pruning leaves alone. -/
structure Pruned (s t : LifetimeStore) : Prop where
  lanes : t.lanes = s.lanes
  rows : t.contributions.length + t.contributionWindowPruned =
    s.contributions.length + s.contributionWindowPruned
  kept : ∀ id contribution, get? t.contributions id = some contribution →
    get? s.contributions id = some contribution

lemma Pruned.refl (s : LifetimeStore) : Pruned s s := ⟨rfl, rfl, fun _ _ h => h⟩

lemma Pruned.trans {s t u : LifetimeStore} (h : Pruned s t) (h' : Pruned t u) : Pruned s u :=
  ⟨h'.lanes.trans h.lanes, h'.rows.trans h.rows, fun id c hc => h.kept id c (h'.kept id c hc)⟩

variable {s : LifetimeStore}

lemma Indexed.pruneOldest (h : Indexed s) :
    Indexed s.pruneOldest ∧ Pruned s s.pruneOldest ∧ s.pruneOldest.order = s.order.dropLast := by
  rcases eq_nil_or_concat s.order with hnil | ⟨rest, oldestId, hord⟩
  · have hsame : s.pruneOldest = s := by rw [LifetimeStore.pruneOldest, hnil]; rfl
    rw [hsame, hnil]
    exact ⟨h, .refl s, rfl⟩
  · rw [concat_eq_append] at hord
    have hdrop : s.order.dropLast = rest := by rw [hord, dropLast_concat]
    have hmem : oldestId ∈ s.order := by simp [hord]
    obtain ⟨oldest, holdes⟩ := isSome_iff_exists.mp ((h.mem_order oldestId).mp hmem)
    have hnew : oldestId ∉ rest ∧ rest.Nodup := by
      have hnodup := h.nodup
      rw [hord, nodup_append_comm] at hnodup
      exact nodup_cons.mp hnodup
    have hprune : s.pruneOldest = { s with
          order := rest
          contributionWindowPrunedBeforeAt :=
            max s.contributionWindowPrunedBeforeAt oldest.terminalAt
          contributions := s.contributions.filter (·.1 ≠ oldestId)
          contributionWindowPruned := s.contributionWindowPruned + 1 } := by
      rw [LifetimeStore.pruneOldest, hord, getLast?_concat]
      dsimp only
      rw [forget]
      rw [holdes, dropLast_concat]
    rw [hprune, hdrop]
    refine ⟨⟨hnew.2, h.unique.filter _, fun id => ?_⟩, ⟨rfl, ?_, fun id c hc => ?_⟩, rfl⟩
    · rw [get?_filter_ne]
      split_ifs with hid
      · subst hid
        simpa using hnew.1
      · rw [← h.mem_order, hord]
        simp [hid]
    · have hlen := length_filter_ne h.unique (isSome_get?_iff.mp
        (isSome_of_mem holdes))
      dsimp only
      omega
    · rw [get?_filter_ne] at hc
      split_ifs at hc
      exact hc

lemma Indexed.iterate_pruneOldest (h : Indexed s) (n : ℕ) :
    Indexed (LifetimeStore.pruneOldest^[n] s) ∧ Pruned s (LifetimeStore.pruneOldest^[n] s) ∧
      (LifetimeStore.pruneOldest^[n] s).order = s.order.take (s.order.length - n) := by
  induction n with
  | zero => exact ⟨h, .refl s, (take_length ..).symm⟩
  | succ n ih =>
    obtain ⟨hidxd, hprun, hord⟩ := ih
    obtain ⟨hidxd', hprun', hord'⟩ := hidxd.pruneOldest
    rw [Function.iterate_succ_apply']
    refine ⟨hidxd', hprun.trans hprun', ?_⟩
    rw [hord', hord, dropLast_eq_take, take_take, length_take]
    congr 1
    omega

lemma Indexed.pruneWindow (h : Indexed s) (limit : ℕ) :
    Indexed (s.pruneWindow limit) ∧ Pruned s (s.pruneWindow limit) ∧
      (s.pruneWindow limit).order = s.order.take limit := by
  obtain ⟨hidxd, hprun, hord⟩ := h.iterate_pruneOldest (s.order.length - limit)
  refine ⟨hidxd, hprun, hord.trans ?_⟩
  rcases Nat.le_total limit s.order.length with hle | hle
  · rw [Nat.sub_sub_self hle]
  · rw [Nat.sub_eq_zero_of_le hle, Nat.sub_zero, take_length, take_of_length_le hle]

/-! ## One recording -/

/-- The store and the history agree, besides the sums, on the window and on what is in it. -/
structure Faithful (state : LifetimeStore × Seen) : Prop extends CountsOnce state where
  indexed : Indexed state.1
  window : state.1.order = state.2.window
  kept : ∀ id contribution, get? state.1.contributions id = some contribution →
    get? state.2.last id = some contribution

variable {s : LifetimeStore} {seen : Seen} {contribution : LifetimeContribution}

lemma amountAt_retract (s : LifetimeStore) (id field : String) :
    amountAt (s.retract id).lanes field = amountAt s.lanes field -
      ((get? s.contributions id).map fun old => sumAt old.metrics field).getD 0 := by
  rw [retract]
  cases hold : get? s.contributions id with
  | none => simp
  | some old => simp [amountAt_tallyAll, sumAt_map_neg, sub_eq_add_neg]

lemma contributions_retract (s : LifetimeStore) (id : String) :
    (s.retract id).contributions = s.contributions ∧ (s.retract id).order = s.order ∧
      (s.retract id).contributionWindowPruned = s.contributionWindowPruned := by
  rw [retract]
  cases get? s.contributions id <;> exact ⟨rfl, rfl, rfl⟩

lemma Indexed.insert (h : Indexed s) (contribution : LifetimeContribution) :
    Indexed ((s.retract contribution.positionId).insert contribution) := by
  obtain ⟨hcont, hord, -⟩ := contributions_retract s contribution.positionId
  refine ⟨?_, (hcont.symm ▸ h.unique).put .., fun other => ?_⟩
  · rw [LifetimeStore.insert]
    rw [hord]
    refine nodup_cons.mpr ⟨fun hmem => ?_, h.nodup.filter _⟩
    exact of_decide_eq_true (mem_filter.mp hmem).2 rfl
  · rw [LifetimeStore.insert]
    rw [hord, hcont, isSome_get?_iff, mem_keys_put,
      ← isSome_get?_iff, ← h.mem_order]
    by_cases hoth : other = contribution.positionId
    · simp [hoth]
    · simp [hoth]

lemma rows_insert_of_new (h : contribution.positionId ∉ s.contributions.map fst) :
    ((s.retract contribution.positionId).insert contribution).contributions.length +
        ((s.retract contribution.positionId).insert contribution).contributionWindowPruned =
      s.contributions.length + s.contributionWindowPruned + 1 := by
  obtain ⟨hcont, -, hprun⟩ := contributions_retract s contribution.positionId
  rw [LifetimeStore.insert]
  rw [hprun, hcont, put_of_new _ h, length_append, length_singleton, Nat.add_right_comm]

lemma Faithful.insert (h : Faithful (s, seen)) (contribution : LifetimeContribution)
    (hid : contribution.positionId ∈ seen.window ∨ ¬ seen.Recorded contribution.positionId) :
    CountsOnce ((s.retract contribution.positionId).insert contribution,
      seen.record contribution 0) := by
  obtain ⟨hcont, -, hprun⟩ := contributions_retract s contribution.positionId
  -- What the index has of the id is what was recorded last for it.
  have hsame : get? seen.last contribution.positionId =
      get? s.contributions contribution.positionId := by
    cases hold : get? s.contributions contribution.positionId with
    | some old => exact h.kept _ old hold
    | none =>
      have hout : contribution.positionId ∉ seen.window := by
        rw [← h.window, h.indexed.mem_order, hold]
        exact false_ne_true
      exact not_isSome_iff_eq_none.mp (hid.resolve_left hout)
  have hkeys : contribution.positionId ∈ seen.last.map fst ↔
      contribution.positionId ∈ s.contributions.map fst := by
    rw [← isSome_get?_iff, hsame, isSome_get?_iff]
  have hrows := h.rows
  refine ⟨fun field => ?_, ?_⟩
  · rw [LifetimeStore.insert, Seen.record, if_pos hid]
    rw [amountAt_tallyAll, amountAt_retract, total_put, hsame, ← h.lanes field]
    ring
  · rw [Seen.record, if_pos hid]
    by_cases hold : contribution.positionId ∈ s.contributions.map fst
    · rw [LifetimeStore.insert]
      rw [hprun, hcont, length_put_of_mem _ hold,
        length_put_of_mem _ (hkeys.mpr hold), hrows]
    · rw [rows_insert_of_new hold, put_of_new _ (fun hmem => hold (hkeys.mp hmem)),
        length_append, length_singleton, hrows]

lemma Faithful.accept (h : Faithful (s, seen)) {limit : ℕ} (now : ℚ)
    (hid : contribution.positionId ∈ seen.window ∨ ¬ seen.Recorded contribution.positionId) :
    Faithful ((((s.retract contribution.positionId).insert contribution).pruneWindow limit).stamp
      limit now, seen.record contribution limit) := by
  have hcnts := h.insert contribution hid
  obtain ⟨hidxd, hprun, hord⟩ := (h.indexed.insert contribution).pruneWindow limit
  have hlast : (seen.record contribution limit).last = (seen.record contribution 0).last := by
    rw [Seen.record, Seen.record, if_pos hid, if_pos hid]
  obtain ⟨hsame, hids, -⟩ := contributions_retract s contribution.positionId
  refine ⟨⟨fun field => ?_, ?_⟩, ⟨hidxd.nodup, hidxd.unique, hidxd.mem_order⟩, ?_, ?_⟩
  · rw [hlast, ← hcnts.lanes field]
    exact congrArg (amountAt · field) hprun.lanes
  · rw [hlast, ← hcnts.rows]
    exact hprun.rows
  · refine Eq.trans hord ?_
    rw [Seen.record, if_pos hid, LifetimeStore.insert]
    rw [hids, ← h.window]
    rfl
  · intro id other hoth
    have hinser := hprun.kept id other hoth
    rw [LifetimeStore.insert] at hinser
    rw [hsame] at hinser
    rw [Seen.record, if_pos hid]
    by_cases hpos : id = contribution.positionId
    · subst hpos
      rw [get?_put_self] at hinser ⊢
      exact hinser
    · rw [get?_put_of_ne _ _ hpos] at hinser ⊢
      exact h.kept id other hinser

lemma Faithful.ignore (h : Faithful (s, seen)) (limit : ℕ) (now : ℚ) :
    Faithful ({ s with ignoredHistoricReplays := s.ignoredHistoricReplays + 1 }.stamp limit now,
      seen) :=
  ⟨⟨h.lanes, h.rows⟩, ⟨h.indexed.nodup, h.indexed.unique, h.indexed.mem_order⟩, h.window, h.kept⟩

lemma Faithful.isHistoricReplay_iff (h : Faithful (s, seen)) :
    s.isHistoricReplay contribution = true ↔ contribution.positionId ∉ seen.window ∧
      0 < s.contributionWindowPrunedBeforeAt ∧
        contribution.terminalAt ≤ s.contributionWindowPrunedBeforeAt := by
  rw [isHistoricReplay, and_eq_true, and_eq_true, decide_eq_true_iff,
    decide_eq_true_iff, isNone_iff_eq_none, ← h.window, h.indexed.mem_order,
    not_isSome_iff_eq_none]

variable {dateParse : String → ℚ}

lemma Faithful.step {state t : LifetimeStore × Seen} {call : LifetimeStore.Recording}
    (h : Faithful state) (hcall : ToldApart dateParse state call)
    (hstep : recordingStep dateParse state call = some t) : Faithful t := by
  obtain ⟨s, seen⟩ := state
  rw [recordingStep, some.injEq] at hstep
  subst hstep
  rw [recordLivePositionLifetimeContribution]
  cases hbuild : call.position.buildLivePositionLifetimeContribution dateParse with
  | none => exact h
  | some contribution =>
    dsimp only
    rw [applyContribution]
    by_cases hin : contribution.positionId ∈ seen.window
    · rw [if_neg fun hold => ((h.isHistoricReplay_iff).mp hold).1 hin]
      exact h.accept call.now (.inl hin)
    · have hplac := (hcall contribution hbuild).resolve_left hin
      by_cases hrecd : seen.Recorded contribution.positionId
      · rw [if_pos ((h.isHistoricReplay_iff).mpr ⟨hin, hplac.mp hrecd⟩), Seen.record,
          if_neg (not_or.mpr ⟨hin, not_not.mpr hrecd⟩)]
        exact h.ignore ..
      · rw [if_neg fun hold => hrecd (hplac.mpr ((h.isHistoricReplay_iff).mp hold).2)]
        exact h.accept call.now (.inr hrecd)

lemma Faithful.toldApart {state t : LifetimeStore × Seen} {call : LifetimeStore.Recording}
    (h : Faithful state) (hstep : recordingStep dateParse state call = some t)
    (hcnts : CountsOnce t) : ToldApart dateParse state call := by
  obtain ⟨s, seen⟩ := state
  rw [recordingStep, some.injEq] at hstep
  subst hstep
  intro contribution hbuild
  have hrows := h.rows
  have hrows' := hcnts.rows
  rw [recordLivePositionLifetimeContribution, hbuild] at hrows'
  dsimp only at hrows hrows' ⊢
  rw [applyContribution] at hrows'
  by_cases hin : contribution.positionId ∈ seen.window
  · exact .inl hin
  refine .inr ⟨fun hrecd => ?_, fun hold => ?_⟩
  · -- Otherwise the row is counted, though the position was counted before.
    by_contra hlate
    have hnew : contribution.positionId ∉ s.contributions.map fst := by
      rw [← isSome_get?_iff, ← h.indexed.mem_order]
      exact h.window ▸ hin
    rw [if_neg fun hold => hlate ((h.isHistoricReplay_iff).mp hold).2, Seen.record,
      if_neg (not_or.mpr ⟨hin, not_not.mpr hrecd⟩)] at hrows'
    have hprun := ((h.indexed.insert contribution).pruneWindow (windowLimit call.limit)).2.1.rows
    dsimp only at hprun
    rw [rows_insert_of_new hnew] at hprun
    dsimp only [stamp] at hrows'
    omega
  · -- Otherwise the row is ignored, though the position is new.
    by_contra hnew
    have hlast : contribution.positionId ∉ seen.last.map fst :=
      fun hmem => hnew (isSome_get?_iff.mpr hmem)
    rw [if_pos ((h.isHistoricReplay_iff).mpr ⟨hin, hold⟩), Seen.record, if_pos (.inr hnew)]
      at hrows'
    dsimp only [stamp] at hrows'
    rw [put_of_new _ hlast, length_append, length_singleton] at hrows'
    omega

/-- **Every closed position is counted once.** The lanes hold the sums after each of the recordings,
and every position is in the index or was pruned, exactly if the watermark places each recording
rightly. -/
theorem countsOnce_iff_toldApart (dateParse : String → ℚ) (calls : List LifetimeStore.Recording) :
    (∀ calls' state, calls' <+: calls → run (recordingStep dateParse) ({}, {}) calls' = some state →
      CountsOnce state) ↔
      Meets (recordingStep dateParse) (ToldApart dateParse) ({}, {}) calls := by
  have hempty : Faithful ({}, {}) := by
    refine ⟨⟨fun _ => rfl, rfl⟩, ⟨nodup_nil, nodup_nil, fun id => ?_⟩, rfl, ?_⟩
    · exact iff_of_false not_mem_nil false_ne_true
    · exact fun id contribution h => absurd h (some_ne_none contribution).symm
  refine (Transition.meets_iff_property (I := Faithful) (P := CountsOnce)
    (fun _ h => h.toCountsOnce) (fun _ _ _ h hcall => h.step hcall) ?_ calls hempty).symm
  exact fun state call h hall => h.toldApart rfl (hall _ rfl)

/-- A position that closed at a time. -/
def closedPosition (id : String) (closedAt settledPnl : ℚ) : LifetimePosition :=
  { id := some id
    status := some "closed"
    closedAt := .number closedAt
    executedQuantity := .number 1
    settledPnl := some settledPnl }

/-- A recording of a position that closed before one that was pruned, with a window of one. -/
def lateRecordings : List LifetimeStore.Recording :=
  [⟨closedPosition "b" 20000000000 5, some (.finite 1), 1⟩,
    ⟨closedPosition "c" 30000000000 7, some (.finite 1), 2⟩,
    ⟨closedPosition "a" 10000000000 (-2), some (.finite 1), 3⟩]

/-- The first recording of `a` is ignored. -/
theorem not_countsOnce_lateRecordings :
    ¬ ∀ state, run (recordingStep fun _ => 0) ({}, {}) lateRecordings = some state →
      CountsOnce state := by
  intro hall
  have hrows := (hall _ rfl).rows
  revert hrows
  decide +kernel

end CtsEngine.LifetimeSummary
