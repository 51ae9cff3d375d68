import CtsEngine.Venue.Ownership
import Mathlib.Data.Finset.Basic

/-!
# The results ledger

`advanceResultsLedger` keeps, for one connection, the entries of the filled rows, the set of their
ids, the set of the ids that have to be read again, and the set of the rows that can never be a
result, each of which is counted once in the funnel.  A pass reads the sets and the rows that it
has not settled, and then writes one command after the other.
-/

namespace CtsEngine

open List Function

/-! ## Rows -/

inductive LivePositionSource
  | real
  | simulated
  | unknown
deriving DecidableEq

/-- What the ledger reads of the hash of a row, and what other modules make of the row. -/
structure LedgerRow where
  systemTrackingId : Option String := none
  status : Option String := none
  executedQuantity : Option ℚ := none
  filledQuantity : Option ℚ := none
  closeReason : Option String := none
  statusReason : Option String := none
  /-- `getLivePositionSource(row)`. -/
  source : LivePositionSource := .unknown
  /-- `isExecutedRealExchangePosition(row)`. -/
  executedReal : Bool := false
  /-- `resolveSettledRealizedPnl(row)`. -/
  settledPnl : Option ℚ := none

inductive RowClass
  | executed
  | simulated
  | foreign
  | neverTraded (reason : String)
  | pending
deriving DecidableEq

/-- `TERMINAL`. -/
def isLedgerTerminal (status : String) : Bool :=
  ["closed", "rejected", "cancelled", "canceled", "error", "failed"].contains status

/-- `classifyRow`.  A character counts as one in the length of a reason. -/
def classifyRow (row : LedgerRow) (connectionId : String) : RowClass :=
  let tracking := text row.systemTrackingId
  let status := toLowerCase (text row.status)
  let ownFill := decide (0 < row.executedQuantity.getD 0) || decide (0 < row.filledQuantity.getD 0)
  let terminalWithoutOwnFill := isLedgerTerminal status && (decide (status ≠ "closed") && !ownFill)
  if tracking ≠ "" ∧ hasPrefix ("sys-" ++ connectionId ++ "-") tracking = false then .foreign
  else if row.source = .simulated then .simulated
  else if !isLedgerTerminal status && !ownFill then .pending
  else if !terminalWithoutOwnFill && row.executedReal then .executed
  else if isLedgerTerminal status then
    let reason := String.ofList ((text (strOr row.closeReason row.statusReason)).toList.take 48)
    .neverTraded (status ++ "/" ++ if reason = "" then "-" else reason)
  else .pending

/-- The field of the funnel that counts a row of a class, for the classes that are final. -/
def RowClass.funnelField : RowClass → Option String
  | .executed => none
  | .pending => none
  | .simulated => some "simulated"
  | .foreign => some "foreign"
  | .neverTraded reason => some ("never:" ++ reason)

/-- `LedgerEntry`: the id and what says whether the entry is final. -/
structure LedgerEntry where
  id : String
  closed : Bool
  pnl : Option ℚ
  settled : Bool
deriving DecidableEq

def toLedgerEntry (id : String) (row : LedgerRow) : LedgerEntry :=
  let closed := isLedgerTerminal (toLowerCase (text row.status))
  let settledPnl := if closed then row.settledPnl else none
  ⟨id, closed, settledPnl, settledPnl.isSome⟩

/-- The entry is not read again. -/
def LedgerEntry.final (entry : LedgerEntry) : Bool := entry.closed && entry.settled

/-- The keys of one connection, with a history of what was counted and what was pruned. -/
structure LedgerStore where
  entries : String → Option LedgerEntry := fun _ => none
  ids : Finset String := ∅
  skip : Finset String := ∅
  openIds : Finset String := ∅
  funnel : String → ℕ := fun _ => 0
  /-- The reply to the last `SADD` to the skip set: the id was new. -/
  isNew : Bool := false
  /-- How often each id was counted in the funnel. -/
  counted : String → ℕ := fun _ => 0
  /-- The ids that were pruned from the skip set. -/
  pruned : Finset String := ∅

/-- A command of a pass.  The funnel is only counted up when the id was new in the skip set. -/
inductive LedgerCommand
  | sremSkip (id : String)
  | hsetEntry (id : String) (entry : LedgerEntry)
  | saddIds (id : String)
  | sremOpen (id : String)
  | saddOpen (id : String)
  | hdelEntry (id : String)
  | sremIds (id : String)
  | saddSkip (id : String)
  | hincrbyFunnel (id field : String)
deriving DecidableEq

/-- The id that a command is about. -/
def LedgerCommand.id : LedgerCommand → String
  | .sremSkip id => id
  | .hsetEntry id _ => id
  | .saddIds id => id
  | .sremOpen id => id
  | .saddOpen id => id
  | .hdelEntry id => id
  | .sremIds id => id
  | .saddSkip id => id
  | .hincrbyFunnel id _ => id

/-- What a command does. -/
def LedgerStore.exec (s : LedgerStore) : LedgerCommand → LedgerStore
  | .sremSkip id => { s with skip := s.skip.erase id, pruned := insert id s.pruned }
  | .hsetEntry id entry => { s with entries := update s.entries id (some entry) }
  | .saddIds id => { s with ids := insert id s.ids }
  | .sremOpen id => { s with openIds := s.openIds.erase id }
  | .saddOpen id => { s with openIds := insert id s.openIds }
  | .hdelEntry id => { s with entries := update s.entries id none }
  | .sremIds id => { s with ids := s.ids.erase id }
  | .saddSkip id => { s with skip := insert id s.skip, isNew := decide (id ∉ s.skip) }
  | .hincrbyFunnel id field =>
    if s.isNew then
      { s with
        funnel := update s.funnel field (s.funnel field + 1)
        counted := update s.counted id (s.counted id + 1) }
    else s

/-! ## A pass -/

/-- What one pass is handed: the replies to its reads, and its options. -/
structure LedgerPass where
  connectionId : String := ""
  /-- The ids of the rows that exist when the pass scans the keys. -/
  existing : List String := []
  /-- Whether the scan of the keys succeeded. -/
  scanned : Bool := true
  /-- The replies to the three `SMEMBERS`, empty when the command failed. -/
  idList : List String := []
  skipList : List String := []
  openList : List String := []
  /-- What reading each row gives; `none` when the command failed. -/
  rows : String → Option LedgerRow := fun _ => none
  maxRows : ℕ := 3000
  chunk : ℕ := 60
  /-- Whether the time budget lasts when a round of reads begins. -/
  inTime : ℕ → Bool := fun _ => true

namespace LedgerPass

variable (pass : LedgerPass)

/-- The ids of the keys that the scan returned, each once. -/
def live : List String := if pass.scanned then pass.existing.eraseDups else []

/-- The rows to look at: those that are not final yet, and every row never seen.  A row that is
pruned from the skip set is not live. -/
def todo : List String :=
  pass.openList.eraseDups.filter (· ∈ pass.live) ++ pass.live.filter fun id =>
      !decide (id ∈ pass.idList ∨ id ∈ pass.skipList) && !decide (id ∈ pass.openList)

/-- The rounds of reads: the ids that are read before a budget is used up. -/
def rounds : ℕ → ℕ → ℕ → List String → List String
  | 0, _, _, _ => []
  | fuel + 1, round, count, todo =>
    if todo ≠ [] ∧ count < pass.maxRows ∧ pass.inTime round = true then
      let slice := todo.take (max 1 pass.chunk)
      slice ++ rounds fuel (round + 1) (count + slice.length) (todo.drop (max 1 pass.chunk))
    else []

/-- The ids that the pass reads. -/
def readIds : List String := pass.rounds pass.todo.length 0 0 pass.todo

/-- The row that the pass reads, when it has a status. -/
def row (id : String) : Option LedgerRow :=
  (pass.rows id).filter fun row => strOrEmpty row.status ≠ ""

/-- The class of the row that the pass reads. -/
def classOf (id : String) : Option RowClass := (pass.row id).map (classifyRow · pass.connectionId)

/-- The commands that take an id out of the ledger. -/
def withdraw (id : String) : List LedgerCommand :=
  if id ∈ pass.openList then [.hdelEntry id, .sremIds id, .sremOpen id] else []

/-- The command that keeps an id in the set of the ids to read again, or removes it. -/
def openCommand (id : String) (entry : LedgerEntry) : LedgerCommand :=
  if entry.final then .sremOpen id else .saddOpen id

def rowCommands (id : String) : List LedgerCommand :=
  match pass.row id with
  | none => []
  | some row =>
    match classifyRow row pass.connectionId with
    | .executed =>
      let entry := toLedgerEntry id row
      .hsetEntry id entry ::
        ((if id ∈ pass.openList then [] else [.saddIds id]) ++ [openCommand id entry])
    | .pending => pass.withdraw id
    | class' => pass.withdraw id ++ [.saddSkip id, .hincrbyFunnel id (class'.funnelField.getD "")]

/-- The ids of the skip set whose rows are gone, at most 500 of them. -/
def pruneIds : List String := (pass.skipList.filter (· ∉ pass.live)).take 500

/-- The commands of the pass. -/
def commands : List LedgerCommand :=
  if pass.live = [] then []
  else pass.pruneIds.map .sremSkip ++ pass.readIds.flatMap pass.rowCommands

/-- `remaining === 0`, or no keys. -/
def complete : Bool := pass.live = [] || decide (pass.todo.length - pass.readIds.length = 0)

lemma rowCommands_cases (id : String) : (pass.classOf id = none ∧ pass.rowCommands id = []) ∨
      (pass.classOf id = some .executed ∧ ∃ entry, pass.rowCommands id = .hsetEntry id entry ::
          ((if id ∈ pass.openList then [] else [.saddIds id]) ++ [openCommand id entry])) ∨
      (pass.classOf id = some .pending ∧ pass.rowCommands id = pass.withdraw id) ∨
      ∃ kind field, pass.classOf id = some kind ∧ kind.funnelField = some field ∧
        pass.rowCommands id = pass.withdraw id ++ [.saddSkip id, .hincrbyFunnel id field] := by
  unfold classOf rowCommands
  cases hrow : pass.row id with
  | none => exact .inl ⟨rfl, rfl⟩
  | some row =>
    rw [Option.map_some]
    dsimp only
    cases classifyRow row pass.connectionId with
    | executed => exact .inr (.inl ⟨rfl, toLedgerEntry id row, rfl⟩)
    | pending => exact .inr (.inr (.inl ⟨rfl, rfl⟩))
    | simulated => exact .inr (.inr (.inr ⟨.simulated, _, rfl, rfl, rfl⟩))
    | foreign => exact .inr (.inr (.inr ⟨.foreign, _, rfl, rfl, rfl⟩))
    | neverTraded reason =>
      exact .inr (.inr (.inr ⟨.neverTraded reason, _, rfl, rfl, rfl⟩))

/-! ## What a pass reads -/

lemma nodup_eraseDups {α : Type*} [BEq α] [LawfulBEq α] (l : List α) : l.eraseDups.Nodup := by
  induction h : l.length using Nat.strong_induction_on generalizing l with
  | _ n ih =>
    cases l with
    | nil => exact nodup_nil
    | cons a l =>
      rw [eraseDups_cons, nodup_cons]
      have hle := length_filter_le (fun b => !b == a) l
      rw [length_cons] at h
      refine ⟨fun hmem => ?_, ih _ (by omega) _ rfl⟩
      rw [mem_eraseDups] at hmem
      have hne := (mem_filter.mp hmem).2
      simp at hne

lemma rounds_start (fuel round count : ℕ) (todo : List String) :
    pass.rounds fuel round count todo <+: todo := by
  induction fuel generalizing round count todo with
  | zero => exact nil_prefix
  | succ fuel ih =>
    unfold rounds
    split
    · have hrest := ih (round + 1) (count + (todo.take (max 1 pass.chunk)).length)
        (todo.drop (max 1 pass.chunk))
      have happ := (prefix_append_right_inj (todo.take (max 1 pass.chunk))).mpr hrest
      rwa [take_append_drop] at happ
    · exact nil_prefix

lemma readIds_start : pass.readIds <+: pass.todo := pass.rounds_start _ _ _ _

lemma mem_live {id : String} : id ∈ pass.live ↔ pass.scanned = true ∧ id ∈ pass.existing := by
  unfold live
  split
  · rename_i h
    simp [h]
  · rename_i h
    simp [h]

lemma mem_todo {id : String} : id ∈ pass.todo ↔ id ∈ pass.live ∧
    (id ∈ pass.openList ∨ (id ∉ pass.openList ∧ id ∉ pass.idList ∧ id ∉ pass.skipList)) := by
  unfold todo
  simp only [mem_append, mem_filter, mem_eraseDups, decide_eq_true_eq,
    Bool.and_eq_true, Bool.not_eq_true', decide_eq_false_iff_not]
  tauto

lemma nodup_todo : pass.todo.Nodup := by
  have hlive : pass.live.Nodup := by
    unfold live
    split
    · exact nodup_eraseDups _
    · exact nodup_nil
  refine nodup_append.mpr ⟨(nodup_eraseDups _).filter _, hlive.filter _, ?_⟩
  intro id hopen other hoth heq
  have hin := mem_eraseDups.mp (mem_filter.mp hopen).1
  have hout := (mem_filter.mp hoth).2
  rw [← heq] at hout
  simp [hin] at hout

lemma nodup_readIds : pass.readIds.Nodup := pass.readIds_start.sublist.nodup pass.nodup_todo

lemma complete_iff : pass.complete = true ↔ pass.live = [] ∨ pass.readIds = pass.todo := by
  unfold complete
  have hle := pass.readIds_start.length_le
  rw [Bool.or_eq_true, decide_eq_true_eq, decide_eq_true_eq]
  refine or_congr_right ⟨fun h => ?_, fun h => ?_⟩
  · exact pass.readIds_start.eq_of_length (by omega)
  · rw [h, Nat.sub_self]

end LedgerPass

end CtsEngine
