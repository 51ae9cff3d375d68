import Mathlib.Data.Finset.Card
import CtsEngine.Block.Lifecycle

/-!
# Admission of Signal positions

A Signal position is a slot, a symbol with a direction; several rows may stand on it.  Redis holds
for each slot the set of its rows, and the set of all slots with a row, once for both directions and
once for each.  `reserveSignalPositionCapacity` counts the slots and adds a row under a lease;
`savePosition` of a row that ends takes the row out of its slot, without the lease.

The model is the interleaving of these calls at the granularity of single Redis commands, with the
index ready and the lease kept until it is given back.  The index of row ids, whose count is only
reported, and the capacity snapshot are left out.
-/

namespace CtsEngine

open Function

/-! ## Slots and rows -/

/-- A symbol, as `signalSlotSymbol` writes it, and a direction. -/
structure SignalSlot where
  symbol : String
  direction : Direction
deriving DecidableEq

/-- A Signal row of the connection. -/
structure SignalRow where
  id : String
  symbol : String
  direction : Direction
deriving DecidableEq

/-- The slot of a row's symbol in a direction. -/
def SignalRow.slotIn (row : SignalRow) (direction : Direction) : SignalSlot :=
  ⟨symbolKey row.symbol, direction⟩

/-- The slot that a row stands on. -/
def SignalRow.slot (row : SignalRow) : SignalSlot := row.slotIn row.direction

/-- The sets of slots: the one of all slots, and the one of a direction. -/
inductive SlotIndex
  | all
  | of (direction : Direction)
deriving DecidableEq

/-- Whether a slot belongs in the set when it has a row. -/
def SlotIndex.covers : SlotIndex → SignalSlot → Bool
  | .all, _ => true
  | .of direction, slot => decide (slot.direction = direction)

/-- `normalizeSignalMaxPositions`: between `SIGNAL_MAX_POSITIONS_MIN` and `_MAX`, by default
`SIGNAL_MAX_POSITIONS_DEFAULT`. -/
def normalizeSignalMaxPositions (value : Option ℚ) : ℕ :=
  ⌊max 1 (min 350 (value.getD 100)) + 1 / 2⌋.toNat

/-- The slots of the rows, each once. -/
def slotsOf (rows : List SignalRow) : List SignalSlot := (rows.map SignalRow.slot).dedup

/-! ## The steps of the calls -/

/-- The four calls of `releaseSignalSlotRow` in the save of a row that ends: two before the row is
written, two after it. -/
inductive EndStage
  | firstLong
  | firstShort
  | secondLong
  | secondShort

/-- The direction of the slot that is released. -/
def EndStage.direction : EndStage → Direction
  | .firstLong | .secondLong => .long
  | .firstShort | .secondShort => .short

/-- What follows an `occupySignalSlot`. -/
inductive AfterOccupy
  /-- The next slot of a rebuild over the rows `active`. -/
  | restore (row : SignalRow) (active : List SignalRow) (slots : List SignalSlot)
  /-- The save of the candidate. -/
  | store (row : SignalRow)
  /-- Nothing: it was the second one of the candidate. -/
  | finish

/-- Where a worker stands.  In a reservation `row` is the candidate. -/
inductive SignalPhase
  | idle
  /-- Before the `SREM` of the row from its row set. -/
  | removingRow (row : SignalRow) (stage : EndStage)
  /-- Before the `SCARD` of the row set. -/
  | countingRows (row : SignalRow) (stage : EndStage)
  /-- The row set was empty: before the `SREM` from the set of all slots. -/
  | droppingSlot (row : SignalRow) (stage : EndStage)
  /-- Before the `SREM` from the set of the direction. -/
  | droppingDirection (row : SignalRow) (stage : EndStage)
  /-- Before the write of the ended row. -/
  | endingRow (row : SignalRow)
  /-- Before the row leaves the open index. -/
  | leavingIndex (row : SignalRow)
  /-- Waiting for the lease. -/
  | locking (row : SignalRow)
  /-- Before the `SCARD` of the set of all slots. -/
  | readingCapacity (row : SignalRow)
  /-- Before the `SET` of the verify lock. -/
  | gating (row : SignalRow)
  /-- `rebuildSignalAdmissionIndexes`: before the `LRANGE` of the open index. -/
  | listing (row : SignalRow)
  /-- The rows `ids` are still to be read; `active` are the active ones so far. -/
  | loading (row : SignalRow) (ids active : List SignalRow)
  /-- Before the scan for the keys of the row sets. -/
  | scanning (row : SignalRow) (active : List SignalRow)
  /-- Before the `SMEMBERS` of the next row set. -/
  | sweepingRows (row : SignalRow) (active : List SignalRow) (keys : List SignalSlot)
  /-- Before the `SREM` of stale rows. -/
  | removingStale (row : SignalRow) (active : List SignalRow) (keys : List SignalSlot)
      (stale : Finset SignalRow)
  /-- Before the `SMEMBERS` of the next set of slots. -/
  | sweepingSlots (row : SignalRow) (active : List SignalRow) (keys : List SlotIndex)
  /-- Before the `SREM` of slots that are gone. -/
  | removingGone (row : SignalRow) (active : List SignalRow) (keys : List SlotIndex)
      (key : SlotIndex) (gone : Finset SignalSlot)
  /-- The head of the loop that adds the active slots. -/
  | restoring (row : SignalRow) (active : List SignalRow) (slots : List SignalSlot)
  /-- `occupySignalSlot`: before the `SADD` to the row set. -/
  | addingRows (slot : SignalSlot) (rows : List SignalRow) (after : AfterOccupy)
  /-- Before the `SADD` to the set of all slots. -/
  | addingSlot (slot : SignalSlot) (after : AfterOccupy)
  /-- Before the `SADD` to the set of the direction. -/
  | addingDirection (slot : SignalSlot) (after : AfterOccupy)
  /-- Before `findOpenLivePositionByDir`. -/
  | finding (row : SignalRow) (allowed : Bool)
  /-- Before the `SCARD` of the candidate's row set. -/
  | countingCandidate (row : SignalRow) (allowed : Bool)
  /-- Before the write of the candidate's row. -/
  | storingRow (row : SignalRow)
  /-- Before the candidate enters the open index. -/
  | indexingRow (row : SignalRow)
  /-- Before the lease is given back. -/
  | unlocking

/-- The phase after a call of `releaseSignalSlotRow`. -/
def afterRelease (row : SignalRow) : EndStage → SignalPhase
  | .firstLong => .removingRow row .firstShort
  | .firstShort => .endingRow row
  | .secondLong => .removingRow row .secondShort
  | .secondShort => .leavingIndex row

/-- The phase after an `occupySignalSlot`. -/
def AfterOccupy.phase : AfterOccupy → SignalPhase
  | .restore row active slots => .restoring row active slots
  | .store row => .storingRow row
  | .finish => .unlocking

/-- All workers and Redis.  A row of `members` stands in the row set of its slot.  `reserved` and
`ended` are history: the rows that were ever added to a row set, and the rows whose ending save was
called. -/
structure SignalSystem (W : Type*) where
  members : Finset SignalRow
  index : SlotIndex → Finset SignalSlot
  lease : Option W
  verifyLock : Bool
  /-- The rows whose stored status is active. -/
  stored : Finset SignalRow
  openIndex : List SignalRow
  phase : W → SignalPhase
  reserved : Finset SignalRow
  ended : Finset SignalRow

/-- What a step is handed: whether `findOpenLivePositionByDir` returns an active row, whether an
orders limit is reached, the keys that a scan returns, and whether the wait for the lease is
over. -/
structure SignalAnswer where
  existing : Bool := false
  ordersFull : Bool := false
  keys : List SignalSlot := []
  giveUp : Bool := false

/-- A step: a call begins, a call performs its next command, the verify lock expires. -/
inductive SignalAction (W : Type*)
  | reserve (w : W) (row : SignalRow)
  | endPosition (w : W) (row : SignalRow)
  | command (w : W) (answer : SignalAnswer)
  | expireVerifyLock

variable {W : Type*}

/-- No rows, no slots, no calls. -/
def SignalSystem.start : SignalSystem W where
  members := ∅
  index := fun _ => ∅
  lease := none
  verifyLock := false
  stored := ∅
  openIndex := []
  phase := fun _ => .idle
  reserved := ∅
  ended := ∅

/-- The slots with a non-empty row set. -/
def SignalSystem.occupied (s : SignalSystem W) : Finset SignalSlot := s.members.image SignalRow.slot

/-- The reserved rows that nobody ends. -/
def SignalSystem.active (s : SignalSystem W) : Finset SignalRow := s.reserved \ s.ended

variable [DecidableEq W]

/-- The worker `w` enters a phase. -/
def SignalSystem.enter (s : SignalSystem W) (w : W) (phase : SignalPhase) : SignalSystem W :=
  { s with phase := update s.phase w phase }

/-- `SREM` of slots from one set of slots. -/
def SignalSystem.sremSlots (s : SignalSystem W) (key : SlotIndex) (slots : Finset SignalSlot) :
    SignalSystem W :=
  { s with index := update s.index key (s.index key \ slots) }

/-- `SADD` of a slot to one set of slots. -/
def SignalSystem.saddSlot (s : SignalSystem W) (key : SlotIndex) (slot : SignalSlot) :
    SignalSystem W :=
  { s with index := update s.index key (insert slot (s.index key)) }

/-- `SADD` of rows to the row set of their slot. -/
def SignalSystem.saddRows (s : SignalSystem W) (rows : List SignalRow) : SignalSystem W :=
  { s with members := s.members ∪ rows.toFinset, reserved := s.reserved ∪ rows.toFinset }

/-- The next command of the call of `w`. -/
def SignalSystem.command (limit : ℕ) (s : SignalSystem W) (w : W) (answer : SignalAnswer) :
    Option (SignalSystem W) :=
  match s.phase w with
  | .idle => none
  | .removingRow row stage =>
    -- the row set of the other direction does not hold the row
    some ({ s with
      members := if row.slotIn stage.direction = row.slot then s.members.erase row
        else s.members }.enter w (.countingRows row stage))
  | .countingRows row stage =>
    some (s.enter w (if row.slotIn stage.direction ∈ s.occupied then afterRelease row stage
        else .droppingSlot row stage))
  | .droppingSlot row stage =>
    some ((s.sremSlots .all {row.slotIn stage.direction}).enter w (.droppingDirection row stage))
  | .droppingDirection row stage =>
    some ((s.sremSlots (.of stage.direction) {row.slotIn stage.direction}).enter w
      (afterRelease row stage))
  | .endingRow row =>
    some ({ s with stored := s.stored.erase row }.enter w (.removingRow row .secondLong))
  | .leavingIndex row =>
    some ({ s with openIndex := s.openIndex.filter (· ≠ row) }.enter w .idle)
  | .locking row =>
    if s.lease = none then some ({ s with lease := some w }.enter w (.readingCapacity row))
    else some (s.enter w (if answer.giveUp then .idle else .locking row))
  | .readingCapacity row =>
    some (s.enter w (if (s.index .all).card < limit then .finding row true else .gating row))
  | .gating row =>
    if s.verifyLock then some (s.enter w (.finding row false))
    else some ({ s with verifyLock := true }.enter w (.listing row))
  | .listing row => some (s.enter w (.loading row s.openIndex []))
  | .loading row [] active => some (s.enter w (.scanning row active))
  | .loading row (r :: ids) active =>
    some (s.enter w (.loading row ids (if r ∈ s.stored then active ++ [r] else active)))
  | .scanning row active =>
    -- a scan returns every key that is there from its start to its end
    if s.occupied ⊆ answer.keys.toFinset then
      some (s.enter w (.sweepingRows row active answer.keys))
    else none
  | .sweepingRows row active [] =>
    some (s.enter w (.sweepingSlots row active [.all, .of .long, .of .short]))
  | .sweepingRows row active (slot :: keys) =>
    some (s.enter w (.removingStale row active keys
      (s.members.filter fun r => r.slot = slot ∧ r ∉ active)))
  | .removingStale row active keys stale =>
    some ({ s with members := s.members \ stale }.enter w (.sweepingRows row active keys))
  | .sweepingSlots row active [] => some (s.enter w (.restoring row active (slotsOf active)))
  | .sweepingSlots row active (key :: keys) =>
    some (s.enter w (.removingGone row active keys key
      ((s.index key).filter fun slot => slot ∉ slotsOf active ∨ key.covers slot = false)))
  | .removingGone row active keys key gone =>
    some ((s.sremSlots key gone).enter w (.sweepingSlots row active keys))
  | .restoring row active [] =>
    some (s.enter w (.finding row (decide ((slotsOf active).toFinset.card < limit))))
  | .restoring row active (slot :: slots) =>
    some (s.enter w (.addingRows slot (active.filter (·.slot = slot)) (.restore row active slots)))
  | .addingRows slot rows after => some ((s.saddRows rows).enter w (.addingSlot slot after))
  | .addingSlot slot after => some ((s.saddSlot .all slot).enter w (.addingDirection slot after))
  | .addingDirection slot after =>
    some ((s.saddSlot (.of slot.direction) slot).enter w after.phase)
  | .finding row allowed =>
    some (s.enter w (if answer.existing then .unlocking else .countingCandidate row allowed))
  | .countingCandidate row allowed =>
    some (s.enter w (if (row.slot ∈ s.occupied ∨ allowed = true) ∧ answer.ordersFull = false then
        .addingRows row.slot [row] (.store row)
      else .unlocking))
  | .storingRow row =>
    some ({ s with stored := insert row s.stored }.enter w (.indexingRow row))
  | .indexingRow row =>
    some ({ s with openIndex := row :: s.openIndex.filter (· ≠ row) }.enter w
      (.addingRows row.slot [row] .finish))
  | .unlocking =>
    some ({ s with lease := if s.lease = some w then none else s.lease }.enter w .idle)

/-- The step function of the system, for the configured limit. -/
def signalStep (limit : ℕ) (s : SignalSystem W) : SignalAction W → Option (SignalSystem W)
  | .reserve w row =>
    match s.phase w with
    -- the id of a position that ended is not used again
    | .idle => if row ∈ s.ended then none else some (s.enter w (.locking row))
    | _ => none
  | .endPosition w row =>
    match s.phase w with
    | .idle => some ({ s with ended := insert row s.ended }.enter w (.removingRow row .firstLong))
    | _ => none
  | .command w answer => s.command limit w answer
  | .expireVerifyLock => some { s with verifyLock := false }

end CtsEngine
