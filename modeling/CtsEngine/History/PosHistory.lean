import CtsEngine.Block.Lifecycle
import CtsEngine.Foundation.Grouping
import CtsEngine.Venue.Ownership

/-!
# The history of closed positions

`recordPosClosed` counts a closed position in the hash of its bucket and in the overall hash, and
puts a record of it at the head of two rings of bounded length.  `recordPosClosedBatch` does so for
a list of positions, with one increment for each field and one push for each bucket.  Counters count
the sign and the size of the outcome, which one writer reads off `pnlPct` and the other off `pnl`.
-/

namespace CtsEngine

open Function

/-! ## Entries -/

/-- `RecordPosClosedBatchEntry`.  An optional number is `none` when it is missing or not a finite
number. -/
structure PosClosedEntry where
  symbol : Option String := none
  indicationType : Option String := none
  direction : Option String := none
  pnl : ℚ
  pnlPct : Option ℚ := none
  positionCostPct : Option ℚ := none
  drawdownMinutes : Option ℚ := none

def normalizeTradeDirection (value : Option String) : Option Direction :=
  let normalized := toLowerCase (text value)
  if normalized = "long" ∨ normalized = "buy" then some .long
  else if normalized = "short" ∨ normalized = "sell" then some .short
  else none

namespace PosClosedEntry

variable (entry : PosClosedEntry)

def cleanSymbol : String := (strOr entry.symbol none).getD "unknown"

def cleanType : String := (strOr entry.indicationType none).getD "unknown"

/-- `cleanDir`, for an entry that has one. -/
def cleanDir : String := (normalizeTradeDirection entry.direction).elim "" Direction.toString

/-- `drawdownMinutes`, not below `0`. -/
def ddt : ℚ := max 0 (entry.drawdownMinutes.getD 0)

/-- `outcome`, as the single writer takes it. -/
def outcome : ℚ := entry.pnlPct.getD entry.pnl

/-- The two percentages, when both are finite and the cost is positive. -/
def canonicalRatio : Option (ℚ × ℚ) :=
  entry.pnlPct.bind fun pnlPct => entry.positionCostPct.bind fun positionCostPct =>
    if 0 < positionCostPct then some (pnlPct, positionCostPct) else none

end PosClosedEntry

/-- `value.toFixed(digits)`, below `10 ^ 21`. -/
def toFixedText (digits : ℕ) (value : ℚ) : String :=
  let units := ⌊|value| * 10 ^ digits + 1 / 2⌋₊
  let fraction := toString (units % 10 ^ digits)
  (if value < 0 then "-" else "") ++ toString (units / 10 ^ digits) ++ "." ++
    String.ofList (List.replicate (digits - fraction.length) '0') ++ fraction

def ringRecord (entry : PosClosedEntry) : String :=
  "|".intercalate [toFixedText 6 entry.pnl, "0", toFixedText 3 entry.ddt,
    entry.canonicalRatio.elim "" fun ratio => toFixedText 8 ratio.1,
    entry.canonicalRatio.elim "" fun ratio => toFixedText 8 ratio.2]

/-- `Math.round(Math.max(0, value) * 1000)`. -/
def scaled1000 (value : ℚ) : ℕ := ⌊max 0 value * 1000 + 1 / 2⌋₊

/-- `Math.round(ddt * 10)`. -/
def ddtX10 (entry : PosClosedEntry) : ℕ := ⌊entry.ddt * 10 + 1 / 2⌋₊

/-! ## The store -/

/-- The counters of a hash. -/
inductive HistoryField
  | count
  | wins
  | losses
  | pfNumX1000
  | pfDenX1000
  | ddtNumX10
deriving DecidableEq

/-- What one entry adds to a counter, for the outcome that a writer reads off it. -/
def increment (outcome : PosClosedEntry → ℚ) (entry : PosClosedEntry) : HistoryField → ℕ
  | .count => 1
  | .wins => if 0 < outcome entry then 1 else 0
  | .losses => if 0 < outcome entry then 0 else 1
  | .pfNumX1000 => scaled1000 (outcome entry)
  | .pfDenX1000 => scaled1000 (-outcome entry)
  | .ddtNumX10 => ddtX10 entry

/-- The hashes and the rings, by what follows the prefix of their keys. -/
structure HistoryStore where
  hashes : String → HistoryField → Option ℤ
  rings : String → List String

/-- A command of a writer; expiries are left out. -/
inductive HistoryCommand
  | hincrby (key : String) (field : HistoryField) (n : ℕ)
  | lpush (key : String) (records : List String)
  | rpush (key : String) (records : List String)
  | ltrim (key : String) (length : ℕ)

/-- What a command does. -/
def HistoryStore.exec (s : HistoryStore) : HistoryCommand → HistoryStore
  | .hincrby key field n =>
    let value := some ((s.hashes key field).getD 0 + n)
    { s with hashes := update s.hashes key (update (s.hashes key) field value) }
  | .lpush key records =>
    { s with rings := update s.rings key (records.reverse ++ s.rings key) }
  | .rpush key records => { s with rings := update s.rings key (s.rings key ++ records) }
  | .ltrim key length => { s with rings := update s.rings key ((s.rings key).take length) }

/-- `RING_CAP`. -/
def ringCap : ℕ := 600

variable (connectionId : String)

/-- What follows the prefix in `hashKey` and in `listKey`. -/
def historyKey (symbol indicationType direction : String) : String :=
  connectionId ++ ":" ++ symbol ++ ":" ++ indicationType ++ ":" ++ direction

/-- The key of the bucket of an entry. -/
def entryKey (entry : PosClosedEntry) : String :=
  historyKey connectionId entry.cleanSymbol entry.cleanType entry.cleanDir

/-- The key of the overall bucket. -/
def overallKey : String := historyKey connectionId "_overall" "_overall" "_overall"

/-- `if (n > 0) hincrby(...)`. -/
def hincrbyPositive (key : String) (field : HistoryField) (n : ℕ) : List HistoryCommand :=
  if 0 < n then [.hincrby key field n] else []

def countEntry (key : String) (entry : PosClosedEntry) : List HistoryCommand :=
  [.hincrby key .count 1, .hincrby key (if 0 < entry.outcome then .wins else .losses) 1] ++
    hincrbyPositive key .pfNumX1000 (scaled1000 entry.outcome) ++
    hincrbyPositive key .pfDenX1000 (scaled1000 (-entry.outcome)) ++
    hincrbyPositive key .ddtNumX10 (ddtX10 entry)

def recordPosClosed (entry : PosClosedEntry) : List HistoryCommand :=
  if connectionId = "" ∨ normalizeTradeDirection entry.direction = none then []
  else
    let key := entryKey connectionId entry
    let overall := overallKey connectionId
    countEntry key entry ++ countEntry overall entry ++
      [.lpush key [ringRecord entry], .ltrim key ringCap,
        .lpush overall [ringRecord entry], .ltrim overall ringCap]

/-- `PosHistoryBatchAggregate`; the hash and the ring have the same key. -/
structure PosHistoryAggregate where
  key : String
  count : ℕ := 0
  wins : ℕ := 0
  losses : ℕ := 0
  grossProfitX1000 : ℕ := 0
  grossLossX1000 : ℕ := 0
  ddtX10 : ℕ := 0
  ringRecords : List String := []

def addClosedPositionToAggregate (aggregate : PosHistoryAggregate) (entry : PosClosedEntry) :
    PosHistoryAggregate :=
  { aggregate with
    count := aggregate.count + 1
    wins := if 0 < entry.pnl then aggregate.wins + 1 else aggregate.wins
    losses := if 0 < entry.pnl then aggregate.losses else aggregate.losses + 1
    grossProfitX1000 := aggregate.grossProfitX1000 + scaled1000 entry.pnl
    grossLossX1000 := aggregate.grossLossX1000 + scaled1000 (-entry.pnl)
    ddtX10 := aggregate.ddtX10 + ddtX10 entry
    ringRecords := aggregate.ringRecords ++ [ringRecord entry] }

def queuePosHistoryBatchAggregate (older : Bool) (aggregate : PosHistoryAggregate) :
    List HistoryCommand :=
  if aggregate.count = 0 then []
  else
    [.hincrby aggregate.key .count aggregate.count] ++
      hincrbyPositive aggregate.key .wins aggregate.wins ++
      hincrbyPositive aggregate.key .losses aggregate.losses ++
      hincrbyPositive aggregate.key .pfNumX1000 aggregate.grossProfitX1000 ++
      hincrbyPositive aggregate.key .pfDenX1000 aggregate.grossLossX1000 ++
      hincrbyPositive aggregate.key .ddtNumX10 aggregate.ddtX10 ++
      [if older then .rpush aggregate.key aggregate.ringRecords
        else .lpush aggregate.key aggregate.ringRecords,
        .ltrim aggregate.key ringCap]

/-- The key under which the batch collects an entry. -/
def bucketKey (entry : PosClosedEntry) : String :=
  entry.cleanSymbol ++ "\x00" ++ entry.cleanType ++ "\x00" ++ entry.cleanDir

/-- The entries that the writers do not skip. -/
def countedEntries (entries : List PosClosedEntry) : List PosClosedEntry :=
  entries.filter fun entry => normalizeTradeDirection entry.direction ≠ none

def recordPosClosedBatch (entries : List PosClosedEntry) (older : Bool) : List HistoryCommand :=
  if connectionId = "" then []
  else
    let counted := countedEntries entries
    let perBucket := Keyed.collect bucketKey (fun entry => ⟨entryKey connectionId entry, 0, 0, 0, 0,
      0, 0, []⟩) addClosedPositionToAggregate counted
    let overall := counted.foldl addClosedPositionToAggregate { key := overallKey connectionId }
    perBucket.flatMap (fun bucket => queuePosHistoryBatchAggregate older bucket.2) ++
      queuePosHistoryBatchAggregate older overall

end CtsEngine
