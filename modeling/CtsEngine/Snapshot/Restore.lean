import CtsEngine.Foundation.JsonLines
import CtsEngine.InlineRedis.Commands

/-!
# The snapshot file

A snapshot has a header line and one line for each key of each map, each a JSON text.  The maps are
lists of their entries in the order of their keys; a field of a hash may hold any JSON value, since
the restore does not look at it.

The keys of products that can be computed again are left out.

`applySnapshotV2File`: the file is read chunk by chunk and cut into lines, each line is checked and
put into fresh maps, and these replace the maps of the store after the last line.  A line that is
not a record ends the restore with an error.
-/

namespace CtsEngine

open JsonText (Value)

/-- The maps of the store. -/
structure RedisData where
  strings : List (String × String) := []
  hashes : List (String × List (String × Value Double)) := []
  sets : List (String × List String) := []
  lists : List (String × List String) := []
  sorted_sets : List (String × SortedSetData) := []
  ttl : List (String × Double) := []

/-- `REBUILDABLE_DIRECT_TRADE_SNAPSHOT_KEYS`. -/
def rebuildableDirectTradeSnapshotKeys : List String :=
  ["direct_trade:configs", "direct_trade:configs:manifest", "direct_trade:execution-configs",
    "direct_trade:execution-index", "direct_trade:execution-signal-index",
    "direct_trade:active-signals", "direct_trade:calculation", "direct_trade:calculation-progress",
    "direct_trade:statistics-index"]

def isRebuildableDirectTradeSnapshotKey (key : String) : Bool :=
  decide (key ∈ rebuildableDirectTradeSnapshotKeys) || hasPrefix "direct_trade:configs:chunk:" key

/-- `/^strategies:[^:]+:[^:]+:main:fp:v(?:2|3)$/`. -/
def isStrategyFingerprintKey (key : String) : Bool :=
  match key.toList.splitOn ':' with
  | [start, first, second, main, fp, version] =>
    start = "strategies".toList && !first.isEmpty && !second.isEmpty && main = "main".toList &&
      fp = "fp".toList && (version = ['v', '2'] || version = ['v', '3'])
  | _ => false

def isRebuildableInlineSnapshotKey (key : String) : Bool :=
  isRebuildableDirectTradeSnapshotKey key || hasPrefix "indications_snapshot:" key ||
    isStrategyFingerprintKey key

/-- The entries of a map whose keys a snapshot has. -/
def keptEntries {V : Type} (entries : List (String × V)) : List (String × V) :=
  entries.filter fun entry => !isRebuildableInlineSnapshotKey entry.1

variable (data : RedisData)

/-- What a snapshot has of the maps. -/
def RedisData.kept : RedisData where
  strings := keptEntries data.strings
  hashes := keptEntries data.hashes
  sets := keptEntries data.sets
  lists := keptEntries data.lists
  sorted_sets := keptEntries data.sorted_sets
  ttl := keptEntries data.ttl

/-! ## Lines -/

/-- A line of a snapshot after its header. -/
inductive SnapshotRecord
  | string (key value : String)
  | hash (key : String) (fields : List (String × Value Double))
  | set (key : String) (members : List String)
  | list (key : String) (values : List String)
  | zset (key : String) (entries : List (String × Double))
  | ttl (key : String) (expiry : Double)

/-- A number in a JSON text: `null` when it is not finite. -/
def jsonNumber : Double → Value Double
  | .finite q => .number (.finite q)
  | _ => .null

/-- An entry of a sorted set. -/
def entryJson (entry : String × Double) : Value Double :=
  .object [("score", jsonNumber entry.2), ("member", .text entry.1)]

/-- The JSON value of a line. -/
def SnapshotRecord.json : SnapshotRecord → Value Double
  | .string key value => .array [.text "s", .text key, .text value]
  | .hash key fields => .array [.text "h", .text key, .object fields]
  | .set key members => .array [.text "S", .text key, .array (members.map .text)]
  | .list key values => .array [.text "l", .text key, .array (values.map .text)]
  | .zset key entries => .array [.text "z", .text key, .array (entries.map entryJson)]
  | .ttl key expiry => .array [.text "t", .text key, jsonNumber expiry]

/-- The lines of the maps after the header, without the keys that are left out. -/
def snapshotRecords : List SnapshotRecord :=
  (keptEntries data.strings).map (fun entry => .string entry.1 entry.2) ++
    (keptEntries data.hashes).map (fun entry => .hash entry.1 entry.2) ++
    (keptEntries data.sets).map (fun entry => .set entry.1 entry.2) ++
    (keptEntries data.lists).map (fun entry => .list entry.1 entry.2) ++
    (keptEntries data.sorted_sets).map (fun entry => .zset entry.1 entry.2.entries) ++
    (keptEntries data.ttl).map (fun entry => .ttl entry.1 entry.2)

def snapshotHeader (savedAt snapshotVersion : Double) : Value Double :=
  .object [("v", .number (.finite 2)), ("savedAt", jsonNumber savedAt),
    ("mutationVersion", jsonNumber snapshotVersion)]

/-- `snapshotV2Lines`, of maps that do not change meanwhile. -/
def snapshotV2Lines (savedAt snapshotVersion : Double) : List (List Char) :=
  stringify (snapshotHeader savedAt snapshotVersion) ::
    (snapshotRecords data).map fun record => stringify record.json

end CtsEngine

namespace CtsEngine

open JsonText (Value)

/-- `line.endsWith("\r") ? line.slice(0, -1) : line`. -/
def chompReturn (line : List Char) : List Char :=
  if line.getLast? = some '\r' then line.dropLast else line

/-- `lines`: what is pending is cut at its line breaks after each chunk, and the rest stays
pending. -/
def streamLines : List Char → List (List Char) → List (List Char)
  | pending, [] => if pending = [] then [] else [chompReturn pending]
  | pending, chunk :: chunks =>
    let pieces := (pending ++ chunk).splitOn '\n'
    pieces.dropLast.map chompReturn ++ streamLines (pieces.getLast?.getD []) chunks

/-- Why a restore stops: the file has another format, a line is no JSON text, or it is no record. -/
inductive RestoreStop
  | legacy
  | syntaxError
  | invalid (text : String)

/-- `String(value ?? "")`. -/
def textOrEmpty : Option (Value Double) → String
  | none => ""
  | some .null => ""
  | some value => jsString value

/-- An entry of `createSortedSet`: an object with a text as its member and a finite score. -/
def sortedSetEntry : Value Double → Option (String × Double)
  | .object fields =>
    match jsField fields "member", ((jsField fields "score").map jsNumber).getD .nan with
    | some (.text member), .finite score => some (member, .finite score)
    | _, _ => none
  | _ => none

variable (localeCompare : String → String → ℤ)

/-- `createSortedSet`: what is no entry is passed over. -/
def createSortedSet (values : List (Value Double)) : SortedSetData :=
  let memberIndex := (values.filterMap sortedSetEntry).foldl
    (fun index entry => Keyed.put index entry.1 entry.2) []
  { entries := memberIndex.mergeSort fun a b => !entryBefore localeCompare b a
    memberIndex }

/-- `Invalid … record at line …`. -/
def invalidRecord (name : String) (lineNumber : ℕ) : RestoreStop :=
  .invalid ("Invalid " ++ name ++ " record at line " ++ toString lineNumber)

/-- Put the record of a line into the fresh maps. -/
def stageRecord (staged : RedisData) (lineNumber : ℕ) : Value Double → Except RestoreStop RedisData
  | .array (.text type :: .text key :: rest) =>
    if type = "s" then
      .ok { staged with strings := Keyed.put staged.strings key (textOrEmpty rest.head?) }
    else if type = "h" then
      match rest.head? with
      | some (.object fields) =>
        .ok { staged with hashes := Keyed.put staged.hashes key (jsObject fields) }
      | _ => .error (invalidRecord "hash" lineNumber)
    else if type = "S" then
      match rest.head? with
      | some (.array values) =>
        .ok { staged with sets := Keyed.put staged.sets key (addMembers [] (values.map jsString)) }
      | _ => .error (invalidRecord "set" lineNumber)
    else if type = "l" then
      match rest.head? with
      | some (.array values) =>
        .ok { staged with lists := Keyed.put staged.lists key (values.map jsString) }
      | _ => .error (invalidRecord "list" lineNumber)
    else if type = "z" then
      match rest.head? with
      | some (.array values) =>
        .ok { staged with
            sorted_sets := Keyed.put staged.sorted_sets key (createSortedSet localeCompare values) }
      | _ => .error (invalidRecord "sorted-set" lineNumber)
    else if type = "t" then
      match (rest.head?.map jsNumber).getD .nan with
      | .finite expiry => .ok { staged with ttl := Keyed.put staged.ttl key (.finite expiry) }
      | _ => .error (invalidRecord "TTL" lineNumber)
    else .error (.invalid ("Unknown v2 snapshot record at line " ++ toString lineNumber))
  | _ => .error (invalidRecord "v2 snapshot" lineNumber)

/-! ## The file -/

/-- The fresh maps, the header, and the number of the last line. -/
structure Staging where
  data : RedisData := {}
  header : Option (List (String × Value Double)) := none
  lineNumber : ℕ := 0

/-- The header of a file: an object whose `v` is the number two. -/
def headerOf : Value Double → Option (List (String × Value Double))
  | .object fields =>
    match jsField fields "v" with
    | some (.number (.finite v)) => if v = 2 then some fields else none
    | _ => none
  | _ => none

/-- `line.trim()` is empty. -/
def isBlank (line : List Char) : Bool := line.all isJsSpace

/-- Read one line. -/
def stageLine (staging : Staging) (line : List Char) : Except RestoreStop Staging :=
  if isBlank line then .ok staging
  else
    let lineNumber := staging.lineNumber + 1
    match jsonParse line with
    | none => .error .syntaxError
    | some parsed =>
      if lineNumber = 1 then
        match headerOf parsed with
        | none => .error .legacy
        | some header => .ok { staging with header := some header, lineNumber }
      else
        match stageRecord localeCompare staging.data lineNumber parsed with
        | .error stop => .error stop
        | .ok data => .ok { staging with data, lineNumber }

/-- Read lines one after another. -/
def stageLines (localeCompare : String → String → ℤ) : Staging → List (List Char) →
    Except RestoreStop Staging
  | staging, [] => .ok staging
  | staging, line :: lines =>
    match stageLine localeCompare staging line with
    | .error stop => .error stop
    | .ok staging => stageLines localeCompare staging lines

/-- The store with its mutation version. -/
structure LocalRedis where
  data : RedisData := {}
  mutationVersion : Double := .finite 0

/-- `applySnapshotV2File` of a file that is read in chunks: the reply, with `none` for `null`, and
the store afterwards. -/
def applySnapshotV2File (store : LocalRedis) (chunks : List (List Char)) :
    Except RestoreStop (Option Bool) × LocalRedis :=
  match stageLines localeCompare {} (streamLines [] chunks) with
  | .error .legacy => (.ok none, store)
  | .error stop => (.error stop, store)
  | .ok staging =>
    match staging.header with
    | none => (.ok (some false), store)
    | some header =>
      (.ok (some true),
        { data := staging.data
          mutationVersion := ((firstTruthy [jsField header "mutationVersion"]).map jsNumber).getD
            (.finite 0) })

end CtsEngine
