import CtsEngine.Foundation.Keyed
import CtsEngine.Foundation.NumberText
import Mathlib.Data.List.Infix

/-!
# The in-memory Redis

`InlineLocalRedis` of `lib/redis-db.ts`: a map of values for each type of key, and a map of the
times at which keys expire.  Reads pass over what has expired, writes do not, and a sweep deletes
expired keys some time later.

The map of times keeps the order in which keys were first set.  A bounded sweep goes on where the
last one stopped: its iterator is given by the number of entries that it has passed.  An object has
its own fields only, and integers are exact.
-/

namespace CtsEngine

open Function

/-! ## Values -/

/-- The types of keys. -/
inductive KeyKind
  | string
  | hash
  | set
  | list
  | zset
deriving DecidableEq

/-- `SortedSetData`: the entries in their order, and the score of each member. -/
structure SortedSetData where
  entries : List (String × Double) := []
  memberIndex : List (String × Double) := []

/-- The values of a type of key; fields and members in the order in which they were added. -/
abbrev Payload : KeyKind → Type
  | .string => String
  | .hash => List (String × String)
  | .set => List String
  | .list => List String
  | .zset => SortedSetData

/-- A reply.  A number is `none` where it is not a number. -/
inductive Reply
  | nothing
  | null
  | ok
  | text (value : String)
  | number (value : Option ℤ)
  | list (values : List String)
  | record (fields : List (String × String))
  | score (value : Double)
deriving DecidableEq

/-- The name of a type of key. -/
def KeyKind.name : KeyKind → String
  | .string => "string"
  | .hash => "hash"
  | .set => "set"
  | .list => "list"
  | .zset => "zset"

/-- The types in the order in which `type` looks for a key. -/
def KeyKind.all : List KeyKind := [.string, .hash, .set, .list, .zset]

/-- `parseInt(value, 10)`. -/
def parseInt (value : String) : Option ℤ :=
  let (negative, rest) := readSign (value.toList.dropWhile isJsSpace)
  let digits := leadingDigits 10 rest
  if digits = [] then none
  else if negative then some (-(valueOfDigits 10 digits : ℤ))
  else some (valueOfDigits 10 digits)

/-- `parseInt(value || "0", 10)`. -/
def storedInt (value : Option String) : Option ℤ :=
  match value with
  | some text => if text = "" then some 0 else parseInt text
  | none => some 0

/-- `String(value)` of an integer or `NaN`. -/
def integerText (value : Option ℤ) : String := (value.map toString).getD "NaN"

/-! ## The store -/

/-- `InlineLocalRedis`: its data and the state of the sweep. -/
structure InlineStore where
  data : (kind : KeyKind) → String → Option (Payload kind) := fun _ _ => none
  ttl : List (String × ℚ) := []
  ttlCleanupIterator : Option ℕ := none
  ttlCleanupRemaining : ℕ := 0

namespace InlineStore

variable (s : InlineStore)

/-- Set or delete the value of a key in the map of a type. -/
def put (kind : KeyKind) (key : String) (value : Option (Payload kind)) : InlineStore :=
  { s with data := update s.data kind (update (s.data kind) key value) }

variable (key : String)

/-- Some map has the key. -/
def has : Bool := KeyKind.all.any fun kind => (s.data kind key).isSome

/-- `ttl.get(key)`. -/
def ttlOf : Option ℚ := Keyed.get? s.ttl key

def isExpired (now : ℚ) (key : String) : Bool :=
  (s.ttlOf key).any fun expireAt => decide (expireAt ≠ 0 ∧ expireAt ≤ now)

/-- `ttl.set(key, expireAt)`. -/
def ttlSet (expireAt : ℚ) : InlineStore := { s with ttl := Keyed.put s.ttl key expireAt }

def setKeyTTL (now : ℚ) (key : String) (seconds : ℚ) : InlineStore :=
  s.ttlSet key (now + seconds * 1000)

/-- `ttl.delete(key)`: the iterator has passed one entry less when the entry was behind it. -/
def ttlDelete : InlineStore :=
  { s with
    ttl := s.ttl.filter fun entry => entry.1 ≠ key
    ttlCleanupIterator := s.ttlCleanupIterator.map fun passed =>
      if key ∈ (s.ttl.take passed).map Prod.fst then passed - 1 else passed }

/-- The prefixes of indexed keys, the index of each, and the prefix of its indexes by connection. -/
def secondaryIndexes : List (String × String × Option String) :=
  [("position:", "idx:positions", some "idx:positions:connection:"),
    ("trade:", "idx:trades", some "idx:trades:connection:"),
    ("indication:", "idx:indications", none),
    ("strategy:", "idx:strategies", none)]

/-- `members.delete(id)` in the set of one key, when another key is deleted.  A set of a connection
is deleted when it has no members. -/
def cleanupSet (deleted setKey : String) (members : Option (List String)) : Option (List String) :=
  match secondaryIndexes.find? fun index => hasPrefix index.1 deleted with
  | none => members
  | some (start, index, connections) =>
    let id := String.ofList (deleted.toList.drop start.toList.length)
    let without := members.map fun members => members.filter fun member => member ≠ id
    if setKey = index then without
    else if connections.any fun connections => hasPrefix connections setKey then
      without.filter fun members => !members.isEmpty
    else members

def cleanupSecondaryIndexesForDeletedKey : InlineStore :=
  { s with
    data := update s.data .set fun setKey => cleanupSet key setKey (s.data .set setKey) }

def deleteKey : InlineStore :=
  let s := s.cleanupSecondaryIndexesForDeletedKey key
  InlineStore.ttlDelete { s with data := fun kind => update (s.data kind) key none } key

/-- The number of entries that a sweep examines at most. -/
def sweepBound (limit : Option ℚ) : Option ℕ :=
  limit.bind fun bound => if bound < 2 ^ 53 - 1 then some (max 1 ⌊bound⌋.toNat) else none

/-- The entries passed and the entries remaining when a bounded sweep begins. -/
def sweepStart : ℕ × ℕ :=
  match s.ttlCleanupIterator with
  | some passed => if s.ttlCleanupRemaining = 0 then (0, s.ttl.length) else
      (passed, s.ttlCleanupRemaining)
  | none => (0, s.ttl.length)

/-- The entries that a sweep examines. -/
def sweepExamined (limit : Option ℚ) : List (String × ℚ) :=
  match sweepBound limit with
  | none => s.ttl
  | some bound => (s.ttl.drop s.sweepStart.1).take (min bound s.sweepStart.2)

/-- The keys that a sweep deletes. -/
def sweptKeys (now : ℚ) (limit : Option ℚ) : List String :=
  ((s.sweepExamined limit).filter fun entry => entry.2 ≤ now).map Prod.fst

def cleanupExpiredKeys (now : ℚ) (limit : Option ℚ) : InlineStore :=
  let swept := s.sweptKeys now limit
  let after := swept.foldl deleteKey s
  match sweepBound limit with
  | none => { after with ttlCleanupIterator := none, ttlCleanupRemaining := 0 }
  | some bound =>
    let (passed, remaining) := s.sweepStart
    let examined := (s.sweepExamined limit).length
    -- The iterator has come to its end, or the sweep has come round.
    if examined < bound then { after with ttlCleanupIterator := none, ttlCleanupRemaining := 0 }
    else
      { after with
        ttlCleanupIterator := some (passed + examined - swept.length)
        ttlCleanupRemaining := remaining - examined }

end InlineStore

end CtsEngine
