import CtsEngine.InlineRedis.Store

/-!
# The commands of the in-memory Redis

Each command as the adapter performs it at a time, with its reply.  `exec` performs a command or a
sweep; the order of equal scores is `localeCompare`, whose values come from the language's tables.
-/

namespace CtsEngine

open Keyed

/-- The options of `set`. -/
structure SetOptions where
  EX : Option ℚ := none
  PX : Option ℚ := none
  NX : Bool := false
  XX : Bool := false

/-- A command, or a sweep with its limit. -/
inductive RedisCommand
  | get (key : String)
  | set (key value : String) (options : SetOptions)
  | setex (key : String) (seconds : ℚ) (value : String)
  | incrby (key : String) (increment : ℤ)
  | del (keys : List String)
  | existsKey (key : String)
  | typeOf (key : String)
  | hset (key : String) (fields : List (String × String))
  | hget (key field : String)
  | hgetall (key : String)
  | hdel (key : String) (fields : List String)
  | hincrby (key field : String) (increment : ℤ)
  | sadd (key : String) (members : List String)
  | srem (key : String) (members : List String)
  | smembers (key : String)
  | lpush (key : String) (values : List String)
  | rpush (key : String) (values : List String)
  | lrange (key : String) (start : ℤ)
  | llen (key : String)
  | zadd (key : String) (score : Double) (member : String)
  | zscore (key member : String)
  | zcard (key : String)
  | expire (key : String) (seconds : ℚ)
  | persist (key : String)
  | ttl (key : String)
  | sweep (limit : Option ℚ)

/-! ## Values -/

/-- `{ ...existing, ...data }`. -/
def mergeFields (existing data : List (String × String)) : List (String × String) :=
  data.foldl (fun record entry => put record entry.1 entry.2) existing

lemma mem_keys_mergeFields (existing data : List (String × String)) (field : String) :
    field ∈ (mergeFields existing data).map Prod.fst ↔
      field ∈ existing.map Prod.fst ∨ field ∈ data.map Prod.fst := by
  induction data generalizing existing with
  | nil => simp [mergeFields]
  | cons entry data ih =>
    rw [mergeFields, List.foldl_cons, ← mergeFields, ih, mem_keys_put, List.map_cons,
      List.mem_cons]
    tauto

/-- Delete fields one after another, with the number of those that were there. -/
def deleteFields : List (String × String) → List String → List (String × String) × ℕ
  | hash, [] => (hash, 0)
  | hash, field :: fields =>
    let (rest, deleted) := deleteFields (hash.filter fun entry => entry.1 ≠ field) fields
    (rest, if field ∈ hash.map Prod.fst then deleted + 1 else deleted)

/-- Add members one after another. -/
def addMembers (members new : List String) : List String :=
  new.foldl (fun members member => if member ∈ members then members else members ++ [member])
    members

/-- Delete members one after another, with the number of those that were there. -/
def deleteMembers : List String → List String → List String × ℕ
  | set, [] => (set, 0)
  | set, member :: members =>
    let (rest, removed) := deleteMembers (set.filter fun other => other ≠ member) members
    (rest, if member ∈ set then removed + 1 else removed)

/-- `list.slice(start, list.length)`, a negative `start` counting from the end. -/
def sliceFrom (list : List String) (start : ℤ) : List String :=
  list.drop (if start < 0 then max 0 (list.length + start) else start).toNat

section SortedSets

variable (localeCompare : String → String → ℤ)

/-- `compareSortedSetEntries(a, b) < 0`: the difference of the scores decides unless it is zero or
not a number. -/
def entryBefore (a b : String × Double) : Bool :=
  match a.2, b.2 with
  | .finite p, .finite q => if p = q then decide (localeCompare a.1 b.1 < 0) else decide (p < q)
  | .nan, _ => decide (localeCompare a.1 b.1 < 0)
  | _, .nan => decide (localeCompare a.1 b.1 < 0)
  | .infinity m, .infinity n => if m = n then decide (localeCompare a.1 b.1 < 0) else m
  | .infinity m, .finite _ => m
  | .finite _, .infinity n => !n

/-- The loop of `insertionIndex`, which halves the range between `low` and `high`. -/
def insertionIndexFrom (entries : List (String × Double)) (entry : String × Double) : ℕ → ℕ → ℕ → ℕ
  | 0, low, _ => low
  | fuel + 1, low, high =>
    if low < high then
      let mid := (low + high) / 2
      if (entries[mid]?).any fun other => entryBefore localeCompare other entry then
        insertionIndexFrom entries entry fuel (mid + 1) high
      else insertionIndexFrom entries entry fuel low mid
    else low

/-- `insertionIndex`: the range gets shorter in each round. -/
def insertionIndex (entries : List (String × Double)) (entry : String × Double) : ℕ :=
  insertionIndexFrom localeCompare entries entry (entries.length + 1) 0 entries.length

/-- `entries.splice(insertionIndex(entries, entry), 0, entry)`. -/
def insertEntry (entries : List (String × Double)) (entry : String × Double) :
    List (String × Double) :=
  let index := insertionIndex localeCompare entries entry
  entries.take index ++ entry :: entries.drop index

/-- The entry at the place of a member is the member's own. -/
def atOwnPlace (zset : SortedSetData) (member : String) : Bool :=
  match get? zset.memberIndex member with
  | none => true
  | some score =>
    (zset.entries[insertionIndex localeCompare zset.entries (member, score)]?).any
      fun entry => entry.1 = member

/-- The sorted set after `zadd`, and whether the member is new. -/
def addEntry (zset : SortedSetData) (score : Double) (member : String) : SortedSetData × Bool :=
  let memberIndex := put zset.memberIndex member score
  match get? zset.memberIndex member with
  | none => (⟨insertEntry localeCompare zset.entries (member, score), memberIndex⟩, true)
  | some existing =>
    let index := insertionIndex localeCompare zset.entries (member, existing)
    let entries := if atOwnPlace localeCompare zset member then zset.entries.eraseIdx index
      else zset.entries
    (⟨insertEntry localeCompare entries (member, score), memberIndex⟩, false)

end SortedSets

/-! ## Commands -/

namespace InlineStore

variable (s : InlineStore) (now : ℚ)

/-- A value that has not expired. -/
def read (kind : KeyKind) (key : String) : Option (Payload kind) :=
  if s.isExpired now key then none else s.data kind key

/-- `type`. -/
def typeName (key : String) : String :=
  if s.isExpired now key then "none"
  else ((KeyKind.all.find? fun kind => (s.data kind key).isSome).map KeyKind.name).getD "none"

def set (key value : String) (options : SetOptions) : InlineStore × Reply :=
  let there := !s.isExpired now key && (s.data .string key).isSome
  if (options.NX ∧ there) ∨ (options.XX ∧ ¬there) then (s, .null)
  else
    let s := s.put .string key (some value)
    let seconds := options.EX.getD 0
    let milliseconds := options.PX.getD 0
    if seconds ≠ 0 then (s.setKeyTTL now key seconds, .ok)
    else if 0 < milliseconds then (s.ttlSet key (now + milliseconds), .ok)
    else (s, .ok)

def setex (key : String) (seconds : ℚ) (value : String) : InlineStore × Reply :=
  ((s.put .string key (some value)).setKeyTTL now key seconds, .nothing)

def incrby (key : String) (increment : ℤ) : InlineStore × Reply :=
  if s.isExpired now key then
    (s.put .string key (some (integerText (some increment))), .number (some increment))
  else
    let newValue := (storedInt (s.data .string key)).map (· + increment)
    (s.put .string key (some (integerText newValue)), .number newValue)

/-- The loop of `del`. -/
def delKeys : InlineStore → List String → InlineStore × ℕ
  | s, [] => (s, 0)
  | s, key :: keys =>
    if s.has key then
      let (rest, count) := delKeys (s.deleteKey key) keys
      (rest, count + 1)
    else delKeys s keys

variable (key : String)

def hset (fields : List (String × String)) : InlineStore × Reply :=
  let data := mergeFields [] fields
  (s.put .hash key (some (mergeFields ((s.data .hash key).getD []) data)),
    .number (some data.length))

def hdel (fields : List String) : InlineStore × Reply :=
  match s.data .hash key with
  | none => (s, .number (some 0))
  | some hash =>
    let (rest, deleted) := deleteFields hash fields
    (s.put .hash key (if rest = [] then none else some rest), .number (some deleted))

def hincrby (field : String) (increment : ℤ) : InlineStore × Reply :=
  let hash := (s.data .hash key).getD []
  let newValue := (storedInt (get? hash field)).map (· + increment)
  (s.put .hash key (some (Keyed.put hash field (integerText newValue))), .number newValue)

def sadd (members : List String) : InlineStore × Reply :=
  let set := (s.data .set key).getD []
  let updated := addMembers set (members.filter (· ≠ ""))
  (s.put .set key (some updated), .number (some (updated.length - set.length)))

def srem (members : List String) : InlineStore × Reply :=
  match s.data .set key with
  | none => (s, .number (some 0))
  | some set =>
    let (rest, removed) := deleteMembers set members
    (s.put .set key (if rest = [] then none else some rest), .number (some removed))

/-- `lpush` and `rpush`, which differ in the list that they make. -/
def push (join : List String → List String) : InlineStore × Reply :=
  let updated := join ((s.data .list key).getD [])
  (s.put .list key (some updated), .number (some updated.length))

def zadd (localeCompare : String → String → ℤ) (s : InlineStore) (key : String) (score : Double)
    (member : String) : InlineStore × Reply :=
  let (zset, isNew) := addEntry localeCompare ((s.data .zset key).getD {}) score member
  (s.put .zset key (some zset), .number (some (if isNew then 1 else 0)))

def expire (key : String) (seconds : ℚ) : InlineStore × Reply :=
  if s.has key then (s.setKeyTTL now key seconds, .number (some 1)) else (s, .number (some 0))

def persist (key : String) : InlineStore × Reply :=
  if s.isExpired now key = true ∨ s.has key = false ∨ s.ttlOf key = none then
    (s, .number (some 0))
  else (s.ttlDelete key, .number (some 1))

/-- `ttl`. -/
def ttlReply (key : String) : ℤ :=
  match s.ttlOf key with
  | none => if s.has key then -1 else -2
  | some expireAt => if expireAt ≤ now then -2 else ⌊(expireAt - now) / 1000⌋

/-- A command or a sweep at a time, with its reply. -/
def exec (localeCompare : String → String → ℤ) (s : InlineStore) (now : ℚ) :
    RedisCommand → InlineStore × Reply
  | .get key => (s, ((s.read now .string key).map Reply.text).getD .null)
  | .set key value options => s.set now key value options
  | .setex key seconds value => s.setex now key seconds value
  | .incrby key increment => s.incrby now key increment
  | .del keys => ((delKeys s keys).1, .number (some (delKeys s keys).2))
  | .existsKey key => (s, .number (some (if s.has key then 1 else 0)))
  | .typeOf key => (s, .text (s.typeName now key))
  | .hset key fields => s.hset key fields
  | .hget key field =>
    (s, (((s.read now .hash key).bind (get? · field)).map Reply.text).getD .null)
  | .hgetall key => (s, .record ((s.read now .hash key).getD []))
  | .hdel key fields => s.hdel key fields
  | .hincrby key field increment => s.hincrby key field increment
  | .sadd key members => s.sadd key members
  | .srem key members => s.srem key members
  | .smembers key => (s, .list ((s.read now .set key).getD []))
  | .lpush key values => s.push key fun list => values.reverse ++ list
  | .rpush key values => s.push key fun list => list ++ values
  | .lrange key start => (s, .list (sliceFrom ((s.read now .list key).getD []) start))
  | .llen key => (s, .number (some ((s.read now .list key).getD []).length))
  | .zadd key score member => zadd localeCompare s key score member
  | .zscore key member =>
    (s, (((s.read now .zset key).bind (get? ·.memberIndex member)).map Reply.score).getD
    .null)
  | .zcard key => (s, .number (some ((s.read now .zset key).getD {}).entries.length))
  | .expire key seconds => s.expire now key seconds
  | .persist key => s.persist now key
  | .ttl key => (s, .number (some (s.ttlReply now key)))
  | .sweep limit => (s.cleanupExpiredKeys now limit, .nothing)

end InlineStore

end CtsEngine
