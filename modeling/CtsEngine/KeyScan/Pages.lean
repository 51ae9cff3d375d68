import CtsEngine.Foundation.MapIterator
import CtsEngine.InlineRedis.Store

/-!
# Scanning the keys

`scan` of the in-memory Redis goes through the five maps one page at a time.  A session keeps the
iterators between the pages, and with them how many keys it still examines: as many as there were
when it began.  `scanRedisKeys` asks for page after page and collects the keys.

Between two pages the maps change.  A command adds keys to a map, deletes keys and sets or clears
the times at which keys expire; what the values are does not matter here.
-/

namespace CtsEngine.KeyScan

open Keyed Function KeyKind MapIterator

/-! ## The store -/

/-- A session of `scan`.  The iterators of the maps after the one of `collectionIndex` have not
begun. -/
structure ScanSession where
  start : String
  collectionIndex : ℕ := 0
  /-- The number of keys that the iterator of the current map has passed. -/
  passed : ℕ := 0
  remaining : ℕ
  page : ℕ := 0
  expiresAt : ℚ

/-- The keys of the five maps in the order of each map, the times at which keys expire, the clock,
and the sessions of `scan`. -/
structure ScanStore where
  keys : KeyKind → List String
  nodup : ∀ kind, (keys kind).Nodup
  ttl : List (String × ℚ) := []
  now : ℚ := 0
  scanSessions : List (ℕ × ScanSession) := []
  scanSessionCounter : ℕ := 0

/-- A change that other commands make between two pages. -/
inductive Change
  | set (kind : KeyKind) (key : String)
  | delete (kind : KeyKind) (key : String)
  | expireAt (key : String) (time : ℚ)
  | persist (key : String)
  | tick (elapsed : ℕ)

/-- The key that a change is about. -/
def Change.key : Change → Option String
  | .set _ key => some key
  | .delete _ key => some key
  | .expireAt key _ => some key
  | .persist key => some key
  | .tick _ => none

/-- The number of keys that a session has passed after a key of a map was deleted. -/
def ScanSession.afterDelete (session : ScanSession) (kind : KeyKind) (keys : List String)
    (key : String) : ScanSession :=
  if all[session.collectionIndex]? = some kind then
    { session with passed := moved keys session.passed key }
  else session

lemma nodup_update {keys : KeyKind → List String} (h : ∀ kind, (keys kind).Nodup)
    {kind : KeyKind} {keys' : List String} (h' : keys'.Nodup) (other : KeyKind) :
    (update keys kind keys' other).Nodup := by
  rw [update_apply]
  split_ifs
  · exact h'
  · exact h other

namespace ScanStore

def isExpired (s : ScanStore) (key : String) : Bool :=
  (get? s.ttl key).any fun expireAt => decide (expireAt ≠ 0 ∧ expireAt ≤ s.now)

/-- What a change does. -/
def apply (s : ScanStore) : Change → ScanStore
  | .set kind key =>
    { s with
      keys := update s.keys kind (insert (s.keys kind) key)
      nodup := nodup_update s.nodup (nodup_insert (s.nodup kind) key) }
  | .delete kind key =>
    { s with
      keys := update s.keys kind (erase (s.keys kind) key)
      nodup := nodup_update s.nodup (nodup_erase (s.nodup kind) key)
      scanSessions := s.scanSessions.map fun entry =>
        (entry.1, entry.2.afterDelete kind (s.keys kind) key) }
  | .expireAt key time => { s with ttl := put s.ttl key time }
  | .persist key => { s with ttl := s.ttl.filter fun entry => entry.1 ≠ key }
  | .tick elapsed => { s with now := s.now + elapsed }

/-- `scanKeyBelongsToCollection`: no map before the one of the index has the key. -/
def scanKeyBelongsToCollection (s : ScanStore) (key : String) (collectionIndex : ℕ) : Bool :=
  (all.take collectionIndex).all fun kind =>
    !(decide (key ∈ s.keys kind) && !s.isExpired key)

end ScanStore

/-- The characters that `.` does not match. -/
def isLineTerminator (c : Char) : Bool :=
  decide (c ∈ ['\n', '\r', Char.ofNat 0x2028, Char.ofNat 0x2029])

/-- A letter, a digit, a colon or an underscore. -/
def isPatternChar (c : Char) : Bool := c.isAlphanum || decide (c ∈ [':', '_'])

/-- A pattern that is a prefix with a star behind it. -/
structure PrefixPattern where
  start : String
  plain : start.toList.all isPatternChar = true

variable (pattern : PrefixPattern)

/-- `scanPatternRegex(pattern).test(key)`: the star has become `.*`. -/
def PrefixPattern.test (key : String) : Bool :=
  hasPrefix pattern.start key &&
    (key.toList.drop pattern.start.toList.length).all fun c => !isLineTerminator c

/-! ## One page -/

/-- The variables of the loop of `scan`. -/
structure PageState where
  session : ScanSession
  keys : List String := []
  examined : ℕ := 0

namespace ScanStore

/-- The key is put on the page. -/
def isListed (s : ScanStore) (pattern : PrefixPattern) (key : String) (collectionIndex : ℕ) :
    Bool :=
  s.scanKeyBelongsToCollection key collectionIndex && (!s.isExpired key && pattern.test key)

/-- The loop of `scan` goes on. -/
def pageRuns (count : ℕ) (p : PageState) : Bool :=
  decide (p.examined < count) &&
    (decide (0 < p.session.remaining) && decide (p.session.collectionIndex < all.length))

/-- One turn of the loop of `scan`. -/
def pageTurn (s : ScanStore) (pattern : PrefixPattern) (p : PageState) : PageState :=
  match all[p.session.collectionIndex]? with
  | none => p
  | some kind =>
    match (s.keys kind)[p.session.passed]? with
    | none =>
      { p with
        session :=
          { p.session with collectionIndex := p.session.collectionIndex + 1, passed := 0 } }
    | some key =>
      { session :=
          { p.session with
            passed := p.session.passed + 1
            remaining := p.session.remaining - 1 }
        keys := p.keys ++ if s.isListed pattern key p.session.collectionIndex then [key] else []
        examined := p.examined + 1 }

/-- The loop of `scan`, for a number of turns. -/
def pageLoop (s : ScanStore) (pattern : PrefixPattern) (count : ℕ) : ℕ → PageState → PageState
  | 0, p => p
  | turns + 1, p =>
    if pageRuns count p then pageLoop s pattern count turns (s.pageTurn pattern p) else p

/-- The turns that the loop takes at most: each examines a key or ends a map. -/
def pageTurns (count : ℕ) : ℕ := count + all.length

end ScanStore

/-- A cursor: `"0"`, or the id of a session and the number of its page. -/
inductive Cursor
  | zero
  | at (id page : ℕ)
deriving DecidableEq

namespace ScanStore

def maxScanSessions : ℕ := 64

def maxScanSessionLifetimeMs : ℚ := 120000

/-- The sessions that have expired are dropped, and the oldest ones that are too many. -/
def enforceScanSessionBudget (s : ScanStore) : List (ℕ × ScanSession) :=
  let live := s.scanSessions.filter fun entry => s.now < entry.2.expiresAt
  live.drop (live.length - maxScanSessions)

def sessionOf (s : ScanStore) (pattern : PrefixPattern) : Cursor → Option (ℕ × ScanSession)
  | .zero => none
  | .at id _ =>
    ((get? s.enforceScanSessionBudget id).filter fun session =>
      session.start = pattern.start).map fun session => (id, session)

/-- The number of keys in all maps. -/
def size (s : ScanStore) : ℕ := (all.map fun kind => (s.keys kind).length).sum

/-- The session of a page and the sessions: a cursor without a session begins a new one. -/
def openSession (s : ScanStore) (pattern : PrefixPattern) (cursor : Cursor) :
    ScanStore × ℕ × ScanSession :=
  let sessions := s.enforceScanSessionBudget
  match s.sessionOf pattern cursor with
  | some (id, session) => ({ s with scanSessions := sessions }, id, session)
  | none =>
    let id := s.scanSessionCounter + 1
    let session : ScanSession :=
      { start := pattern.start
        remaining := s.size
        expiresAt := s.now + maxScanSessionLifetimeMs }
    let kept := if maxScanSessions ≤ sessions.length then sessions.tail else sessions
    ({ s with scanSessions := put kept id session, scanSessionCounter := id }, id, session)

/-- `scan`: the next cursor and the keys of the page. -/
def scan (s : ScanStore) (pattern : PrefixPattern) (count : ℕ) (cursor : Cursor) :
    ScanStore × Cursor × List String :=
  let (s, id, session) := s.openSession pattern cursor
  let p := s.pageLoop pattern count (pageTurns count) { session }
  if p.session.remaining = 0 ∨ all.length ≤ p.session.collectionIndex then
    ({ s with scanSessions := s.scanSessions.filter fun entry => entry.1 ≠ id }, .zero, p.keys)
  else
    let session :=
      { p.session with
        expiresAt := s.now + maxScanSessionLifetimeMs, page := p.session.page + 1 }
    ({ s with scanSessions := put s.scanSessions id session }, .at id session.page, p.keys)

end ScanStore

variable (count : Option ℚ)

/-- `Math.max(10, Math.floor(options.count ?? 250))`. -/
def pageCount : ℕ := (max 10 ⌊count.getD 250⌋).toNat

/-- A run of `scanRedisKeys` with the store that others change, and what its history is told by. -/
structure ScanRun where
  store : ScanStore
  cursor : Cursor := .zero
  visitedCursors : List Cursor := []
  keys : List String := []
  finished : Bool := false
  pages : ℕ := 0
  present : List String := []
  size : ℕ := 0
  changed : List String := []

/-- What happens next. -/
inductive ScanEvent
  | change (change : Change)
  | page

namespace ScanRun

/-- The history begins at the first page. -/
def begun (run : ScanRun) : ScanRun :=
  if run.pages = 0 then
    { run with
      present := all.flatMap run.store.keys
      size := run.store.size
      changed := [] }
  else run

/-- One turn of the loop of `iterateRedisKeys`. -/
def page (run : ScanRun) : ScanRun :=
  if run.cursor ∈ run.visitedCursors then { run with finished := true }
  else
    let (store, cursor, keys) := run.store.scan pattern (pageCount count) run.cursor
    { run with
      store
      cursor
      visitedCursors := run.cursor :: run.visitedCursors
      keys := run.keys ++ keys
      finished := decide (cursor = .zero)
      pages := run.pages + 1 }

/-- The run after an event. -/
def step (run : ScanRun) : ScanEvent → Option ScanRun
  | .change change =>
    some { run with
        store := run.store.apply change
        changed := change.key.toList ++ run.changed }
  | .page => if run.finished then none else some (run.begun.page pattern count)

end ScanRun

end CtsEngine.KeyScan
