import CtsEngine.Foundation.Keyed

/-!
# Serialized responses, stale while revalidating

A route that is expensive to read keeps its last complete response.  A request is answered from it,
or waits for a refresh, of which there is one for an exact key; every request for that key that
comes while the refresh runs shares it.  A mutation invalidates the responses of a namespace and a
key prefix.

Producers and requests carry the time at which they started, counted in events, and so does the log
of invalidations.
-/

namespace CtsEngine.ResponseCache

open Keyed

/-- A complete response. -/
structure Snapshot where
  takenAt : ℤ
  body : String
  status : ℕ
  /-- When the producer of the body started. -/
  producedFrom : ℕ
deriving DecidableEq

/-- How far a refresh is. -/
inductive Stage
  | producing
  /-- The response is there; its text is being read. -/
  | reading (takenAt : ℤ) (status : ℕ)
  /-- The snapshot is remembered, or the producer has failed. -/
  | concluded (result : Option Snapshot)
  /-- The refresh has left the map, and the requests that share it are told. -/
  | settled (result : Option Snapshot)
deriving DecidableEq

/-- A refresh of an exact key. -/
structure Flight where
  key : String
  startedAt : ℕ
  stage : Stage

/-- The refresh runs. -/
def Flight.Runs (flight : Flight) : Prop := ∀ result, flight.stage ≠ .settled result

/-- The header that says where an answer comes from. -/
inductive CacheState
  | miss
  | fresh
  | stale
  | staleIfBusy
deriving DecidableEq

/-- A call of `serveSerializedResponseSWR`. -/
structure Request where
  nameSpace : String
  key : String
  startedAt : ℕ
  /-- The refresh that the request waits for, and the expired snapshot that it falls back to. -/
  waits : Option (ℕ × Option Snapshot)
deriving DecidableEq

/-- A response that a request was given. -/
structure Answer where
  request : Request
  snapshot : Snapshot
  cacheState : CacheState
deriving DecidableEq

/-- A call of `invalidateSerializedResponseSWR`. -/
structure Invalidation where
  nameSpace : String
  keyPrefix : String
  calledAt : ℕ
deriving DecidableEq

/-- The two maps of the process, and what has happened. -/
structure ReadModels where
  snapshots : List (String × Snapshot) := []
  inflight : List (String × ℕ) := []
  flights : List Flight := []
  requests : List Request := []
  answers : List Answer := []
  invalidations : List Invalidation := []
  time : ℕ := 0

/-- The options of a call.  The wait for a busy refresh may be cut off at any time. -/
structure ServeOptions where
  nameSpace : String
  key : String
  freshMs : Option ℤ := none
  maxStaleMs : Option ℤ := none
  serveExpiredImmediately : Bool := false

def maxSnapshots : ℕ := 256

def cacheKey (nameSpace key : String) : String :=
  nameSpace ++ String.singleton (Char.ofNat 0) ++ key

def Succeeds (status : ℕ) : Prop := ¬ (status < 200 ∨ 300 ≤ status)

instance (status : ℕ) : Decidable (Succeeds status) :=
  inferInstanceAs (Decidable (¬ (status < 200 ∨ 300 ≤ status)))

/-- The oldest snapshots give way as long as there are too many. -/
def evict : List (String × Snapshot) → List (String × Snapshot)
  | [] => []
  | oldest :: rest =>
    if maxSnapshots < (oldest :: rest).length then evict rest else oldest :: rest

/-- `remember`: an error response is no checkpoint; a success becomes the newest entry. -/
def remember (snapshots : List (String × Snapshot)) (key : String) (snapshot : Snapshot) :
    List (String × Snapshot) :=
  if Succeeds snapshot.status then
    evict (snapshots.filter (fun entry => entry.1 ≠ key) ++ [(key, snapshot)])
  else snapshots

variable (s : ReadModels)

/-- `refresh`: the refresh of the key that runs, or a new one. -/
def refresh (key : String) : ℕ × ReadModels :=
  match get? s.inflight key with
  | some existing => (existing, s)
  | none =>
    (s.flights.length, { s with
        flights := s.flights ++ [⟨key, s.time, .producing⟩]
        inflight := put s.inflight key s.flights.length })

variable (options : ServeOptions)

/-- A call that is answered at once. -/
def answerNow (snapshot : Snapshot) (cacheState : CacheState) : ReadModels :=
  let request : Request := ⟨options.nameSpace, options.key, s.time, none⟩
  { s with
    requests := s.requests ++ [request]
    answers := s.answers ++ [⟨request, snapshot, cacheState⟩] }

/-- A call that waits for a refresh. -/
def await (flight : ℕ) (cached : Option Snapshot) : ReadModels :=
  { s with
    requests := s.requests ++ [⟨options.nameSpace, options.key, s.time, some (flight, cached)⟩] }

/-- How a call goes on with the snapshot that it finds. -/
inductive Course
  | answered (snapshot : Snapshot)
  /-- Answered with the old snapshot, while a refresh is on its way. -/
  | revalidated (snapshot : Snapshot) (cacheState : CacheState)
  | waiting (cached : Option Snapshot)

/-- The branches of `serveSerializedResponseSWR`. -/
def course (now : ℤ) : Option Snapshot → Course
  | none => .waiting none
  | some cached =>
    let freshMs := max 0 (options.freshMs.getD 5000)
    let maxStaleMs := max freshMs (options.maxStaleMs.getD 30000)
    let age := now - cached.takenAt
    if age < freshMs then .answered cached
    else if age < maxStaleMs then .revalidated cached .stale
    else if options.serveExpiredImmediately then .revalidated cached .staleIfBusy
    else .waiting (some cached)

/-- `serveSerializedResponseSWR` up to its answer or its wait. -/
def serve (now : ℤ) : ReadModels :=
  let exactKey := cacheKey options.nameSpace options.key
  match course options now (get? s.snapshots exactKey) with
  | .answered cached => answerNow s options cached .fresh
  | .revalidated cached cacheState => answerNow (refresh s exactKey).2 options cached cacheState
  | .waiting cached =>
    await (refresh s exactKey).2 options (refresh s exactKey).1 cached

variable (i : ℕ)

/-- Put a refresh into another stage. -/
def setStage (flight : Flight) (stage : Stage) : ReadModels :=
  { s with flights := s.flights.set i { flight with stage := stage } }

/-- The producer has resolved; the snapshot is dated now. -/
def respond (status : ℕ) (now : ℤ) : Option ReadModels :=
  (s.flights[i]?).bind fun flight =>
    if flight.stage = .producing then some (setStage s i flight (.reading now status)) else none

/-- The text of the response is read, and the snapshot is remembered. -/
def conclude (body : String) : Option ReadModels :=
  (s.flights[i]?).bind fun flight =>
    match flight.stage with
    | .reading takenAt status =>
      let snapshot : Snapshot := ⟨takenAt, body, status, flight.startedAt⟩
      some { setStage s i flight (.concluded (some snapshot)) with
        snapshots := remember s.snapshots flight.key snapshot }
    | _ => none

/-- The producer rejects, or its text cannot be read. -/
def reject : Option ReadModels :=
  (s.flights[i]?).bind fun flight =>
    match flight.stage with
    | .producing => some (setStage s i flight (.concluded none))
    | .reading _ _ => some (setStage s i flight (.concluded none))
    | _ => none

/-- The `finally` of a refresh. -/
def settle : Option ReadModels :=
  (s.flights[i]?).bind fun flight =>
    match flight.stage with
    | .concluded result =>
      some { setStage s i flight (.settled result) with
        inflight := if get? s.inflight flight.key = some i then
          s.inflight.filter fun entry => entry.1 ≠ flight.key else s.inflight }
    | _ => none

/-- A waiting request ends, with an answer or with an error. -/
def finish (request : Request) (answers : List Answer) : ReadModels :=
  { s with
    requests := s.requests.set i { request with waits := none }
    answers := s.answers ++ answers }

/-- What a request is given when its refresh has settled. -/
def delivered (request : Request) (cached : Option Snapshot) : Option Snapshot → List Answer
  | some updated => [⟨request, updated, .miss⟩]
  | none => cached.toList.map fun old => ⟨request, old, .staleIfBusy⟩

/-- A request hears that its refresh has settled. -/
def deliver : Option ReadModels :=
  (s.requests[i]?).bind fun request =>
    request.waits.bind fun wait =>
      (s.flights[wait.1]?).bind fun flight =>
        match flight.stage with
        | .settled result => some (finish s i request (delivered request wait.2 result))
        | _ => none

/-- The wait of a request with an expired snapshot is over. -/
def timeout : Option ReadModels :=
  (s.requests[i]?).bind fun request =>
    request.waits.bind fun wait =>
      wait.2.map fun cached => finish s i request [⟨request, cached, .staleIfBusy⟩]

def Invalidation.Matches (invalidation : Invalidation) (exactKey : String) : Prop :=
  (cacheKey invalidation.nameSpace invalidation.keyPrefix).toList <+: exactKey.toList

instance (invalidation : Invalidation) (exactKey : String) :
    Decidable (invalidation.Matches exactKey) :=
  inferInstanceAs (Decidable (_ <+: _))

/-- `invalidateSerializedResponseSWR`. -/
def invalidate (nameSpace keyPrefix : String) : ReadModels :=
  let invalidation : Invalidation := ⟨nameSpace, keyPrefix, s.time⟩
  { s with
    snapshots := s.snapshots.filter fun entry => ¬ invalidation.Matches entry.1
    invalidations := invalidation :: s.invalidations }

/-- What can happen; refreshes and requests are named by the order in which they started. -/
inductive Event
  | serve (options : ServeOptions) (now : ℤ)
  | respond (flight status : ℕ) (now : ℤ)
  | conclude (flight : ℕ) (body : String)
  | reject (flight : ℕ)
  | settle (flight : ℕ)
  | deliver (request : ℕ)
  | timeout (request : ℕ)
  | invalidate (nameSpace keyPrefix : String)

/-- The effect of an event. -/
def happen : Event → Option ReadModels
  | .serve options now => some (serve s options now)
  | .respond flight status now => respond s flight status now
  | .conclude flight body => conclude s flight body
  | .reject flight => reject s flight
  | .settle flight => settle s flight
  | .deliver request => deliver s request
  | .timeout request => timeout s request
  | .invalidate nameSpace keyPrefix => some (invalidate s nameSpace keyPrefix)

def step (event : Event) : Option ReadModels :=
  (happen s event).map fun t => { t with time := t.time + 1 }

end CtsEngine.ResponseCache
