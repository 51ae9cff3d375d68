import CtsEngine.Foundation.SlidingWindow
import Mathlib.Data.List.Sort

/-!
# The rate limiter of an exchange

Requests wait in a queue and are dispatched by `drainQueue` as long as a slot and both rolling
windows are free.  Whoever ends a request calls `drainQueue` again; a queue that is held back by a
window alone is woken by one timer.

Every `Date.now()` is a new reading of the clock: readings never go back, and the clock may move on
between any two of them, also inside one call.  The number of readings made so far is part of the
state, so that the whole clock is one sequence.
-/

namespace CtsEngine.RateLimiter

open SlidingWindow

/-- The budget of one exchange; every built-in and every resolved number is at least one. -/
structure RateLimitConfig where
  requestsPerSecond : ℕ
  requestsPerMinute : ℕ
  maxConcurrent : ℕ
  perSecond_pos : 0 < requestsPerSecond
  perMinute_pos : 0 < requestsPerMinute
  concurrent_pos : 0 < maxConcurrent

/-- The successive readings of `Date.now()`, in milliseconds. -/
structure Clock where
  reading : ℕ → ℕ
  forward : Monotone reading

/-- A request that is handed to `execute`.  Several requests may share one abort signal; a timeout
of zero is none. -/
structure QueuedRequest where
  /-- The place in the order of arrival. -/
  id : ℕ
  signal : Option ℕ
  executeTimeoutMs : ℕ
deriving DecidableEq

/-- How the promise of a request is settled. -/
inductive Settlement
  | resolved
  /-- The error of the request itself. -/
  | failed
  | rejected (reason : String)

/-- The limiter, and what the outside has seen of it. -/
structure Limiter where
  queue : List QueuedRequest
  requestTimestamps : List ℕ
  activeRequests : ℕ
  /-- The delay of the scheduled wake-up. -/
  windowWakeTimer : Option ℕ
  /-- How often the clock was read. -/
  reads : ℕ
  /-- The abort signals that fired. -/
  abortedSignals : List ℕ
  /-- Every request handed to `execute`, in order of arrival. -/
  arrivals : List QueuedRequest
  /-- The dispatches with their timestamps, in order. -/
  dispatches : List (QueuedRequest × ℕ)
  /-- The dispatched requests that have ended, by themselves or by their timeout. -/
  ended : List ℕ
  /-- The settled promises. -/
  settled : List (ℕ × Settlement)

namespace Limiter

def new : Limiter := ⟨[], [], 0, none, 0, [], [], [], [], []⟩

variable (s : Limiter)

/-- `request.signal?.aborted`. -/
def Aborted (request : QueuedRequest) : Prop :=
  ∃ signal ∈ request.signal, signal ∈ s.abortedSignals

instance (s : Limiter) (request : QueuedRequest) : Decidable (s.Aborted request) :=
  inferInstanceAs (Decidable (∃ signal ∈ request.signal, signal ∈ s.abortedSignals))

/-- One more reading of the clock was made. -/
def tick : Limiter := { s with reads := s.reads + 1 }

/-- The requests that were dispatched, in order. -/
def dispatched : List QueuedRequest := s.dispatches.map Prod.fst

/-- The timestamps of all dispatches, in order. -/
def stamps : List ℕ := s.dispatches.map Prod.snd

/-- The dispatched requests that have not ended. -/
def running : List QueuedRequest :=
  s.dispatched.filter fun request => request.id ∉ s.ended

end Limiter

section

variable (config : RateLimitConfig) (clock : Clock)

/-- Both rolling windows have room at `now`. -/
def windowsOpen (now : ℕ) (requestTimestamps : List ℕ) : Bool :=
  (recent 1000 now requestTimestamps).length < config.requestsPerSecond ∧
    (recent 60000 now requestTimestamps).length < config.requestsPerMinute

/-- `canMakeRequest`, with the limiter after its reading of the clock. -/
def canMakeRequest (s : Limiter) : Bool × Limiter :=
  if config.maxConcurrent ≤ s.activeRequests then (false, s)
  else (windowsOpen config (clock.reading s.reads) s.requestTimestamps, s.tick)

/-- The slot and the timestamp that a request takes when it leaves the queue. -/
def dispatch (request : QueuedRequest) (s : Limiter) : Limiter :=
  let now := clock.reading s.reads
  { s.tick with
    activeRequests := s.activeRequests + 1
    requestTimestamps := recent 60000 now (s.requestTimestamps ++ [now])
    dispatches := s.dispatches ++ [(request, now)] }

/-- The loop of `drainQueue` over the waiting requests. -/
def drainLoop : List QueuedRequest → Limiter → Limiter
  | [], s => { s with queue := [] }
  | request :: rest, s =>
    let asked := canMakeRequest config clock s
    if asked.1 then
      -- a request whose signal fired while it was queued is skipped
      if s.Aborted request then drainLoop rest asked.2
      else drainLoop rest (dispatch clock request asked.2)
    else { asked.2 with queue := request :: rest }

/-- The delay until the first timestamp leaves a full window, `none` for a window with room. -/
def windowDelay (width budget now : ℕ) (requestTimestamps : List ℕ) : Option ℕ :=
  let recentSorted := (recent width now requestTimestamps).insertionSort (· ≤ ·)
  if budget ≤ recentSorted.length then some (width + 1 - (now - recentSorted.headD now)) else none

def scheduleWindowWakeup (s : Limiter) : Limiter :=
  if s.windowWakeTimer.isSome ∨ s.queue = [] then s
  else
    let now := clock.reading s.reads
    let delays := (windowDelay 1000 config.requestsPerSecond now s.requestTimestamps).toList ++
      (windowDelay 60000 config.requestsPerMinute now s.requestTimestamps).toList
    { s.tick with windowWakeTimer := some (max 1 (delays.min?.getD 25)) }

/-- `drainQueue`: drop the timer, dispatch what may go, and schedule a wake-up for a queue that a
window holds back. -/
def drainQueue (s : Limiter) : Limiter :=
  let drained := drainLoop config clock s.queue { s with windowWakeTimer := none }
  if drained.queue ≠ [] ∧ drained.activeRequests < config.maxConcurrent then
    let asked := canMakeRequest config clock drained
    if asked.1 then asked.2 else scheduleWindowWakeup config clock asked.2
  else drained

end

/-- A request takes its place in the queue; its id and its timestamp are two clock readings. -/
def enqueue (s : Limiter) (request : QueuedRequest) : Limiter :=
  { s with
    reads := s.reads + 2
    arrivals := s.arrivals ++ [request]
    queue := s.queue ++ [request] }

/-- A request whose signal has fired already is rejected at once. -/
def refuse (s : Limiter) (request : QueuedRequest) : Limiter :=
  { s with
    arrivals := s.arrivals ++ [request]
    settled := s.settled ++ [(request.id, .rejected "Aborted before enqueue")] }

/-- The abort listeners of the waiting requests of a signal. -/
def abort (s : Limiter) (signal : ℕ) : Limiter :=
  { s with
    abortedSignals := signal :: s.abortedSignals
    queue := s.queue.filter fun request => request.signal ≠ some signal
    settled := s.settled ++ (s.queue.filter fun request => request.signal = some signal).map
      fun request => (request.id, .rejected "Aborted while queued") }

/-- The end of a dispatched request: its promise is settled and its slot is free. -/
def release (s : Limiter) (request : QueuedRequest) (settlement : Settlement) : Limiter :=
  { s with
    activeRequests := s.activeRequests - 1
    ended := request.id :: s.ended
    settled := s.settled ++ [(request.id, settlement)] }

/-- What can happen to the limiter. -/
inductive Event
  | execute (signal : Option ℕ) (executeTimeoutMs : ℕ)
  | abort (signal : ℕ)
  /-- The call of a dispatched request returns or throws. -/
  | settle (id : ℕ) (succeeded : Bool)
  /-- The execution timeout of a dispatched request. -/
  | timeout (id : ℕ)
  | timer

/-- What the handler of an event does before it calls `drainQueue`, and whether it calls it. -/
def handle (s : Limiter) : Event → Option (Bool × Limiter)
  | .execute signal executeTimeoutMs =>
    let request : QueuedRequest := ⟨s.arrivals.length, signal, executeTimeoutMs⟩
    if s.Aborted request then some (false, refuse s request) else some (true, enqueue s request)
  | .abort signal => some (false, abort s signal)
  | .settle id succeeded =>
    (s.running.find? fun request => request.id = id).map fun request =>
      (true, release s request (if succeeded then .resolved else .failed))
  | .timeout id =>
    (s.running.find? fun request => request.id = id ∧ 0 < request.executeTimeoutMs).map
      fun request => (true, release s request
        (.rejected ("Execute timeout after " ++ toString request.executeTimeoutMs ++ "ms")))
  | .timer =>
    if s.windowWakeTimer.isSome then some (true, { s with windowWakeTimer := none }) else none

/-- One event, to the end of its handler. -/
def step (config : RateLimitConfig) (clock : Clock) (s : Limiter) (event : Event) :
    Option Limiter :=
  (handle s event).map fun handled =>
    if handled.1 then drainQueue config clock handled.2 else handled.2

end CtsEngine.RateLimiter
