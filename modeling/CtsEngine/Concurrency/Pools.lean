import CtsEngine.Foundation.NumberText
import CtsEngine.Transition.Runs

/-!
# The pools of bounded mappers

`mapWithConcurrency` and `runWithConcurrency` of `lib/bounded-concurrency.ts`, as the states that
the pool passes through while the promises of its mappers settle.  What the mapper of an item
settles with is given; when it settles is the order of the actions.

Without a sampler a fixed number of workers takes one item after another, and the call waits for
all of them.  With a sampler one loop starts tasks up to the limit of the moment and then waits for
the first of the active ones to settle.  A task leaves the active set as it settles, and some turns
later the loop wakes; whatever settles between the first task and the loop's turn is seen by
nobody.
-/

namespace CtsEngine

/-! ## Limits -/

/-- `clampConcurrency`, for numbers. -/
def clampConcurrency (raw : Double) (fallback maximum itemCount : ℕ) : ℕ :=
  let resolved := match raw with
    | .finite parsed => if 0 < parsed then ⌊parsed⌋.toNat else fallback
    | _ => fallback
  max 1 (min resolved (min (max 1 maximum) (max 1 itemCount)))

/-- The ceiling of a pool. -/
def poolLimit (concurrency : Double) (itemCount : ℕ) : ℕ :=
  clampConcurrency concurrency 1 itemCount itemCount

/-- `currentLimit`, with `none` for a sampler that throws. -/
def currentLimit (limit itemCount : ℕ) : Option Double → ℕ
  | some sample => clampConcurrency sample 1 limit itemCount
  | none => 1

lemma clampConcurrency_pos (raw : Double) (fallback maximum itemCount : ℕ) :
    0 < clampConcurrency raw fallback maximum itemCount := by
  exact Nat.lt_of_lt_of_le Nat.zero_lt_one (le_max_left ..)

lemma currentLimit_pos (limit itemCount : ℕ) (sample : Option Double) :
    0 < currentLimit limit itemCount sample := by
  cases sample with
  | none => exact Nat.zero_lt_one
  | some sample => exact clampConcurrency_pos ..

/-- The start of a mapper: its item, the mappers that are active with it, and the limit. -/
structure PoolStart where
  index : ℕ
  active : ℕ
  limit : ℕ

/-- The promise of the call. -/
inductive CallStatus (E : Type*)
  | pending
  | resolved
  | rejected (error : E)
  deriving DecidableEq

/-- What happens to a pool. -/
inductive PoolAction
  /-- The mapper of a task settles. -/
  | settle (task : ℕ)
  /-- A task whose mapper is done has reported its progress and yielded. -/
  | finish (task : ℕ)
  /-- The loop takes its turn after the race, with the answer of the sampler. -/
  | wake (sample : Option Double)
  /-- Everything that was started has settled after a failure. -/
  | drain

variable {R E : Type*}

/-- The results with one of them set. -/
def setResult (results : ℕ → Option R) (index : ℕ) (value : R) : ℕ → Option R :=
  fun other => if other = index then some value else results other

/-! ## The pool with a sampler -/

/-- The loop waits for its turn after a race, which some task may have won; or for everything that
was started, after a failure; or it is over. -/
inductive PoolLoop (E : Type*)
  | racing (winner : Option (Option E))
  | draining (error : E)
  | returned
  | threw (error : E)
  deriving DecidableEq

/-- The state of the pool with a sampler: the next item, the active tasks, and the results that
are set. -/
structure AdaptivePool (R E : Type*) where
  next : ℕ
  active : List ℕ
  results : ℕ → Option R
  loop : PoolLoop E
  starts : List PoolStart

namespace AdaptivePool

variable (s : AdaptivePool R E)

/-- The active tasks whose mapper has not settled. -/
def mapping : List ℕ := s.active.filter fun task => (s.results task).isNone

def launch (limit : ℕ) : AdaptivePool R E :=
  { s with
    next := s.next + 1
    active := s.active ++ [s.next]
    starts := s.starts ++ [⟨s.next, s.mapping.length + 1, limit⟩] }

/-- The inner loop, for at most `fuel` items. -/
def launchAll (limit itemCount : ℕ) : ℕ → AdaptivePool R E → AdaptivePool R E
  | 0, s => s
  | fuel + 1, s =>
    if s.next < itemCount ∧ s.active.length < limit then
      launchAll limit itemCount fuel (s.launch limit)
    else s

/-- The race of the active tasks; without one the outer loop is over. -/
def race : AdaptivePool R E :=
  if s.active = [] then { s with loop := .returned } else { s with loop := .racing none }

/-- A turn of the outer loop: start what the limit admits, and race. -/
def turn (limit itemCount : ℕ) : AdaptivePool R E :=
  (s.launchAll limit itemCount (itemCount - s.next)).race

/-- A task settles: it leaves the active set, and wins the race if it is the first. -/
def settled (task : ℕ) (failure : Option E) : AdaptivePool R E :=
  { s with
    active := s.active.erase task
    loop := match s.loop with
      | .racing none => .racing (some failure)
      | loop => loop }

/-- The promise of the call. -/
def status : CallStatus E :=
  match s.loop with
  | .returned => .resolved
  | .threw error => .rejected error
  | _ => .pending

end AdaptivePool

/-- The first turn of the loop. -/
def AdaptivePool.start (itemCount limit : ℕ) (sample : Option Double) : AdaptivePool R E :=
  turn ⟨0, [], fun _ => none, .racing none, []⟩ (currentLimit limit itemCount sample) itemCount

/-- A step of the pool with a sampler, where `outcomes` says what the mapper of each item settles
with, and `onProgress` what the report after it throws. -/
def adaptiveStep (outcomes : List (Except E R)) (onProgress : ℕ → Option E) (limit : ℕ)
    (s : AdaptivePool R E) : PoolAction → Option (AdaptivePool R E)
  | .settle task =>
    if task ∈ s.mapping then
      (outcomes[task]?).map fun
        | .ok value => { s with results := setResult s.results task value }
        | .error error => s.settled task (some error)
    else none
  | .finish task =>
    if task ∈ s.active ∧ task ∉ s.mapping then some (s.settled task (onProgress task)) else none
  | .wake sample =>
    match s.loop with
    | .racing (some none) =>
      some (s.turn (currentLimit limit outcomes.length sample) outcomes.length)
    | .racing (some (some error)) => some { s with loop := .draining error }
    | _ => none
  | .drain =>
    match s.loop with
    | .draining error => if s.active = [] then some { s with loop := .threw error } else none
    | _ => none

/-! ## The pool of workers -/

/-- A worker maps an item, reports and yields after it, or is done. -/
inductive WorkerPhase (E : Type*)
  | mapping (index : ℕ)
  | resting (index : ℕ)
  | returned
  | failed (error : E)

/-- The state of the pool of workers.  `failure` is the first rejection among them. -/
structure FixedPool (R E : Type*) where
  next : ℕ
  workers : List (WorkerPhase E)
  results : ℕ → Option R
  failure : Option E
  starts : List PoolStart

namespace FixedPool

variable (s : FixedPool R E)

/-- The number of mappers that have not settled. -/
def mapping : ℕ := s.workers.countP fun
  | .mapping _ => true
  | _ => false

/-- The start of a worker: it takes an item, or returns. -/
def spawn (itemCount limit : ℕ) : FixedPool R E :=
  if s.next < itemCount then
    { s with
      next := s.next + 1
      workers := s.workers ++ [.mapping s.next]
      starts := s.starts ++ [⟨s.next, s.mapping + 1, limit⟩] }
  else { s with workers := s.workers ++ [.returned] }

/-- A worker that has done an item takes its next one, or returns. -/
def takeItem (itemCount limit worker : ℕ) : FixedPool R E :=
  if s.next < itemCount then
    { s with
      next := s.next + 1
      workers := s.workers.set worker (.mapping s.next)
      starts := s.starts ++ [⟨s.next, s.mapping + 1, limit⟩] }
  else { s with workers := s.workers.set worker .returned }

def fail (worker : ℕ) (error : E) : FixedPool R E :=
  { s with
    workers := s.workers.set worker (.failed error)
    failure := s.failure.or (some error) }

/-- The promise of the call: all workers, or the first failure. -/
def status : CallStatus E :=
  match s.failure with
  | some error => .rejected error
  | none =>
    if s.workers.all fun
      | .returned => true
      | _ => false
    then .resolved else .pending

end FixedPool

/-- All workers are started, one after another. -/
def FixedPool.start (itemCount limit : ℕ) : FixedPool R E :=
  (List.range limit).foldl (fun s _ => s.spawn itemCount limit) ⟨0, [], fun _ => none, none, []⟩

/-- A step of the pool of workers; a task is named by its worker. -/
def fixedStep (outcomes : List (Except E R)) (onProgress : ℕ → Option E) (limit : ℕ)
    (s : FixedPool R E) : PoolAction → Option (FixedPool R E)
  | .settle worker =>
    match s.workers[worker]? with
    | some (.mapping index) => (outcomes[index]?).map fun
        | .ok value => { s with
            workers := s.workers.set worker (.resting index)
            results := setResult s.results index value }
        | .error error => s.fail worker error
    | _ => none
  | .finish worker =>
    match s.workers[worker]? with
    | some (.resting index) => some (match onProgress index with
        | some error => s.fail worker error
        | none => s.takeItem outcomes.length limit worker)
    | _ => none
  | _ => none

end CtsEngine
