import CtsEngine.Concurrency.Pools
import Mathlib.Data.List.Nodup

/-!
# What bounded mapping promises

`PoolLaw` is the contract of the pools: mappers start once, in order and within the limit of the
moment; the call resolves with all results in order or not at all; and when nothing can happen any
more, a call with a mapper that rejected is rejected.
-/

namespace CtsEngine

open List Transition AdaptivePool

variable {R E : Type*}

/-- The contract of a pool, for one of its states; `stuck` says that nothing can happen there. -/
structure PoolLaw (outcomes : List (Except E R)) (status : CallStatus E) (results : ℕ → Option R)
    (starts : List PoolStart) (stuck : Prop) : Prop where
  withinLimit : ∀ start ∈ starts, start.active ≤ start.limit
  once : starts.map (·.index) = List.range starts.length
  complete : status = .resolved → starts.length = outcomes.length ∧
    ∃ values : List R, outcomes = values.map .ok ∧
      (List.range outcomes.length).map results = values.map some
  settles : stuck → status ≠ .pending
  rejects : stuck → (∃ start ∈ starts, ∃ error, outcomes[start.index]? = some (.error error)) →
    ∃ error, status = .rejected error

variable {results : ℕ → Option R} {outcomes : List (Except E R)}

lemma exists_values (h : ∀ i < outcomes.length, ∃ value, results i = some value ∧
      outcomes[i]? = some (.ok value)) :
    ∃ values : List R, outcomes = values.map .ok ∧
      (List.range outcomes.length).map results = values.map some := by
  choose value hresult houtc using h
  refine ⟨ofFn fun i : Fin outcomes.length => value i i.isLt, ?_, ?_⟩
  · apply ext_getElem
    · simp
    · intro i hi _
      have hok := houtc i hi
      rw [getElem?_eq_getElem hi] at hok
      simpa using Option.some.inj hok
  · apply ext_getElem
    · simp
    · intro i hi _
      have hi' : i < outcomes.length := by simpa using hi
      simpa using hresult i hi'

lemma PoolLaw.of_settles {status : CallStatus E} {starts : List PoolStart} {stuck : Prop}
    (withinLimit : ∀ start ∈ starts, start.active ≤ start.limit)
    (once : starts.map (·.index) = List.range starts.length)
    (complete : status = .resolved → starts.length = outcomes.length ∧
      ∃ values : List R, outcomes = values.map .ok ∧
        (List.range outcomes.length).map results = values.map some)
    (settles : stuck → status ≠ .pending) : PoolLaw outcomes status results starts stuck := by
  refine ⟨withinLimit, once, complete, settles, fun hstuck ⟨start, _, error, hfail⟩ => ?_⟩
  cases hstat : status with
  | pending => exact absurd hstat (settles hstuck)
  | rejected error => exact ⟨error, rfl⟩
  | resolved =>
    obtain ⟨-, values, hvals, -⟩ := complete hstat
    rw [hvals, getElem?_map] at hfail
    obtain ⟨value, -, hval⟩ := Option.map_eq_some_iff.mp hfail
    cases hval

/-- A result that is set is the outcome of its item. -/
def ResultsOk (outcomes : List (Except E R)) (results : ℕ → Option R) : Prop :=
  ∀ i value, results i = some value → outcomes[i]? = some (.ok value)

lemma ResultsOk.set (h : ResultsOk outcomes results) {index : ℕ} {value : R}
    (hval : outcomes[index]? = some (.ok value)) :
    ResultsOk outcomes (setResult results index value) := by
  intro i other hoth
  unfold setResult at hoth
  split at hoth
  · next heq =>
    cases hoth
    rw [heq, hval]
  · exact h i other hoth

lemma isSome_setResult {index i : ℕ} (value : R) (h : (results i).isSome = true) :
    (setResult results index value i).isSome = true := by
  unfold setResult
  split
  · rfl
  · exact h

/-! ## The pool with a sampler -/

/-- A failure has won a race. -/
def PoolLoop.hasFailed : PoolLoop E → Bool
  | .racing (some (some _)) => true
  | .draining _ => true
  | .threw _ => true
  | _ => false

/-- What holds of the tasks, whatever the loop does.  A started item is active, or its result is
set, or a failure was seen. -/
structure TasksOk (outcomes : List (Except E R)) (s : AdaptivePool R E) : Prop where
  once : s.starts.map (·.index) = List.range s.next
  withinLimit : ∀ start ∈ s.starts, start.active ≤ start.limit
  next_le : s.next ≤ outcomes.length
  nodup : s.active.Nodup
  active_lt : ∀ task ∈ s.active, task < s.next
  results : ResultsOk outcomes s.results
  ended : ∀ i < s.next, i ∈ s.active ∨ (s.results i).isSome = true ∨ s.loop.hasFailed = true

/-- The invariant of the pool with a sampler. -/
structure AdaptiveInvariant (outcomes : List (Except E R)) (s : AdaptivePool R E) : Prop
    extends TasksOk outcomes s where
  racing : s.loop = .racing none → s.active ≠ []
  returned : s.loop = .returned → s.next = outcomes.length ∧ s.active = []

section Adaptive

variable {outcomes : List (Except E R)} {onProgress : ℕ → Option E} {limit : ℕ}
  {s t : AdaptivePool R E}

lemma TasksOk.launch (h : TasksOk outcomes s) (hnext : s.next < outcomes.length)
    (hroom : s.active.length < limit) : TasksOk outcomes (s.launch limit) where
  once := by
    rw [AdaptivePool.launch, map_append, h.once, range_succ]
    rfl
  withinLimit := by
    refine forall_mem_concat h.withinLimit ?_
    have hmap : s.mapping.length ≤ s.active.length := length_filter_le ..
    change s.mapping.length + 1 ≤ limit
    omega
  next_le := hnext
  nodup := by
    refine nodup_append.mpr ⟨h.nodup, nodup_singleton _, ?_⟩
    intro task hold other hnew
    rw [mem_singleton.mp hnew]
    exact (h.active_lt task hold).ne
  active_lt := forall_mem_concat (fun task htask => Nat.lt_succ_of_lt (h.active_lt task htask))
    (Nat.lt_succ_self _)
  results := h.results
  ended := by
    intro i hi
    rcases Nat.lt_succ_iff_lt_or_eq.mp hi with hold | rfl
    · exact (h.ended i hold).imp_left (mem_append_left _)
    · exact .inl (mem_concat_self)

lemma TasksOk.launchAll (h : TasksOk outcomes s) (limit fuel : ℕ) :
    TasksOk outcomes (s.launchAll limit outcomes.length fuel) := by
  induction fuel generalizing s with
  | zero => exact h
  | succ fuel ih =>
    rw [launchAll]
    split
    · next hguard => exact ih (h.launch hguard.1 hguard.2)
    · exact h

lemma launchAll_done (hlimit : 0 < limit) {itemCount fuel : ℕ} (hfuel : itemCount - s.next ≤ fuel)
    (hle : s.next ≤ itemCount) (hemp : (s.launchAll limit itemCount fuel).active = []) :
    (s.launchAll limit itemCount fuel).next = itemCount := by
  induction fuel generalizing s with
  | zero =>
    change s.next = itemCount
    omega
  | succ fuel ih =>
    rw [launchAll] at hemp ⊢
    split
    · next hguard =>
      rw [if_pos hguard] at hemp
      refine ih ?_ hguard.1 hemp
      change itemCount - (s.next + 1) ≤ fuel
      omega
    · next hguard =>
      rw [if_neg hguard] at hemp
      rw [hemp, length_nil] at hguard
      omega

lemma AdaptivePool.launchAll_loop (s : AdaptivePool R E) (limit itemCount fuel : ℕ) :
    (s.launchAll limit itemCount fuel).loop = s.loop := by
  induction fuel generalizing s with
  | zero => rfl
  | succ fuel ih =>
    rw [launchAll]
    split
    · exact ih _
    · rfl

lemma TasksOk.turn (h : TasksOk outcomes s) (hlimit : 0 < limit)
    (hfail : s.loop.hasFailed = false) :
    AdaptiveInvariant outcomes (s.turn limit outcomes.length) := by
  have hall := h.launchAll limit (outcomes.length - s.next)
  have hended : ∀ i < (s.launchAll limit outcomes.length (outcomes.length - s.next)).next,
      i ∈ (s.launchAll limit outcomes.length (outcomes.length - s.next)).active ∨
      ((s.launchAll limit outcomes.length (outcomes.length - s.next)).results i).isSome = true := by
    intro i hi
    refine (hall.ended i hi).imp_right fun hrest => hrest.resolve_right ?_
    rw [launchAll_loop, hfail]
    exact Bool.false_ne_true
  have htasks : ∀ loop, TasksOk outcomes
      { s.launchAll limit outcomes.length (outcomes.length - s.next) with loop := loop } :=
    fun loop => { hall with ended := fun i hi => (hended i hi).imp_right .inl }
  unfold AdaptivePool.turn AdaptivePool.race
  split
  · next hemp =>
    exact { htasks _ with
      racing := fun hloop => by cases hloop
      returned := fun _ => ⟨launchAll_done hlimit le_rfl h.next_le hemp, hemp⟩ }
  · next hsome =>
    exact { htasks _ with
      racing := fun _ => hsome
      returned := fun hloop => by cases hloop }

variable {task : ℕ}

lemma AdaptiveInvariant.settled (h : AdaptiveInvariant outcomes s) (hact : task ∈ s.active)
    {failure : Option E}
    (hseen : (s.results task).isSome = true ∨ (s.settled task failure).loop.hasFailed = true) :
    AdaptiveInvariant outcomes (s.settled task failure) where
  once := h.once
  withinLimit := h.withinLimit
  next_le := h.next_le
  nodup := h.nodup.erase task
  active_lt := fun other hoth => h.active_lt other (mem_of_mem_erase hoth)
  results := h.results
  ended := by
    intro i hi
    have hkept : s.loop.hasFailed = true → (s.settled task failure).loop.hasFailed = true := by
      intro hfail
      unfold AdaptivePool.settled
      split
      · next hloop => rw [hloop] at hfail; cases hfail
      · exact hfail
    by_cases heq : i = task
    · exact .inr (heq ▸ hseen)
    · rcases h.ended i hi with hold | hset | hfail
      · exact .inl ((mem_erase_of_ne heq).mpr hold)
      · exact .inr (.inl hset)
      · exact .inr (.inr (hkept hfail))
  racing := by
    intro hloop
    unfold AdaptivePool.settled at hloop
    split at hloop
    · cases hloop
    · next hno => exact absurd hloop hno
  returned := by
    intro hloop
    have hretur : s.loop = .returned := by
      unfold AdaptivePool.settled at hloop
      split at hloop
      · cases hloop
      · exact hloop
    rw [(h.returned hretur).2] at hact
    cases hact

lemma mem_mapping :
    task ∈ s.mapping ↔ task ∈ s.active ∧ (s.results task).isNone = true := mem_filter

variable (outcomes) in
/-- The mapper of an item rejects. -/
def isRejected (task : ℕ) : Bool :=
  match outcomes[task]? with
  | some (.error _) => true
  | _ => false

variable (outcomes) in
/-- No mapper rejects while the loop is about to take its turn after a task that did not fail. -/
def SeesFailure (s : AdaptivePool R E) : PoolAction → Prop
  | .settle task => isRejected outcomes task = true → s.loop ≠ .racing (some none)
  | _ => True

lemma adaptiveStep_cases {action : PoolAction}
    (h : adaptiveStep outcomes onProgress limit s action = some t) :
    (∃ task value, action = .settle task ∧ task ∈ s.mapping ∧ outcomes[task]? = some (.ok value) ∧
      t = { s with results := setResult s.results task value }) ∨
    (∃ task error, action = .settle task ∧ task ∈ s.mapping ∧
      outcomes[task]? = some (.error error) ∧ t = s.settled task (some error)) ∨
    (∃ task, action = .finish task ∧ task ∈ s.active ∧ task ∉ s.mapping ∧
      t = s.settled task (onProgress task)) ∨
    (∃ sample, action = .wake sample ∧ s.loop = .racing (some none) ∧
      t = s.turn (currentLimit limit outcomes.length sample) outcomes.length) ∨
    (∃ sample error, action = .wake sample ∧ s.loop = .racing (some (some error)) ∧
      t = { s with loop := .draining error }) ∨
    (∃ error, action = .drain ∧ s.loop = .draining error ∧ s.active = [] ∧
      t = { s with loop := .threw error }) := by
  revert h
  fun_cases adaptiveStep outcomes onProgress limit s action
  all_goals
    intro h
    try cases h
  next task hmap =>
    obtain ⟨outcome, houtc, ht⟩ := Option.map_eq_some_iff.mp h
    cases outcome with
    | ok value => exact .inl ⟨task, value, rfl, hmap, houtc, ht.symm⟩
    | error error => exact .inr (.inl ⟨task, error, rfl, hmap, houtc, ht.symm⟩)
  next task hguard => exact .inr (.inr (.inl ⟨task, rfl, hguard.1, hguard.2, rfl⟩))
  next sample hloop => exact .inr (.inr (.inr (.inl ⟨sample, rfl, hloop, rfl⟩)))
  next sample error hloop =>
    exact .inr (.inr (.inr (.inr (.inl ⟨sample, error, rfl, hloop, rfl⟩))))
  next error hloop hemp =>
    exact .inr (.inr (.inr (.inr (.inr ⟨error, rfl, hloop, hemp, rfl⟩))))

lemma AdaptiveInvariant.set (h : AdaptiveInvariant outcomes s) {value : R}
    (hval : outcomes[task]? = some (.ok value)) :
    AdaptiveInvariant outcomes { s with results := setResult s.results task value } :=
  { h with
    results := h.results.set hval
    ended := fun i hi => (h.ended i hi).imp_right (.imp_left (isSome_setResult value)) }

lemma AdaptiveInvariant.fail (h : AdaptiveInvariant outcomes s) {loop : PoolLoop E}
    (hloop : loop.hasFailed = true) : AdaptiveInvariant outcomes { s with loop := loop } :=
  { h with
    ended := fun i hi => (h.ended i hi).imp_right (.imp_right fun _ => hloop)
    racing := by rintro (rfl : loop = _); cases hloop
    returned := by rintro (rfl : loop = _); cases hloop }

/-- A failure of an active task is seen, unless the race is already won by a task that did not
fail. -/
lemma settled_hasFailed (h : AdaptiveInvariant outcomes s) (hact : task ∈ s.active) (error : E)
    (hloop : s.loop ≠ .racing (some none)) :
    (s.settled task (some error)).loop.hasFailed = true := by
  unfold settled
  cases hcase : s.loop with
  | racing winner =>
    cases winner with
    | none => rfl
    | some failure =>
      cases failure with
      | none => exact absurd hcase hloop
      | some error => rfl
  | draining error => rfl
  | returned =>
    rw [(h.returned hcase).2] at hact
    cases hact
  | threw error => rfl

lemma adaptiveStep_invariant (s : AdaptivePool R E) (action : PoolAction) (t : AdaptivePool R E)
    (h : AdaptiveInvariant outcomes s) (hsees : SeesFailure outcomes s action)
    (hstep : adaptiveStep outcomes onProgress limit s action = some t) :
    AdaptiveInvariant outcomes t := by
  rcases adaptiveStep_cases hstep with ⟨task, value, -, -, hval, rfl⟩ |
    ⟨task, error, rfl, hmap, herror, rfl⟩ | ⟨task, -, hact, hsettl, rfl⟩ |
    ⟨sample, -, hloop, rfl⟩ | ⟨sample, error, -, -, rfl⟩ | ⟨error, -, -, -, rfl⟩
  · exact h.set hval
  · have hact := (mem_mapping.mp hmap).1
    have hrejec : isRejected outcomes task = true := by
      unfold isRejected
      rw [herror]
    exact h.settled hact (.inr (settled_hasFailed h hact error (hsees hrejec)))
  · refine h.settled hact (.inl ?_)
    rw [mem_mapping, not_and, Bool.not_eq_true, Option.isNone_eq_false_iff] at hsettl
    exact hsettl hact
  · refine h.toTasksOk.turn (currentLimit_pos ..) ?_
    rw [hloop]
    rfl
  · exact h.fail rfl
  · exact h.fail rfl

lemma AdaptiveInvariant.start (outcomes : List (Except E R)) (limit : ℕ) (sample : Option Double) :
    AdaptiveInvariant outcomes (start outcomes.length limit sample) := by
  refine TasksOk.turn ?_ (currentLimit_pos ..) rfl
  exact {
    once := rfl
    withinLimit := fun _ h => by cases h
    next_le := Nat.zero_le _
    nodup := nodup_nil
    active_lt := fun _ h => by cases h
    results := fun _ _ h => by cases h
    ended := fun _ h => by cases h }

variable (onProgress limit) in
lemma AdaptiveInvariant.exists_step (h : AdaptiveInvariant outcomes s)
    (hpend : s.status = .pending) :
    ∃ action t, adaptiveStep outcomes onProgress limit s action = some t := by
  have hsett : s.active ≠ [] →
      ∃ action t, adaptiveStep outcomes onProgress limit s action = some t := by
    intro hact
    obtain ⟨task, htask⟩ := exists_mem_of_ne_nil _ hact
    by_cases hmap : task ∈ s.mapping
    · have hlt : task < outcomes.length := (h.active_lt task htask).trans_le h.next_le
      have houtc : outcomes[task]? = some outcomes[task] := getElem?_eq_getElem hlt
      cases hcase : outcomes[task] with
      | ok value =>
        exact ⟨.settle task, { s with results := setResult s.results task value }, by
          rw [adaptiveStep, if_pos hmap, houtc, hcase]; rfl⟩
      | error error =>
        exact ⟨.settle task, s.settled task (some error), by
          rw [adaptiveStep, if_pos hmap, houtc, hcase]; rfl⟩
    · exact ⟨.finish task, _, if_pos ⟨htask, hmap⟩⟩
  unfold status at hpend
  cases hloop : s.loop with
  | racing winner =>
    cases winner with
    | none => exact hsett (h.racing hloop)
    | some failure =>
      cases failure with
      | none => exact ⟨.wake none, _, by rw [adaptiveStep, hloop]⟩
      | some error => exact ⟨.wake none, _, by rw [adaptiveStep, hloop]⟩
  | draining error =>
    by_cases hemp : s.active = []
    · exact ⟨.drain, { s with loop := .threw error }, by
        simp only [adaptiveStep, hloop, if_pos hemp]⟩
    · exact hsett hemp
  | returned => rw [hloop] at hpend; cases hpend
  | threw error => rw [hloop] at hpend; cases hpend

lemma AdaptiveInvariant.law (h : AdaptiveInvariant outcomes s) (onProgress : ℕ → Option E)
    (limit : ℕ) :
    PoolLaw outcomes s.status s.results s.starts
      (∀ action, adaptiveStep outcomes onProgress limit s action = none) := by
  have hlen : s.starts.length = s.next := by
    simpa using congrArg List.length h.once
  apply PoolLaw.of_settles h.withinLimit
  · rw [hlen]
    exact h.once
  · intro hresol
    have hloop : s.loop = .returned := by
      unfold status at hresol
      split at hresol
      · assumption
      · cases hresol
      · cases hresol
    obtain ⟨hnext, hemp⟩ := h.returned hloop
    refine ⟨hlen.trans hnext, exists_values fun i hi => ?_⟩
    have hended := h.ended i (hnext ▸ hi)
    rw [hemp, hloop] at hended
    have hset : (s.results i).isSome = true := by
      rcases hended with hact | hset | hfail
      · cases hact
      · exact hset
      · cases hfail
    obtain ⟨value, hval⟩ := Option.isSome_iff_exists.mp hset
    exact ⟨value, hval, h.results i value hval⟩
  · intro hstuck hpend
    obtain ⟨action, t, hstep⟩ := h.exists_step onProgress limit hpend
    rw [hstuck action] at hstep
    cases hstep

/-! ### The end of a run -/

/-- What the loop has still to do. -/
def PoolLoop.remaining : PoolLoop E → ℕ
  | .racing none => 0
  | .racing (some _) => 2
  | .draining _ => 1
  | .returned => 0
  | .threw _ => 0

/-- What is left of a run: the items that wait, the tasks that are active, the mappers among them,
and the rest of the loop. -/
def AdaptivePool.remaining (itemCount : ℕ) (s : AdaptivePool R E) : ℕ :=
  5 * (itemCount - s.next) + 3 * s.active.length + s.mapping.length + s.loop.remaining

lemma AdaptivePool.remaining_launchAll (s : AdaptivePool R E) (limit itemCount fuel : ℕ) :
    (s.launchAll limit itemCount fuel).remaining itemCount ≤ s.remaining itemCount := by
  induction fuel generalizing s with
  | zero => exact le_rfl
  | succ fuel ih =>
    rw [launchAll]
    split
    · next hguard =>
      refine (ih _).trans ?_
      have hact : (s.launch limit).active.length = s.active.length + 1 := by
        simp [launch]
      have hmap : (s.launch limit).mapping.length ≤ s.mapping.length + 1 := by
        rw [mapping, launch, filter_append, length_append]
        exact Nat.add_le_add_left (length_filter_le _ [s.next]) _
      have hnext : (s.launch limit).next = s.next + 1 := rfl
      have hloop : (s.launch limit).loop = s.loop := rfl
      unfold remaining
      rw [hact, hnext, hloop]
      omega
    · exact le_rfl

lemma AdaptivePool.remaining_turn (s : AdaptivePool R E) (limit itemCount : ℕ) :
    (s.turn limit itemCount).remaining itemCount + s.loop.remaining ≤ s.remaining itemCount := by
  have hall := s.remaining_launchAll limit itemCount (itemCount - s.next)
  have hloop := s.launchAll_loop limit itemCount (itemCount - s.next)
  have hrace : ∀ r : AdaptivePool R E, r.race.remaining itemCount + r.loop.remaining
      = r.remaining itemCount := by
    intro r
    unfold race
    split <;> rfl
  rw [← hloop]
  exact (hrace _).trans_le hall

lemma remaining_settled (hact : task ∈ s.active) (failure : Option E) (itemCount : ℕ) :
    (s.settled task failure).remaining itemCount < s.remaining itemCount := by
  have hlen : (s.settled task failure).active.length + 1 = s.active.length := by
    have hpos := length_pos_of_mem hact
    change (s.active.erase task).length + 1 = _
    rw [length_erase_of_mem hact]
    omega
  have hmap : (s.settled task failure).mapping.length ≤ s.mapping.length :=
    ((erase_sublist ..).filter _).length_le
  have hloop : (s.settled task failure).loop.remaining ≤ s.loop.remaining + 2 := by
    unfold settled
    split
    · next h => rw [h]; exact le_rfl
    · exact Nat.le_add_right ..
  have hnext : (s.settled task failure).next = s.next := rfl
  unfold remaining
  rw [hnext]
  omega

lemma remaining_set (hmap : task ∈ s.mapping) (value : R) (itemCount : ℕ) :
    ({ s with results := setResult s.results task value } : AdaptivePool R E).remaining itemCount
      < s.remaining itemCount := by
  have hsub : ({ s with results := setResult s.results task value } : AdaptivePool R E).mapping
      = s.mapping.filter (· ≠ task) := by
    unfold mapping
    rw [filter_filter]
    apply filter_congr
    intro other _
    unfold setResult
    by_cases heq : other = task <;> simp [heq]
  have hless : (s.mapping.filter (· ≠ task)).length < s.mapping.length :=
    length_filter_lt_length_iff_exists.mpr ⟨task, hmap, by simp⟩
  unfold remaining
  rw [hsub]
  exact Nat.add_lt_add_right (Nat.add_lt_add_left hless _) _

lemma remaining_adaptiveStep (s : AdaptivePool R E) (action : PoolAction) (t : AdaptivePool R E)
    (hstep : adaptiveStep outcomes onProgress limit s action = some t) :
    t.remaining outcomes.length < s.remaining outcomes.length := by
  rcases adaptiveStep_cases hstep with ⟨task, value, -, hmap, -, rfl⟩ |
    ⟨task, error, -, hmap, -, rfl⟩ | ⟨task, -, hact, -, rfl⟩ |
    ⟨sample, -, hloop, rfl⟩ | ⟨sample, error, -, hloop, rfl⟩ | ⟨error, -, hloop, -, rfl⟩
  · exact remaining_set hmap value _
  · exact remaining_settled (mem_mapping.mp hmap).1 _ _
  · exact remaining_settled hact _ _
  · have hturn := s.remaining_turn (currentLimit limit outcomes.length sample) outcomes.length
    have hwon : s.loop.remaining = 2 := by rw [hloop]; rfl
    omega
  · refine Nat.add_lt_add_left ?_ _
    rw [hloop]
    exact Nat.lt_succ_self 1
  · refine Nat.add_lt_add_left ?_ _
    rw [hloop]
    exact Nat.zero_lt_one

lemma remaining_start (itemCount limit : ℕ) (sample : Option Double) :
    (start itemCount limit sample : AdaptivePool R E).remaining itemCount
      ≤ 5 * itemCount :=
  (Nat.le_add_right ..).trans (remaining_turn ..)

/-- **Runs.** A run that sees every failure keeps the contract, and every run ends. -/
lemma adaptive_run {sample : Option Double} {actions : List PoolAction}
    (hsees : Meets (adaptiveStep outcomes onProgress limit) (SeesFailure outcomes)
      (start outcomes.length limit sample) actions)
    (hrun : run (adaptiveStep outcomes onProgress limit)
      (start outcomes.length limit sample) actions = some t) :
    actions.length ≤ 5 * outcomes.length ∧ AdaptiveInvariant outcomes t :=
  ⟨(length_le_of_decreasing remaining_adaptiveStep hrun).trans (remaining_start ..),
    invariant_of_meets adaptiveStep_invariant (AdaptiveInvariant.start ..) hsees hrun⟩

end Adaptive

end CtsEngine
