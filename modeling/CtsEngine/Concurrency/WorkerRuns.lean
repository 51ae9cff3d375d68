import CtsEngine.Concurrency.PoolRuns
import Mathlib.Data.List.Count

/-!
# Every failure of a bounded mapping is seen

The workers of the pool without a sampler are waited for together, so its call rejects with the
first failure.  Both pools give `mapWithConcurrency` its contract: the workers in every run, the
loop with a sampler in the runs where no mapper rejects while the loop is about to take its turn.
-/

namespace CtsEngine

open Option List Transition FixedPool

variable {R E : Type*}

/-! ## The pool of workers -/

/-- The invariant of the pool of workers.  A started item is mapped by some worker, or its result
is set, or a failure was seen. -/
structure FixedInvariant (outcomes : List (Except E R)) (limit : ℕ) (s : FixedPool R E) :
    Prop where
  once : s.starts.map (·.index) = List.range s.next
  withinLimit : ∀ start ∈ s.starts, start.active ≤ start.limit
  next_le : s.next ≤ outcomes.length
  workers_le : s.workers.length ≤ limit
  results : ResultsOk outcomes s.results
  mapping_lt : ∀ i, .mapping i ∈ s.workers → i < s.next
  ended : ∀ i < s.next,
    .mapping i ∈ s.workers ∨ (s.results i).isSome = true ∨ s.failure.isSome = true
  returned : .returned ∈ s.workers → s.next = outcomes.length
  failed : ∀ error, .failed error ∈ s.workers → s.failure.isSome = true

section Fixed

variable {outcomes : List (Except E R)} {onProgress : ℕ → Option E} {limit worker : ℕ}
  {s t : FixedPool R E} {phase next : WorkerPhase E}

variable (itemCount : ℕ)

/-- The phases that a worker may change to without taking an item. -/
def FixedPool.Admits (s : FixedPool R E) : WorkerPhase E → Prop
  | .mapping _ => False
  | .resting _ => True
  | .returned => s.next = itemCount
  | .failed _ => s.failure.isSome = true

lemma FixedInvariant.change (h : FixedInvariant outcomes limit s) (hnext : t.next = s.next)
    (hst : t.starts = s.starts) (hle : t.workers.length ≤ limit)
    (hress : ResultsOk outcomes t.results)
    (hmem : ∀ phase ∈ t.workers, phase ∈ s.workers ∨ t.Admits outcomes.length phase)
    (hended : ∀ i < s.next,
      .mapping i ∈ t.workers ∨ (t.results i).isSome = true ∨ t.failure.isSome = true)
    (hfail : s.failure.isSome = true → t.failure.isSome = true) :
    FixedInvariant outcomes limit t where
  once := by rw [hst, hnext, h.once]
  withinLimit := hst ▸ h.withinLimit
  next_le := hnext ▸ h.next_le
  workers_le := hle
  results := hress
  mapping_lt := by
    intro i hi
    rcases hmem _ hi with hold | hnew
    · exact hnext ▸ h.mapping_lt i hold
    · exact hnew.elim
  ended := hnext ▸ hended
  returned := by
    intro hi
    rcases hmem _ hi with hold | hnew
    · exact hnext ▸ h.returned hold
    · exact hnew
  failed := by
    intro error hi
    rcases hmem _ hi with hold | hnew
    · exact hfail (h.failed error hold)
    · exact hnew

variable {workers : List (WorkerPhase E)}

lemma FixedInvariant.take (h : FixedInvariant outcomes limit s) (hnext : s.next < outcomes.length)
    (hle : workers.length ≤ limit) (hroom : s.mapping < limit)
    (hmem : ∀ phase ∈ workers, phase ∈ s.workers ∨ phase = .mapping s.next)
    (hnew : .mapping s.next ∈ workers)
    (hkept : ∀ i, .mapping i ∈ s.workers → .mapping i ∈ workers) :
    FixedInvariant outcomes limit { s with
      next := s.next + 1
      workers := workers
      starts := s.starts ++ [⟨s.next, s.mapping + 1, limit⟩] } where
  once := by
    rw [map_append, h.once, range_succ]
    rfl
  withinLimit := by
    intro start hst
    rcases mem_append.mp hst with hold | hlast
    · exact h.withinLimit start hold
    · obtain rfl := mem_singleton.mp hlast
      exact hroom
  next_le := hnext
  workers_le := hle
  results := h.results
  mapping_lt := by
    intro i hi
    rcases hmem _ hi with hold | hlast
    · exact Nat.lt_succ_of_lt (h.mapping_lt i hold)
    · obtain rfl : i = s.next := by simpa using hlast
      exact Nat.lt_succ_self _
  ended := by
    intro i hi
    rcases Nat.lt_succ_iff_lt_or_eq.mp hi with hold | rfl
    · exact (h.ended i hold).imp_left (hkept i)
    · exact .inl hnew
  returned := by
    intro hi
    rcases hmem _ hi with hold | hlast
    · exact absurd (h.returned hold) hnext.ne
    · cases hlast
  failed := by
    intro error hi
    rcases hmem _ hi with hold | hlast
    · exact h.failed error hold
    · cases hlast

lemma FixedInvariant.spawn (h : FixedInvariant outcomes limit s)
    (hroom : s.workers.length < limit) :
    FixedInvariant outcomes limit (s.spawn outcomes.length limit) := by
  have hle : ∀ phase : WorkerPhase E, (s.workers ++ [phase]).length ≤ limit := by
    intro phase
    rwa [length_append]
  unfold FixedPool.spawn
  split
  · next hnext =>
    refine h.take hnext (hle _) (countP_le_length.trans_lt hroom) ?_ ?_ ?_
    · intro phase hph
      simpa using hph
    · exact mem_concat_self
    · exact fun i hi => mem_append_left _ hi
  · next hnext =>
    have hdone : s.next = outcomes.length := h.next_le.antisymm (Nat.not_lt.mp hnext)
    refine h.change rfl rfl (hle _) h.results ?_ ?_ id
    · intro phase hph
      rcases mem_append.mp hph with hold | hlast
      · exact .inl hold
      · obtain rfl := mem_singleton.mp hlast
        exact .inr hdone
    · exact fun i hi => (h.ended i hi).imp_left (mem_append_left _)

lemma workers_spawn (limit : ℕ) :
    (s.spawn itemCount limit).workers.length = s.workers.length + 1 := by
  unfold spawn
  split <;> exact length_append

lemma FixedInvariant.start (outcomes : List (Except E R)) (limit : ℕ) :
    FixedInvariant outcomes limit (start outcomes.length limit) ∧
    (start outcomes.length limit : FixedPool R E).workers.length = limit := by
  have hspawn : ∀ count ≤ limit, ∃ s : FixedPool R E,
      (List.range count).foldl (fun s _ => s.spawn outcomes.length limit)
        ⟨0, [], fun _ => none, none, []⟩ = s ∧
      FixedInvariant outcomes limit s ∧ s.workers.length = count := by
    intro count
    induction count with
    | zero =>
      rintro -
      exact ⟨_, rfl, {
        once := rfl
        withinLimit := fun _ h => by cases h
        next_le := Nat.zero_le _
        workers_le := Nat.zero_le _
        results := fun _ _ h => by cases h
        mapping_lt := fun _ h => by cases h
        ended := fun _ h => by cases h
        returned := fun h => by cases h
        failed := fun _ h => by cases h }, rfl⟩
    | succ count ih =>
      intro hcnt
      obtain ⟨s, hfold, hold, hlen⟩ := ih (Nat.le_of_succ_le hcnt)
      refine ⟨s.spawn outcomes.length limit, ?_, hold.spawn (hlen.trans_lt hcnt), ?_⟩
      · rw [range_succ, foldl_append, hfold]
        rfl
      · rw [workers_spawn, hlen]
  obtain ⟨s, hfold, hinvar, hlen⟩ := hspawn limit le_rfl
  rw [FixedPool.start, hfold]
  exact ⟨hinvar, hlen⟩

lemma mapping_lt_length (hat : s.workers[worker]? = some phase)
    (hph : ∀ i, phase ≠ .mapping i) : s.mapping < s.workers.length := by
  refine countP_lt_length_iff.mpr ⟨phase, mem_of_getElem? hat, ?_⟩
  cases phase with
  | mapping i => exact absurd rfl (hph i)
  | resting i => rfl
  | returned => rfl
  | failed error => rfl

lemma FixedInvariant.takeItem (h : FixedInvariant outcomes limit s) {index : ℕ}
    (hat : s.workers[worker]? = some (.resting index)) :
    FixedInvariant outcomes limit (s.takeItem outcomes.length limit worker) := by
  have hle : ∀ phase : WorkerPhase E, (s.workers.set worker phase).length ≤ limit := by
    intro phase
    rw [length_set]
    exact h.workers_le
  have hkept : ∀ (phase : WorkerPhase E) (i : ℕ), .mapping i ∈ s.workers →
      .mapping i ∈ s.workers.set worker phase :=
    fun phase i hi => mem_set_of_ne hat hi (by simp)
  have hwork : worker < s.workers.length := (List.getElem?_eq_some_iff.mp hat).1
  unfold FixedPool.takeItem
  split
  · next hnext =>
    refine h.take hnext (hle _) ?_ ?_ (mem_set hwork _) (hkept _)
    · exact (mapping_lt_length hat (by simp)).trans_le h.workers_le
    · exact fun phase hph => mem_or_eq_of_mem_set hph
  · next hnext =>
    have hdone : s.next = outcomes.length := h.next_le.antisymm (Nat.not_lt.mp hnext)
    refine h.change rfl rfl (hle _) h.results ?_ ?_ id
    · intro phase hph
      rcases mem_or_eq_of_mem_set hph with hold | rfl
      · exact .inl hold
      · exact .inr hdone
    · exact fun i hi => (h.ended i hi).imp_left (hkept _ i)

lemma FixedInvariant.fail (h : FixedInvariant outcomes limit s) (worker : ℕ) (error : E) :
    FixedInvariant outcomes limit (s.fail worker error) := by
  have hfail : (s.fail worker error).failure.isSome = true := by simp [FixedPool.fail]
  refine h.change rfl rfl ?_ h.results ?_ ?_ fun _ => hfail
  · change (s.workers.set worker _).length ≤ limit
    rw [length_set]
    exact h.workers_le
  · intro phase hph
    rcases mem_or_eq_of_mem_set hph with hold | rfl
    · exact .inl hold
    · exact .inr hfail
  · exact fun i _ => .inr (.inr hfail)

lemma fixedStep_cases {action : PoolAction}
    (h : fixedStep outcomes onProgress limit s action = some t) :
    (∃ worker index value, action = .settle worker ∧
      s.workers[worker]? = some (.mapping index) ∧ outcomes[index]? = some (.ok value) ∧
      t = { s with
        workers := s.workers.set worker (.resting index)
        results := setResult s.results index value }) ∨
    (∃ worker index error, action = .settle worker ∧
      s.workers[worker]? = some (.mapping index) ∧ outcomes[index]? = some (.error error) ∧
      t = s.fail worker error) ∨
    (∃ worker index error, action = .finish worker ∧
      s.workers[worker]? = some (.resting index) ∧ onProgress index = some error ∧
      t = s.fail worker error) ∨
    (∃ worker index, action = .finish worker ∧ s.workers[worker]? = some (.resting index) ∧
      onProgress index = none ∧ t = s.takeItem outcomes.length limit worker) := by
  cases action with
  | settle worker =>
    rw [fixedStep] at h
    split at h
    · next index hat =>
      obtain ⟨outcome, houtc, ht⟩ := map_eq_some_iff.mp h
      cases outcome with
      | ok value => exact .inl ⟨worker, index, value, rfl, hat, houtc, ht.symm⟩
      | error error => exact .inr (.inl ⟨worker, index, error, rfl, hat, houtc, ht.symm⟩)
    · cases h
  | finish worker =>
    rw [fixedStep] at h
    split at h
    · next index hat =>
      have ht := (some.inj h).symm
      cases hprog : onProgress index with
      | some error =>
        rw [hprog] at ht
        exact .inr (.inr (.inl ⟨worker, index, error, rfl, hat, hprog, ht⟩))
      | none =>
        rw [hprog] at ht
        exact .inr (.inr (.inr ⟨worker, index, rfl, hat, hprog, ht⟩))
    · cases h
  | wake sample => cases h
  | drain => cases h

lemma fixedStep_invariant (s : FixedPool R E) (action : PoolAction) (t : FixedPool R E)
    (h : FixedInvariant outcomes limit s)
    (hstep : fixedStep outcomes onProgress limit s action = some t) :
    FixedInvariant outcomes limit t := by
  rcases fixedStep_cases hstep with ⟨worker, index, value, -, hat, hval, rfl⟩ |
    ⟨worker, index, error, -, -, -, rfl⟩ | ⟨worker, index, error, -, -, -, rfl⟩ |
    ⟨worker, index, -, hat, -, rfl⟩
  · refine h.change rfl rfl ?_ (h.results.set hval) ?_ ?_ id
    · rw [length_set]
      exact h.workers_le
    · intro phase hph
      rcases mem_or_eq_of_mem_set hph with hold | rfl
      · exact .inl hold
      · exact .inr trivial
    · intro i hi
      by_cases heq : i = index
      · simp [setResult, heq]
      · rcases h.ended i hi with hmap | hset | hfail
        · exact .inl (mem_set_of_ne hat hmap (by simpa using heq))
        · exact .inr (.inl (isSome_setResult value hset))
        · exact .inr (.inr hfail)
  · exact h.fail worker error
  · exact h.fail worker error
  · exact h.takeItem hat

lemma FixedInvariant.exists_step (h : FixedInvariant outcomes limit s) (onProgress : ℕ → Option E)
    (hpend : s.status = .pending) :
    ∃ action t, fixedStep outcomes onProgress limit s action = some t := by
  unfold status at hpend
  split at hpend
  · cases hpend
  · next hfail =>
    split at hpend
    · cases hpend
    · next hall =>
      obtain ⟨phase, hph, hmoves⟩ : ∃ phase ∈ s.workers, phase ≠ .returned := by
        by_contra hnone
        refine hall (all_eq_true.mpr fun phase hph => ?_)
        obtain rfl : phase = .returned := by
          by_contra hne
          exact hnone ⟨phase, hph, hne⟩
        rfl
      obtain ⟨worker, hat⟩ := mem_iff_getElem?.mp hph
      cases phase with
      | mapping index =>
        have hlt : index < outcomes.length := (h.mapping_lt index hph).trans_le h.next_le
        refine ⟨.settle worker, ?_⟩
        rw [fixedStep, hat]
        dsimp only
        rw [getElem?_eq_getElem hlt]
        exact ⟨_, rfl⟩
      | resting index =>
        refine ⟨.finish worker, ?_⟩
        rw [fixedStep, hat]
        exact ⟨_, rfl⟩
      | returned => exact absurd rfl hmoves
      | failed error =>
        have hseen := h.failed error hph
        rw [hfail] at hseen
        cases hseen

lemma FixedInvariant.law (h : FixedInvariant outcomes limit s) (hwork : s.workers ≠ [])
    (onProgress : ℕ → Option E) :
    PoolLaw outcomes s.status s.results s.starts
      (∀ action, fixedStep outcomes onProgress limit s action = none) := by
  have hlen : s.starts.length = s.next := by
    simpa using congrArg List.length h.once
  apply PoolLaw.of_settles h.withinLimit
  · rw [hlen]
    exact h.once
  · intro hresol
    obtain ⟨hfail, hall⟩ : s.failure = none ∧ ∀ phase ∈ s.workers, phase = .returned := by
      unfold status at hresol
      split at hresol
      · cases hresol
      · next hfail =>
        split at hresol
        · next hall =>
          refine ⟨hfail, fun phase hph => ?_⟩
          have hdone := all_eq_true.mp hall phase hph
          cases phase with
          | returned => rfl
          | mapping index => cases hdone
          | resting index => cases hdone
          | failed error => cases hdone
        · cases hresol
    obtain ⟨phase, hph⟩ := exists_mem_of_ne_nil _ hwork
    have hnext := h.returned (hall phase hph ▸ hph)
    refine ⟨hlen.trans hnext, exists_values fun i hi => ?_⟩
    have hset : (s.results i).isSome = true := by
      rcases h.ended i (hnext ▸ hi) with hmap | hset | hfaile
      · cases hall _ hmap
      · exact hset
      · rw [hfail] at hfaile
        cases hfaile
    obtain ⟨value, hval⟩ := isSome_iff_exists.mp hset
    exact ⟨value, hval, h.results i value hval⟩
  · intro hstuck hpend
    obtain ⟨action, t, hstep⟩ := h.exists_step onProgress hpend
    rw [hstuck action] at hstep
    cases hstep

/-! ### The end of a run -/

/-- What a worker has still to do with its item. -/
def WorkerPhase.remaining : WorkerPhase E → ℕ
  | .mapping _ => 2
  | .resting _ => 1
  | _ => 0

/-- What is left of a run: the items that wait, and what the workers do. -/
def FixedPool.remaining (s : FixedPool R E) : ℕ :=
  3 * (itemCount - s.next) + (s.workers.map WorkerPhase.remaining).sum

lemma remaining_spawn (limit : ℕ) :
    (s.spawn itemCount limit).remaining itemCount ≤ s.remaining itemCount := by
  unfold spawn remaining
  split
  · next hnext =>
    have hmap : (WorkerPhase.mapping s.next : WorkerPhase E).remaining = 2 := rfl
    rw [map_append, sum_append, map_singleton, sum_singleton]
    change 3 * (itemCount - (s.next + 1)) + _ ≤ _
    omega
  · rw [map_append, sum_append]
    exact le_rfl

lemma sum_remaining_set (hat : workers[worker]? = some phase) (next : WorkerPhase E) :
    ((workers.set worker next).map WorkerPhase.remaining).sum + phase.remaining
      = (workers.map WorkerPhase.remaining).sum + next.remaining := by
  induction workers generalizing worker with
  | nil => cases hat
  | cons head rest ih =>
    cases worker with
    | zero =>
      obtain rfl : head = phase := some.inj hat
      simp only [set_cons_zero, map_cons, sum_cons]
      omega
    | succ worker =>
      have hrest := ih hat
      simp only [set_cons_succ, map_cons, sum_cons]
      omega

lemma remaining_fixedStep (s : FixedPool R E) (action : PoolAction) (t : FixedPool R E)
    (hstep : fixedStep outcomes onProgress limit s action = some t) :
    t.remaining outcomes.length < s.remaining outcomes.length := by
  have hchg : ∀ {worker : ℕ} {phase next : WorkerPhase E}, s.workers[worker]? = some phase →
      next.remaining < phase.remaining →
      ((s.workers.set worker next).map WorkerPhase.remaining).sum
        < (s.workers.map WorkerPhase.remaining).sum := by
    intro worker phase next hat hless
    have hsum := sum_remaining_set hat next
    omega
  rcases fixedStep_cases hstep with ⟨worker, index, value, -, hat, -, rfl⟩ |
    ⟨worker, index, error, -, hat, -, rfl⟩ | ⟨worker, index, error, -, hat, -, rfl⟩ |
    ⟨worker, index, -, hat, -, rfl⟩
  · refine Nat.add_lt_add_left (hchg hat ?_) _
    exact Nat.lt_succ_self 1
  · refine Nat.add_lt_add_left (hchg hat ?_) _
    exact Nat.zero_lt_two
  · refine Nat.add_lt_add_left (hchg hat ?_) _
    exact Nat.zero_lt_one
  · unfold takeItem
    split
    · next hnext =>
      have hsum := sum_remaining_set hat (.mapping s.next)
      have hmap : (WorkerPhase.mapping s.next : WorkerPhase E).remaining = 2 := rfl
      unfold remaining
      dsimp only
      omega
    · refine Nat.add_lt_add_left (hchg hat ?_) _
      exact Nat.zero_lt_one

lemma remaining_fixedStart (limit : ℕ) :
    (start itemCount limit : FixedPool R E).remaining itemCount ≤ 3 * itemCount := by
  have hspawn : ∀ (count : List ℕ) (s : FixedPool R E),
      (count.foldl (fun s _ => s.spawn itemCount limit) s).remaining itemCount
        ≤ s.remaining itemCount := by
    intro count
    induction count with
    | nil => exact fun s => le_rfl
    | cons _ count ih => exact fun s => (ih _).trans (remaining_spawn ..)
  exact hspawn _ _

lemma workers_ne_nil {action : PoolAction} (hwork : s.workers ≠ [])
    (hstep : fixedStep outcomes onProgress limit s action = some t) : t.workers ≠ [] := by
  have hset : ∀ (worker : ℕ) (phase : WorkerPhase E), s.workers.set worker phase ≠ [] := by
    intro worker phase
    simpa using hwork
  rcases fixedStep_cases hstep with ⟨worker, index, value, -, -, -, rfl⟩ |
    ⟨worker, index, error, -, -, -, rfl⟩ | ⟨worker, index, error, -, -, -, rfl⟩ |
    ⟨worker, index, -, -, -, rfl⟩
  · exact hset _ _
  · exact hset _ _
  · exact hset _ _
  · unfold takeItem
    split <;> exact hset _ _

end Fixed

/-- What the mappers of the items settle with. -/
def mapOutcomes {T : Type*} (items : List T) (mapper : T → ℕ → Except E R) : List (Except E R) :=
  items.mapIdx fun index item => mapper item index

instance (outcomes : List (Except E R)) [DecidableEq E] (s : AdaptivePool R E) :
    ∀ action, Decidable (SeesFailure outcomes s action)
  | .settle task => inferInstanceAs
      (Decidable (isRejected outcomes task = true → s.loop ≠ .racing (some none)))
  | .finish _ => isTrue trivial
  | .wake _ => isTrue trivial
  | .drain => isTrue trivial

/-- Three items of which the second one rejects, while others are under way. -/
def secondRejects : List (Except ℕ ℕ) :=
  mapOutcomes [7, 9, 5] fun item index => if index = 1 then .error item else .ok item

end CtsEngine
