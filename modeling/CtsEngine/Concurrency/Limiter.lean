import CtsEngine.Concurrency.Pools

/-!
# The adaptive concurrency limiter

`createAdaptiveConcurrencyLimiter` of `lib/bounded-concurrency.ts`: one budget of slots that several
branches share.  A call of `run` queues for a slot, and both its arrival and the end of a task drain
the queue up to the limit of the moment.  A task whose slot was granted begins some microtasks
later, in the order of the grants.
-/

namespace CtsEngine

open List Transition Nat

/-! ## The limiter -/

def hardLimit (concurrency : Double) : ℕ := clampConcurrency concurrency 1 1024 1024

/-- `desiredConcurrency`; the answer counts only if there is a sampler. -/
def desiredConcurrency (limit : ℕ) (sampled : Bool) (sample : Option Double) : ℕ :=
  if sampled then currentLimit limit limit sample else limit

/-- The state of a limiter; calls of `run` are numbered as they arrive.  A task that is granted has
its slot, and its body has not begun. -/
structure AdaptiveLimiter where
  activeCount : ℕ
  queue : List ℕ
  granted : List ℕ
  running : List ℕ
  /-- The number of calls so far. -/
  arrived : ℕ
  /-- The tasks that have begun, in the order in which they did. -/
  starts : List ℕ

namespace AdaptiveLimiter

def new : AdaptiveLimiter := ⟨0, [], [], [], 0, []⟩

/-- The loop of `drain`, for at most `fuel` waiting calls. -/
def drainLoop (desired : ℕ) : ℕ → AdaptiveLimiter → AdaptiveLimiter
  | 0, s => s
  | fuel + 1, s =>
    match s.queue with
    | [] => s
    | task :: rest =>
      if s.activeCount < desired then
        drainLoop desired fuel { s with
            activeCount := s.activeCount + 1
            queue := rest
            granted := s.granted ++ [task] }
      else s

def drain (desired : ℕ) (s : AdaptiveLimiter) : AdaptiveLimiter :=
  drainLoop desired s.queue.length s

/-- A call arrives: `queue.push(resolve)`. -/
def enqueue (s : AdaptiveLimiter) : AdaptiveLimiter :=
  { s with queue := s.queue ++ [s.arrived], arrived := s.arrived + 1 }

/-- The `finally` of a task gives its slot back. -/
def giveBack (s : AdaptiveLimiter) (task : ℕ) : AdaptiveLimiter :=
  { s with activeCount := s.activeCount - 1, running := s.running.erase task }

end AdaptiveLimiter

/-- What happens to a limiter; a drain asks the sampler once. -/
inductive LimiterAction
  | acquire (sample : Option Double)
  /-- The body of the first granted task begins. -/
  | begin
  | release (task : ℕ) (sample : Option Double)

def limiterStep (limit : ℕ) (sampled : Bool) (s : AdaptiveLimiter) :
    LimiterAction → Option AdaptiveLimiter
  | .acquire sample => some (s.enqueue.drain (desiredConcurrency limit sampled sample))
  | .begin =>
    match s.granted with
    | [] => none
    | task :: rest => some { s with
        granted := rest
        running := s.running ++ [task]
        starts := s.starts ++ [task] }
  | .release task sample =>
    if task ∈ s.running then
      some ((s.giveBack task).drain (desiredConcurrency limit sampled sample))
    else none

/-- What the limiter promises in every state. -/
structure AdaptiveLimiter.Law (limit : ℕ) (s : AdaptiveLimiter) : Prop where
  within : s.activeCount ≤ limit
  /-- The count is the number of tasks with a slot. -/
  counted : s.activeCount = s.granted.length + s.running.length
  in_order : s.starts = List.range s.starts.length
  /-- A call that waits has an active task before it, whose end drains the queue. -/
  no_stall : s.queue ≠ [] → 0 < s.activeCount

lemma hardLimit_pos (concurrency : Double) : 0 < hardLimit concurrency := clampConcurrency_pos ..

lemma clampConcurrency_le {maximum : ℕ} (hpos : 0 < maximum) (raw : Double)
    (fallback itemCount : ℕ) : clampConcurrency raw fallback maximum itemCount ≤ maximum := by
  unfold clampConcurrency
  have hmax : max 1 maximum = maximum := max_eq_right hpos
  rw [hmax]
  exact max_le hpos ((min_le_right _ _).trans (min_le_left _ _))

variable {limit : ℕ} {sampled : Bool} {s t : AdaptiveLimiter}

lemma desiredConcurrency_pos (hlimit : 0 < limit) (sample : Option Double) :
    0 < desiredConcurrency limit sampled sample := by
  unfold desiredConcurrency
  split
  · exact currentLimit_pos ..
  · exact hlimit

lemma desiredConcurrency_le (hlimit : 0 < limit) (sample : Option Double) :
    desiredConcurrency limit sampled sample ≤ limit := by
  unfold desiredConcurrency
  split
  · cases sample with
    | none => exact hlimit
    | some sample => exact clampConcurrency_le hlimit ..
  · exact le_rfl

/-! ## One step -/

/-- The invariant of every run: beside the law, every call is in one of three places, in the order
of arrival. -/
structure AdaptiveLimiter.Bookkept (limit : ℕ) (s : AdaptiveLimiter) : Prop where
  within : s.activeCount ≤ limit
  counted : s.activeCount = s.granted.length + s.running.length
  placed : s.starts ++ s.granted ++ s.queue = List.range s.arrived

lemma eq_range_of_append {xs ys : List ℕ} {n : ℕ} (h : xs ++ ys = List.range n) :
    xs = List.range xs.length := by
  have hlen : xs.length ≤ n := by
    have hsum := congrArg List.length h
    rw [length_append, length_range] at hsum
    omega
  have htake := congrArg (List.take xs.length) h
  rwa [take_left, take_range, min_eq_left hlen] at htake

namespace AdaptiveLimiter

lemma drainLoop_spec {desired : ℕ} (fuel : ℕ) (hfuel : s.queue.length ≤ fuel)
    (hs : s.Bookkept limit) (hdesir : desired ≤ limit) :
    (drainLoop desired fuel s).Bookkept limit ∧ ((drainLoop desired fuel s).queue ≠ [] →
        desired ≤ (drainLoop desired fuel s).activeCount) := by
  induction fuel generalizing s with
  | zero =>
    have hemp : s.queue = [] := length_eq_zero_iff.mp (le_zero.mp hfuel)
    exact ⟨hs, fun hne => absurd hemp hne⟩
  | succ fuel ih =>
    rw [drainLoop]
    cases hqueue : s.queue with
    | nil => exact ⟨hs, fun hne => absurd hqueue hne⟩
    | cons task rest =>
      dsimp only
      split
      case isTrue hlt =>
        have hplac := hs.placed
        have hcntd := hs.counted
        rw [hqueue] at hplac hfuel
        apply ih
        · exact le_of_succ_le_succ hfuel
        · refine ⟨hlt.trans_le hdesir, ?_, ?_⟩
          · change s.activeCount + 1 = (s.granted ++ [task]).length + s.running.length
            rw [length_append, length_singleton]
            omega
          · rw [← hplac]
            simp
      case isFalse hge => exact ⟨hs, fun _ => not_lt.mp hge⟩

lemma Bookkept.drain {desired : ℕ} (hs : s.Bookkept limit) (hdesir : desired ≤ limit)
    (hpos : 0 < desired) :
    (s.drain desired).Bookkept limit ∧
      ((s.drain desired).queue ≠ [] → 0 < (s.drain desired).activeCount) := by
  obtain ⟨hkept, hfull⟩ := drainLoop_spec s.queue.length le_rfl hs hdesir
  exact ⟨hkept, fun hne => hpos.trans_le (hfull hne)⟩

lemma Bookkept.enqueue (hs : s.Bookkept limit) : s.enqueue.Bookkept limit where
  within := hs.within
  counted := hs.counted
  placed := by
    change s.starts ++ s.granted ++ (s.queue ++ [s.arrived]) = List.range (s.arrived + 1)
    rw [← append_assoc, hs.placed, range_succ]

lemma Bookkept.giveBack (hs : s.Bookkept limit) {task : ℕ} (hrunn : task ∈ s.running) :
    (s.giveBack task).Bookkept limit where
  within := (sub_le _ _).trans hs.within
  counted := by
    change s.activeCount - 1 = s.granted.length + (s.running.erase task).length
    have hpos := length_pos_of_mem hrunn
    rw [hs.counted, length_erase_of_mem hrunn]
    omega
  placed := hs.placed

lemma Bookkept.law (hs : s.Bookkept limit) (hstall : s.queue ≠ [] → 0 < s.activeCount) :
    s.Law limit where
  within := hs.within
  counted := hs.counted
  in_order := by
    have hplac := hs.placed
    rw [append_assoc] at hplac
    exact eq_range_of_append hplac
  no_stall := hstall

end AdaptiveLimiter

lemma limiterStep_keeps (hlimit : 0 < limit) {action : LimiterAction}
    (hs : s.Bookkept limit ∧ (s.queue ≠ [] → 0 < s.activeCount))
    (hstep : limiterStep limit sampled s action = some t) :
    t.Bookkept limit ∧ (t.queue ≠ [] → 0 < t.activeCount) := by
  obtain ⟨hkept, hstall⟩ := hs
  cases action with
  | acquire sample =>
    cases hstep
    exact hkept.enqueue.drain (desiredConcurrency_le hlimit sample)
      (desiredConcurrency_pos hlimit sample)
  | begin =>
    simp only [limiterStep] at hstep
    split at hstep
    case h_1 => cases hstep
    case h_2 task rest hgran =>
      cases hstep
      have hcntd := hkept.counted
      have hplac := hkept.placed
      rw [hgran] at hcntd hplac
      refine ⟨⟨hkept.within, ?_, ?_⟩, hstall⟩
      · change s.activeCount = rest.length + (s.running ++ [task]).length
        rw [length_append, length_singleton, hcntd, length_cons]
        omega
      · rw [← hplac]
        simp
  | release task sample =>
    obtain ⟨hrunn, hdrain⟩ := Option.ite_none_right_eq_some.mp hstep
    cases hdrain
    exact (hkept.giveBack hrunn).drain (desiredConcurrency_le hlimit sample)
      (desiredConcurrency_pos hlimit sample)

variable {concurrency : Double} {as : List LimiterAction}

/-- **The limiter neither exceeds nor stalls**, with or without a sampler, whatever this answers. -/
theorem adaptiveLimiter_keepsLaw
    (hrun : run (limiterStep (hardLimit concurrency) sampled) .new as = some t) :
    t.Law (hardLimit concurrency) := by
  have hpos := hardLimit_pos concurrency
  have hnew : AdaptiveLimiter.new.Bookkept (hardLimit concurrency) := ⟨zero_le _, rfl, rfl⟩
  have hkept := invariant_of_step (fun _ _ _ hs => limiterStep_keeps hpos hs)
    ⟨hnew, fun hne => absurd rfl hne⟩ hrun
  exact hkept.1.law hkept.2

/-- Three calls on two slots, and a sampler that answers `NaN` and throws. -/
def limiterFall : List LimiterAction :=
  [.acquire (some (.finite 2)), .begin, .acquire (some (.finite 2)), .acquire (some .nan), .begin,
    .release 0 none, .release 1 (some (.finite 2)), .begin]

theorem adaptiveLimiter_keepsLaw_fall :
    ∃ t, run (limiterStep (hardLimit (.finite 2)) true) .new limiterFall = some t ∧
      t.starts = [0, 1, 2] ∧ t.Law (hardLimit (.finite 2)) := by
  obtain ⟨t, ht, hstarts⟩ : ∃ t,
      run (limiterStep (hardLimit (.finite 2)) true) .new limiterFall = some t ∧
        t.starts = [0, 1, 2] := ⟨_, rfl, rfl⟩
  exact ⟨t, ht, hstarts, adaptiveLimiter_keepsLaw ht⟩

lemma limiterStep_full (hlimit : 0 < limit) {action : LimiterAction}
    (hs : s.Bookkept limit ∧ (s.queue ≠ [] → limit ≤ s.activeCount))
    (hstep : limiterStep limit false s action = some t) :
    t.Bookkept limit ∧ (t.queue ≠ [] → limit ≤ t.activeCount) := by
  obtain ⟨hkept, hfull⟩ := hs
  cases action with
  | acquire sample =>
    cases hstep
    exact AdaptiveLimiter.drainLoop_spec _ le_rfl hkept.enqueue le_rfl
  | begin =>
    have hnext := limiterStep_keeps hlimit ⟨hkept, fun hne => hlimit.trans_le (hfull hne)⟩ hstep
    refine ⟨hnext.1, ?_⟩
    simp only [limiterStep] at hstep
    split at hstep
    · cases hstep
    · cases hstep
      exact hfull
  | release task sample =>
    obtain ⟨hrunn, hdrain⟩ := Option.ite_none_right_eq_some.mp hstep
    cases hdrain
    exact AdaptiveLimiter.drainLoop_spec _ le_rfl (hkept.giveBack hrunn) le_rfl

/-- **No call is lost**: those that have begun, those with a slot and those that wait are all the
calls, in the order of their arrival; and without a sampler nobody waits while a slot is free. -/
theorem adaptiveLimiter_losesNothing
    (hrun : run (limiterStep (hardLimit concurrency) sampled) .new as = some t) :
    t.starts ++ t.granted ++ t.queue = List.range t.arrived ∧
      (sampled = false → t.queue ≠ [] → t.activeCount = hardLimit concurrency) := by
  have hpos := hardLimit_pos concurrency
  have hnew : AdaptiveLimiter.new.Bookkept (hardLimit concurrency) := ⟨zero_le _, rfl, rfl⟩
  refine ⟨(invariant_of_step (fun _ _ _ hs => limiterStep_keeps hpos hs)
    ⟨hnew, fun hne => absurd rfl hne⟩ hrun).1.placed, fun hplain hwaits => ?_⟩
  subst hplain
  obtain ⟨hkept, hfull⟩ := invariant_of_step (fun _ _ _ hs => limiterStep_full hpos hs)
    ⟨hnew, fun hne => absurd rfl hne⟩ hrun
  exact le_antisymm hkept.within (hfull hwaits)

/-- The third of three calls waits while two have slots. -/
theorem adaptiveLimiter_losesNothing_third : ∃ t,
    run (limiterStep (hardLimit (.finite 2)) false) .new
      [.acquire none, .acquire none, .begin, .acquire none] = some t ∧
    t.starts ++ t.granted ++ t.queue = [0, 1, 2] ∧ t.activeCount = 2 := by
  obtain ⟨t, ht, harrived, hwaits⟩ : ∃ t, run (limiterStep (hardLimit (.finite 2)) false) .new
        [.acquire none, .acquire none, .begin, .acquire none] = some t ∧
      t.arrived = 3 ∧ t.queue ≠ [] := ⟨_, rfl, rfl, by decide⟩
  obtain ⟨hplaced, hfull⟩ := adaptiveLimiter_losesNothing ht
  exact ⟨t, ht, by rw [hplaced, harrived]; rfl, hfull rfl hwaits⟩

end CtsEngine
