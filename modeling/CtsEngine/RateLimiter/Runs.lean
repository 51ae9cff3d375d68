import CtsEngine.RateLimiter.Queue
import CtsEngine.Transition.Runs

/-!
# Budgets and progress of the rate limiter

`Bookkept` is the invariant of every run: the requests move in their order from the queue to the
dispatches, the timestamps that `drainQueue` trims away matter to no later window, and both windows
and the slots are within the budget.
-/

namespace CtsEngine.RateLimiter

open Option List SlidingWindow Transition Nat Limiter

variable {config : RateLimitConfig} {clock : Clock} {s t : Limiter} {event : Event}

/-- A request is accounted for: dispatched, waiting, or aborted before its dispatch. -/
def Limiter.Accounted (s : Limiter) (request : QueuedRequest) : Prop :=
  request ∈ s.dispatched ∨ request ∈ s.queue ∨ s.Aborted request

/-- The promise of a request is settled. -/
def Limiter.Settled (s : Limiter) (id : ℕ) : Prop := id ∈ s.settled.map Prod.fst

/-- The invariant of every run. -/
structure Bookkept (config : RateLimitConfig) (clock : Clock) (s : Limiter) : Prop where
  numbered : s.arrivals.map QueuedRequest.id = List.range s.arrivals.length
  in_order : (s.dispatched ++ s.queue).Sublist s.arrivals
  accounted : ∀ request ∈ s.arrivals, s.Accounted request
  waiting : ∀ request ∈ s.queue, ¬ s.Aborted request
  aborted_settled : ∀ request ∈ s.arrivals, s.Aborted request → request ∉ s.dispatched →
    s.Settled request.id
  ended_settled : ∀ id ∈ s.ended, s.Settled id
  ended_dispatched : ∀ id ∈ s.ended, id ∈ s.dispatched.map QueuedRequest.id
  active : s.activeRequests = s.running.length
  slots : s.activeRequests ≤ config.maxConcurrent
  perSecond : Within 1000 config.requestsPerSecond s.stamps
  perMinute : Within 60000 config.requestsPerMinute s.stamps
  past : ∀ ts ∈ s.stamps, ts ≤ clock.reading s.reads
  trimmed : ∀ width now, width ≤ 60000 → clock.reading s.reads ≤ now →
    recent width now s.requestTimestamps = recent width now s.stamps

/-- What the limiter promises in every state between two handlers. -/
structure Limiter.Promised (config : RateLimitConfig) (s : Limiter) : Prop where
  /-- At most `maxConcurrent` dispatched requests have not ended. -/
  concurrent : s.running.length ≤ config.maxConcurrent
  perSecond : Within 1000 config.requestsPerSecond s.stamps
  perMinute : Within 60000 config.requestsPerMinute s.stamps
  /-- Requests are dispatched in order of arrival; who was passed over was aborted. -/
  in_order : (s.dispatched.map QueuedRequest.id).Pairwise (· < ·) ∧
    ∀ later ∈ s.dispatched, ∀ request ∈ s.arrivals, request.id < later.id →
      request ∈ s.dispatched ∨ s.Aborted request
  /-- The promise of a request that was aborted before its dispatch, or that has ended, is
  settled. -/
  settled : ∀ request ∈ s.arrivals,
    s.Aborted request ∧ request ∉ s.dispatched ∨ request.id ∈ s.ended → s.Settled request.id
  /-- A waiting queue has an active request or a scheduled wake-up. -/
  awake : s.queue ≠ [] → s.running ≠ [] ∨ s.windowWakeTimer.isSome

/-- With nobody running, the first reading of the clock finds a window full, and the next reading
finds both open. -/
def WindowPasses (config : RateLimitConfig) (clock : Clock) (s : Limiter) : Prop :=
  s.queue ≠ [] ∧ s.activeRequests = 0 ∧
    windowsOpen config (clock.reading s.reads) s.requestTimestamps = false ∧
    windowsOpen config (clock.reading (s.reads + 1)) s.requestTimestamps = true

/-- No window opens between the two readings of the `drainQueue` that the event calls. -/
def NoWindowPasses (config : RateLimitConfig) (clock : Clock) (s : Limiter) (event : Event) :
    Prop :=
  ∀ handled ∈ handle s event, handled.1 = true → ¬ WindowPasses config clock handled.2

lemma Bookkept.increasing (h : Bookkept config clock s) :
    ((s.dispatched ++ s.queue).map QueuedRequest.id).Pairwise (· < ·) := by
  have hrange : (s.arrivals.map QueuedRequest.id).Pairwise (· < ·) := by
    rw [h.numbered]
    exact pairwise_lt_range
  exact hrange.sublist (h.in_order.map _)

lemma bookkept_new (config : RateLimitConfig) (clock : Clock) :
    Bookkept config clock new where
  numbered := rfl
  in_order := List.Sublist.refl _
  accounted := forall_mem_nil _
  waiting := forall_mem_nil _
  aborted_settled := forall_mem_nil _
  ended_settled := forall_mem_nil _
  ended_dispatched := forall_mem_nil _
  active := rfl
  slots := zero_le _
  perSecond := within_nil _ _
  perMinute := within_nil _ _
  past := forall_mem_nil _
  trimmed := fun _ _ _ _ => rfl

/-! ### What a handler does first -/

lemma Bookkept.tick (h : Bookkept config clock s) : Bookkept config clock s.tick where
  __ := h
  past := fun ts hts => (h.past ts hts).trans (clock.forward (le_succ _))
  trimmed := fun width now hwidth hnow =>
    h.trimmed width now hwidth ((clock.forward (le_succ _)).trans hnow)

lemma Bookkept.setTimer (h : Bookkept config clock s) (timer : Option ℕ) :
    Bookkept config clock { s with windowWakeTimer := timer } where
  __ := h

variable {request : QueuedRequest}

lemma numbered_append {arrivals : List QueuedRequest}
    (h : arrivals.map QueuedRequest.id = List.range arrivals.length)
    (hid : request.id = arrivals.length) :
    (arrivals ++ [request]).map QueuedRequest.id = List.range (arrivals ++ [request]).length := by
  rw [map_append, h, length_append, length_singleton, range_succ, map_singleton, hid]

lemma Bookkept.enqueue (h : Bookkept config clock s) (hid : request.id = s.arrivals.length)
    (hopen : ¬ s.Aborted request) :
    Bookkept config clock (enqueue s request) where
  __ := h.tick.tick
  numbered := numbered_append h.numbered hid
  in_order := by
    have heq : s.dispatched ++ (s.queue ++ [request]) = s.dispatched ++ s.queue ++ [request] :=
      (append_assoc _ _ _).symm
    exact heq ▸ h.in_order.append (List.Sublist.refl _)
  accounted := by
    intro other hoth
    rcases mem_append.mp hoth with hold | hnew
    · rcases h.accounted other hold with hdone | hwaits | habort
      · exact .inl hdone
      · exact .inr (.inl (mem_append_left _ hwaits))
      · exact .inr (.inr habort)
    · exact .inr (.inl (mem_append_right _ hnew))
  waiting := forall_mem_concat h.waiting hopen
  aborted_settled := forall_mem_concat h.aborted_settled fun habort =>
    absurd habort hopen

lemma settled_append {settled more : List (ℕ × Settlement)} {id : ℕ}
    (h : id ∈ settled.map Prod.fst) : id ∈ (settled ++ more).map Prod.fst := by
  rw [map_append]
  exact mem_append_left _ h

lemma Bookkept.refuse (h : Bookkept config clock s) (hid : request.id = s.arrivals.length)
    (habort : s.Aborted request) :
    Bookkept config clock (refuse s request) where
  __ := h
  numbered := numbered_append h.numbered hid
  in_order := h.in_order.trans (sublist_append_left _ _)
  accounted := forall_mem_concat h.accounted (.inr (.inr habort))
  aborted_settled := forall_mem_concat
    (fun other hoth hfired hundo => settled_append (h.aborted_settled other hoth hfired hundo))
    fun _ _ => mem_map_of_mem (mem_concat_self)
  ended_settled := fun id hended => settled_append (h.ended_settled id hended)

lemma aborted_abort {signal : ℕ} :
    (abort s signal).Aborted request ↔ request.signal = some signal ∨ s.Aborted request := by
  unfold Limiter.Aborted abort
  rcases request.signal with _ | own
  · simp
  · simp [eq_comm]

lemma Bookkept.abort (h : Bookkept config clock s) (signal : ℕ) :
    Bookkept config clock (abort s signal) where
  __ := h
  in_order := ((List.Sublist.refl _).append filter_sublist).trans h.in_order
  accounted := by
    intro request hreq
    rcases h.accounted request hreq with hdone | hwaits | habort
    · exact .inl hdone
    · by_cases hown : request.signal = some signal
      · exact .inr (.inr (aborted_abort.mpr (.inl hown)))
      · exact .inr (.inl (mem_filter.mpr ⟨hwaits, decide_eq_true hown⟩))
    · exact .inr (.inr (aborted_abort.mpr (.inr habort)))
  waiting := by
    intro request hreq habort
    obtain ⟨hwaits, hoth⟩ := mem_filter.mp hreq
    rcases aborted_abort.mp habort with hown | hbef
    · exact of_decide_eq_true hoth hown
    · exact h.waiting request hwaits hbef
  aborted_settled := by
    intro request hreq habort hundo
    by_cases hbef : s.Aborted request
    · exact settled_append (h.aborted_settled request hreq hbef hundo)
    · -- the signal fires now, so the request was still waiting
      have hown := (aborted_abort.mp habort).resolve_right hbef
      have hwaits := ((h.accounted request hreq).resolve_left hundo).resolve_right hbef
      refine mem_map_of_mem (mem_append_right _ (mem_map.mpr ⟨request, ?_, rfl⟩))
      exact mem_filter.mpr ⟨hwaits, decide_eq_true hown⟩
  ended_settled := fun id hended => settled_append (h.ended_settled id hended)

lemma Bookkept.dispatched_nodup (h : Bookkept config clock s) :
    (s.dispatched.map QueuedRequest.id).Nodup := by
  have hgrow := h.increasing
  rw [map_append, pairwise_append] at hgrow
  exact hgrow.1.imp fun hlt => hlt.ne

lemma length_running_succ {requests : List QueuedRequest} {ended : List ℕ}
    (hnodup : (requests.map QueuedRequest.id).Nodup) (hmem : request ∈ requests)
    (hopen : request.id ∉ ended) :
    (requests.filter fun other => other.id ∉ request.id :: ended).length + 1 =
      (requests.filter fun other => other.id ∉ ended).length := by
  induction requests with
  | nil => exact absurd hmem not_mem_nil
  | cons head rest ih =>
    obtain ⟨hfresh, hrest⟩ := nodup_cons.mp hnodup
    by_cases hhead : head.id = request.id
    · -- the rest has no request of this id
      have hsame : (rest.filter fun other => other.id ∉ request.id :: ended) =
          rest.filter fun other => other.id ∉ ended := by
        refine filter_congr fun other hoth => ?_
        have hne : other.id ≠ request.id := by
          intro heq
          exact hfresh (hhead ▸ heq ▸ mem_map_of_mem hoth)
        simp [hne]
      rw [filter_cons_of_neg (by simp [hhead]), hsame,
        filter_cons_of_pos (by simpa [hhead] using hopen), length_cons]
    · have hin : request ∈ rest := by
        rcases mem_cons.mp hmem with rfl | hin
        · exact absurd rfl hhead
        · exact hin
      by_cases hended : head.id ∈ ended
      · rw [filter_cons_of_neg (by simp [hended]), filter_cons_of_neg (by simpa using hended)]
        exact ih hrest hin
      · rw [filter_cons_of_pos (by simp [hhead, hended]),
          filter_cons_of_pos (by simpa using hended), length_cons, length_cons,
          ih hrest hin]

lemma Bookkept.release (h : Bookkept config clock s) (hruns : request ∈ s.running)
    (settlement : Settlement) : Bookkept config clock (release s request settlement) := by
  obtain ⟨hdone, hopen⟩ := mem_filter.mp hruns
  have hcnt := length_running_succ h.dispatched_nodup hdone (of_decide_eq_true hopen)
  have hact : s.activeRequests - 1 = (RateLimiter.release s request settlement).running.length := by
    have hbef := h.active
    unfold running at hbef
    change s.activeRequests - 1 =
      (s.dispatched.filter fun other => other.id ∉ request.id :: s.ended).length
    omega
  exact { h with
    active := hact
    slots := (sub_le _ _).trans h.slots
    aborted_settled := fun other hoth habort hundo =>
      settled_append (h.aborted_settled other hoth habort hundo)
    ended_settled := by
      intro id hended
      rcases mem_cons.mp hended with rfl | hended
      · exact mem_map_of_mem (mem_concat_self)
      · exact settled_append (h.ended_settled id hended)
    ended_dispatched := by
      intro id hended
      rcases mem_cons.mp hended with rfl | hended
      · exact mem_map_of_mem hdone
      · exact h.ended_dispatched id hended }

/-! ### Draining the queue -/

lemma canMakeRequest_eq_true (h : (canMakeRequest config clock s).1 = true) :
    s.activeRequests < config.maxConcurrent ∧
      windowsOpen config (clock.reading s.reads) s.requestTimestamps = true ∧
      (canMakeRequest config clock s).2 = s.tick := by
  unfold canMakeRequest at h ⊢
  by_cases hfull : config.maxConcurrent ≤ s.activeRequests
  · rw [if_pos hfull] at h
    exact absurd h Bool.false_ne_true
  · rw [if_neg hfull] at h ⊢
    exact ⟨not_le.mp hfull, h, rfl⟩

lemma canMakeRequest_snd (config : RateLimitConfig) (clock : Clock) (s : Limiter) :
    (canMakeRequest config clock s).2 = s ∨ (canMakeRequest config clock s).2 = s.tick := by
  unfold canMakeRequest
  split
  · exact .inl rfl
  · exact .inr rfl

lemma Bookkept.canMakeRequest (h : Bookkept config clock s) :
    Bookkept config clock (canMakeRequest config clock s).2 := by
  rcases canMakeRequest_snd config clock s with heq | heq
  · rwa [heq]
  · rw [heq]
    exact h.tick

/-- **Dispatch.** The first waiting request may be dispatched when a slot is free and the reading
before found both windows open. -/
lemma Bookkept.dispatch {rest : List QueuedRequest} {asked : ℕ}
    (h : Bookkept config clock { s with queue := request :: rest })
    (hslot : s.activeRequests < config.maxConcurrent) (hpast : ∀ ts ∈ s.stamps, ts ≤ asked)
    (hasked : asked ≤ clock.reading s.reads)
    (hopen : (recent 1000 asked s.stamps).length < config.requestsPerSecond ∧
      (recent 60000 asked s.stamps).length < config.requestsPerMinute) :
    Bookkept config clock { dispatch clock request s with queue := rest } := by
  have hdisp : (RateLimiter.dispatch clock request s).dispatched =
      s.dispatched ++ [request] := map_append
  have hstam : (RateLimiter.dispatch clock request s).stamps =
      s.stamps ++ [clock.reading s.reads] := map_append
  have hnew : request.id ∉ s.ended := by
    intro hended
    have hgrow := h.increasing
    rw [map_append, pairwise_append] at hgrow
    exact lt_irrefl _ (hgrow.2.2 _ (h.ended_dispatched _ hended) _ mem_cons_self)
  exact {
    numbered := h.numbered
    in_order := by
      have heq : s.dispatched ++ request :: rest = s.dispatched ++ [request] ++ rest := by simp
      change ((RateLimiter.dispatch clock request s).dispatched ++ rest).Sublist s.arrivals
      rw [hdisp, ← heq]
      exact h.in_order
    accounted := by
      intro other hoth
      rcases h.accounted other hoth with hdone | hwaits | habort
      · exact .inl (hdisp ▸ mem_append_left _ hdone)
      · rcases mem_cons.mp hwaits with rfl | hwaits
        · exact .inl (hdisp ▸ mem_concat_self)
        · exact .inr (.inl hwaits)
      · exact .inr (.inr habort)
    waiting := fun other hoth => h.waiting other (mem_cons_of_mem _ hoth)
    aborted_settled := fun other hoth habort hundo =>
      h.aborted_settled other hoth habort fun hdone =>
        hundo (hdisp ▸ mem_append_left _ hdone)
    ended_settled := h.ended_settled
    ended_dispatched := by
      intro id hended
      change id ∈ (RateLimiter.dispatch clock request s).dispatched.map QueuedRequest.id
      rw [hdisp, map_append]
      exact mem_append_left _ (h.ended_dispatched id hended)
    active := by
      change s.activeRequests + 1 = ((RateLimiter.dispatch clock request s).dispatched.filter
        fun other => other.id ∉ s.ended).length
      rw [hdisp, filter_append, length_append, h.active, filter_cons_of_pos (by simpa using hnew)]
      rfl
    slots := hslot
    perSecond := by
      exact hstam ▸ h.perSecond.push hasked hopen.1
    perMinute := by
      exact hstam ▸ h.perMinute.push hasked hopen.2
    past := by
      intro ts hts
      change ts ∈ (RateLimiter.dispatch clock request s).stamps at hts
      have hnext : clock.reading s.reads ≤ clock.reading (s.reads + 1) :=
        clock.forward (le_succ _)
      rw [hstam] at hts
      rcases mem_append.mp hts with hold | hlast
      · exact ((hpast ts hold).trans hasked).trans hnext
      · exact mem_singleton.mp hlast ▸ hnext
    trimmed := by
      intro width now hwidth hnow
      have hlate : clock.reading s.reads ≤ now := (clock.forward (le_succ _)).trans hnow
      change recent width now (recent 60000 (clock.reading s.reads)
        (s.requestTimestamps ++ [clock.reading s.reads])) =
          recent width now (RateLimiter.dispatch clock request s).stamps
      have hold := h.trimmed width now hwidth hlate
      rw [recent_recent hwidth hlate, hstam]
      unfold recent at hold ⊢
      rw [filter_append, filter_append]
      exact congrArg (· ++ _) hold }

lemma Bookkept.drainLoop {queue : List QueuedRequest}
    (h : Bookkept config clock { s with queue := queue }) :
    Bookkept config clock (drainLoop config clock queue s) := by
  induction queue generalizing s with
  | nil => exact h
  | cons request rest ih =>
    have hasked : Bookkept config clock
        { (RateLimiter.canMakeRequest config clock s).2 with queue := request :: rest } := by
      rcases canMakeRequest_snd config clock s with heq | heq
      · rwa [heq]
      · rw [heq]
        exact h.tick
    unfold RateLimiter.drainLoop
    dsimp only
    split
    · rename_i hmay
      have hopen : ¬ s.Aborted request := h.waiting request mem_cons_self
      obtain ⟨hslot, hwins, htick⟩ := canMakeRequest_eq_true hmay
      rw [if_neg hopen, htick]
      rw [htick] at hasked
      refine ih (hasked.dispatch hslot h.past (clock.forward (le_succ _)) ?_)
      have hroom := of_decide_eq_true hwins
      rw [h.trimmed 1000 _ (by decide) le_rfl, h.trimmed 60000 _ le_rfl le_rfl] at hroom
      exact hroom
    · exact hasked

lemma scheduleWindowWakeup_eq (config : RateLimitConfig) (clock : Clock) (s : Limiter) :
    scheduleWindowWakeup config clock s = s ∨ ∃ delayMs,
      scheduleWindowWakeup config clock s = { s.tick with windowWakeTimer := some delayMs } := by
  unfold scheduleWindowWakeup
  split
  · exact .inl rfl
  · exact .inr ⟨_, rfl⟩

lemma Bookkept.drainQueue (h : Bookkept config clock s) :
    Bookkept config clock (drainQueue config clock s) := by
  have hloop : Bookkept config clock
      (RateLimiter.drainLoop config clock s.queue { s with windowWakeTimer := none }) :=
    Bookkept.drainLoop (h.setTimer none)
  unfold RateLimiter.drainQueue
  dsimp only
  split
  · split
    · exact hloop.canMakeRequest
    · rcases scheduleWindowWakeup_eq config clock (RateLimiter.canMakeRequest config clock
        (RateLimiter.drainLoop config clock s.queue { s with windowWakeTimer := none })).2
        with heq | ⟨delayMs, heq⟩
      · rw [heq]
        exact hloop.canMakeRequest
      · rw [heq]
        exact hloop.canMakeRequest.tick.setTimer _
  · exact hloop

lemma Bookkept.handle (h : Bookkept config clock s) {handl : Bool × Limiter}
    (hhandl : handle s event = some handl) : Bookkept config clock handl.2 := by
  rcases event with ⟨signal, executeTimeoutMs⟩ | signal | ⟨id, succeeded⟩ | id | _
  · unfold RateLimiter.handle at hhandl
    dsimp only at hhandl
    split at hhandl
    · rename_i habort
      cases hhandl
      exact h.refuse rfl habort
    · rename_i hopen
      cases hhandl
      exact h.enqueue rfl hopen
  · cases hhandl
    exact h.abort signal
  · obtain ⟨request, hfind, rfl⟩ := map_eq_some_iff.mp hhandl
    exact h.release (mem_of_find?_eq_some hfind) _
  · obtain ⟨request, hfind, rfl⟩ := map_eq_some_iff.mp hhandl
    exact h.release (mem_of_find?_eq_some hfind) _
  · obtain ⟨-, heq⟩ := ite_none_right_eq_some.mp hhandl
    cases heq
    exact h.setTimer none

lemma Bookkept.step (h : Bookkept config clock s) (hstep : step config clock s event = some t) :
    Bookkept config clock t := by
  obtain ⟨handl, hhandl, rfl⟩ := map_eq_some_iff.mp hstep
  have hbooks := h.handle hhandl
  split
  · exact hbooks.drainQueue
  · exact hbooks

/-! ### The wake-up -/

/-- A queue that waits has an active request or a scheduled wake-up. -/
def Limiter.Awake (s : Limiter) : Prop :=
  s.queue ≠ [] → 0 < s.activeRequests ∨ s.windowWakeTimer.isSome

variable (config) (clock)

lemma canMakeRequest_of_idle (hidle : s.activeRequests = 0) :
    canMakeRequest config clock s =
      (windowsOpen config (clock.reading s.reads) s.requestTimestamps, s.tick) := by
  unfold canMakeRequest
  rw [if_neg (by rw [hidle]; exact not_le.mpr config.concurrent_pos)]

lemma activeRequests_le_drainLoop (queue : List QueuedRequest) (s : Limiter) :
    s.activeRequests ≤ (drainLoop config clock queue s).activeRequests := by
  induction queue generalizing s with
  | nil => exact le_rfl
  | cons request rest ih =>
    have hasked : (canMakeRequest config clock s).2.activeRequests = s.activeRequests := by
      rcases canMakeRequest_snd config clock s with heq | heq <;> rw [heq]
      rfl
    unfold drainLoop
    dsimp only
    split
    · split
      · exact hasked.symm.le.trans (ih _)
      · refine le_trans ?_ (ih _)
        change s.activeRequests ≤ (canMakeRequest config clock s).2.activeRequests + 1
        omega
    · exact hasked.symm.le

/-- The loop leaves a queue behind with somebody running, or because its first reading found a
window full. -/
lemma drainLoop_waiting (rest : List QueuedRequest)
    (hopen : ¬ s.Aborted request) :
    (0 < (drainLoop config clock (request :: rest) s).activeRequests ∧ (s.activeRequests = 0 →
          windowsOpen config (clock.reading s.reads) s.requestTimestamps = true)) ∨
      (s.activeRequests = 0 ∧
        windowsOpen config (clock.reading s.reads) s.requestTimestamps = false ∧
        drainLoop config clock (request :: rest) s = { s.tick with queue := request :: rest }) := by
  rcases Nat.eq_zero_or_pos s.activeRequests with hidle | hbusy
  · unfold drainLoop
    rw [canMakeRequest_of_idle config clock hidle]
    rcases hwins : windowsOpen config (clock.reading s.reads) s.requestTimestamps
    · exact .inr ⟨hidle, rfl, rfl⟩
    · refine .inl ⟨?_, fun _ => rfl⟩
      dsimp only
      rw [if_neg hopen]
      have hone : 0 < (dispatch clock request s.tick).activeRequests := succ_pos _
      exact hone.trans_le (activeRequests_le_drainLoop config clock rest _)
  · exact .inl ⟨lt_of_lt_of_le hbusy (activeRequests_le_drainLoop config clock _ _),
      fun hidle => absurd hidle hbusy.ne'⟩

lemma scheduleWindowWakeup_isSome (hwaits : s.queue ≠ []) :
    (scheduleWindowWakeup config clock s).windowWakeTimer.isSome = true := by
  unfold scheduleWindowWakeup
  split
  · rename_i hset
    exact hset.resolve_right hwaits
  · rfl

variable (s)

lemma scheduleWindowWakeup_activeRequests :
    (scheduleWindowWakeup config clock s).activeRequests = s.activeRequests := by
  rcases scheduleWindowWakeup_eq config clock s with heq | ⟨delayMs, heq⟩ <;> rw [heq]
  rfl

lemma canMakeRequest_activeRequests :
    (canMakeRequest config clock s).2.activeRequests = s.activeRequests := by
  rcases canMakeRequest_snd config clock s with heq | heq <;> rw [heq]
  rfl

lemma drainQueue_activeRequests :
    (drainQueue config clock s).activeRequests =
      (drainLoop config clock s.queue { s with windowWakeTimer := none }).activeRequests := by
  unfold drainQueue
  dsimp only
  split
  · split
    · exact canMakeRequest_activeRequests config clock _
    · rw [scheduleWindowWakeup_activeRequests, canMakeRequest_activeRequests]
  · rfl

variable {s} {clock} {config}

/-- **Wake-up.** `drainQueue` leaves a queue asleep exactly when a window passes between its two
readings of the clock. -/
lemma awake_drainQueue (hopen : ∀ request ∈ s.queue, ¬ s.Aborted request) :
    (drainQueue config clock s).Awake ↔ ¬ WindowPasses config clock s := by
  rcases hqueue : s.queue with _ | ⟨request, rest⟩
  · -- nothing waits, so nothing is left to wake
    have hemp : (drainQueue config clock s).queue = [] := by
      unfold drainQueue drainLoop
      rw [hqueue]
      rfl
    exact iff_of_true (fun hwaits => absurd hemp hwaits) fun hpass => hpass.1 hqueue
  · have hwaits : ¬ s.Aborted request := hopen request (hqueue ▸ mem_cons_self)
    have hloop := drainLoop_waiting (s := { s with windowWakeTimer := none }) config clock rest
      hwaits
    rw [← hqueue] at hloop
    rcases hloop with ⟨hbusy, hroom⟩ | ⟨hidle, hfull, hloop⟩
    · refine iff_of_true (fun _ => .inl ?_) fun hpass => ?_
      · rwa [drainQueue_activeRequests]
      · exact absurd (hroom hpass.2.1) (by simp [hpass.2.2.1])
    · -- the loop stopped at its first reading; the second one decides about the timer
      have hwait : s.queue ≠ [] := by simp [hqueue]
      have hslot : s.activeRequests < config.maxConcurrent := hidle ▸ config.concurrent_pos
      have hdrained : drainLoop config clock s.queue { s with windowWakeTimer := none } =
          { s.tick with windowWakeTimer := none } := hloop
      have hdrain : drainQueue config clock s =
          if windowsOpen config (clock.reading (s.reads + 1)) s.requestTimestamps then
            { s.tick.tick with windowWakeTimer := none }
          else
            scheduleWindowWakeup config clock { s.tick.tick with windowWakeTimer := none } := by
        have hasked := canMakeRequest_of_idle (s := { s.tick with windowWakeTimer := none })
          config clock hidle
        unfold drainQueue
        rw [hdrained]
        rw [if_pos ⟨hwait, hslot⟩, hasked]
        rfl
      unfold Limiter.Awake WindowPasses
      rw [drainQueue_activeRequests, hloop, hdrain]
      rcases hlate : windowsOpen config (clock.reading (s.reads + 1)) s.requestTimestamps
      · refine iff_of_true (fun _ => .inr ?_) fun hpass => absurd hpass.2.2.2 (by simp)
        exact scheduleWindowWakeup_isSome config clock hwait
      · refine iff_of_false (fun hawake => ?_) (not_not.mpr ⟨hwait, hidle, hfull, rfl⟩)
        rcases hawake hwait with hbusy | htimer
        · exact hbusy.ne' hidle
        · exact Bool.false_ne_true htimer

lemma Limiter.Awake.of_quiet (hawake : s.Awake) {handl : Bool × Limiter}
    (hhandl : handle s event = some handl) (hquiet : handl.1 ≠ true) :
    handl.2.Awake := by
  rcases event with ⟨signal, executeTimeoutMs⟩ | signal | ⟨id, succeeded⟩ | id | _
  · unfold handle at hhandl
    dsimp only at hhandl
    split at hhandl
    · cases hhandl
      exact hawake
    · cases hhandl
      exact absurd rfl hquiet
  · cases hhandl
    intro hwaits
    refine hawake fun hemp => hwaits ?_
    change s.queue.filter _ = []
    rw [hemp, filter_nil]
  · obtain ⟨request, -, rfl⟩ := map_eq_some_iff.mp hhandl
    exact absurd rfl hquiet
  · obtain ⟨request, -, rfl⟩ := map_eq_some_iff.mp hhandl
    exact absurd rfl hquiet
  · obtain ⟨-, heq⟩ := ite_none_right_eq_some.mp hhandl
    cases heq
    exact absurd rfl hquiet

lemma awake_step (h : Bookkept config clock s) (hawake : s.Awake)
    (hstep : step config clock s event = some t) :
    t.Awake ↔ NoWindowPasses config clock s event := by
  obtain ⟨handl, hhandl, rfl⟩ := map_eq_some_iff.mp hstep
  have hcond : NoWindowPasses config clock s event ↔
      (handl.1 = true → ¬ WindowPasses config clock handl.2) := by
    unfold NoWindowPasses
    rw [hhandl]
    exact ⟨fun hall => hall handl rfl, fun hone other hoth => some.inj hoth ▸ hone⟩
  rw [hcond]
  split
  · rename_i hdrain
    rw [awake_drainQueue (h.handle hhandl).waiting]
    exact ⟨fun hnot _ => hnot, fun hnot => hnot hdrain⟩
  · rename_i hquiet
    exact iff_of_true (hawake.of_quiet hhandl hquiet) fun hdrain => absurd hdrain hquiet

lemma Bookkept.promised_iff (h : Bookkept config clock s) : s.Promised config ↔ s.Awake := by
  have hrunn : s.running ≠ [] ↔ 0 < s.activeRequests := by
    rw [h.active, length_pos_iff]
  constructor
  · intro hprom hwaits
    exact (hprom.awake hwaits).imp_left hrunn.mp
  · intro hawake
    have hgrow := h.increasing
    rw [map_append, pairwise_append] at hgrow
    exact {
      concurrent := h.active ▸ h.slots
      perSecond := h.perSecond
      perMinute := h.perMinute
      in_order := by
        refine ⟨hgrow.1, fun later hlate request hreq hlt => ?_⟩
        rcases h.accounted request hreq with hdone | hwaits | habort
        · exact .inl hdone
        · -- what waits has a larger id than everything dispatched
          have hafter := hgrow.2.2 _ (mem_map_of_mem hlate) _ (mem_map_of_mem hwaits)
          exact absurd hafter hlt.asymm
        · exact .inr habort
      settled := by
        rintro request hreq (⟨habort, hundo⟩ | hended)
        · exact h.aborted_settled request hreq habort hundo
        · exact h.ended_settled request.id hended
      awake := fun hwaits => (hawake hwaits).imp_left hrunn.mpr }

/-- **Budgets and progress.** For every budget, every clock and every sequence of events, the
limiter keeps its promises all along exactly when no window opens between the two readings of a
`drainQueue` that finds nobody running. -/
theorem promised_iff_noWindowPasses (config : RateLimitConfig) (clock : Clock)
    (events : List Event) :
    Meets (step config clock) (NoWindowPasses config clock) new events ↔
      ∀ done s, done <+: events → run (step config clock) new done = some s →
        s.Promised config := by
  refine meets_iff_property (I := fun s => Bookkept config clock s ∧ s.Awake) ?_ ?_ ?_ events
    ⟨bookkept_new config clock, fun hwaits => absurd rfl hwaits⟩
  · rintro s ⟨hbooks, hawake⟩
    exact hbooks.promised_iff.mpr hawake
  · rintro s event t ⟨hbooks, hawake⟩ hcond hstep
    exact ⟨hbooks.step hstep, (awake_step hbooks hawake hstep).mpr hcond⟩
  · rintro s event ⟨hbooks, hawake⟩ hall
    rcases hstep : step config clock s event with _ | t
    · -- an event that cannot happen calls no `drainQueue`
      have hnone : handle s event = none := map_eq_none_iff.mp hstep
      intro handled hhandled
      rw [hnone] at hhandled
      exact absurd hhandled (by simp)
    · have hpromised := (hbooks.step hstep).promised_iff.mp (hall t hstep)
      exact (awake_step hbooks hawake hstep).mp hpromised

/-- **Nothing is lost.**  With any clock, a request is dispatched once, waits once, or was aborted
before and is settled; the budgets are kept, also in a run that stalls. -/
theorem arrived_counted_once {events : List Event}
    (hrun : run (step config clock) new events = some s) :
    (∀ request ∈ s.arrivals, if s.Aborted request ∧ request ∉ s.dispatched then
        request ∉ s.queue ∧ s.Settled request.id
      else (s.dispatched ++ s.queue).count request = 1) ∧
      s.running.length ≤ config.maxConcurrent ∧ Within 1000 config.requestsPerSecond s.stamps ∧
      Within 60000 config.requestsPerMinute s.stamps := by
  have h : Bookkept config clock s :=
    invariant_of_step (fun _ _ _ h hstep => h.step hstep) (bookkept_new config clock) hrun
  refine ⟨fun request hreq => ?_, h.active ▸ h.slots, h.perSecond, h.perMinute⟩
  split
  · rename_i hlost
    exact ⟨fun hwaits => h.waiting request hwaits hlost.1,
      h.aborted_settled request hreq hlost.1 hlost.2⟩
  · rename_i hkept
    have hnodup : (s.dispatched ++ s.queue).Nodup :=
      .of_map _ (h.increasing.imp fun hlt => hlt.ne)
    refine count_eq_one_of_mem hnodup (mem_append.mpr ?_)
    by_contra! hnone
    obtain hdone | hwaits | habort := h.accounted request hreq
    · exact hnone.1 hdone
    · exact hnone.2 hwaits
    · exact hkept ⟨habort, hnone.1⟩

/-- A clock that reaches the end of a second between the eleventh and the twelfth reading. -/
def secondEnds : Clock where
  reading i := if i < 10 then 0 else if i = 10 then 999 else 1000
  forward := by
    intro i j hij
    dsimp only
    split_ifs <;> omega

/-- The budget of `instaforex`. -/
def instaforex : RateLimitConfig := ⟨2, 60, 2, by decide, by decide, by decide⟩

/-- Two requests fill the second and end; the third one finds the second full, and its `drainQueue`
finds it free again when it is about to schedule the wake-up. -/
theorem not_promised_secondEnds : ¬ ∀ events done s, done <+: events →
      run (step instaforex secondEnds) new done = some s → s.Promised instaforex := by
  intro hall
  have hstalls : (run (step instaforex secondEnds) new
      [.execute none 0, .execute none 0, .settle 0 true, .settle 1 true, .execute none 0]).any
        (fun s => s.queue ≠ [] ∧ s.running = [] ∧ s.windowWakeTimer = none) = true := by
    decide +kernel
  obtain ⟨s, hrun, hs⟩ := (Option.any_eq_true _ _).mp hstalls
  obtain ⟨hwaits, hidle, htimer⟩ := of_decide_eq_true hs
  rcases (hall _ _ s (prefix_refl _) hrun).awake hwaits with hbusy | hset
  · exact hbusy hidle
  · exact absurd hset (by simp [htimer])

/-- Of three calls two are under way. -/
theorem arrived_counted_once_third : ∃ s, run (step instaforex secondEnds) new
    [.execute none 0, .execute none 0, .execute none 0] = some s ∧ s.running.length ≤ 2 := by
  have hruns : (run (step instaforex secondEnds) new
    [.execute none 0, .execute none 0, .execute none 0]).isSome = true := by decide +kernel
  obtain ⟨s, hrun⟩ := isSome_iff_exists.mp hruns
  exact ⟨s, hrun, (arrived_counted_once hrun).2.1⟩

end CtsEngine.RateLimiter
