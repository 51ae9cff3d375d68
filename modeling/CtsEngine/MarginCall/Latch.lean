import CtsEngine.MarginCall.Guard
import CtsEngine.Transition.Runs

/-!
# The margin-call latch

Once the stored session is `closing`, no call of the guard may write an `active` session over it;
only `startNewMarginCallSession` starts again.  The write itself is not guarded by the lease: a call
that lost its lease while it waited for the equity writes its old copy back, and the latch is gone
(`marginCallLatch_reopened`).
-/

namespace CtsEngine

open Option Function List Transition GuardSystem

variable {W : Type*} [DecidableEq W]

/-- The session is written only by a call that still holds the lease. -/
def LeasedWrite (s : GuardSystem W) : GuardAction W → Prop
  | .save w _ _ => s.lease = some w
  | .saveNew w _ => s.lease = some w
  | _ => True

instance (s : GuardSystem W) : ∀ a : GuardAction W, Decidable (LeasedWrite s a)
  | .save w _ _ => inferInstanceAs (Decidable (s.lease = some w))
  | .saveNew w _ => inferInstanceAs (Decidable (s.lease = some w))
  | .event _ _ => isTrue trivial
  | .acquire _ => isTrue trivial
  | .renewFails _ => isTrue trivial
  | .release _ => isTrue trivial
  | .expireLease => isTrue trivial
  | .expireFault => isTrue trivial

/-- After the session `x` was stored as closing, a stored active session is a new one, written by
`startNewMarginCallSession`. -/
def Latched (x : MarginCallSession) (acts : List (GuardAction W)) (t : GuardSystem W) : Prop :=
  ∀ y, t.stored = some y → y.status = .active →
    y.sessionId ≠ x.sessionId ∧ ∃ a ∈ acts, a.isSaveNew = true

/-- An active session that started at an equity of `100`. -/
def activeSession : MarginCallSession := newSession "session" 100 0

/-- A call of the monitor up to the reading of the session, all at the time `now`. -/
def observeUnderLease (w : W) (now : ℤ) : List (GuardAction W) :=
  [.event w (.callMonitor {}), .event w (.readCached true), .event w (.readFault now), .acquire w,
    .event w (.readSession now)]

/-- The call `false` reads the active session and loses its lease; the call `true` finds the equity
at `20` and stores the breach. -/
def staleObservation : List (GuardAction Bool) :=
  observeUnderLease false 20000 ++ [.expireLease] ++ observeUnderLease true 150000 ++
    [.event true (.observe 20 .unset "first" 150001), .save true true 150002]

/-- The call `false` receives its equity reading `50` and writes its copy back. -/
def staleWrite : List (GuardAction Bool) :=
  [.event false (.observe 50 .unset "second" 150003), .save false true 150004]

/-- The latch is reopened by the write of a call that lost its lease. -/
theorem marginCallLatch_reopened :
    ¬ ∀ (stored : Option MarginCallSession) (acts acts' : List (GuardAction Bool))
      (s t : GuardSystem Bool) (x : MarginCallSession),
      run guardStep (.start stored) acts = some s → s.stored = some x → x.status = .closing →
        run guardStep s acts' = some t → Latched x acts' t := by
  intro h
  have hclosing : (run guardStep (.start (some activeSession)) staleObservation).map
      (fun s : GuardSystem Bool => s.stored.map (·.status)) = some (some .closing) := by
    decide +kernel
  have hactive : (run guardStep (.start (some activeSession)) (staleObservation ++ staleWrite)).map
      (fun s : GuardSystem Bool => s.stored.map (·.status)) = some (some .active) := by
    decide +kernel
  obtain ⟨t, ht, hstatus⟩ := map_eq_some_iff.mp hactive
  obtain ⟨s, hs, hst⟩ := run_append_eq_some.mp ht
  rw [hs, map_some, some.injEq] at hclosing
  obtain ⟨x, hx, hxclosing⟩ := map_eq_some_iff.mp hclosing
  obtain ⟨y, hy, hyactive⟩ := map_eq_some_iff.mp hstatus
  obtain ⟨-, a, ha, hnew⟩ := h _ _ staleWrite s t x hs hx hxclosing hst y hy hyactive
  exact absurd hnew (by revert a; decide)

/-! ### What one step does to the copies in memory -/

/-- The copy of the session that a call of the monitor has in memory. -/
def GuardPhase.session? : GuardPhase → Option MarginCallSession
  | .observing session => session
  | .saving session _ => some session
  | .closing session _ => some session
  | .counting session _ => some session
  | .clearing session => some session
  | .failing session _ => session
  | _ => none

/-- The session that an operator reset is about to write. -/
def GuardPhase.reset? : GuardPhase → Option MarginCallSession
  | .savingNew session => some session
  | _ => none

/-- `m` is a later version of `m₀`: the same session, and active only if `m₀` is. -/
def Continues (m₀ m : MarginCallSession) : Prop :=
  m.sessionId = m₀.sessionId ∧ (m.status = .active → m₀.status = .active)

variable (m : MarginCallSession)

lemma Continues.refl : Continues m m := ⟨rfl, id⟩

/-- Where the copies of the phase `q` come from, after a step of a call in the phase `p` that did
not write: from the copy before the step, from the stored session, or from the fresh id. -/
structure Follows (stored : Option MarginCallSession) (fresh : Option String) (p q : GuardPhase) :
    Prop where
  copy : ∀ m, q.session? = some m →
    (∃ m₀, p.session? = some m₀ ∧ Continues m₀ m) ∨ (∃ y, stored = some y ∧ Continues y m) ∨
      p = .observing none ∧ fresh = some m.sessionId
  reset : ∀ m, q.reset? = some m → fresh = some m.sessionId
  absent : q = .observing none → stored = none

variable {stored : Option MarginCallSession} {p q : GuardPhase} {fresh : Option String}
  {s t : GuardSystem W} {a : GuardAction W}

lemma Follows.of_none (hcopy : q.session? = none) (hreset : q.reset? = none)
    (habs : q ≠ .observing none) : Follows stored fresh p q where
  copy m hm := by rw [hcopy] at hm; cases hm
  reset m hm := by rw [hreset] at hm; cases hm
  absent hq := absurd hq habs

lemma Follows.of_copy {m₀ m : MarginCallSession} (hp : p.session? = some m₀)
    (hq : q.session? = some m) (hcont : Continues m₀ m) : Follows stored fresh p q where
  copy m' hm' := by
    rw [hq] at hm'
    cases hm'
    exact .inl ⟨m₀, hp, hcont⟩
  reset m' hm' := by cases q <;> simp_all [GuardPhase.session?, GuardPhase.reset?]
  absent hq' := by rw [hq'] at hq; cases hq

lemma evaluateSession_eq_some (current : ℚ) (percent : PercentSetting) (now : ℤ) :
    ∃ m', (evaluateSession m current percent now).session? = some m' ∧
      Continues m m' := by
  unfold evaluateSession
  split
  · rename_i hact
    split
    · exact ⟨m, rfl, Continues.refl m⟩
    · exact ⟨_, rfl, rfl, fun h => (by cases h)⟩
    · exact ⟨m, rfl, Continues.refl m⟩
  all_goals exact ⟨m, rfl, Continues.refl m⟩

lemma settleClosure_continues (orders : ℕ) (failures : List String) (now : ℤ) :
    Continues m (settleClosure m orders failures now) := by
  unfold settleClosure
  split
  · exact ⟨rfl, fun h => (by cases h)⟩
  · exact ⟨rfl, id⟩

lemma thrown_follows (stored : Option MarginCallSession) (fresh : Option String) (p : GuardPhase)
    (error : GuardError) : Follows stored fresh p (p.thrown error) := by
  unfold GuardPhase.thrown
  split
  case h_1 session =>
    cases session with
    | none => exact .of_none rfl rfl GuardPhase.noConfusion
    | some m => exact .of_copy rfl rfl (Continues.refl m)
  case h_2 => exact .of_none rfl rfl GuardPhase.noConfusion
  case h_3 m _ _ => exact .of_copy rfl rfl (Continues.refl m)
  case h_4 m _ => exact .of_copy rfl rfl (Continues.refl m)
  case h_5 m _ => exact .of_copy rfl rfl (Continues.refl m)
  case h_6 m => exact .of_copy rfl rfl (Continues.refl m)
  all_goals exact .of_none rfl rfl GuardPhase.noConfusion

lemma readSession_ok {cached : Option MarginCallSession} (h : readSession stored = .ok cached) :
    cached = stored := by
  unfold readSession at h
  split at h
  · exact (Except.ok.inj h).symm
  · split at h
    · cases h
    · exact (Except.ok.inj h).symm

/-- **Local steps.** What a step that writes nothing does to the copies in memory. -/
lemma advance_follows {view : GuardView} {e : GuardEvent} (h : p.advance view e = some q) :
    Follows view.stored e.sessionId? p q := by
  revert h
  fun_cases GuardPhase.advance view p e
  all_goals
    intro h
    cases h
    try exact .of_none rfl rfl GuardPhase.noConfusion
  -- the session is read under the lease
  next options now hread _ =>
    exact ⟨fun m hm => (by cases hm), fun m hm => (by cases hm), fun _ =>
      (readSession_ok hread).symm⟩
  next options now state hread _ _ _ =>
    refine ⟨fun m hm => ?_, fun m hm => (by cases hm), fun hq => (by cases hq)⟩
    cases hm
    exact .inr (.inl ⟨state, (readSession_ok hread).symm, rfl, id⟩)
  next options now state hread _ _ _ =>
    refine ⟨fun m hm => ?_, fun m hm => (by cases hm), fun hq => (by cases hq)⟩
    cases hm
    exact .inr (.inl ⟨state, (readSession_ok hread).symm, Continues.refl state⟩)
  -- a session is created at the first observation
  next current percent sessionId now _ =>
    refine ⟨fun m hm => ?_, fun m hm => (by cases hm), fun hq => (by cases hq)⟩
    cases hm
    exact .inr (.inr ⟨rfl, rfl⟩)
  next state current percent sessionId now =>
    obtain ⟨m', hm', hcont⟩ := evaluateSession_eq_some
      { state with currentEquity := current, lastObservedAt := now, lastError := none }
      current percent now
    exact .of_copy rfl hm' hcont
  next state failures failure _ => exact .of_copy rfl rfl (Continues.refl state)
  next state failures failure _ => exact .of_copy rfl rfl (Continues.refl state)
  next state failures remaining => exact .of_copy rfl rfl ⟨rfl, id⟩
  next state failures remaining now =>
    exact .of_copy rfl rfl (settleClosure_continues state remaining failures now)
  next state message now => exact .of_copy rfl rfl ⟨rfl, id⟩
  -- the operator reset creates a session
  next flat current sessionId now _ =>
    refine ⟨fun m hm => (by cases hm), fun m hm => ?_, fun hq => (by cases hq)⟩
    cases hm
    rfl
  next error => exact thrown_follows _ _ _ error

lemma afterSave_follows (stored : Option MarginCallSession) (fresh : Option String)
    (m : MarginCallSession) (next : AfterSave) (now : ℤ) :
    Follows stored fresh (.saving m next) (next.phase m now) := by
  cases next with
  | evaluate current percent =>
    obtain ⟨m', hm', hcont⟩ := evaluateSession_eq_some m current percent now
    exact .of_copy rfl hm' hcont
  | closeAccount => exact .of_copy rfl rfl (Continues.refl m)
  | finish => exact .of_copy rfl rfl (Continues.refl m)
  | rethrow => exact .of_none rfl rfl GuardPhase.noConfusion

/-- A step that does not write the session: a call may have moved on, at most one fresh id came
into use, and the lease may have been given up or taken by a call that has no copy yet. -/
structure QuietStep (s t : GuardSystem W) : Prop where
  stored_eq : t.stored = s.stored
  phase : ∃ fresh : Option String, (∀ i ∈ fresh, i ∉ s.usedIds) ∧
    t.usedIds = fresh.toList ++ s.usedIds ∧
    ∀ w, t.phase w = s.phase w ∨ Follows s.stored fresh (s.phase w) (t.phase w)
  lease : ∀ w, t.lease = some w → s.lease = some w ∨
    (t.phase w).session? = none ∧ (t.phase w).reset? = none ∧ t.phase w ≠ .observing none

/-- The call `w` writes the session `m`. -/
structure WriteStep (w : W) (m : MarginCallSession) (s t : GuardSystem W) : Prop where
  stored_eq : t.stored = some m
  usedIds_eq : t.usedIds = s.usedIds
  lease_eq : t.lease = s.lease
  phase_of_ne : ∀ w', w' ≠ w → t.phase w' = s.phase w'
  follows : Follows (some m) none (s.phase w) (t.phase w)

lemma QuietStep.of_move {w : W} (hstor : t.stored = s.stored) (hused : t.usedIds = s.usedIds)
    (hph : t.phase = Function.update s.phase w p)
    (hfoll : Follows s.stored none (s.phase w) p)
    (hlease : ∀ w', t.lease = some w' → s.lease = some w' ∨
      (t.phase w').session? = none ∧ (t.phase w').reset? = none ∧ t.phase w' ≠ .observing none) :
    QuietStep s t where
  stored_eq := hstor
  phase := by
    refine ⟨none, fun i hi => (by cases hi), hused, fun w' => ?_⟩
    rw [hph]
    by_cases hw : w' = w
    · subst hw
      rw [update_self]
      exact .inr hfoll
    · exact .inl (update_of_ne hw p s.phase)
  lease := hlease

/-- **What a step can do**: write nothing, write the copy of a call of the monitor, or write the
session of an operator reset. -/
lemma guardStep_cases (h : guardStep s a = some t) : QuietStep s t ∨
      (∃ w persisted now m next, a = .save w persisted now ∧ s.phase w = .saving m next ∧
        WriteStep w m s t) ∨
      ∃ w persisted m, a = .saveNew w persisted ∧ s.phase w = .savingNew m ∧ WriteStep w m s t := by
  have hquiet : ∀ {lease : Option W} {leaseValid : W → Bool} {fault : Option String},
      (∀ w', lease = some w' → s.lease = some w') →
      QuietStep s { s with lease := lease, leaseValid := leaseValid, fault := fault } :=
    fun hlease => ⟨rfl, ⟨none, nofun, rfl, fun _ => .inl rfl⟩, fun w' h => .inl (hlease w' h)⟩
  revert h
  fun_cases guardStep s a
  all_goals
    intro h
    try cases h
  next w e hfresh =>
    obtain ⟨q, hq, rfl⟩ := map_eq_some_iff.mp h
    refine .inl ⟨rfl, ⟨e.sessionId?, fun i hi hused => hfresh ?_, rfl, fun w' => ?_⟩,
      fun w' hw' => .inl hw'⟩
    · rw [mem_def] at hi
      simp [hi, hused]
    · by_cases hw : w' = w
      · subst hw
        refine .inr ?_
        simp only [move, update_self]
        exact advance_follows hq
      · exact .inl (update_of_ne hw _ _)
  next w use hlease hph =>
    have hnone : use.phase.session? = none ∧ use.phase.reset? = none ∧
        use.phase ≠ .observing none := by
      cases use <;> exact ⟨rfl, rfl, GuardPhase.noConfusion⟩
    refine .inl (.of_move (w := w) rfl rfl rfl (.of_none hnone.1 hnone.2.1 hnone.2.2)
      fun w' hw' => .inr ?_)
    cases hw'
    simpa only [move, update_self] using hnone
  next w persisted now m next hph =>
    refine .inr (.inl ⟨w, persisted, now, m, next, rfl, hph, rfl, rfl, rfl,
      fun w' hw' => update_of_ne hw' _ _, ?_⟩)
    simp only [move, update_self, hph]
    cases persisted with
    | true => exact afterSave_follows _ _ m next now
    | false => exact thrown_follows _ _ _ _
  next w persisted m hph =>
    refine .inr (.inr ⟨w, persisted, m, rfl, hph, rfl, rfl, rfl,
      fun w' hw' => update_of_ne hw' _ _, ?_⟩)
    simp only [move, update_self]
    cases persisted <;> exact .of_none rfl rfl GuardPhase.noConfusion
  next w => exact .inl (hquiet fun _ => id)
  next w hph =>
    exact .inl (.of_move (w := w) rfl rfl rfl (.of_none rfl rfl GuardPhase.noConfusion)
      fun w' hw' => .inl (filter_eq_some_iff.mp hw').1)
  next => exact .inl (hquiet fun _ => nofun)
  next => exact .inl (hquiet fun _ => id)

/-! ### The invariant of runs with leased writes -/

/-- What is known of the phase of the call that holds the lease. -/
structure HolderOk (stored : Option MarginCallSession) (p : GuardPhase) : Prop where
  /-- An active copy is a copy of the stored session, which is active. -/
  copy : ∀ m, p.session? = some m → m.status = .active → ∀ y, stored = some y →
    y.status = .active ∧ y.sessionId = m.sessionId
  /-- An operator reset writes a session of a new id. -/
  reset : ∀ m, p.reset? = some m → ∀ y, stored = some y → y.sessionId ≠ m.sessionId
  /-- A session is created only when none is stored. -/
  absent : p = .observing none → stored = none

/-- The invariant of runs with leased writes. -/
structure GuardInvariant (s : GuardSystem W) : Prop where
  stored_used : ∀ y, s.stored = some y → y.sessionId ∈ s.usedIds
  copy_used : ∀ w m, (s.phase w).session? = some m → m.sessionId ∈ s.usedIds
  reset_used : ∀ w m, (s.phase w).reset? = some m → m.sessionId ∈ s.usedIds
  holder_ok : ∀ w, s.lease = some w → HolderOk s.stored (s.phase w)

lemma HolderOk.of_none (hcopy : p.session? = none) (hreset : p.reset? = none)
    (habs : p ≠ .observing none) :
    HolderOk stored p where
  copy m hm := by rw [hcopy] at hm; cases hm
  reset m hm := by rw [hreset] at hm; cases hm
  absent hp := absurd hp habs

lemma HolderOk.follows {used : List String} (hp : HolderOk stored p)
    (hfresh : ∀ i ∈ fresh, i ∉ used) (hused : ∀ y, stored = some y → y.sessionId ∈ used)
    (hf : Follows stored fresh p q) : HolderOk stored q where
  copy m hm hactive y hy := by
    rcases hf.copy m hm with ⟨m₀, hm₀, hid, hstat⟩ | ⟨z, hz, hid, hstat⟩ | ⟨hpn, -⟩
    · rw [hid]
      exact hp.copy m₀ hm₀ (hstat hactive) y hy
    · rw [hz] at hy
      cases hy
      exact ⟨hstat hactive, hid.symm⟩
    · rw [hp.absent hpn] at hy
      cases hy
  reset m hm y hy heq := by
    refine hfresh m.sessionId (hf.reset m hm) ?_
    rw [← heq]
    exact hused y hy
  absent := hf.absent

omit [DecidableEq W] in
lemma GuardInvariant.quiet (hI : GuardInvariant s) (h : QuietStep s t) : GuardInvariant t := by
  obtain ⟨hstor, ⟨fresh, hfresh, hused, hph⟩, hlease⟩ := h
  have hmono : ∀ i ∈ s.usedIds, i ∈ t.usedIds := fun i hi => by
    rw [hused]
    exact mem_append_right _ hi
  have hfreshUsed : ∀ i, fresh = some i → i ∈ t.usedIds := fun i hi => by
    rw [hused, hi]
    exact mem_append_left _ (mem_singleton.mpr rfl)
  refine ⟨fun y hy => hmono _ (hI.stored_used y (hstor ▸ hy)), fun w m hm => ?_, fun w m hm => ?_,
    fun w hw => ?_⟩
  · rcases hph w with hsame | hf
    · exact hmono _ (hI.copy_used w m (hsame ▸ hm))
    · rcases hf.copy m hm with ⟨m₀, hm₀, hid, -⟩ | ⟨y, hy, hid, -⟩ | ⟨-, hid⟩
      · exact hid ▸ hmono _ (hI.copy_used w m₀ hm₀)
      · exact hid ▸ hmono _ (hI.stored_used y hy)
      · exact hfreshUsed _ hid
  · rcases hph w with hsame | hf
    · exact hmono _ (hI.reset_used w m (hsame ▸ hm))
    · exact hfreshUsed _ (hf.reset m hm)
  · rw [hstor]
    rcases hlease w hw with hheld | ⟨hcopy, hreset, habs⟩
    · have hok := hI.holder_ok w hheld
      rcases hph w with hsame | hf
      · rw [hsame]
        exact hok
      · exact hok.follows hfresh hI.stored_used hf
    · exact .of_none hcopy hreset habs

omit [DecidableEq W] in
lemma GuardInvariant.write {w : W} {m : MarginCallSession} (hI : GuardInvariant s)
    (hlease : s.lease = some w) (hm : m.sessionId ∈ s.usedIds)
    (hcopy : ∀ m₀, (s.phase w).session? = some m₀ → m₀ = m) (habs : s.phase w ≠ .observing none)
    (h : WriteStep w m s t) : GuardInvariant t := by
  have hstor : ∀ y, t.stored = some y → y = m := fun y hy => by
    rw [h.stored_eq] at hy
    exact (some.inj hy).symm
  have hcopy' : ∀ m', (t.phase w).session? = some m' → Continues m m' := by
    intro m' hm'
    rcases h.follows.copy m' hm' with ⟨m₀, hm₀, hcont⟩ | ⟨y, hy, hcont⟩ | ⟨hpn, -⟩
    · exact hcopy m₀ hm₀ ▸ hcont
    · cases hy
      exact hcont
    · exact absurd hpn habs
  have hreset' : (t.phase w).reset? = none := by
    cases hr : (t.phase w).reset? with
    | none => rfl
    | some m' => exact absurd (h.follows.reset m' hr) nofun
  refine ⟨fun y hy => ?_, fun w' m' hm' => ?_, fun w' m' hm' => ?_, fun w' hw' => ?_⟩
  · rw [hstor y hy, h.usedIds_eq]
    exact hm
  · rw [h.usedIds_eq]
    by_cases hw : w' = w
    · subst hw
      exact (hcopy' m' hm').1 ▸ hm
    · exact hI.copy_used w' m' (h.phase_of_ne w' hw ▸ hm')
  · rw [h.usedIds_eq]
    by_cases hw : w' = w
    · subst hw
      rw [hreset'] at hm'
      cases hm'
    · exact hI.reset_used w' m' (h.phase_of_ne w' hw ▸ hm')
  · obtain rfl : w' = w := by
      rw [h.lease_eq, hlease] at hw'
      exact (some.inj hw').symm
    refine ⟨fun m' hm' hact y hy => ?_, fun m' hm' => ?_, fun hq => ?_⟩
    · rw [hstor y hy]
      exact ⟨(hcopy' m' hm').2 hact, (hcopy' m' hm').1.symm⟩
    · rw [hreset'] at hm'
      cases hm'
    · exact absurd (h.follows.absent hq) nofun

lemma guardInvariant_step (hI : GuardInvariant s) (ha : LeasedWrite s a)
    (h : guardStep s a = some t) : GuardInvariant t := by
  rcases guardStep_cases h with hquiet | ⟨w, persisted, now, m, next, rfl, hph, hwr⟩ |
    ⟨w, persisted, m, rfl, hph, hwr⟩
  · exact hI.quiet hquiet
  · refine hI.write ha (hI.copy_used w m (by rw [hph]; rfl)) (fun m₀ hm₀ => ?_) ?_ hwr
    · rw [hph] at hm₀
      exact (some.inj hm₀).symm
    · rw [hph]
      exact GuardPhase.noConfusion
  · refine hI.write ha (hI.reset_used w m (by rw [hph]; rfl)) (fun m₀ hm₀ => ?_) ?_ hwr
    · rw [hph] at hm₀
      cases hm₀
    · rw [hph]
      exact GuardPhase.noConfusion

omit [DecidableEq W] in
lemma guardInvariant_start (stored : Option MarginCallSession) :
    GuardInvariant (.start stored : GuardSystem W) where
  stored_used y hy := by
    have hy' : stored = some y := hy
    simp [start, hy']
  copy_used w m hm := by cases hm
  reset_used w m hm := by cases hm
  holder_ok w hw := by cases hw

/-! ### The latch -/

/-- A session that is not active is stored. -/
def StoredLatched (s : GuardSystem W) : Prop := ∃ y, s.stored = some y ∧ y.status ≠ .active

/-- What is known after the session of the id `id` was stored as closing. -/
structure LatchInvariant (id : String) (s : GuardSystem W) : Prop where
  id_used : id ∈ s.usedIds
  stored : ∃ y, s.stored = some y ∧ (y.sessionId = id → y.status ≠ .active)
  reset : ∀ w, s.lease = some w → ∀ m, (s.phase w).reset? = some m → m.sessionId ≠ id

lemma StoredLatched.step (hl : StoredLatched s) (hI : GuardInvariant s) (ha : LeasedWrite s a)
    (hnew : a.isSaveNew = false) (h : guardStep s a = some t) : StoredLatched t := by
  obtain ⟨y, hy, hlatc⟩ := hl
  rcases guardStep_cases h with hquiet | ⟨w, persisted, now, m, next, rfl, hph, hwr⟩ |
    ⟨w, persisted, m, rfl, -, -⟩
  · exact ⟨y, hquiet.stored_eq.trans hy, hlatc⟩
  · refine ⟨m, hwr.stored_eq, fun hact => hlatc ?_⟩
    exact ((hI.holder_ok w ha).copy m (by rw [hph]; rfl) hact y hy).1
  · cases hnew

variable {id : String} {acts : List (GuardAction W)}

lemma LatchInvariant.step (hl : LatchInvariant id s) (hI : GuardInvariant s)
    (ha : LeasedWrite s a) (h : guardStep s a = some t) : LatchInvariant id t := by
  obtain ⟨y, hy, hlatc⟩ := hl.stored
  -- A write leaves no reset to the holder of the lease.
  have hwrite : ∀ {w m}, s.lease = some w → WriteStep w m s t →
      (m.sessionId = id → m.status ≠ .active) → LatchInvariant id t := by
    intro w m hlease hwr hm
    refine ⟨hwr.usedIds_eq ▸ hl.id_used, ⟨m, hwr.stored_eq, hm⟩, fun w' hw' m' hm' => ?_⟩
    rw [hwr.lease_eq, hlease] at hw'
    cases hw'
    exact absurd (hwr.follows.reset m' hm') nofun
  rcases guardStep_cases h with hquiet | ⟨w, persisted, now, m, next, rfl, hph, hwr⟩ |
    ⟨w, persisted, m, rfl, hph, hwr⟩
  · obtain ⟨hstor, ⟨fresh, hfresh, hused, hmove⟩, hlease⟩ := hquiet
    refine ⟨?_, ⟨y, hstor.trans hy, hlatc⟩, fun w hw m hm heq => ?_⟩
    · rw [hused]
      exact mem_append_right _ hl.id_used
    · rcases hlease w hw with hheld | ⟨-, hnone, -⟩
      · rcases hmove w with hsame | hf
        · exact hl.reset w hheld m (hsame ▸ hm) heq
        · exact hfresh id (heq ▸ hf.reset m hm) hl.id_used
      · rw [hnone] at hm
        cases hm
  · refine hwrite ha hwr fun hid hact => ?_
    obtain ⟨hyact, hyid⟩ := (hI.holder_ok w ha).copy m (by rw [hph]; rfl) hact y hy
    exact hlatc (hyid.trans hid) hyact
  · exact hwrite ha hwr fun hid _ => hl.reset w ha m (by rw [hph]; rfl) hid

lemma StoredLatched.run (hl : StoredLatched s) (hI : GuardInvariant s)
    (hcond : Meets guardStep LeasedWrite s acts) (hnew : ∀ a ∈ acts, a.isSaveNew = false)
    (h : Transition.run guardStep s acts = some t) : StoredLatched t := by
  have hguard : Meets guardStep (fun _ a => a.isSaveNew = false) s acts :=
    meets_of_forall (fun a ha _ => hnew a ha) s
  have hst : GuardInvariant s ∧ StoredLatched s := ⟨hI, hl⟩
  have hend : GuardInvariant t ∧ StoredLatched t :=
    invariant_of_meets (I := fun r => GuardInvariant r ∧ StoredLatched r)
      (fun _ _ _ hr ha hstep => ⟨guardInvariant_step hr.1 ha.1 hstep,
        hr.2.step hr.1 ha.1 ha.2 hstep⟩) hst (hcond.and hguard) h
  exact hend.2

lemma LatchInvariant.run (hl : LatchInvariant id s)
    (hI : GuardInvariant s) (hcond : Meets guardStep LeasedWrite s acts)
    (h : Transition.run guardStep s acts = some t) : LatchInvariant id t := by
  have hst : GuardInvariant s ∧ LatchInvariant id s := ⟨hI, hl⟩
  have hend : GuardInvariant t ∧ LatchInvariant id t :=
    invariant_of_meets (I := fun r => GuardInvariant r ∧ LatchInvariant id r)
      (fun _ _ _ hr ha hstep => ⟨guardInvariant_step hr.1 ha hstep, hr.2.step hr.1 ha hstep⟩)
      hst hcond h
  exact hend.2

/-- **The latch holds under leased writes.**  In every run in which a session is written only while
the lease key still has the token of the writing call: once the stored session `x` is closing, a
session that is stored as active later is another one and was written by
`startNewMarginCallSession`. -/
theorem marginCallLatch_of_leasedWrites (stored : Option MarginCallSession)
    (acts acts' : List (GuardAction W)) (s t : GuardSystem W) (x : MarginCallSession)
    (hcond : Meets guardStep LeasedWrite (.start stored) (acts ++ acts'))
    (hs : run guardStep (.start stored) acts = some s) (hx : s.stored = some x)
    (hclosing : x.status = .closing) (ht : run guardStep s acts' = some t) :
    Latched x acts' t := by
  have hcond' : Meets guardStep LeasedWrite s acts' := hcond.right hs
  have hI : GuardInvariant s :=
    invariant_of_meets (fun _ _ _ hI ha h => guardInvariant_step hI ha h)
      (guardInvariant_start stored) hcond.left hs
  have hxlatched : x.status ≠ .active := by
    rw [hclosing]
    decide
  intro y hy hactive
  constructor
  · have hlatch : LatchInvariant x.sessionId s :=
      ⟨hI.stored_used x hx, ⟨x, hx, fun _ => hxlatched⟩,
        fun w hw m hm heq => (hI.holder_ok w hw).reset m hm x hx heq.symm⟩
    obtain ⟨z, hz, hzlatched⟩ := (hlatch.run hI hcond' ht).stored
    rw [hy] at hz
    cases hz
    exact fun hid => hzlatched hid hactive
  · by_contra hnone
    have hguard : ∀ a ∈ acts', a.isSaveNew = false := by
      intro a ha
      simpa using fun hnew => hnone ⟨a, ha, hnew⟩
    obtain ⟨z, hz, hzlatched⟩ := StoredLatched.run ⟨x, hx, hxlatched⟩ hI hcond' hguard ht
    rw [hy] at hz
    cases hz
    exact hzlatched hactive

/-- The call `false` finds the breach and stores it under its lease. -/
def leasedBreach : List (GuardAction Bool) :=
  observeUnderLease false 20000 ++ [.event false (.observe 20 .unset "first" 20001),
    .save false true 20002]

/-- It ends `closeAccount` with one position left, and an operator reset follows later. -/
def closureAndReset : List (GuardAction Bool) :=
  [.event false (.mutate (some "position_close_failed")), .event false (.countPositions 1),
    .event false (.countOrders 0 20010), .save false true 20011, .event false .clearFault,
    .release false, .event true .callStartNew, .acquire true,
    .event true (.checkReset true 70 "second" 90000), .saveNew true true]

theorem marginCallLatch_closureAndReset : ∃ s t : GuardSystem Bool, ∃ x : MarginCallSession,
      run guardStep (.start (some activeSession)) leasedBreach = some s ∧ s.stored = some x ∧
        x.status = .closing ∧ run guardStep s closureAndReset = some t ∧
        Latched x closureAndReset t := by
  have hclosing : (run guardStep (.start (some activeSession)) leasedBreach).map
      (fun s : GuardSystem Bool => s.stored.map (·.status)) = some (some .closing) := by
    decide +kernel
  have hruns : (run guardStep (.start (some activeSession))
      (leasedBreach ++ closureAndReset)).isSome = true := by
    decide +kernel
  obtain ⟨t, ht⟩ := isSome_iff_exists.mp hruns
  obtain ⟨s, hs, hst⟩ := run_append_eq_some.mp ht
  rw [hs, map_some, some.injEq] at hclosing
  obtain ⟨x, hx, hxclosing⟩ := map_eq_some_iff.mp hclosing
  exact ⟨s, t, x, hs, hx, hxclosing, hst, marginCallLatch_of_leasedWrites (some activeSession)
    leasedBreach closureAndReset s t x (by decide +kernel) hs hx hxclosing hst⟩

end CtsEngine
