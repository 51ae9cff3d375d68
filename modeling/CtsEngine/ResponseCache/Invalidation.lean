import CtsEngine.ResponseCache.Snapshots
import CtsEngine.Transition.Runs

/-!
# Invalidated responses

`Coherent` holds in every run: the refreshes that run are those of the map, each under its own key,
and only successes are stored.
-/

namespace CtsEngine.ResponseCache

open Option List Transition Keyed

variable {s t : ReadModels} {event : Event} {i : ℕ} {flight : Flight}

/-- The snapshot that a refresh has given. -/
def Stage.result : Stage → Option Snapshot
  | .concluded result => result
  | .settled result => result
  | _ => none

/-- The invalidation is of the namespace and of a prefix of the key of the request. -/
def Invalidation.Covers (invalidation : Invalidation) (request : Request) : Prop :=
  invalidation.nameSpace = request.nameSpace ∧ invalidation.keyPrefix.toList <+: request.key.toList

/-- No request is answered with a body whose producer started before an invalidation that had
returned when the request started. -/
def ReadModels.NoStaleAnswer (s : ReadModels) : Prop :=
  ∀ answer ∈ s.answers, ∀ invalidation ∈ s.invalidations, invalidation.Covers answer.request →
    invalidation.calledAt < answer.request.startedAt →
      ¬ answer.snapshot.producedFrom < invalidation.calledAt

/-- At most one refresh of an exact key runs. -/
def ReadModels.OneProducer (s : ReadModels) : Prop :=
  ∀ (i j : ℕ) (first second : Flight), s.flights[i]? = some first →
    s.flights[j]? = some second → first.Runs → second.Runs → first.key = second.key → i = j

/-- The event ends a refresh with an error response or a rejection. -/
def EndsInError (s : ReadModels) : Event → Prop
  | .conclude i _ => ∃ flight ∈ s.flights[i]?, ∃ takenAt status,
      flight.stage = .reading takenAt status ∧ ¬ Succeeds status
  | .reject _ => True
  | _ => False

/-- Every stored snapshot is a success, and a refresh that ends in an error leaves all of them. -/
def ReadModels.KeepsSuccesses (s : ReadModels) : Prop :=
  (∀ entry ∈ s.snapshots, Succeeds entry.2.status) ∧
    ∀ event t, step s event = some t → EndsInError s event → t.snapshots = s.snapshots

/-- A matching invalidation came after the refresh had started. -/
def Overtaken (s : ReadModels) (flight : Flight) : Prop :=
  ∃ invalidation ∈ s.invalidations, invalidation.Matches flight.key ∧
    flight.startedAt < invalidation.calledAt

/-- No request begins to wait for an overtaken refresh, and no overtaken refresh stores its
snapshot. -/
def LeavesOvertaken (s : ReadModels) : Event → Prop
  | .serve options now =>
    ∀ cached, course options now
        (get? s.snapshots (cacheKey options.nameSpace options.key)) = .waiting cached →
      ∀ i ∈ get? s.inflight (cacheKey options.nameSpace options.key),
        ∀ flight ∈ s.flights[i]?, ¬ Overtaken s flight
  | .conclude i _ =>
    ∀ flight ∈ s.flights[i]?, ∀ takenAt status, flight.stage = .reading takenAt status →
      Succeeds status → ¬ Overtaken s flight
  | _ => True

instance (s : ReadModels) (flight : Flight) : Decidable (Overtaken s flight) :=
  inferInstanceAs (Decidable (∃ invalidation ∈ s.invalidations, _ ∧ _))

instance (s : ReadModels) : ∀ event, Decidable (LeavesOvertaken s event)
  | .serve options now =>
    match h : course options now (get? s.snapshots (cacheKey options.nameSpace options.key)) with
    | .waiting cached => decidable_of_iff (∀ i ∈ get? s.inflight (cacheKey options.nameSpace
        options.key), ∀ flight ∈ s.flights[i]?, ¬ Overtaken s flight)
      ⟨fun hjoins _ _ => hjoins, fun hjoins => hjoins cached h⟩
    | .answered _ => isTrue fun _ hwait => nomatch h.symm.trans hwait
    | .revalidated .. => isTrue fun _ hwait => nomatch h.symm.trans hwait
  | .conclude i _ =>
    have (flight : Flight) : Decidable (∀ takenAt status,
        flight.stage = .reading takenAt status → Succeeds status → ¬ Overtaken s flight) :=
      match flight.stage with
      | .reading _ status => decidable_of_iff (Succeeds status → ¬ Overtaken s flight)
        ⟨fun hleaves _ _ heq => by cases heq; exact hleaves, fun hleaves => hleaves _ _ rfl⟩
      | .producing | .concluded _ | .settled _ => isTrue nofun
    inferInstanceAs (Decidable (∀ flight ∈ s.flights[i]?, _))
  | .respond .. | .reject _ | .settle _ | .deliver _ | .timeout _ | .invalidate .. => isTrue trivial

/-- The invariant of every run. -/
structure Coherent (s : ReadModels) : Prop where
  runs : ∀ i flight, s.flights[i]? = some flight → flight.Runs →
    get? s.inflight flight.key = some i
  inflight : ∀ key i, get? s.inflight key = some i →
    ∃ flight, s.flights[i]? = some flight ∧ flight.key = key
  succeeds : ∀ entry ∈ s.snapshots, Succeeds entry.2.status
  results : ∀ flight ∈ s.flights, ∀ snapshot ∈ flight.stage.result,
    snapshot.producedFrom = flight.startedAt
  waits : ∀ request ∈ s.requests, ∀ wait ∈ request.waits, ∃ flight,
    s.flights[wait.1]? = some flight ∧ flight.key = cacheKey request.nameSpace request.key
  requests_past : ∀ request ∈ s.requests, request.startedAt ≤ s.time
  answers_past : ∀ answer ∈ s.answers, answer.request.startedAt ≤ s.time
  invalidations_past : ∀ invalidation ∈ s.invalidations, invalidation.calledAt ≤ s.time

/-- What is stored, waited for and answered is as new as the invalidations that concern it. -/
structure Current (s : ReadModels) : Prop where
  stored : ∀ entry ∈ s.snapshots, ∀ invalidation ∈ s.invalidations,
    invalidation.Matches entry.1 → invalidation.calledAt ≤ entry.2.producedFrom
  waiting : ∀ request ∈ s.requests, ∀ wait ∈ request.waits, ∀ invalidation ∈ s.invalidations,
    invalidation.Covers request → invalidation.calledAt < request.startedAt →
      (∀ flight ∈ s.flights[wait.1]?, invalidation.calledAt ≤ flight.startedAt) ∧
        ∀ cached ∈ wait.2, invalidation.calledAt ≤ cached.producedFrom
  answered : ∀ answer ∈ s.answers, ∀ invalidation ∈ s.invalidations,
    invalidation.Covers answer.request → invalidation.calledAt < answer.request.startedAt →
      invalidation.calledAt ≤ answer.snapshot.producedFrom

lemma evict_sublist (snapshots : List (String × Snapshot)) :
    (evict snapshots).Sublist snapshots := by
  induction snapshots with
  | nil => exact List.Sublist.refl _
  | cons oldest rest ih =>
    unfold evict
    split
    · exact ih.cons oldest
    · exact List.Sublist.refl _

lemma mem_remember {snapshots : List (String × Snapshot)} {key : String} {snapshot : Snapshot}
    {entry : String × Snapshot} (h : entry ∈ remember snapshots key snapshot) :
    entry ∈ snapshots ∨ entry = (key, snapshot) ∧ Succeeds snapshot.status := by
  unfold remember at h
  split at h
  · rename_i hsucc
    rcases mem_append.mp ((evict_sublist _).subset h) with hold | hnew
    · exact .inl (mem_filter.mp hold).1
    · exact .inr ⟨mem_singleton.mp hnew, hsucc⟩
  · exact .inl h

variable {request : Request} {options : ServeOptions}

lemma Invalidation.Covers.matches {invalidation : Invalidation} (h : invalidation.Covers request) :
    invalidation.Matches (cacheKey request.nameSpace request.key) := by
  obtain ⟨hspace, rest, hrest⟩ := h
  refine ⟨rest, ?_⟩
  simp only [cacheKey, String.toList_append, hspace, ← hrest, append_assoc]

/-! ### The refreshes -/

lemma getElem?_setStage_self {stage : Stage} (hat : s.flights[i]? = some flight) :
    (setStage s i flight stage).flights[i]? = some { flight with stage := stage } := by
  change (s.flights.set i _)[i]? = _
  rw [getElem?_set_self', hat]
  rfl

lemma getElem?_setStage {stage : Stage} {j : ℕ} {after : Flight}
    (hat : s.flights[i]? = some flight) (h : (setStage s i flight stage).flights[j]? = some after) :
    ∃ before, s.flights[j]? = some before ∧ before.key = after.key ∧
      before.startedAt = after.startedAt ∧ (j = i ∧ after.stage = stage ∨ after = before) := by
  by_cases hij : i = j
  · subst hij
    obtain rfl := some.inj ((getElem?_setStage_self hat).symm.trans h)
    exact ⟨flight, hat, rfl, rfl, .inl ⟨rfl, rfl⟩⟩
  · change (s.flights.set i _)[j]? = some after at h
    rw [getElem?_set_ne hij] at h
    exact ⟨after, h, rfl, rfl, .inr rfl⟩

lemma getElem?_setStage_of_eq_some (stage : Stage) {j : ℕ} {before : Flight}
    (hat : s.flights[i]? = some flight) (h : s.flights[j]? = some before) :
    ∃ after, (setStage s i flight stage).flights[j]? = some after ∧ after.key = before.key := by
  by_cases hij : i = j
  · subst hij
    obtain rfl := some.inj (hat.symm.trans h)
    exact ⟨{ flight with stage := stage }, getElem?_setStage_self hat, rfl⟩
  · refine ⟨before, ?_, rfl⟩
    change (s.flights.set i _)[j]? = _
    rw [getElem?_set_ne hij, h]

lemma Coherent.keyed (h : Coherent s) {key : String} (hget : get? s.inflight key = some i)
    (hat : s.flights[i]? = some flight) : flight.key = key := by
  obtain ⟨other, hoth, hkey⟩ := h.inflight key i hget
  exact some.inj (hoth.symm.trans hat) ▸ hkey

lemma Coherent.setStage (h : Coherent s) (hat : s.flights[i]? = some flight) (hruns : flight.Runs)
    (stage : Stage)
    (hres : ∀ snapshot ∈ stage.result, snapshot.producedFrom = flight.startedAt) :
    Coherent (setStage s i flight stage) where
  __ := h
  runs := by
    intro j after hafter hstill
    obtain ⟨before, hbef, hkey, -, hsame | rfl⟩ := getElem?_setStage hat hafter
    · obtain ⟨rfl, -⟩ := hsame
      obtain rfl := some.inj (hat.symm.trans hbef)
      exact hkey ▸ h.runs j flight hat hruns
    · exact h.runs j after hbef hstill
  inflight := by
    intro key j hj
    obtain ⟨before, hbef, hkey⟩ := h.inflight key j hj
    obtain ⟨after, hafter, hafterKey⟩ := getElem?_setStage_of_eq_some stage hat hbef
    exact ⟨after, hafter, hafterKey.trans hkey⟩
  results := forall_mem_set h.results hres
  waits := by
    intro request hreq wait hwait
    obtain ⟨before, hbef, hkey⟩ := h.waits request hreq wait hwait
    obtain ⟨after, hafter, hafterKey⟩ := getElem?_setStage_of_eq_some stage hat hbef
    exact ⟨after, hafter, hafterKey.trans hkey⟩

lemma Current.setStage (h : Current s) (hat : s.flights[i]? = some flight) (stage : Stage) :
    Current (setStage s i flight stage) where
  __ := h
  waiting := by
    intro request hreq wait hwait invalidation hinval hcov hearl
    obtain ⟨hflt, hcach⟩ := h.waiting request hreq wait hwait invalidation hinval hcov hearl
    refine ⟨fun after hafter => ?_, hcach⟩
    obtain ⟨before, hbef, -, hstar, -⟩ := getElem?_setStage hat hafter
    exact hstar ▸ hflt before hbef

lemma refresh_cases (s : ReadModels) (key : String) :
    (∃ i, get? s.inflight key = some i ∧ refresh s key = (i, s)) ∨
      get? s.inflight key = none ∧ refresh s key = (s.flights.length, { s with
            flights := s.flights ++ [⟨key, s.time, .producing⟩]
            inflight := put s.inflight key s.flights.length }) := by
  unfold refresh
  rcases hget : get? s.inflight key with _ | i
  · exact .inr ⟨rfl, rfl⟩
  · exact .inl ⟨i, rfl, rfl⟩

lemma getElem?_append_of_eq_some {flights more : List Flight} (h : flights[i]? = some flight) :
    (flights ++ more)[i]? = some flight := by
  have hlt : i < flights.length := (List.getElem?_eq_some_iff.mp h).1
  rw [getElem?_append_left hlt, h]

lemma Coherent.refresh (h : Coherent s) (key : String) : Coherent (refresh s key).2 := by
  rcases refresh_cases s key with ⟨i, -, heq⟩ | ⟨hnone, heq⟩
  · rwa [heq]
  · rw [heq]
    exact { h with
      runs := by
        intro j flight hflt hruns
        rcases lt_or_ge j s.flights.length with hlt | hge
        · rw [getElem?_append_left hlt] at hflt
          have hget := h.runs j flight hflt hruns
          have hne : flight.key ≠ key := by
            rintro rfl
            rw [hnone] at hget
            exact absurd hget (by simp)
          rw [get?_put_of_ne _ _ hne, hget]
        · rw [getElem?_append_right hge, getElem?_singleton] at hflt
          obtain ⟨hzero, hnew⟩ := ite_none_right_eq_some.mp hflt
          cases hnew
          rw [get?_put_self]
          exact congrArg some (by omega)
      inflight := by
        intro other j hj
        by_cases hkey : other = key
        · subst hkey
          rw [get?_put_self] at hj
          cases hj
          exact ⟨_, getElem?_concat_length, rfl⟩
        · rw [get?_put_of_ne _ _ hkey] at hj
          obtain ⟨flight, hflt, hoth⟩ := h.inflight other j hj
          exact ⟨flight, getElem?_append_of_eq_some hflt, hoth⟩
      results := forall_mem_concat h.results fun _ hsnap =>
        absurd hsnap (by simp [Stage.result])
      waits := by
        intro request hreq wait hwait
        obtain ⟨flight, hflt, hkey⟩ := h.waits request hreq wait hwait
        exact ⟨flight, getElem?_append_of_eq_some hflt, hkey⟩ }

/-- Starting or sharing a refresh changes nothing that was current. -/
lemma Current.refresh (hcoh : Coherent s) (h : Current s) (key : String) :
    Current (refresh s key).2 := by
  rcases refresh_cases s key with ⟨i, -, heq⟩ | ⟨-, heq⟩
  · rwa [heq]
  · rw [heq]
    exact { h with
      waiting := by
        intro request hreq wait hwait invalidation hinval hcov hearl
        obtain ⟨hflt, hcach⟩ := h.waiting request hreq wait hwait invalidation hinval hcov hearl
        refine ⟨fun flight hafter => hflt flight ?_, hcach⟩
        obtain ⟨before, hbef, -⟩ := hcoh.waits request hreq wait hwait
        exact hbef.trans ((getElem?_append_of_eq_some hbef).symm.trans hafter) }

lemma Coherent.answerNow (h : Coherent s) (options : ServeOptions) (snapshot : Snapshot)
    (cacheState : CacheState) : Coherent (answerNow s options snapshot cacheState) where
  __ := h
  waits := forall_mem_concat h.waits fun _ hwait => absurd hwait (by simp)
  requests_past := forall_mem_concat h.requests_past le_rfl
  answers_past := forall_mem_concat h.answers_past le_rfl

lemma Current.answerNow (h : Current s) {snapshot : Snapshot}
    (hsnap : ∀ invalidation ∈ s.invalidations,
      invalidation.Matches (cacheKey options.nameSpace options.key) →
        invalidation.calledAt ≤ snapshot.producedFrom) (cacheState : CacheState) :
    Current (answerNow s options snapshot cacheState) where
  __ := h
  waiting := forall_mem_concat h.waiting fun _ hwait => absurd hwait (by simp)
  answered := forall_mem_concat h.answered fun invalidation hinval hcov _ =>
    hsnap invalidation hinval hcov.matches

lemma Coherent.await (h : Coherent s) (hat : s.flights[i]? = some flight)
    (hkey : flight.key = cacheKey options.nameSpace options.key) (cached : Option Snapshot) :
    Coherent (await s options i cached) where
  __ := h
  waits := by
    refine forall_mem_concat h.waits fun wait hwait => ?_
    cases hwait
    exact ⟨flight, hat, hkey⟩
  requests_past := forall_mem_concat h.requests_past le_rfl

lemma Current.await (h : Current s) {cached : Option Snapshot}
    (hflt : ∀ invalidation ∈ s.invalidations,
      invalidation.Matches (cacheKey options.nameSpace options.key) →
        ∀ flight ∈ s.flights[i]?, invalidation.calledAt ≤ flight.startedAt)
    (hcach : ∀ invalidation ∈ s.invalidations,
      invalidation.Matches (cacheKey options.nameSpace options.key) →
        ∀ old ∈ cached, invalidation.calledAt ≤ old.producedFrom) :
    Current (await s options i cached) where
  __ := h
  waiting := by
    refine forall_mem_concat h.waiting fun wait hwait invalidation hinval hcov _ => ?_
    cases hwait
    exact ⟨hflt invalidation hinval hcov.matches, hcach invalidation hinval hcov.matches⟩

lemma Coherent.finish (h : Coherent s) (hat : s.requests[i]? = some request) {answers : List Answer}
    (hansw : ∀ answer ∈ answers, answer.request = request) :
    Coherent (finish s i request answers) where
  __ := h
  waits := forall_mem_set h.waits fun _ hwait => absurd hwait (by simp)
  requests_past := forall_mem_set h.requests_past (h.requests_past request (mem_of_getElem? hat))
  answers_past := forall_mem_append.mpr ⟨h.answers_past, fun answer hnew => by
    rw [hansw answer hnew]
    exact h.requests_past request (mem_of_getElem? hat)⟩

lemma Current.finish (h : Current s) {answers : List Answer}
    (hansw : ∀ answer ∈ answers, answer.request = request ∧
      ∀ invalidation ∈ s.invalidations, invalidation.Covers request →
        invalidation.calledAt < request.startedAt →
          invalidation.calledAt ≤ answer.snapshot.producedFrom) :
    Current (finish s i request answers) where
  __ := h
  waiting := forall_mem_set h.waiting fun _ hwait => absurd hwait (by simp)
  answered := by
    intro answer hans invalidation hinval hcov hearl
    rcases mem_append.mp hans with hold | hnew
    · exact h.answered answer hold invalidation hinval hcov hearl
    · obtain ⟨hreq, hnewer⟩ := hansw answer hnew
      rw [hreq] at hcov hearl
      exact hnewer invalidation hinval hcov hearl

/-! ### Events -/

lemma Coherent.invalidate (h : Coherent s) (nameSpace keyPrefix : String) :
    Coherent (invalidate s nameSpace keyPrefix) where
  __ := h
  succeeds := fun entry hent => h.succeeds entry (mem_filter.mp hent).1
  invalidations_past := forall_mem_cons.mpr ⟨le_rfl, h.invalidations_past⟩

lemma Current.invalidate (hcoh : Coherent s) (h : Current s) (nameSpace keyPrefix : String) :
    Current (invalidate s nameSpace keyPrefix) where
  stored := by
    intro entry hent invalidation hinval hmatc
    obtain ⟨hold, hoth⟩ := mem_filter.mp hent
    rcases mem_cons.mp hinval with rfl | hbef
    · exact absurd hmatc (of_decide_eq_true hoth)
    · exact h.stored entry hold invalidation hbef hmatc
  waiting := by
    intro request hreq wait hwait invalidation hinval hcov hearl
    rcases mem_cons.mp hinval with rfl | hbef
    · exact absurd hearl (hcoh.requests_past request hreq).not_gt
    · exact h.waiting request hreq wait hwait invalidation hbef hcov hearl
  answered := by
    intro answer hans invalidation hinval hcov hearl
    rcases mem_cons.mp hinval with rfl | hbef
    · exact absurd hearl (hcoh.answers_past answer hans).not_gt
    · exact h.answered answer hans invalidation hbef hcov hearl

/-- The snapshot that a call goes on with. -/
def Course.snapshot : Course → Option Snapshot
  | .answered cached => some cached
  | .revalidated cached _ => some cached
  | .waiting cached => cached

lemma snapshot_course (options : ServeOptions) (now : ℤ) (found : Option Snapshot) :
    (course options now found).snapshot = found := by
  rcases found with _ | cached
  · rfl
  · unfold course
    dsimp only
    split_ifs <;> rfl

lemma Coherent.refresh_at (h : Coherent s) (key : String) : ∃ flight,
    (ResponseCache.refresh s key).2.flights[(ResponseCache.refresh s key).1]? = some flight ∧
      flight.key = key := by
  rcases refresh_cases s key with ⟨i, hget, heq⟩ | ⟨-, heq⟩
  · rw [heq]
    exact h.inflight key i hget
  · rw [heq]
    exact ⟨_, getElem?_concat_length, rfl⟩

lemma Coherent.serve (h : Coherent s) (options : ServeOptions) (now : ℤ) :
    Coherent (serve s options now) := by
  unfold ResponseCache.serve
  dsimp only
  split
  · exact h.answerNow options _ _
  · exact (h.refresh _).answerNow options _ _
  · obtain ⟨flight, hat, hkey⟩ := h.refresh_at (cacheKey options.nameSpace options.key)
    exact (h.refresh _).await hat hkey _

lemma Current.found (h : Current s) {key : String} {cached : Snapshot}
    (hfnd : get? s.snapshots key = some cached) :
    ∀ invalidation ∈ s.invalidations, invalidation.Matches key →
      invalidation.calledAt ≤ cached.producedFrom :=
  fun invalidation hinval hmatc =>
    h.stored (key, cached) (mem_of_get? hfnd) invalidation hinval hmatc

lemma refresh_invalidations (s : ReadModels) (key : String) :
    (refresh s key).2.invalidations = s.invalidations := by
  rcases refresh_cases s key with ⟨i, -, heq⟩ | ⟨-, heq⟩ <;> rw [heq]

lemma Current.serve (hcoh : Coherent s) (h : Current s) {now : ℤ}
    (hcond : LeavesOvertaken s (.serve options now)) : Current (serve s options now) := by
  have hfnd := snapshot_course options now
    (get? s.snapshots (cacheKey options.nameSpace options.key))
  have hrefr := h.refresh hcoh (cacheKey options.nameSpace options.key)
  unfold ResponseCache.serve
  dsimp only
  split
  · rename_i cached hcour
    rw [hcour] at hfnd
    exact h.answerNow (h.found hfnd.symm) _
  · rename_i cached cacheState hcour
    rw [hcour] at hfnd
    refine hrefr.answerNow ?_ _
    rw [refresh_invalidations]
    exact h.found hfnd.symm
  · rename_i cached hcour
    rw [hcour] at hfnd
    refine hrefr.await ?_ ?_
    · rw [refresh_invalidations]
      intro invalidation hinval hmatc flight hflt
      rcases refresh_cases s (cacheKey options.nameSpace options.key) with
        ⟨i, hget, heq⟩ | ⟨-, heq⟩
      · rw [heq] at hflt
        by_contra hlate
        exact hcond cached hcour i hget flight hflt
          ⟨invalidation, hinval, (hcoh.keyed hget hflt) ▸ hmatc, not_le.mp hlate⟩
      · rw [heq] at hflt
        obtain rfl := some.inj (getElem?_concat_length.symm.trans hflt)
        exact hcoh.invalidations_past invalidation hinval
    · rw [refresh_invalidations]
      intro invalidation hinval hmatc old hold
      exact h.found (hfnd.symm.trans hold) invalidation hinval hmatc

lemma conclude_eq_some {body : String} (h : conclude s i body = some t) :
    ∃ flight takenAt status, s.flights[i]? = some flight ∧ flight.stage = .reading takenAt status ∧
      t = { setStage s i flight (.concluded (some ⟨takenAt, body, status, flight.startedAt⟩)) with
        snapshots := remember s.snapshots flight.key
          ⟨takenAt, body, status, flight.startedAt⟩ } := by
  obtain ⟨flight, hat, hrest⟩ := bind_eq_some_iff.mp h
  split at hrest
  · rename_i takenAt status hstage
    exact ⟨flight, takenAt, status, hat, hstage, (some.inj hrest).symm⟩
  · exact absurd hrest (by simp)

lemma reject_eq_some (h : reject s i = some t) :
    ∃ flight, s.flights[i]? = some flight ∧ flight.Runs ∧
      t = setStage s i flight (.concluded none) := by
  obtain ⟨flight, hat, hrest⟩ := bind_eq_some_iff.mp h
  split at hrest
  · rename_i hstage
    exact ⟨flight, hat, fun _ => by simp [hstage], (some.inj hrest).symm⟩
  · rename_i hstage
    exact ⟨flight, hat, fun _ => by simp [hstage], (some.inj hrest).symm⟩
  · exact absurd hrest (by simp)

lemma settle_eq_some (h : settle s i = some t) :
    ∃ flight result, s.flights[i]? = some flight ∧ flight.stage = .concluded result ∧
      t = { setStage s i flight (.settled result) with
        inflight := if get? s.inflight flight.key = some i then
          s.inflight.filter fun entry => entry.1 ≠ flight.key else s.inflight } := by
  obtain ⟨flight, hat, hrest⟩ := bind_eq_some_iff.mp h
  split at hrest
  · rename_i result hstage
    exact ⟨flight, result, hat, hstage, (some.inj hrest).symm⟩
  · exact absurd hrest (by simp)

lemma respond_eq_some {status : ℕ} {now : ℤ} (h : respond s i status now = some t) :
    ∃ flight, s.flights[i]? = some flight ∧ flight.stage = .producing ∧
      t = setStage s i flight (.reading now status) := by
  obtain ⟨flight, hat, hrest⟩ := bind_eq_some_iff.mp h
  obtain ⟨hstage, heq⟩ := ite_none_right_eq_some.mp hrest
  exact ⟨flight, hat, hstage, (some.inj heq).symm⟩

lemma deliver_eq_some (h : deliver s i = some t) :
    ∃ request wait flight result, s.requests[i]? = some request ∧ request.waits = some wait ∧
      s.flights[wait.1]? = some flight ∧ flight.stage = .settled result ∧
      t = finish s i request (delivered request wait.2 result) := by
  obtain ⟨request, hat, hreq⟩ := bind_eq_some_iff.mp h
  obtain ⟨wait, hwait, hrest⟩ := bind_eq_some_iff.mp hreq
  obtain ⟨flight, hflt, hlast⟩ := bind_eq_some_iff.mp hrest
  split at hlast
  · rename_i result hstage
    exact ⟨request, wait, flight, result, hat, hwait, hflt, hstage, (some.inj hlast).symm⟩
  · exact absurd hlast (by simp)

lemma timeout_eq_some (h : timeout s i = some t) :
    ∃ request wait cached, s.requests[i]? = some request ∧ request.waits = some wait ∧
      wait.2 = some cached ∧ t = finish s i request [⟨request, cached, .staleIfBusy⟩] := by
  obtain ⟨request, hat, hreq⟩ := bind_eq_some_iff.mp h
  obtain ⟨wait, hwait, hrest⟩ := bind_eq_some_iff.mp hreq
  obtain ⟨cached, hcach, heq⟩ := map_eq_some_iff.mp hrest
  exact ⟨request, wait, cached, hat, hwait, hcach, heq.symm⟩

lemma mem_delivered {cached result : Option Snapshot} {answer : Answer}
    (h : answer ∈ delivered request cached result) :
    answer.request = request ∧ (result = some answer.snapshot ∨ cached = some answer.snapshot) := by
  rcases result with _ | updated
  · obtain ⟨old, hold, rfl⟩ := mem_map.mp h
    exact ⟨rfl, .inr (mem_toList.mp hold)⟩
  · obtain rfl := mem_singleton.mp h
    exact ⟨rfl, .inl rfl⟩

/-- Every event keeps the cache coherent. -/
lemma Coherent.happen (h : Coherent s) (hhapp : happen s event = some t) : Coherent t := by
  rcases event with ⟨options, now⟩ | ⟨i, status, now⟩ | ⟨i, body⟩ | i | i | i | i |
    ⟨nameSpace, keyPrefix⟩
  · cases hhapp
    exact h.serve options now
  · obtain ⟨flight, hat, hstage, rfl⟩ := respond_eq_some hhapp
    exact h.setStage hat (fun _ => by simp [hstage]) _ (by simp [Stage.result])
  · obtain ⟨flight, takenAt, status, hat, hstage, rfl⟩ := conclude_eq_some hhapp
    have hset := h.setStage hat (fun _ => by simp [hstage])
      (.concluded (some ⟨takenAt, body, status, flight.startedAt⟩))
      (by simp [Stage.result])
    exact { hset with
      succeeds := by
        intro entry hent
        rcases mem_remember hent with hold | ⟨rfl, hsucc⟩
        · exact h.succeeds entry hold
        · exact hsucc }
  · obtain ⟨flight, hat, hruns, rfl⟩ := reject_eq_some hhapp
    exact h.setStage hat hruns _ (by simp [Stage.result])
  · obtain ⟨flight, result, hat, hstage, rfl⟩ := settle_eq_some hhapp
    have hruns : flight.Runs := fun _ => by simp [hstage]
    have hown := h.runs i flight hat hruns
    have hset := h.setStage hat hruns (.settled result) fun snapshot hsnap =>
      h.results flight (mem_of_getElem? hat) snapshot (by rw [hstage]; exact hsnap)
    rw [if_pos hown]
    exact { hset with
      runs := by
        intro j after hafter hstill
        -- the other refreshes that run are kept under other keys
        have hget := hset.runs j after hafter hstill
        have hne : after.key ≠ flight.key := by
          intro heq
          rw [heq] at hget
          obtain rfl := some.inj (hown.symm.trans hget)
          obtain rfl := some.inj ((getElem?_setStage_self hat).symm.trans hafter)
          exact hstill result rfl
        rw [get?_filter_ne, if_neg hne]
        exact hget
      inflight := by
        intro key j hj
        rw [get?_filter_ne] at hj
        split at hj
        · exact absurd hj (by simp)
        · exact hset.inflight key j hj }
  · obtain ⟨request, wait, flight, result, hat, -, -, -, rfl⟩ := deliver_eq_some hhapp
    exact h.finish hat fun answer hans => (mem_delivered hans).1
  · obtain ⟨request, wait, cached, hat, -, -, rfl⟩ := timeout_eq_some hhapp
    exact h.finish hat fun answer hans => by rw [mem_singleton.mp hans]
  · cases hhapp
    exact h.invalidate nameSpace keyPrefix

lemma Current.happen (hcoh : Coherent s) (h : Current s) (hcond : LeavesOvertaken s event)
    (hhapp : happen s event = some t) : Current t := by
  rcases event with ⟨options, now⟩ | ⟨i, status, now⟩ | ⟨i, body⟩ | i | i | i | i |
    ⟨nameSpace, keyPrefix⟩
  · cases hhapp
    exact h.serve hcoh hcond
  · obtain ⟨flight, hat, -, rfl⟩ := respond_eq_some hhapp
    exact h.setStage hat _
  · obtain ⟨flight, takenAt, status, hat, hstage, rfl⟩ := conclude_eq_some hhapp
    exact { h.setStage hat _ with
      stored := by
        intro entry hent invalidation hinval hmatc
        rcases mem_remember hent with hold | ⟨rfl, hsucc⟩
        · exact h.stored entry hold invalidation hinval hmatc
        · by_contra hlate
          exact hcond flight hat takenAt status hstage hsucc
            ⟨invalidation, hinval, hmatc, not_le.mp hlate⟩ }
  · obtain ⟨flight, hat, -, rfl⟩ := reject_eq_some hhapp
    exact h.setStage hat _
  · obtain ⟨flight, result, hat, -, rfl⟩ := settle_eq_some hhapp
    exact { h.setStage hat (.settled result) with }
  · obtain ⟨request, wait, flight, result, hat, hwait, hflt, hstage, rfl⟩ := deliver_eq_some hhapp
    have hreq := mem_of_getElem? hat
    refine h.finish fun answer hans => ?_
    obtain ⟨heq, hsrc⟩ := mem_delivered hans
    refine ⟨heq, fun invalidation hinval hcov hearl => ?_⟩
    obtain ⟨hstar, hcach⟩ := h.waiting request hreq wait hwait invalidation hinval hcov hearl
    rcases hsrc with rfl | hold
    · -- the result of a refresh is as old as the refresh
      have hprod := hcoh.results flight (mem_of_getElem? hflt) answer.snapshot
        (by simp [hstage, Stage.result])
      exact (hstar flight hflt).trans hprod.ge
    · exact hcach answer.snapshot hold
  · obtain ⟨request, wait, cached, hat, hwait, hold, rfl⟩ := timeout_eq_some hhapp
    refine h.finish fun answer hans => ?_
    obtain rfl := mem_singleton.mp hans
    refine ⟨rfl, fun invalidation hinval hcov hearl => ?_⟩
    exact (h.waiting request (mem_of_getElem? hat) wait hwait invalidation hinval
      hcov hearl).2 cached hold
  · cases hhapp
    exact h.invalidate hcoh nameSpace keyPrefix

lemma Coherent.step (h : Coherent s) (hstep : step s event = some t) : Coherent t := by
  obtain ⟨after, hhapp, rfl⟩ := map_eq_some_iff.mp hstep
  have hafter := h.happen hhapp
  exact { hafter with
    requests_past := fun request hreq =>
      (hafter.requests_past request hreq).trans (Nat.le_succ _)
    answers_past := fun answer hans =>
      (hafter.answers_past answer hans).trans (Nat.le_succ _)
    invalidations_past := fun invalidation hinval =>
      (hafter.invalidations_past invalidation hinval).trans (Nat.le_succ _) }

lemma Current.step (hcoh : Coherent s) (h : Current s) (hcond : LeavesOvertaken s event)
    (hstep : step s event = some t) : Current t := by
  obtain ⟨after, hhapp, rfl⟩ := map_eq_some_iff.mp hstep
  exact { h.happen hcoh hcond hhapp with }

lemma coherent_start : Coherent {} where
  runs := fun _ _ hat => absurd hat (by simp)
  inflight := fun _ _ hget => absurd hget (by simp [get?])
  succeeds := forall_mem_nil _
  results := forall_mem_nil _
  waits := forall_mem_nil _
  requests_past := forall_mem_nil _
  answers_past := forall_mem_nil _
  invalidations_past := forall_mem_nil _

lemma current_start : Current {} where
  stored := forall_mem_nil _
  waiting := forall_mem_nil _
  answered := forall_mem_nil _

lemma Coherent.oneProducer (h : Coherent s) : s.OneProducer := by
  intro i j first second hfst hsec hruns hruns' hkey
  have hi := h.runs i first hfst hruns
  rw [hkey, h.runs j second hsec hruns'] at hi
  exact (some.inj hi).symm

lemma Coherent.keepsSuccesses (h : Coherent s) : s.KeepsSuccesses := by
  refine ⟨h.succeeds, fun event t hstep herror => ?_⟩
  obtain ⟨after, hhapp, rfl⟩ := map_eq_some_iff.mp hstep
  rcases event with ⟨options, now⟩ | ⟨i, status, now⟩ | ⟨i, body⟩ | i | i | i | i |
    ⟨nameSpace, keyPrefix⟩
  · exact absurd herror id
  · exact absurd herror id
  · obtain ⟨flight, takenAt, status, hat, hstage, rfl⟩ := conclude_eq_some hhapp
    obtain ⟨flight', hat', takenAt', status', hstage', hfails⟩ := herror
    obtain rfl := some.inj (hat.symm.trans hat')
    obtain ⟨rfl, rfl⟩ := Stage.reading.inj (hstage.symm.trans hstage')
    exact if_neg hfails
  · obtain ⟨flight, hat, hruns, rfl⟩ := reject_eq_some hhapp
    rfl
  · exact absurd herror id
  · exact absurd herror id
  · exact absurd herror id
  · exact absurd herror id

/-- **Invalidation.** One refresh of an exact key runs at a time and errors replace no success; and
no stale answer is given as long as no request begins to wait for a refresh that a matching
invalidation has overtaken and no such refresh stores its snapshot. -/
theorem noStaleAnswer_of_leavesOvertaken (events : List Event) :
    (∀ done s, done <+: events → run step {} done = some s → s.OneProducer ∧ s.KeepsSuccesses) ∧
      (Meets step LeavesOvertaken {} events →
        ∀ done s, done <+: events → run step {} done = some s → s.NoStaleAnswer) := by
  constructor
  · intro done s _ hrun
    have hcoherent : Coherent s :=
      invariant_of_step (fun _ _ _ h hstep => h.step hstep) coherent_start hrun
    exact ⟨hcoherent.oneProducer, hcoherent.keepsSuccesses⟩
  · rintro hmeets done s ⟨rest, rfl⟩ hrun
    have hcurrent : Coherent s ∧ Current s :=
      invariant_of_meets (I := fun s => Coherent s ∧ Current s)
        (fun _ _ _ h hcond hstep => ⟨h.1.step hstep, h.2.step h.1 hcond hstep⟩)
        ⟨coherent_start, current_start⟩ hmeets.left hrun
    exact fun answer hanswer invalidation hinvalidation hcovers hearlier =>
      (hcurrent.2.answered answer hanswer invalidation hinvalidation hcovers hearlier).not_gt

/-- Two requests share a refresh, the namespace is invalidated when it has settled, and the next
request waits for a refresh of its own. -/
def refreshThenInvalidate : List Event :=
  [.serve ⟨"logs", "a", none, none, false⟩ 0, .serve ⟨"logs", "a", none, none, false⟩ 1,
    .respond 0 200 2, .conclude 0 "old", .settle 0, .deliver 0, .invalidate "logs" "", .deliver 1,
    .serve ⟨"logs", "a", none, none, false⟩ 3, .respond 1 200 4, .conclude 1 "new", .settle 1,
    .deliver 2]

theorem noStaleAnswer_refreshThenInvalidate : ∃ s, run step {} refreshThenInvalidate = some s ∧
    s.OneProducer ∧ s.KeepsSuccesses ∧ s.NoStaleAnswer ∧
      s.answers.map (·.snapshot.body) = ["old", "old", "new"] := by
  have hanswers : (run step {} refreshThenInvalidate).map (·.answers.map (·.snapshot.body)) =
      some ["old", "old", "new"] := by
    decide +kernel
  obtain ⟨s, hrun, hs⟩ := Option.map_eq_some_iff.mp hanswers
  obtain ⟨hkeeps, hnever⟩ := noStaleAnswer_of_leavesOvertaken refreshThenInvalidate
  obtain ⟨hone, hsucc⟩ := hkeeps _ s (prefix_refl _) hrun
  exact ⟨s, hrun, hone, hsucc, hnever (by decide +kernel) _ s (prefix_refl _) hrun, hs⟩

/-- A producer reads, the namespace is invalidated, and the next request shares the refresh of
before. -/
theorem not_noStaleAnswer_sharedRefresh :
    ¬ ∀ events done s, done <+: events → run step {} done = some s → s.NoStaleAnswer := by
  intro hall
  have hstale : (run step {} [.serve ⟨"logs", "a", none, none, false⟩ 0, .invalidate "logs" "",
      .serve ⟨"logs", "a", none, none, false⟩ 1, .respond 0 200 2, .conclude 0 "old", .settle 0,
      .deliver 1]).any (fun s =>
        s.invalidations = [⟨"logs", "", 1⟩] ∧
          s.answers = [⟨⟨"logs", "a", 2, some (0, none)⟩, ⟨2, "old", 200, 0⟩, .miss⟩]) = true := by
    decide +kernel
  obtain ⟨s, hrun, hs⟩ := (Option.any_eq_true _ _).mp hstale
  obtain ⟨hinvalidations, hanswers⟩ := of_decide_eq_true hs
  have hnever := hall _ _ s (prefix_refl _) hrun
  unfold ReadModels.NoStaleAnswer at hnever
  rw [hinvalidations, hanswers] at hnever
  exact hnever _ (mem_singleton_self _) _ (mem_singleton_self _)
    ⟨rfl, nil_prefix⟩ (by decide) (by decide)

end CtsEngine.ResponseCache
