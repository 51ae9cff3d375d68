import CtsEngine.OrderControl.Records
import CtsEngine.Transition.Runs

/-!
# Control records move forward

`Forward` is what may become of a stored record.  A write that is not late keeps the state, the
times, the order id and the response by its own rules.  The canonical position id has no rule: it is
what the snapshot of the writer says.  The two languages also differ in what they take for a missing
value.
-/

namespace CtsEngine.OrderControl

open Option List Transition ControlStore
open JsonText (Value)

variable {backend : Backend} {s t : ControlStore} {event : Event}
  {current incoming merged : DirectOrderControlRecord}

/-- An id is stored. -/
def HasId (id : Option String) : Prop := ∃ text ∈ id, text ≠ ""

/-- What may become of a stored record. -/
structure Forward (before after : DirectOrderControlRecord) : Prop where
  rank : before.state.rank ≤ after.state.rank
  completed : before.state = .completed → after.state ≠ .failed
  failed : before.state = .failed → after.state ≠ .completed
  createdAt : after.createdAt = before.createdAt
  updatedAt : before.updatedAt ≤ after.updatedAt
  orderId : HasId before.orderId → HasId after.orderId
  canonicalPositionId : HasId before.canonicalPositionId → HasId after.canonicalPositionId
  response : before.response.isSome → after.response.isSome
  settlement : isPresent before.settlement = true → isPresent after.settlement = true

/-- A write that is merged: it is of the same order and not too late. -/
def Applies (current incoming : DirectOrderControlRecord) : Prop :=
  current.fingerprint = incoming.fingerprint ∧ ¬ Stale current incoming

/-- The writer's snapshot has the canonical position id if the store has it. -/
def CarriesPosition (current incoming : DirectOrderControlRecord) : Prop :=
  HasId current.canonicalPositionId → HasId incoming.canonicalPositionId

/-- No creation time of zero gives way to another one. -/
def KeepsCreation (current incoming : DirectOrderControlRecord) : Prop :=
  current.createdAt = 0 → incoming.createdAt = 0

/-- A stored settlement that is falsy without being `null` meets no response without a
settlement. -/
def KeepsSettlement (current incoming : DirectOrderControlRecord) : Prop :=
  ∀ response ∈ incoming.response, isPresent current.settlement = true →
    isTrue current.settlement = true ∨ isPresent (settlementOf response) = true

/-- The two languages agree on which settlement is missing. -/
def SameSettlement (current incoming : DirectOrderControlRecord) : Prop :=
  ∀ response ∈ incoming.response,
    (isTrue current.settlement = true ∧ isTrue (settlementOf response) = false ↔
      isPresent current.settlement = true ∧ isPresent (settlementOf response) = false)

/-- What a write of a backend must bring along when it is merged. -/
def Carries (backend : Backend) (current incoming : DirectOrderControlRecord) : Prop :=
  Applies current incoming → CarriesPosition current incoming ∧
    (backend = .inlineLocal → KeepsCreation current incoming ∧ KeepsSettlement current incoming)

/-- Every write brings along what it must. -/
def Carried (backend : Backend) (s : ControlStore) : Event → Prop
  | .write written => written = true → ∀ holder ∈ s.queue.head?, ∀ current ∈ holder.current,
    backend = .inlineLocal → Carries .inlineLocal current holder.incoming
  | .eval incoming => backend = .shared → Carries .shared s.stored incoming
  | _ => True

@[refl] lemma Forward.refl (record : DirectOrderControlRecord) : Forward record record where
  rank := le_rfl
  completed := fun h => by simp [h]
  failed := fun h => by simp [h]
  createdAt := rfl
  updatedAt := le_rfl
  orderId := id
  canonicalPositionId := id
  response := id
  settlement := id

lemma Forward.state_eq (h : Forward current merged)
    (hterm : isTerminalDirectOrderControlState current.state = true) :
    merged.state = current.state := by
  have hrank := h.rank
  rcases hcur : current.state <;> rcases hmerg : merged.state <;>
    simp_all [isTerminalDirectOrderControlState, DirectOrderControlState.rank]
  · exact h.completed hcur hmerg
  · exact h.failed hcur hmerg

lemma Forward.trans {first second third : DirectOrderControlRecord} (h : Forward first second)
    (h' : Forward second third) : Forward first third where
  rank := h.rank.trans h'.rank
  completed := by
    intro hcompd
    have hsame := h.state_eq (by simp [hcompd, isTerminalDirectOrderControlState])
    exact h'.completed (hsame.trans hcompd)
  failed := by
    intro hfail
    have hsame := h.state_eq (by simp [hfail, isTerminalDirectOrderControlState])
    exact h'.failed (hsame.trans hfail)
  createdAt := h'.createdAt.trans h.createdAt
  updatedAt := h.updatedAt.trans h'.updatedAt
  orderId := h'.orderId ∘ h.orderId
  canonicalPositionId := h'.canonicalPositionId ∘ h.canonicalPositionId
  response := h'.response ∘ h.response
  settlement := h'.settlement ∘ h.settlement

/-! ### Merging -/

lemma hasId_strOr {first second : Option String} :
    HasId (strOr first second) ↔ HasId first ∨ HasId second := by
  unfold HasId strOr
  rcases first with _ | text
  · simp
  · by_cases hemp : text = "" <;> simp [hemp]

lemma isPresent_of_isTrue {value : Option (Value Double)} (h : isTrue value = true) :
    isPresent value = true := by
  rcases value with _ | value
  · exact absurd h (by simp [isTrue])
  · cases value <;> first | rfl | exact absurd h (by simp [isTrue, jsTruthy])

/-- A response with a settlement written into it, if there is one. -/
def withSettlement (response : List (String × Value Double)) :
    Option (Value Double) → List (String × Value Double)
  | none => response
  | some settlement => Keyed.put response "settlement" settlement

variable {settlement : Option (Value Double)} {response : List (String × Value Double)}

lemma settlementOf_withSettlement (response : List (String × Value Double))
    (h : isPresent settlement = true) :
    settlementOf (withSettlement response settlement) = settlement := by
  rcases settlement with _ | settlement
  · exact absurd h (by simp [isPresent])
  · exact Keyed.get?_put_self response "settlement" settlement

lemma mergedResponse_of_some (h : incoming.response = some response) :
    mergedResponse current incoming = some
      (if isTrue current.settlement = true ∧ isTrue (settlementOf response) = false then
        withSettlement response current.settlement else response) := by
  unfold mergedResponse
  rw [h]
  rcases hsett : current.settlement with _ | settlement
  · simp [isTrue]
  · by_cases hkept : jsTruthy settlement = true ∧ isTrue (settlementOf response) = false
    · simp [isTrue, withSettlement, hkept.1, show (settlementOf response).any jsTruthy = false from
        hkept.2]
    · have hwrote : ¬ ((jsTruthy settlement && !isTrue (settlementOf response)) = true) := by
        simpa using hkept
      have hsame : ¬ (isTrue (some settlement) = true ∧
          isTrue (settlementOf response) = false) := hkept
      dsimp only
      rw [if_neg hwrote, if_neg hsame]

lemma luaResponse_of_some (h : incoming.response = some response) :
    luaResponse current incoming = some
      (if isPresent current.settlement = true ∧ isPresent (settlementOf response) = false then
        withSettlement response current.settlement else response) := by
  unfold luaResponse DirectOrderControlRecord.settlement
  rw [h]
  rcases current.response with _ | stored
  · simp [isPresent]
  · rw [bind_some]
    dsimp only
    rcases hsett : settlementOf stored with _ | settlement
    · simp [isPresent]
    · by_cases hkept : isPresent (some settlement) = true ∧
          isPresent (settlementOf response) = false
      · simp [withSettlement, hkept.1, hkept.2]
      · have hwrote : ¬ ((isPresent (some settlement) &&
            !isPresent (settlementOf response)) = true) := by
          simpa using hkept
        dsimp only
        rw [if_neg hwrote, if_neg hkept]

lemma response_of_none (current : DirectOrderControlRecord) (h : incoming.response = none) :
    mergedResponse current incoming = current.response ∧
      luaResponse current incoming = current.response := by
  unfold mergedResponse luaResponse
  rw [h]
  rcases current.response with _ | stored <;> exact ⟨rfl, rfl⟩

lemma Applies.state (h : Applies current incoming) : current.state.rank ≤ incoming.state.rank ∧
      (isTerminalDirectOrderControlState current.state = true →
        current.state = incoming.state) := by
  unfold Applies Stale at h
  push Not at h
  exact ⟨h.2.2, h.2.1⟩

lemma forward_iff_of_applies (h : Applies current incoming) (hstate : merged.state = incoming.state)
    (hupdat : merged.updatedAt = max current.updatedAt incoming.updatedAt)
    (hord : HasId merged.orderId ↔ HasId incoming.orderId ∨ HasId current.orderId)
    (hpos : merged.canonicalPositionId = incoming.canonicalPositionId)
    (hresp : current.response.isSome → merged.response.isSome) :
    Forward current merged ↔ CarriesPosition current incoming ∧
      merged.createdAt = current.createdAt ∧
      (isPresent current.settlement = true → isPresent merged.settlement = true) := by
  obtain ⟨hrank, hterm⟩ := h.state
  constructor
  · intro hforw
    refine ⟨?_, hforw.createdAt, hforw.settlement⟩
    unfold CarriesPosition
    rw [← hpos]
    exact hforw.canonicalPositionId
  · rintro ⟨hcarr, hcreat, hsett⟩
    exact {
      rank := hstate ▸ hrank
      completed := by
        intro hcompd
        have hsame := hterm (by simp [hcompd, isTerminalDirectOrderControlState])
        rw [hstate, ← hsame, hcompd]
        decide
      failed := by
        intro hfail
        have hsame := hterm (by simp [hfail, isTerminalDirectOrderControlState])
        rw [hstate, ← hsame, hfail]
        decide
      createdAt := hcreat
      updatedAt := hupdat ▸ le_max_left _ _
      orderId := fun hid => hord.mpr (.inr hid)
      canonicalPositionId := hpos ▸ hcarr
      response := hresp
      settlement := hsett }

/-- A write that does not apply stores nothing new, and the two languages agree about it. -/
lemma writes_of_not_applies (h : ¬ Applies current incoming) :
    luaWrite current incoming = mergeDirectOrderControlRecord current incoming ∧
      (mergeDirectOrderControlRecord current incoming).getD current = current := by
  unfold mergeDirectOrderControlRecord luaWrite
  by_cases hfing : current.fingerprint ≠ incoming.fingerprint
  · rw [if_pos hfing, if_pos hfing]
    exact ⟨rfl, rfl⟩
  · rw [if_neg hfing, if_neg hfing]
    have hstale : Stale current incoming := by
      by_contra hnot
      exact h ⟨not_not.mp hfing, hnot⟩
    rw [if_pos hstale]
    refine ⟨?_, rfl⟩
    rcases hstale with ⟨hterm, hoth⟩ | hlow
    · have hrank : current.state.rank = 2 := by
        rcases hstate : current.state <;> simp_all [isTerminalDirectOrderControlState] <;> rfl
      rw [if_pos ⟨hrank, hoth⟩]
    · rw [if_pos hlow, ite_self]

lemma mergeDirectOrderControlRecord_of_applies (h : Applies current incoming) :
    mergeDirectOrderControlRecord current incoming = some { incoming with
      createdAt := if current.createdAt ≠ 0 then current.createdAt else incoming.createdAt
      updatedAt := max current.updatedAt incoming.updatedAt
      orderId := strOr incoming.orderId current.orderId
      response := mergedResponse current incoming
      lastError := mergedError current incoming } := by
  unfold mergeDirectOrderControlRecord
  rw [if_neg (not_not.mpr h.1), if_neg h.2]

lemma luaWrite_of_applies (h : Applies current incoming) :
    luaWrite current incoming = some { incoming with
      createdAt := current.createdAt
      updatedAt := max current.updatedAt incoming.updatedAt
      orderId := strOr incoming.orderId current.orderId
      response := luaResponse current incoming
      lastError := mergedError current incoming } := by
  obtain ⟨hrank, hterm⟩ := h.state
  have hsame : ¬ (current.state.rank = 2 ∧ current.state ≠ incoming.state) := by
    rintro ⟨htwo, hoth⟩
    rcases hstate : current.state <;> simp_all [isTerminalDirectOrderControlState] <;>
      simp [DirectOrderControlState.rank] at htwo
  have hord : (if incoming.orderId = none ∨ incoming.orderId = some "" then current.orderId
      else incoming.orderId) = strOr incoming.orderId current.orderId := by
    unfold strOr
    rcases incoming.orderId with _ | text
    · simp
    · by_cases hemp : text = "" <;> simp [hemp]
  have herror : (if current.state.rank < incoming.state.rank ∧ incoming.state = .completed then none
      else if incoming.lastError = none then current.lastError
      else incoming.lastError) = mergedError current incoming := by
    unfold mergedError
    rcases incoming.lastError with _ | text <;> simp
  unfold luaWrite
  rw [if_neg (not_not.mpr h.1), if_neg hsame, if_neg hrank.not_gt, hord, herror]

/-- **Inline merge.** A merged record is a step forward exactly when the snapshot carries the
position and neither a creation time of zero nor a falsy settlement is at stake. -/
lemma forward_merge_iff (h : Applies current incoming) :
    Forward current ((mergeDirectOrderControlRecord current incoming).getD current) ↔
      CarriesPosition current incoming ∧ KeepsCreation current incoming ∧
        KeepsSettlement current incoming := by
  rw [mergeDirectOrderControlRecord_of_applies h]
  have hresp : current.response.isSome → (mergedResponse current incoming).isSome := by
    intro hstor
    rcases hinc : incoming.response with _ | response
    · rwa [(response_of_none current hinc).1]
    · rw [mergedResponse_of_some hinc]
      rfl
  refine Iff.trans (forward_iff_of_applies h rfl rfl hasId_strOr rfl hresp)
    (and_congr_right fun _ => and_congr ?_ ?_)
  · unfold KeepsCreation
    by_cases hzero : current.createdAt = 0 <;> simp [hzero]
  · unfold KeepsSettlement
    rcases hinc : incoming.response with _ | response
    · have hkept := (response_of_none current hinc).1
      have hsame : (mergedResponse current incoming).bind settlementOf = current.settlement := by
        rw [hkept]
        rfl
      exact iff_of_true (fun hpres => (congrArg isPresent hsame).trans hpres)
        fun response hresp => absurd hresp (by simp)
    · have hsett : (mergedResponse current incoming).bind settlementOf =
          settlementOf (if isTrue current.settlement = true ∧
            isTrue (settlementOf response) = false then
              withSettlement response current.settlement else response) := by
        rw [mergedResponse_of_some hinc]
        rfl
      change (isPresent current.settlement = true →
        isPresent ((mergedResponse current incoming).bind settlementOf) = true) ↔ _
      rw [hsett]
      constructor
      · intro hkeeps other hoth hpres
        cases hoth
        by_contra hnot
        push Not at hnot
        have hkept := hkeeps hpres
        rw [if_neg fun hboth => hnot.1 hboth.1] at hkept
        exact hnot.2 hkept
      · intro hkeeps hpres
        split
        · rwa [settlementOf_withSettlement _ hpres]
        · rename_i hnot
          rcases hkeeps response rfl hpres with htrue | hthere
          · refine isPresent_of_isTrue ?_
            by_contra hfalse
            exact hnot ⟨htrue, by simpa using hfalse⟩
          · exact hthere

/-- **Script.** What the script writes is a step forward exactly when the snapshot carries the
position. -/
lemma forward_luaWrite_iff (h : Applies current incoming) :
    Forward current ((luaWrite current incoming).getD current) ↔
      CarriesPosition current incoming := by
  rw [luaWrite_of_applies h]
  have hresp : current.response.isSome → (luaResponse current incoming).isSome := by
    intro hstor
    rcases hinc : incoming.response with _ | response
    · rwa [(response_of_none current hinc).2]
    · rw [luaResponse_of_some hinc]
      rfl
  refine Iff.trans (forward_iff_of_applies h rfl rfl hasId_strOr rfl hresp)
    (and_iff_left ⟨rfl, fun hpres => ?_⟩)
  rcases hinc : incoming.response with _ | response
  · have hkept := (response_of_none current hinc).2
    rw [hkept]
    exact hpres
  · change isPresent ((luaResponse current incoming).bind settlementOf) = true
    rw [luaResponse_of_some hinc, bind_some]
    split
    · rwa [settlementOf_withSettlement _ hpres]
    · rename_i hnot
      by_contra hmiss
      exact hnot ⟨hpres, by simpa using hmiss⟩

lemma withSettlement_ne (hpres : isPresent settlement = true)
    (hne : settlement ≠ settlementOf response) : withSettlement response settlement ≠ response := by
  intro heq
  have hwrote := settlementOf_withSettlement response hpres
  rw [heq] at hwrote
  exact hne hwrote.symm

variable (current incoming : DirectOrderControlRecord)

/-- The two languages merge a response alike exactly when they find the same settlement missing. -/
lemma luaResponse_eq_iff : luaResponse current incoming = mergedResponse current incoming ↔
      SameSettlement current incoming := by
  unfold SameSettlement
  rcases hinc : incoming.response with _ | response
  · obtain ⟨hmerg, hlua⟩ := response_of_none current hinc
    exact iff_of_true (hlua.trans hmerg.symm) fun response hresp =>
      absurd hresp (by simp)
  · rw [mergedResponse_of_some hinc, luaResponse_of_some hinc, some.injEq]
    have hone : (∀ other ∈ some response,
        (isTrue current.settlement = true ∧ isTrue (settlementOf other) = false ↔
          isPresent current.settlement = true ∧ isPresent (settlementOf other) = false)) ↔
        (isTrue current.settlement = true ∧ isTrue (settlementOf response) = false ↔
          isPresent current.settlement = true ∧ isPresent (settlementOf response) = false) :=
      ⟨fun hall => hall response rfl, fun hsame other hoth => some.inj hoth ▸ hsame⟩
    rw [hone]
    by_cases hjs : isTrue current.settlement = true ∧ isTrue (settlementOf response) = false <;>
      by_cases hlua : isPresent current.settlement = true ∧
        isPresent (settlementOf response) = false
    · rw [if_pos hjs, if_pos hlua]
      exact iff_of_true rfl (iff_of_true hjs hlua)
    · -- the new settlement is falsy and there
      rw [if_pos hjs, if_neg hlua]
      refine iff_of_false (fun heq => ?_) fun hiff => hlua (hiff.mp hjs)
      refine withSettlement_ne (isPresent_of_isTrue hjs.1) (fun hsame => ?_) heq.symm
      rw [← hsame, hjs.1] at hjs
      exact Bool.false_ne_true hjs.2.symm
    · -- the stored settlement is falsy and there
      rw [if_neg hjs, if_pos hlua]
      refine iff_of_false (fun heq => ?_) fun hiff => hjs (hiff.mpr hlua)
      refine withSettlement_ne hlua.1 (fun hsame => ?_) heq
      rw [← hsame, hlua.1] at hlua
      exact Bool.false_ne_true hlua.2.symm
    · rw [if_neg hjs, if_neg hlua]
      exact iff_of_true rfl (iff_of_false hjs hlua)

/-- **Two languages.** The script and the merge store the same exactly when no creation time of zero
is at stake and both find the same settlement missing. -/
lemma luaWrite_eq_merge_iff :
    luaWrite current incoming = mergeDirectOrderControlRecord current incoming ↔
      (Applies current incoming →
        KeepsCreation current incoming ∧ SameSettlement current incoming) := by
  by_cases happl : Applies current incoming
  · rw [luaWrite_of_applies happl, mergeDirectOrderControlRecord_of_applies happl,
      ← luaResponse_eq_iff]
    unfold KeepsCreation
    by_cases hzero : current.createdAt = 0
    · simp [happl, hzero, and_comm, eq_comm]
    · simp [happl, hzero]
  · exact iff_of_true (writes_of_not_applies happl).1 fun happly => absurd happly happl

/-! ### Runs -/

/-- What the holder of the lock has read is still what is stored. -/
def HeldFresh (s : ControlStore) : Prop :=
  ∀ holder ∈ s.queue.head?, ∀ current ∈ holder.current, current = s.stored

/-- Only the first call of the queue has read anything. -/
def OneReader (s : ControlStore) : Prop := ∀ later ∈ s.queue.tail, later.current = none

/-- The invariant of the lock, which a shared Redis does not use. -/
structure LockOk (backend : Backend) (s : ControlStore) : Prop where
  fresh : HeldFresh s
  oneReader : OneReader s
  unused : backend = .shared → s.queue = []

lemma step_cases (h : step backend s event = some t) :
    (∃ incoming, event = .call incoming ∧ backend = .inlineLocal ∧
      t = { s with queue := s.queue ++ [{ incoming := incoming }] }) ∨
    (∃ holder rest, event = .read ∧ backend = .inlineLocal ∧ s.queue = holder :: rest ∧
      t = { s with queue := { holder with current := some s.stored } :: rest }) ∨
    (∃ holder rest current written, event = .write written ∧ backend = .inlineLocal ∧
      s.queue = holder :: rest ∧ holder.current = some current ∧
      t = ⟨if written then (mergeDirectOrderControlRecord current holder.incoming).getD s.stored
        else s.stored, rest⟩) ∨
    (∃ incoming, event = .eval incoming ∧ backend = .shared ∧
      t = { s with stored := (luaWrite s.stored incoming).getD s.stored }) := by
  rcases event with incoming | _ | written | incoming
  · obtain ⟨hinlin, heq⟩ := ite_none_right_eq_some.mp h
    exact .inl ⟨incoming, rfl, hinlin, (some.inj heq).symm⟩
  · unfold step at h
    rcases hqueue : s.queue with _ | ⟨holder, rest⟩
    · simp [hqueue] at h
    · rw [hqueue] at h
      obtain ⟨hfree, heq⟩ := ite_none_right_eq_some.mp h
      exact .inr (.inl ⟨holder, rest, rfl, hfree.1, rfl, (some.inj heq).symm⟩)
  · unfold step at h
    rcases hqueue : s.queue with _ | ⟨holder, rest⟩
    · simp [hqueue] at h
    · rw [hqueue] at h
      obtain ⟨hinlin, heq⟩ := ite_none_right_eq_some.mp h
      obtain ⟨current, hcur, rfl⟩ := map_eq_some_iff.mp heq
      exact .inr (.inr (.inl ⟨holder, rest, current, written, rfl, hinlin, rfl, hcur, rfl⟩))
  · obtain ⟨hshar, heq⟩ := ite_none_right_eq_some.mp h
    exact .inr (.inr (.inr ⟨incoming, rfl, hshar, (some.inj heq).symm⟩))

lemma LockOk.step (h : LockOk backend s) (hstep : step backend s event = some t) :
    LockOk backend t := by
  obtain ⟨hfresh, hone, hunuse⟩ := h
  rcases step_cases hstep with ⟨incoming, -, rfl, rfl⟩ | ⟨holder, rest, -, rfl, hqueue, rfl⟩ |
    ⟨holder, rest, current, written, -, rfl, hqueue, -, rfl⟩ | ⟨incoming, -, rfl, rfl⟩
  · unfold HeldFresh OneReader at *
    rcases hqueue : s.queue with _ | ⟨holder, rest⟩
    · exact ⟨by simp [HeldFresh], by simp [OneReader], by simp⟩
    · rw [hqueue] at hfresh hone
      refine ⟨by simpa [HeldFresh] using hfresh, fun later hlate => ?_, by simp⟩
      rcases mem_append.mp hlate with hold | hnew
      · exact hone later hold
      · rw [mem_singleton.mp hnew]
  · unfold OneReader at hone
    rw [hqueue] at hone
    refine ⟨fun other hoth current hcur => ?_, hone, by simp⟩
    cases hoth
    exact (some.inj hcur).symm
  · unfold OneReader at hone
    rw [hqueue] at hone
    refine ⟨fun other hoth current hcur => ?_, fun later hlate => ?_, by simp⟩
    · have hnone := hone other (mem_of_head? hoth)
      rw [hnone] at hcur
      exact absurd hcur (by simp)
    · exact hone later (mem_of_mem_tail hlate)
  · have hemp := hunuse rfl
    exact ⟨by simp [HeldFresh, hemp], hone, hunuse⟩

lemma lockOk_start (backend : Backend) (record : DirectOrderControlRecord) :
    LockOk backend { stored := record } :=
  ⟨fun _ hholde => absurd hholde (by simp), fun _ hlate => absurd hlate (by simp), fun _ => rfl⟩

/-- **One write.** A step takes the stored record forward exactly when a write that is merged
carries what it must. -/
lemma forward_step_iff (h : LockOk backend s) (hstep : step backend s event = some t) :
    Forward s.stored t.stored ↔ Carried backend s event := by
  rcases step_cases hstep with ⟨incoming, rfl, rfl, rfl⟩ | ⟨holder, rest, rfl, rfl, hqueue, rfl⟩ |
    ⟨holder, rest, current, written, rfl, rfl, hqueue, hcur, rfl⟩ | ⟨incoming, rfl, rfl, rfl⟩
  · exact iff_of_true (Forward.refl _) trivial
  · exact iff_of_true (Forward.refl _) trivial
  · have hheld : current = s.stored := h.fresh holder (by simp [hqueue]) current hcur
    subst hheld
    have hcond : Carried .inlineLocal s (.write written) ↔
        (written = true → Carries .inlineLocal s.stored holder.incoming) := by
      simp [Carried, hqueue, hcur]
    rw [hcond]
    rcases written
    · exact iff_of_true (Forward.refl _) fun hfalse => absurd hfalse Bool.false_ne_true
    · by_cases happl : Applies s.stored holder.incoming
      · refine (forward_merge_iff happl).trans ?_
        simp [Carries, happl]
      · refine iff_of_true ?_ fun _ happly => absurd happly happl
        rw [if_pos rfl, (writes_of_not_applies happl).2]
  · have hcond : Carried .shared s (.eval incoming) ↔ Carries .shared s.stored incoming := by
      simp [Carried]
    rw [hcond]
    by_cases happl : Applies s.stored incoming
    · refine (forward_luaWrite_iff happl).trans ?_
      simp [Carries, happl]
    · refine iff_of_true ?_ fun happly => absurd happly happl
      obtain ⟨hsame, hkept⟩ := writes_of_not_applies happl
      rw [hsame, hkept]

lemma carried_of_disabled (h : step backend s event = none) : Carried backend s event := by
  rcases event with incoming | _ | written | incoming
  · trivial
  · trivial
  · intro _ holder hholde current hcur hinlin
    rcases hqueue : s.queue with _ | ⟨head, rest⟩
    · simp [hqueue] at hholde
    · obtain rfl : head = holder := by simpa [hqueue] using hholde
      have hwrit : (step backend s (.write written)).isSome := by
        have hheld : head.current = some current := hcur
        simp [step, hqueue, hinlin, hheld]
      rw [h] at hwrit
      exact absurd hwrit (by simp)
  · intro hshar
    simp [step, hshar] at h

variable {events : List Event}

lemma forward_of_carried (h : LockOk backend s)
    (hmeets : Meets (step backend) (Carried backend) s events)
    (hrun : run (step backend) s events = some t) : Forward s.stored t.stored := by
  have hboth : LockOk backend t ∧ Forward s.stored t.stored :=
    invariant_of_meets (I := fun u => LockOk backend u ∧ Forward s.stored u.stored)
      (fun _ _ _ hu hcond hstep => ⟨hu.1.step hstep,
        hu.2.trans ((forward_step_iff hu.1 hstep).mpr hcond)⟩)
      ⟨h, Forward.refl _⟩ hmeets hrun
  exact hboth.2

/-- **Control records.** On either backend the stored record only moves forward between any two
moments of a run exactly when every merged write carries the canonical position id and, on the
inline backend, meets neither a creation time of zero nor a falsy settlement. -/
theorem forward_iff_carried (backend : Backend) (record : DirectOrderControlRecord)
    (events : List Event) (current incoming : DirectOrderControlRecord) :
    (Meets (step backend) (Carried backend) { stored := record } events ↔
      ∀ done more s t, done ++ more <+: events →
        run (step backend) { stored := record } done = some s →
          run (step backend) s more = some t → Forward s.stored t.stored) ∧
    (luaWrite current incoming = mergeDirectOrderControlRecord current incoming ↔
      (Applies current incoming →
        KeepsCreation current incoming ∧ SameSettlement current incoming)) := by
  refine ⟨⟨?_, fun hall => ?_⟩, luaWrite_eq_merge_iff current incoming⟩
  · rintro hmeets done more s t ⟨rest, rfl⟩ hdone hmore
    have hlock : LockOk backend s :=
      invariant_of_step (fun _ _ _ h hstep => h.step hstep) (lockOk_start backend record) hdone
    rw [append_assoc] at hmeets
    exact forward_of_carried hlock (hmeets.right hdone).left hmore
  · refine meets_of_reached fun done event s hpre hdone => ?_
    have hlock : LockOk backend s :=
      invariant_of_step (fun _ _ _ h hstep => h.step hstep) (lockOk_start backend record) hdone
    rcases hstep : step backend s event with _ | t
    · exact carried_of_disabled hstep
    · exact (forward_step_iff hlock hstep).mp
        (hall done [event] s t hpre hdone (by rw [run_singleton, hstep]))

/-- A control order that is acknowledged, and whose position is known. -/
def acknowledgedClose : DirectOrderControlRecord where
  fingerprint := "f"
  state := .acknowledged
  connectionId := "bingx-x01"
  clientOrderId := "dtclose1"
  positionId := some "row"
  canonicalPositionId := some "live-1"
  exchangeClientOrderId := "dtclose1"
  symbol := "BTC-USDT"
  direction := .short
  positionDirection := .long
  reduceOnly := true
  quantity := 1
  orderType := .market
  orderId := none
  response := none
  lastError := none
  createdAt := 1000
  updatedAt := 1000

/-- A party acknowledges the order with a snapshot from before its position was known. -/
theorem not_forward_staleSnapshot :
    ¬ ∀ (backend : Backend) (record : DirectOrderControlRecord) (events : List Event)
      (done more : List Event) (s t : ControlStore), done ++ more <+: events →
        run (step backend) { stored := record } done = some s →
          run (step backend) s more = some t → Forward s.stored t.stored := by
  intro hall
  have hlost := (hall .shared acknowledgedClose _ []
    [.eval { acknowledgedClose with canonicalPositionId := none }] _ _ (prefix_refl _)
    rfl rfl).canonicalPositionId ⟨"live-1", rfl, by decide⟩
  have hgone : ((luaWrite acknowledgedClose
      { acknowledgedClose with canonicalPositionId := none }).getD
        acknowledgedClose).canonicalPositionId = none := by
    decide +kernel
  obtain ⟨text, htext, -⟩ := hlost
  exact absurd (hgone.symm.trans htext) (by simp)

/-! ### The lock -/

/-- What one write makes of the stored record. -/
def Backend.write (backend : Backend) (stored incoming : DirectOrderControlRecord) :
    DirectOrderControlRecord :=
  match backend with
  | .inlineLocal => (mergeDirectOrderControlRecord stored incoming).getD stored
  | .shared => (luaWrite stored incoming).getD stored

/-- The record of the call that an event starts. -/
def Event.called : Event → Option DirectOrderControlRecord
  | .call incoming => some incoming
  | .eval incoming => some incoming
  | _ => none

def ControlStore.merges (s : ControlStore) : Event → List DirectOrderControlRecord
  | .write true => (s.queue.head?.map LockedCall.incoming).toList
  | .eval incoming => [incoming]
  | _ => []

/-- The records that a run merges, in the order in which it does. -/
def mergedBy (backend : Backend) : ControlStore → List Event → List DirectOrderControlRecord
  | _, [] => []
  | s, event :: events =>
    s.merges event ++ ((step backend s event).map fun t => mergedBy backend t events).getD []

/-- One event merges into what is stored, and serves the calls in their order. -/
lemma step_atomic (h : LockOk backend s) (hstep : step backend s event = some t) :
    t.stored = (s.merges event).foldl backend.write s.stored ∧
      (s.merges event ++ t.queue.map LockedCall.incoming).Sublist
        (s.queue.map LockedCall.incoming ++ event.called.toList) := by
  rcases step_cases hstep with ⟨incoming, rfl, rfl, rfl⟩ | ⟨holder, rest, rfl, rfl, hqueue, rfl⟩ |
    ⟨holder, rest, current, written, rfl, rfl, hqueue, hcur, rfl⟩ | ⟨incoming, rfl, rfl, rfl⟩
  · exact ⟨rfl, by simp [merges, Event.called]⟩
  · exact ⟨rfl, by simp [merges, hqueue]⟩
  · rcases written
    · exact ⟨rfl, by simp [merges, hqueue]⟩
    · have hheld : current = s.stored := h.fresh holder (by simp [hqueue]) current hcur
      exact ⟨by simp [merges, Backend.write, hqueue, hheld],
        by simp [merges, hqueue]⟩
  · exact ⟨rfl, by simp [merges, Event.called, h.unused rfl]⟩

lemma run_atomic (h : LockOk backend s)
    (hrun : run (step backend) s events = some t) :
    t.stored = (mergedBy backend s events).foldl backend.write s.stored ∧
      (mergedBy backend s events ++ t.queue.map LockedCall.incoming).Sublist
        (s.queue.map LockedCall.incoming ++ events.filterMap Event.called) := by
  induction events generalizing s with
  | nil =>
    cases hrun
    exact ⟨rfl, by simp [mergedBy]⟩
  | cons event events ih =>
    obtain ⟨r, hstep, hrest⟩ := run_cons_eq_some.mp hrun
    obtain ⟨hstored, hserved⟩ := step_atomic h hstep
    obtain ⟨hstored', hserved'⟩ := ih (h.step hstep) hrest
    have hmerged : mergedBy backend s (event :: events) =
        s.merges event ++ mergedBy backend r events := by rw [mergedBy, hstep]; rfl
    have hcalled : (event :: events).filterMap Event.called =
        event.called.toList ++ events.filterMap Event.called := by
      rw [filterMap_cons]
      cases event.called <;> rfl
    rw [hmerged, hcalled, foldl_append, ← hstored, append_assoc, ← append_assoc (s.queue.map _)]
    refine ⟨hstored', ((Sublist.refl _).append hserved').trans ?_⟩
    rw [← append_assoc]
    exact hserved.append (Sublist.refl _)

/-- **Atomic writes.**  In every interleaving the stored record is what the merged records make of
the first one, each of them merged into all that was merged before it; they are merged in the order
of the calls, and none twice. -/
theorem stored_eq_mergedBy (record : DirectOrderControlRecord)
    (hrun : run (step backend) { stored := record } events = some t) :
    t.stored = (mergedBy backend { stored := record } events).foldl backend.write record ∧
      (mergedBy backend { stored := record } events ++ t.queue.map LockedCall.incoming).Sublist
        (events.filterMap Event.called) :=
  run_atomic (lockOk_start backend record) hrun

/-- Two calls line up, and the second one has read what the first one stored. -/
theorem stored_eq_mergedBy_twoCalls : ∃ t, run (step .inlineLocal) { stored := acknowledgedClose }
      [.call acknowledgedClose, .call acknowledgedClose, .read, .write true, .read] = some t ∧
    t.stored = Backend.inlineLocal.write acknowledgedClose acknowledgedClose := by
  obtain ⟨t, hrun⟩ : ∃ t, run (step .inlineLocal) { stored := acknowledgedClose }
      [.call acknowledgedClose, .call acknowledgedClose, .read, .write true, .read] = some t :=
    ⟨_, rfl⟩
  exact ⟨t, hrun, (stored_eq_mergedBy acknowledgedClose hrun).1⟩

end CtsEngine.OrderControl
