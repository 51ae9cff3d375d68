import CtsEngine.DirectOrder.Accounting

/-!
# Placements and counts of one direct order

A control id is claimed by storing its record, and only the call that stored it places the order.
Its events are counted under the id of the order at the venue, or what stands for that id while it
is not known; an order that is counted under two such identities is counted twice.
-/

namespace CtsEngine.DirectOrder

open Option List OrderControl Nat ControlRun
open Transition
open VenueReply

variable {backend : Backend} {connector : Connector} {control : Control} {s t : ControlRun}
  {event : Event} {call : Call} {next : Option Call} {i : ℕ} {identity : String}

/-! ### Claims -/

/-- A call that may still place the order. -/
def claimOf (call : Option Call) : ℕ :=
  match call.map Call.phase with
  | some .claiming => 1
  | some .releasing => 1
  | some .settingUp => 1
  | _ => 0

/-- A call whose claim is persisted. -/
def readyOf (call : Option Call) : ℕ :=
  match call.map Call.phase with
  | some .settingUp => 1
  | _ => 0

lemma readyOf_le_claimOf (call : Option Call) : readyOf call ≤ claimOf call := by
  unfold readyOf claimOf
  split
  · next hph => simp [hph]
  · exact zero_le _

/-- Either nobody has placed the order and at most one call may, or it was placed once; and what is
placed is stored and persisted. -/
structure ClaimOk (s : ControlRun) : Prop where
  once : (s.calls.map claimOf).sum + s.placements ≤ 1
  stored : s.stored = none → (s.calls.map claimOf).sum + s.placements = 0
  durable : s.durable = false → (s.calls.map readyOf).sum + s.placements = 0

/-- A call that neither may place the order nor places it. -/
structure Idle (call : Option Call) : Prop where
  claim : claimOf call = 0
  ready : readyOf call = 0
  places : placesNow call = 0

lemma idle_none : Idle none := ⟨rfl, rfl, rfl⟩

lemma callAt_eq_some (h : s.callAt i = some call) : s.calls[i]? = some (some call) := by
  unfold callAt at h
  cases hat : s.calls[i]? with
  | none => simp [hat] at h
  | some found => simpa [hat] using h

lemma ClaimOk.proceed (h : ClaimOk s) (hcall : s.callAt i = some call)
    (hcalls : t.calls = s.calls.set i next)
    (hplac : t.placements = s.placements + placesNow next)
    (hstor : t.stored = none → s.stored = none)
    (hdurab : t.durable = false → s.durable = false)
    (hclaim : claimOf next + placesNow next ≤ claimOf (some call))
    (hready : readyOf next + placesNow next ≤ readyOf (some call)) : ClaimOk t := by
  have hclaims := sum_map_set claimOf next (callAt_eq_some hcall)
  have hread := sum_map_set readyOf next (callAt_eq_some hcall)
  have honce := h.once
  refine ⟨?_, fun hnone => ?_, fun hnot => ?_⟩
  · rw [hcalls]
    omega
  · have hzero := h.stored (hstor hnone)
    rw [hcalls]
    omega
  · have hzero := h.durable (hdurab hnot)
    rw [hcalls]
    omega

lemma ClaimOk.idle (h : ClaimOk s) (hcall : s.callAt i = some call) (hidle : Idle next)
    (hcalls : t.calls = s.calls.set i next)
    (hplac : t.placements = s.placements + placesNow next)
    (hstor : t.stored = none → s.stored = none) (hdurab : t.durable = s.durable) :
    ClaimOk t :=
  h.proceed hcall hcalls hplac hstor (fun hnot => hdurab.symm.trans hnot)
    (by rw [hidle.claim, hidle.places]; exact zero_le _)
    (by rw [hidle.ready, hidle.places]; exact zero_le _)

/-! ### Calls that are idle -/

lemma Idle.some_ite {c : Prop} [Decidable c] {first second : Call} (hfst : Idle (some first))
    (hsec : Idle (some second)) : Idle (some (if c then first else second)) := by
  split
  · exact hfst
  · exact hsec

lemma Idle.ite {c : Prop} [Decidable c] {first second : Option Call} (hfst : Idle first)
    (hsec : Idle second) : Idle (if c then first else second) := by
  split
  · exact hfst
  · exact hsec

variable (connector)

lemma idle_afterHydration (call : Call) (result : Value)
    (orderId : String) : Idle (some (afterHydration connector call result orderId)) := by
  have hsett : ∀ id, Idle (some { call with phase := .settling result id }) :=
    fun _ => ⟨rfl, rfl, rfl⟩
  have hprep : ∀ id, Idle (some { call with phase := .preparing result id none }) :=
    fun _ => ⟨rfl, rfl, rfl⟩
  unfold afterHydration
  exact .some_ite (hsett _) (hprep _)

variable (record : DirectOrderControlRecord)

lemma idle_afterAcknowledgement (call : Call) (result : Value) :
    Idle (afterAcknowledgement connector call result record) :=
  .ite idle_none (.ite ⟨rfl, rfl, rfl⟩ (idle_afterHydration ..))

variable (control)

lemma idle_afterPlacement (call : Call) (answer : Except Value Value) :
    Idle (some (afterPlacement control call answer)) := by
  cases answer with
  | error error => exact .some_ite ⟨rfl, rfl, rfl⟩ ⟨rfl, rfl, rfl⟩
  | ok result =>
    exact .some_ite ⟨rfl, rfl, rfl⟩ (.some_ite ⟨rfl, rfl, rfl⟩
      (.some_ite ⟨rfl, rfl, rfl⟩ ⟨rfl, rfl, rfl⟩))

lemma idle_afterPreparation (call : Call) (result : Value) (orderId : String)
    (settlement : Option Value) (position protection : StoredValue) :
    Idle (afterPreparation control call result orderId settlement position protection) :=
  .ite idle_none ⟨rfl, rfl, rfl⟩

lemma idle_afterReconciliation (call : Call)
    (reconciled : Value) :
    Idle (some (afterReconciliation connector control call reconciled)) :=
  .some_ite ⟨rfl, rfl, rfl⟩ ⟨rfl, rfl, rfl⟩

variable {control}

lemma idle_lookUp (call : Call) (left : ℕ) : Idle (some (lookUp call left)) := by
  rcases left with _ | left <;> exact ⟨rfl, rfl, rfl⟩

lemma idle_replay (input : Input) :
    Idle (replay connector input record) := by
  unfold replay
  split
  · exact .ite ⟨rfl, rfl, rfl⟩ idle_none
  · exact idle_lookUp ..

variable {connector}

lemma idle_answered {reply : ConnectorReply Value}
    (h : answered connector control call reply = some next) : Idle next := by
  unfold answered at h
  split at h
  · cases h
    exact idle_afterHydration ..
  · cases h
    exact ⟨rfl, rfl, rfl⟩
  · split at h
    · cases h
      exact idle_afterReconciliation ..
    · cases h
      exact idle_lookUp ..
  · cases h
    exact ⟨rfl, rfl, rfl⟩
  · cases h
    cases settlementIn (call.record.orderId.getD "") reply <;> exact ⟨rfl, rfl, rfl⟩
  · cases h

lemma idle_afterWrite (connector : Connector) (call : Call) :
    Idle (afterWrite connector call record) := by
  unfold afterWrite
  split
  · exact idle_afterAcknowledgement ..
  · exact idle_none

lemma claimOf_afterClaim (control : Control) (call : Call) :
    claimOf (some (afterClaim control call)) + placesNow (some (afterClaim control call)) = 1 := by
  unfold afterClaim
  cases control.reduceOnly <;> rfl

lemma ClaimOk.enter (h : ClaimOk s) (backend : Backend) (connector : Connector)
    (control : Control) (input : Input) (now : ℚ) :
    ClaimOk (enter backend connector control s input now) := by
  unfold DirectOrder.enter
  split
  · next record hstor =>
    have hidle : Idle (if record.fingerprint = control.fingerprint then
        replay connector input record else none) := by
      split
      · exact idle_replay ..
      · exact idle_none
    refine ⟨?_, fun hnone => ?_, fun hnot => ?_⟩
    · simpa [begin, hidle.claim, hidle.places] using h.once
    · exact absurd (hstor.symm.trans hnone) (by simp)
    · simpa [begin, hidle.ready, hidle.places] using h.durable hnot
  · next hnone =>
    have hzero := h.stored hnone
    have hready : (s.calls.map readyOf).sum ≤ (s.calls.map claimOf).sum :=
      sum_le_sum fun call _ => readyOf_le_claimOf call
    refine ⟨?_, fun hnot => ?_, fun hnot => ?_⟩
    · cases backend with
      | shared =>
        have hone := claimOf_afterClaim control
          { input := input, record := claimRecord control input now, phase := .claiming }
        simp [begin]
        omega
      | inlineLocal =>
        simp [begin, claimOf, placesNow]
        omega
    · cases hnot
    · cases backend with
      | shared => simp [begin] at hnot
      | inlineLocal =>
        simp [begin, readyOf, placesNow]
        omega

/-- The claim that is durable is handed on to the phase behind it. -/
lemma ClaimOk.persist (h : ClaimOk s) (hcall : s.callAt i = some call)
    (hph : call.phase = .claiming) :
    ClaimOk { s.proceed i (some (afterClaim control call)) with durable := true } := by
  have hmine : claimOf (some call) = 1 := by simp [claimOf, hph]
  have hone := claimOf_afterClaim control call
  have hclaims := sum_map_set claimOf (some (afterClaim control call)) (callAt_eq_some hcall)
  have honce := h.once
  refine ⟨?_, fun hnone => ?_, nofun⟩
  · simp only [ControlRun.proceed]
    omega
  · have hzero := h.stored hnone
    simp only [ControlRun.proceed]
    omega

/-- The only claim ends with the record it stands for. -/
lemma ClaimOk.release (h : ClaimOk s) (hcall : s.callAt i = some call)
    (hph : call.phase = .releasing) :
    ClaimOk { s.proceed i none with stored := none, durable := false } := by
  have hmine : claimOf (some call) = 1 := by simp [claimOf, hph]
  have hclaims := sum_map_set claimOf none (callAt_eq_some hcall)
  have hready : ((s.calls.set i none).map readyOf).sum ≤ ((s.calls.set i none).map claimOf).sum :=
    sum_le_sum fun call _ => readyOf_le_claimOf call
  have honce := h.once
  have hnone : claimOf none = 0 := rfl
  have hplac : placesNow none = 0 := rfl
  refine ⟨?_, fun _ => ?_, fun _ => ?_⟩ <;> simp only [ControlRun.proceed] <;> omega

lemma ClaimOk.count (h : ClaimOk s) (hcall : s.callAt i = some call)
    (hstep : DirectOrder.count control s i call = some t) : ClaimOk t := by
  unfold DirectOrder.count at hstep
  split at hstep
  · cases hstep
  · next counted identity todo htodo =>
    cases hstep
    have hclaims := sum_map_set claimOf (some { call with todo := todo }) (callAt_eq_some hcall)
    have hread := sum_map_set readyOf (some { call with todo := todo }) (callAt_eq_some hcall)
    have hclaim : claimOf (some { call with todo := todo }) = claimOf (some call) := rfl
    have hready : readyOf (some { call with todo := todo }) = readyOf (some call) := rfl
    have honce := h.once
    refine ⟨?_, fun hnone => ?_, fun hnot => ?_⟩
    · dsimp only
      omega
    · have hzero := h.stored hnone
      dsimp only
      omega
    · have hzero := h.durable hnot
      dsimp only
      omega

lemma ClaimOk.write {ending : WriteEnd} {now : ℚ} (h : ClaimOk s) (hcall : s.callAt i = some call)
    (hstep : DirectOrder.write backend connector control s i call ending now = some t) :
    ClaimOk t := by
  unfold DirectOrder.write at hstep
  split at hstep
  · cases hstep
  · obtain ⟨incoming, -, rfl⟩ := map_eq_some_iff.mp hstep
    dsimp only
    split
    · exact h.idle hcall (idle_afterWrite ..) rfl rfl nofun rfl
    · exact h.idle hcall idle_none rfl rfl nofun rfl
    · exact h.idle hcall idle_none rfl rfl id rfl

/-- Every step keeps the order placed at most once. -/
lemma ClaimOk.step (h : ClaimOk s) (hstep : step backend connector control s event = some t) :
    ClaimOk t := by
  cases event with
  | enter input now =>
    cases hstep
    exact h.enter ..
  | persisted i done =>
    obtain ⟨call, hcall, hstep⟩ := bind_eq_some_iff.mp hstep
    split at hstep
    · next hph =>
      cases hstep
      cases done with
      | true => exact h.persist hcall hph
      | false =>
        exact h.proceed hcall rfl rfl id id (by simp [claimOf, placesNow, hph])
          (by simp [readyOf, placesNow])
    · cases hstep
  | released i =>
    obtain ⟨call, hcall, hstep⟩ := bind_eq_some_iff.mp hstep
    split at hstep
    · next hph =>
      cases hstep
      exact h.release hcall hph
    · cases hstep
  | setUp i failure =>
    obtain ⟨call, hcall, hstep⟩ := bind_eq_some_iff.mp hstep
    split at hstep
    · next hph =>
      cases hstep
      cases failure with
      | none =>
        exact h.proceed hcall rfl rfl id id (by simp [claimOf, placesNow, hph])
          (by simp [readyOf, placesNow, hph])
      | some error =>
        exact h.idle hcall ⟨rfl, rfl, rfl⟩ rfl rfl id rfl
    · cases hstep
  | placed i answer =>
    obtain ⟨call, hcall, hstep⟩ := bind_eq_some_iff.mp hstep
    split at hstep
    · cases hstep
      exact h.idle hcall (idle_afterPlacement control call answer) rfl rfl id rfl
    · cases hstep
  | answered i reply =>
    obtain ⟨call, hcall, hstep⟩ := bind_eq_some_iff.mp hstep
    obtain ⟨next, hnext, rfl⟩ := map_eq_some_iff.mp hstep
    exact h.idle hcall (idle_answered hnext) rfl rfl id rfl
  | listed i openOrders history =>
    obtain ⟨call, hcall, hstep⟩ := bind_eq_some_iff.mp hstep
    split at hstep
    · cases hstep
      refine h.idle hcall ?_ rfl rfl id rfl
      cases head? _ with
      | none => exact idle_none
      | some row => exact idle_afterReconciliation ..
    · cases hstep
  | prepared i position protection =>
    obtain ⟨call, hcall, hstep⟩ := bind_eq_some_iff.mp hstep
    split at hstep
    · cases hstep
      exact h.idle hcall (idle_afterPreparation ..) rfl rfl id rfl
    · cases hstep
  | count i =>
    obtain ⟨call, hcall, hstep⟩ := bind_eq_some_iff.mp hstep
    exact h.count hcall hstep
  | write i ending now =>
    obtain ⟨call, hcall, hstep⟩ := bind_eq_some_iff.mp hstep
    exact h.write hcall hstep
  | stop i =>
    obtain ⟨call, hcall, rfl⟩ := map_eq_some_iff.mp hstep
    exact h.idle hcall idle_none rfl rfl id rfl
  | otherCount key =>
    cases hstep
    exact ⟨h.once, h.stored, h.durable⟩
  | countsExpire =>
    cases hstep
    exact ⟨h.once, h.stored, h.durable⟩

/-- The events of an order that the venue accepted. -/
def orderEvents : List ProgressEvent := [.placed, .filled]

lemma suffix_trim {text : String} (start : List Char) {word : List Char}
    (htext : text.toList = start ++ ':' :: word)
    (hword : ∀ c ∈ word.reverse.head?, isJsSpace c = false) : word <:+ (trim text).toList := by
  have hdrop : ∃ rest, text.toList.dropWhile isJsSpace = rest ++ ':' :: word := by
    rw [htext, dropWhile_append]
    split
    · exact ⟨[], rfl⟩
    · exact ⟨_, rfl⟩
  obtain ⟨rest, hrest⟩ := hdrop
  have hback : (rest ++ ':' :: word).reverse.dropWhile isJsSpace =
      (rest ++ ':' :: word).reverse := by
    refine dropWhile_of_head? fun c hc => ?_
    rw [reverse_append, reverse_cons] at hc
    cases hlast : word.reverse with
    | nil =>
      rw [hlast] at hc
      obtain rfl : ':' = c := by simpa using hc
      decide
    | cons last before =>
      rw [hlast] at hc hword
      exact hword c hc
  refine ⟨rest ++ [':'], ?_⟩
  rw [trim, String.toList_ofList, hrest, hback, reverse_reverse, append_assoc, singleton_append]

lemma head?_reverse_text (event : ProgressEvent) : event.text.toList.reverse.head? = some 'd' := by
  cases event <;> rfl

lemma text_suffix_progressKey (control : Control) (identity : String) (event : ProgressEvent) :
    event.text.toList <:+ (progressKey control identity event).toList := by
  refine suffix_trim (control.symbol ++ ":" ++ directionText control.direction ++ ":" ++
    identity).toList (by simp) fun c hc => ?_
  obtain rfl := some.inj ((head?_reverse_text event).symm.trans hc)
  rfl

lemma progressKey_ne {event other : ProgressEvent} (hevent : event ∈ orderEvents)
    (hne : other ≠ event) (control : Control) (identity identity' : String) :
    progressKey control identity' other ≠ progressKey control identity event := by
  intro hsame
  have hoth := text_suffix_progressKey control identity' other
  rw [hsame] at hoth
  have hnest := suffix_or_suffix_of_suffix hoth (text_suffix_progressKey control identity event)
  revert hnest
  revert hevent hne
  cases event <;> cases other <;> decide

/-! ### Counts -/

/-- An event of the order is counted at most once, and it is counted as soon as a call has come to
count it. -/
structure CountOk (control : Control) (identity : String) (s : ControlRun)
    (event : ProgressEvent) : Prop where
  counted : event ∈ s.added ↔ progressKey control identity event ∈ s.counted
  once : s.added.count event ≤ 1
  asked : event ∈ s.asked ↔ event ∈ s.added

/-- Every call that counts the order counts it under this identity, no other order is counted under
it, and the counted events are not forgotten once one of the order is among them. -/
def CountsAlike (control : Control) (identity : String) (s : ControlRun) : Event → Prop
  | .count i => ∀ call ∈ s.callAt i, ∀ entry ∈ call.todo.head?, entry.1 ∈ orderEvents →
      entry.2 = identity ∧ identity ≠ ""
  | .otherCount key => ∀ event ∈ orderEvents, key ≠ progressKey control identity event
  | .countsExpire => ∀ event ∈ orderEvents, event ∉ s.asked
  | _ => True

instance (control : Control) (identity : String) (s : ControlRun) (event : Event) :
    Decidable (CountsAlike control identity s event) := by
  cases event <;> unfold CountsAlike <;> infer_instance

/-- Only a count, another key and the expiry change the counters. -/
lemma step_counts (h : step backend connector control s event = some t) :
    (t.counted = s.counted ∧ t.asked = s.asked ∧ t.added = s.added) ∨
    (∃ i call, event = .count i ∧ s.callAt i = some call ∧ count control s i call = some t) ∨
    (∃ key, event = .otherCount key ∧ t = { s with counted := s.counted ++ [key] }) ∨
    event = .countsExpire ∧ t = { s with counted := [] } := by
  cases event with
  | enter input now =>
    cases h
    unfold enter
    split <;> exact .inl ⟨rfl, rfl, rfl⟩
  | persisted i done =>
    obtain ⟨call, -, h⟩ := bind_eq_some_iff.mp h
    split at h
    · cases h
      cases done <;> exact .inl ⟨rfl, rfl, rfl⟩
    · cases h
  | answered i reply =>
    obtain ⟨call, -, h⟩ := bind_eq_some_iff.mp h
    obtain ⟨next, -, rfl⟩ := map_eq_some_iff.mp h
    exact .inl ⟨rfl, rfl, rfl⟩
  | count i =>
    obtain ⟨call, hcall, h⟩ := bind_eq_some_iff.mp h
    exact .inr (.inl ⟨i, call, rfl, hcall, h⟩)
  | write i ending now =>
    obtain ⟨call, -, h⟩ := bind_eq_some_iff.mp h
    unfold write at h
    split at h
    · cases h
    · obtain ⟨incoming, -, rfl⟩ := map_eq_some_iff.mp h
      dsimp only
      split <;> exact .inl ⟨rfl, rfl, rfl⟩
  | stop i =>
    obtain ⟨call, -, rfl⟩ := map_eq_some_iff.mp h
    exact .inl ⟨rfl, rfl, rfl⟩
  | otherCount key =>
    cases h
    exact .inr (.inr (.inl ⟨key, rfl, rfl⟩))
  | countsExpire =>
    cases h
    exact .inr (.inr (.inr ⟨rfl, rfl⟩))
  | _ =>
    obtain ⟨call, -, h⟩ := bind_eq_some_iff.mp h
    split at h
    · cases h
      exact .inl ⟨rfl, rfl, rfl⟩
    · cases h

section

variable {counting : ProgressEvent} (h : CountOk control identity s counting)
  (hevent : counting ∈ orderEvents)

include h hevent

/-- Counting keeps an event counted at most once. -/
lemma CountOk.count (halike : ∀ entry ∈ call.todo.head?,
      entry.1 ∈ orderEvents → entry.2 = identity ∧ identity ≠ "")
    (hcnt : count control s i call = some t) : CountOk control identity t counting := by
  unfold DirectOrder.count at hcnt
  split at hcnt
  · cases hcnt
  · next other identity' todo htodo =>
    cases hcnt
    by_cases hsame : other = counting
    · subst hsame
      obtain ⟨rfl, hne⟩ := halike (other, identity') (by simp [htodo]) hevent
      have hkey : eventKey control identity' other = some (progressKey control identity' other) :=
        if_neg hne
      by_cases hthere : progressKey control identity' other ∈ s.counted
      · have hadded := h.counted.mpr hthere
        refine ⟨?_, ?_, ?_⟩
        · simpa [hkey, hthere] using hadded
        · simpa [hkey, hthere] using h.once
        · simpa [hkey, hthere] using hadded
      · have hnew : other ∉ s.added := fun hmem => hthere (h.counted.mp hmem)
        refine ⟨?_, ?_, ?_⟩
        · simp [hkey, hthere]
        · simp [hkey, hthere, count_eq_zero_of_not_mem hnew]
        · simp [hkey, hthere]
    · have hkey : ∀ key ∈ eventKey control identity' other,
          key ≠ progressKey control identity counting := by
        intro key hmem
        unfold eventKey at hmem
        split at hmem
        · cases hmem
        · cases hmem
          exact progressKey_ne hevent hsame control identity identity'
      have hcntd : ∀ keys : List String,
          progressKey control identity counting ∈ keys ++
            (eventKey control identity' other).toList ↔
            progressKey control identity counting ∈ keys := by
        cases hnone : eventKey control identity' other with
        | none => simp
        | some key => simp [(hkey key hnone).symm]
      have hadded : ∀ events : List ProgressEvent,
          counting ∈ events ++ [other] ↔ counting ∈ events := by
        simp [Ne.symm hsame]
      refine ⟨?_, ?_, ?_⟩ <;> dsimp only <;> split
      · rw [hadded, hcntd]
        exact h.counted
      · exact h.counted
      · simpa [hsame] using h.once
      · exact h.once
      · rw [hadded, hadded]
        exact h.asked
      · rw [hadded]
        exact h.asked

lemma CountOk.step (halike : CountsAlike control identity s event)
    (hstep : step backend connector control s event = some t) :
    CountOk control identity t counting := by
  rcases step_counts hstep with ⟨hcntd, hasked, hadded⟩ | ⟨i, call, rfl, hcall, hcnt⟩ |
    ⟨key, rfl, rfl⟩ | ⟨rfl, rfl⟩
  · exact ⟨by rw [hcntd, hadded]; exact h.counted, by rw [hadded]; exact h.once,
      by rw [hasked, hadded]; exact h.asked⟩
  · exact h.count hevent (halike call hcall) hcnt
  · have hoth : key ≠ progressKey control identity counting := halike counting hevent
    refine ⟨?_, h.once, h.asked⟩
    simpa [hoth.symm] using h.counted
  · have hnever : counting ∉ s.asked := halike counting hevent
    have hmiss : counting ∉ s.added := fun hmem => hnever (h.asked.mpr hmem)
    exact ⟨by simpa using hmiss, h.once, h.asked⟩

end

/-- **One order.** The calls for one control id place at most one order, after its record is stored
and persisted; and if they all count it under one identity that no other order has, each of its
events is counted once as soon as a call comes to count it. -/
theorem placed_and_counted_once (backend : Backend) (connector : Connector) (control : Control)
    (identity : String) (events : List Event) :
    (∀ done s, done <+: events → run (step backend connector control) {} done = some s →
      s.placements ≤ 1 ∧ (0 < s.placements → s.stored.isSome = true ∧ s.durable = true)) ∧
    (Meets (step backend connector control) (CountsAlike control identity) {} events →
      ∀ done s, done <+: events → run (step backend connector control) {} done = some s →
        ∀ counting ∈ orderEvents,
          s.added.count counting ≤ 1 ∧ (counting ∈ s.asked → counting ∈ s.added)) := by
  refine ⟨fun done s _ hrun => ?_, fun hmeets done s hdone hrun counting hevent => ?_⟩
  · have hok : ClaimOk s := by
      refine invariant_of_step (fun _ _ _ h hstep => ClaimOk.step h hstep) ?_ hrun
      exact ⟨zero_le _, fun _ => rfl, fun _ => rfl⟩
    have honce := hok.once
    refine ⟨by omega, fun hplaced => ⟨?_, ?_⟩⟩
    · by_contra hnone
      have hzero := hok.stored (by simpa using hnone)
      omega
    · by_contra hnot
      have hzero := hok.durable (by simpa using hnot)
      omega
  · obtain ⟨rest, rfl⟩ := hdone
    have hok : CountOk control identity s counting := by
      refine invariant_of_meets (I := fun s => CountOk control identity s counting)
        (fun _ _ _ h hcond hstep => h.step hevent hcond hstep) ?_ hmeets.left hrun
      exact ⟨by simp, by simp, by simp⟩
    exact ⟨hok.once, hok.asked.mp⟩

/-- The venue accepts an order with this id; the first call counts it after these reads, and then a
replay finds it under the id 77 and counts it again. -/
def lateIdRun (orderId : Value) (reads : List Event) : List Event :=
  [.enter unitInput 1000, .setUp 0 none,
    .placed 0 (.ok (.object [("success", .boolean true), ("orderId", orderId),
      ("status", .text "NEW")])), .write 0 .stored 1001] ++ reads ++
  [.prepared 0 .null .null, .count 0, .write 0 .stored 1002, .enter unitInput 2000,
    .answered 1 (.returned (.object [("orderId", .text "77"), ("clientOrderId", .text "dtentry1"),
      ("status", .text "FILLED"), ("executedQty", .number (.finite 1)),
      ("avgPrice", .number (.finite 100))])),
    .answered 1 (.threw "timed out"), .count 1, .count 1, .write 1 .stored 2001]

/-- A run in which the order has the same id from the start. -/
theorem placed_and_counted_once_knownId :
    Meets (step .shared queryingConnector marketEntry) (CountsAlike marketEntry "77") {}
      (lateIdRun (.text "77") [.answered 0 (.threw "timed out")]) ∧
    ∀ done s, done <+: lateIdRun (.text "77") [.answered 0 (.threw "timed out")] →
      run (step .shared queryingConnector marketEntry) {} done = some s → ∀ counting ∈ orderEvents,
          s.added.count counting ≤ 1 ∧ (counting ∈ s.asked → counting ∈ s.added) := by
  have hmeets : Meets (step .shared queryingConnector marketEntry) (CountsAlike marketEntry "77") {}
      (lateIdRun (.text "77") [.answered 0 (.threw "timed out")]) := by decide +kernel
  exact ⟨hmeets, (placed_and_counted_once _ _ _ _ _).2 hmeets⟩

/-- An order whose id is not known when it is first counted is counted as placed twice. -/
theorem not_counted_once_lateId :
    ¬ ∀ (backend : Backend) (connector : Connector) (control : Control) (events : List Event)
      (s : ControlRun), run (step backend connector control) {} events = some s →
        ∀ counting ∈ orderEvents, s.added.count counting ≤ 1 := by
  intro hall
  have hadded : ((run (step .shared queryingConnector marketEntry) {}
      (lateIdRun .undefined [])).map (·.added)) = some [.placed, .placed, .filled] := by
    decide +kernel
  obtain ⟨s, hrun, hs⟩ := map_eq_some_iff.mp hadded
  have honce := hall _ _ _ _ s hrun .placed (by decide)
  rw [hs] at honce
  exact absurd honce (by decide)

end CtsEngine.DirectOrder
