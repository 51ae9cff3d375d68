import CtsEngine.Refresh.Queue
import CtsEngine.Transition.Runs

/-!
# The index of stored requests

A poll of `getQueuedEngineRefreshRequests` reads the index, then each request, and takes the
connections it found without a request out of the index.  The writes of the hash and of the index
are one script, the clean-up of the poll is not: a request that is written after the poll has read
its hash loses its entry (`refreshIndex_forgets`).

The scripts are called with any arguments, so that every enqueue, failure record and clear of
every connection is a step.  The connections that the recovery of queues older than the index finds
are any list.
-/

namespace CtsEngine

open List Transition Expiring

/-- Where a poll stands. -/
inductive PollPhase
  | idle
  /-- The connections that are not read yet, and those found without a request. -/
  | reading (pending missing : List String)

/-- The request hashes, the index, and the polls. -/
structure QueueSystem where
  now : ℕ
  rows : String → Option (Expiring RequestHash)
  index : List String
  poll : ℕ → PollPhase

/-- Nothing is stored. -/
def queueStart : QueueSystem := ⟨0, fun _ => none, [], fun _ => .idle⟩

/-- A step. -/
inductive QueueAction
  | tick (elapsed : ℕ)
  | persist (connectionId version action timestamp : String) (fields : List (String × String))
  | clear (connectionId requestId version action timestamp : String)
  /-- The `SMEMBERS` of a poll; an empty or failed reply is made up for by the recovery. -/
  | list (reader : ℕ) (recovered : List String) (wire : Wire)
  /-- The read of one request; the replies come in any order. -/
  | readRequest (reader : ℕ) (connectionId : String) (wire : Wire)
  /-- The `SREM` of what was not found, and the end of the poll. -/
  | prune (reader : ℕ) (wire : Wire)

namespace QueueSystem

/-- The hash of a `HGETALL`. -/
def stored (s : QueueSystem) (connectionId : String) : RequestHash :=
  (live s.now (s.rows connectionId)).getD []

/-- Move a poll to another phase. -/
def enter (s : QueueSystem) (reader : ℕ) (phase : PollPhase) : QueueSystem :=
  { s with poll := Function.update s.poll reader phase }

/-- Write the hash of a connection. -/
def setRow (s : QueueSystem) (connectionId : String) (row : Option (Expiring RequestHash)) :
    QueueSystem :=
  { s with rows := Function.update s.rows connectionId row }

end QueueSystem

section Step

variable (js : JsTexts) (collatesAfter : String → String → Bool) (ttlMs : ℕ)

def queueStep (s : QueueSystem) : QueueAction → Option QueueSystem
  | .tick elapsed => some { s with now := s.now + elapsed }
  | .persist connectionId version action timestamp fields =>
    match persistScript collatesAfter (s.stored connectionId) version action timestamp fields with
    | some hash =>
      some { s.setRow connectionId (some ⟨hash, s.now + ttlMs⟩) with
        index := if connectionId ∈ s.index then s.index else s.index ++ [connectionId] }
    | none => some s
  | .clear connectionId requestId version action timestamp =>
    if clearScript (s.stored connectionId) requestId version action timestamp then
      some { s.setRow connectionId none with index := s.index.filter (· != connectionId) }
    else some s
  | .list reader recovered wire =>
    match s.poll reader with
    | .idle =>
      let ids := if wire = .answered ∧ s.index ≠ [] then s.index else recovered
      some (s.enter reader (.reading ids.dedup []))
    | .reading _ _ => none
  | .readRequest reader connectionId wire =>
    match s.poll reader with
    | .reading pending missing =>
      if connectionId ∈ pending then
        let found := decide (wire = .answered) &&
          isRequest (CtsEngine.readRequest js (s.stored connectionId))
        some (s.enter reader (.reading (pending.erase connectionId)
          (if found then missing else connectionId :: missing)))
      else none
    | .idle => none
  | .prune reader wire =>
    match s.poll reader with
    | .reading [] missing =>
      let index := if wire = .unsent then s.index else s.index.filter (· ∉ missing)
      some { s.enter reader .idle with index := index }
    | _ => none

/-- Every connection with a stored request is in the index. -/
def IndexCovers (s : QueueSystem) : Prop :=
  ∀ connectionId, s.stored connectionId ≠ [] → connectionId ∈ s.index

/-- The connections that an action takes out of the index because they were found without a
request. -/
def pruned (s : QueueSystem) : QueueAction → List String
  | .prune reader wire =>
    match s.poll reader with
    | .reading [] missing => if wire = .unsent then [] else missing
    | _ => []
  | _ => []

/-- A clean-up takes out no connection whose request is stored. -/
def PrunesMissing (s : QueueSystem) (action : QueueAction) : Prop :=
  ∀ connectionId ∈ pruned s action, s.stored connectionId = []

end Step

/-! ## One step -/

variable {js : JsTexts} {collatesAfter : String → String → Bool} {ttlMs : ℕ}

@[simp] lemma QueueSystem.setRow_stored_of_ne (s : QueueSystem) {connectionId other : String}
    (row : Option (Expiring RequestHash)) (h : other ≠ connectionId) :
    (s.setRow connectionId row).stored other = s.stored other := by
  simp [stored, setRow, h]

variable (connectionId : String)

@[simp] lemma QueueSystem.setRow_none_stored (s : QueueSystem) :
    (s.setRow connectionId none).stored connectionId = [] := by
  simp [stored, setRow, live]

variable {s : QueueSystem}

lemma QueueSystem.stored_of_tick {elapsed : ℕ} {connectionId : String}
    (h : QueueSystem.stored { s with now := s.now + elapsed } connectionId ≠ []) :
    s.stored connectionId ≠ [] := by
  cases hlive : live (s.now + elapsed) (s.rows connectionId) with
  | none =>
    exfalso
    apply h
    unfold stored
    rw [hlive]
    rfl
  | some hash =>
    obtain ⟨expiresAt, hrow, hnow⟩ := live_eq_some.mp hlive
    have hearl : live s.now (s.rows connectionId) = some hash :=
      live_eq_some.mpr ⟨expiresAt, hrow, lt_of_le_of_lt (Nat.le_add_right ..) hnow⟩
    unfold stored at h ⊢
    rw [hlive] at h
    rwa [hearl]

lemma IndexCovers.persist (hs : IndexCovers s)
    (row : Option (Expiring RequestHash)) : IndexCovers { s.setRow connectionId row with
      index := if connectionId ∈ s.index then s.index else s.index ++ [connectionId] } := by
  intro other hoth
  have hmono : ∀ id ∈ s.index,
      id ∈ if connectionId ∈ s.index then s.index else s.index ++ [connectionId] := by
    intro id hid
    split
    · exact hid
    · exact mem_append_left _ hid
  by_cases hsame : other = connectionId
  · subst hsame
    change other ∈ if other ∈ s.index then s.index else s.index ++ [other]
    split
    · assumption
    · exact mem_concat_self
  · apply hmono
    apply hs
    intro hemp
    apply hoth
    exact (s.setRow_stored_of_ne row hsame).trans hemp

lemma IndexCovers.clear (hs : IndexCovers s) :
    IndexCovers { s.setRow connectionId none with
      index := s.index.filter (· != connectionId) } := by
  intro other hoth
  by_cases hsame : other = connectionId
  · subst hsame
    exact absurd (s.setRow_none_stored other) hoth
  · have hstor : s.stored other ≠ [] := by
      intro hemp
      apply hoth
      exact (s.setRow_stored_of_ne none hsame).trans hemp
    exact mem_filter.mpr ⟨hs other hstor, by simpa using hsame⟩

/-- A step keeps the index complete exactly when it takes out no stored request. -/
lemma prunesMissing_iff (action : QueueAction) (hs : IndexCovers s) : PrunesMissing s action ↔
      ∀ t, queueStep js collatesAfter ttlMs s action = some t → IndexCovers t := by
  unfold PrunesMissing
  fun_cases queueStep js collatesAfter ttlMs s action
  case case11 reader wire missing hph index =>
    simp only [pruned, hph]
    constructor
    · intro hmiss t hstep
      cases hstep
      intro id hid
      have hmem := hs id hid
      change id ∈ if wire = .unsent then s.index else s.index.filter (· ∉ missing)
      by_cases hunsen : wire = .unsent
      · rwa [if_pos hunsen]
      · rw [if_neg hunsen] at hmiss ⊢
        have hkept : id ∉ missing := fun hin => hid (hmiss id hin)
        exact mem_filter.mpr ⟨hmem, decide_eq_true hkept⟩
    · intro hcov id hid
      by_contra hstor
      have hmem := hcov _ rfl id hstor
      by_cases hunsen : wire = .unsent
      · rw [if_pos hunsen] at hid
        exact absurd hid not_mem_nil
      · rw [if_neg hunsen] at hid
        have hmem : id ∈ index := hmem
        rw [show index = _ from if_neg hunsen] at hmem
        exact absurd hid (of_decide_eq_true (mem_filter.mp hmem).2)
  case case12 reader wire hoth =>
    refine iff_of_true ?_ nofun
    rw [pruned]
    split
    · next missing hph => exact absurd hph (hoth missing)
    · exact forall_mem_nil _
  -- the other actions take nothing out of the index
  all_goals
    refine iff_of_true (forall_mem_nil _) fun t hstep => ?_
    cases hstep
    try exact hs
  next elapsed => exact fun id hid => hs id (QueueSystem.stored_of_tick hid)
  next connectionId _ _ _ _ hash _ => exact hs.persist connectionId _
  next connectionId _ _ _ _ _ => exact hs.clear connectionId

/-- **The index covers the queue.** All along a run every stored request is in the index, exactly
when no clean-up of the run takes out a connection whose request is stored. -/
theorem refreshIndex_covers_iff (js : JsTexts) (collatesAfter : String → String → Bool)
    (ttlMs : ℕ) (as : List QueueAction) :
    Meets (queueStep js collatesAfter ttlMs) PrunesMissing queueStart as ↔
      ∀ bs t, bs <+: as → run (queueStep js collatesAfter ttlMs) queueStart bs = some t →
        IndexCovers t :=
  meets_iff_invariant (fun _ action hs => prunesMissing_iff action hs) as
    (fun _ hid => absurd rfl hid)

/-- The write of a request of a connection. -/
def enqueueOf (connectionId version timestamp : String) : QueueAction :=
  .persist connectionId version "refresh" timestamp
    [("connectionId", connectionId), ("action", "refresh"), ("state_switch_version", version),
      ("timestamp", timestamp)]

/-- A request expires, a poll reads that it is missing, the next request is written, and the poll
takes its connection out of the index. -/
theorem refreshIndex_forgets :
    ¬ ∀ (js : JsTexts) (collatesAfter : String → String → Bool) (ttlMs : ℕ)
      (as : List QueueAction) (t : QueueSystem),
      run (queueStep js collatesAfter ttlMs) queueStart as = some t → IndexCovers t := by
  intro hall
  have hrun : (run (queueStep ⟨fun q => toString q.num, fun _ => false, fun _ => .nan, id, id⟩
      (fun s t => decide (t < s)) 600000) queueStart
      [enqueueOf "bingx" "5" "2026-01-01T00:00:00.000Z", .tick 600000, .list 0 [] .answered,
        .readRequest 0 "bingx" .answered, enqueueOf "bingx" "6" "2026-01-01T00:10:00.000Z",
        .prune 0 .answered]).map
      (fun t => decide (t.stored "bingx" ≠ []) && decide ("bingx" ∉ t.index)) = some true := by
    decide +kernel
  obtain ⟨t, ht, hforgotten⟩ := Option.map_eq_some_iff.mp hrun
  obtain ⟨hstored, habsent⟩ := (Bool.and_eq_true ..).mp hforgotten
  exact of_decide_eq_true habsent (hall _ _ _ _ t ht "bingx" (of_decide_eq_true hstored))

end CtsEngine
