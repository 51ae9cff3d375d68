import Mathlib.Data.List.TakeWhile
import CtsEngine.Refresh.Queue
import CtsEngine.Transition.Runs

/-!
# Runs of the request slot

The scripts let a stored request be replaced only by one that is not behind it, and a clear removes
only the request it names.  A failure is recorded without a look at whether the request is still
stored: a request that was cleared while a worker was acting on it comes back when that worker's
action throws (`refreshSlot_restoresCleared`).
-/

namespace CtsEngine

open List Transition Keyed SettingsValue

variable (js : JsTexts) (collatesAfter : String → String → Bool) (ttlMs : ℕ)

/-! ## Identifiers -/

variable (id : RequestId)

lemma colon_mem_requestId : ':' ∈ id.text.toList := by
  simp [RequestId.text]

lemma requestId_head : ∃ c rest, id.text.toList = c :: rest ∧ c.isDigit = true := by
  obtain ⟨c, rest, hpid⟩ := exists_cons_of_ne_nil (Nat.toDigits_ne_nil (b := 10) (n := id.pid))
  have hmem : c ∈ Nat.toDigits 10 id.pid := by
    rw [hpid]
    exact mem_cons_self ..
  refine ⟨c, rest ++ ':' :: ((toString id.mintedAt).toList ++ ':' :: id.random.toList), ?_,
    Nat.isDigit_of_mem_toDigits (by decide) (by decide) hmem⟩
  simp [RequestId.text, hpid]

lemma isDigits_of_colon {cs : List Char} (h : ':' ∈ cs) : isDigits cs = false := by
  have hall : cs.all Char.isDigit = false := by
    rw [all_eq_false]
    exact ⟨':', h, by decide⟩
  simp [isDigits, hall]

lemma isDigits_fraction_of_colon {cs fraction : List Char} (h : ':' ∈ cs)
    (hdrop : cs.dropWhile Char.isDigit = '.' :: fraction) : isDigits fraction = false := by
  apply isDigits_of_colon
  have hsplit := takeWhile_append_dropWhile (p := Char.isDigit) (l := cs)
  rw [hdrop] at hsplit
  rw [← hsplit, mem_append, mem_cons] at h
  rcases h with htake | hdot | hmem
  · exact absurd (mem_takeWhile_imp htake) (by decide)
  · exact absurd hdot (by decide)
  · exact hmem

lemma isPlainNumeral_of_colon {cs : List Char} (h : ':' ∈ cs) : isPlainNumeral cs = false := by
  unfold isPlainNumeral
  split
  · rename_i rest
    have hrest : ':' ∈ rest := by simpa using h
    simp only [isDigits_of_colon hrest, Bool.false_or]
    split
    · rename_i fraction hdrop
      rw [isDigits_fraction_of_colon hrest hdrop, Bool.and_false]
    · rfl
  · simp only [isDigits_of_colon h, Bool.false_or]
    split
    · rename_i fraction hdrop
      rw [isDigits_fraction_of_colon h hdrop, Bool.and_false]
    · rfl

lemma parseHashValue_requestId : parseHashValue js id.text = .text id.text := by
  obtain ⟨c, rest, hchars, hdigit⟩ := requestId_head id
  have hcolon := colon_mem_requestId id
  have hjson : looksLikeJson id.text.toList = false := by
    rw [hchars]
    have hbrace : c ≠ '\x7b' := by
      rintro rfl
      exact absurd hdigit (by decide)
    have hbrac : c ≠ '[' := by
      rintro rfl
      exact absurd hdigit (by decide)
    simp [looksLikeJson, hbrace, hbrac]
  have hword : ∀ word : String, ':' ∉ word.toList → id.text ≠ word := by
    intro word hno heq
    rw [heq] at hcolon
    exact hno hcolon
  unfold parseHashValue
  rw [hjson, isPlainNumeral_of_colon hcolon]
  simp [hword "1" (by decide), hword "true" (by decide), hword "0" (by decide),
    hword "false" (by decide)]

lemma requestId_ne_empty : id.text ≠ "" := by
  intro heq
  have hcolon := colon_mem_requestId id
  rw [heq] at hcolon
  exact absurd hcolon (by decide)

/-! ## The records that are written -/

/-- The request that a hash is the record of. -/
def hashId (hash : RequestHash) : Option String := get? hash "requestId"

/-- A hash with unique fields and one of the identifiers. -/
structure HashNamed (ids : List String) (hash : RequestHash) : Prop where
  unique : KeysUnique hash
  named : ∃ id ∈ ids, hashId hash = some id

/-- A copy with unique properties and one of the identifiers. -/
structure CopyNamed (ids : List String) (copy : RequestObject) : Prop where
  unique : KeysUnique copy
  named : ∃ id ∈ ids, get? copy "requestId" = some (.text id)

variable {hash after : RequestHash} {copy object : RequestObject}
  {key version action timestamp : String} {ids ids' : List String} {s t : RefreshSystem}

lemma keysUnique_hsetFields (huniq : KeysUnique hash) (fields : List (String × String)) :
    KeysUnique (hsetFields hash fields) := by
  induction fields generalizing hash with
  | nil => exact huniq
  | cons field rest ih => exact ih (huniq.put field.1 field.2)

lemma keysUnique_failureRecord (huniq : KeysUnique copy) (lastError nowText : String) :
    KeysUnique (failureRecord js copy lastError nowText) := by
  unfold failureRecord
  simp only [foldl_cons, foldl_nil]
  exact ((((huniq.put _ _).put _ _).put _ _).put _ _).put _ _

lemma get?_failureRecord (copy : RequestObject) (lastError nowText : String)
    (h : key ∉ ["retryCount", "lastError", "lastErrorAt", "refresh_last_error",
      "refresh_last_attempt_at"]) :
    get? (failureRecord js copy lastError nowText) key = get? copy key := by
  simp only [mem_cons, not_mem_nil, or_false, not_or] at h
  obtain ⟨hretry, herror, herrorAt, hlast, hattem⟩ := h
  unfold failureRecord
  simp only [foldl_cons, foldl_nil]
  rw [get?_put_of_ne _ _ hattem, get?_put_of_ne _ _ hlast,
    get?_put_of_ne _ _ herrorAt, get?_put_of_ne _ _ herror,
    get?_put_of_ne _ _ hretry]

lemma get?_queuedRequest (request : EngineRefreshRequest) (id : RequestId) (nowText : String) :
    get? (queuedRequest request id nowText).own "requestId" = some (.text id.text) ∧
      get? (queuedRequest request id nowText).own "state_switch_version" =
        some request.stateSwitchVersion ∧
      get? (queuedRequest request id nowText).own "action" = some (.text request.action) ∧
      get? (queuedRequest request id nowText).own "timestamp" = some (.text request.timestamp) := by
  simp [EngineRefreshRequest.own, EngineRefreshRequest.properties, queuedRequest, get?]

lemma get?_persistScript (huniq : KeysUnique object)
    (h : persistScript collatesAfter hash version action timestamp
      (serializeRefreshRequest js object) = some after) {value : SettingsValue}
    (hval : get? object key = some value) :
    get? after key = some (value.serialized js) := by
  obtain ⟨-, hafter⟩ := Option.ite_none_right_eq_some.mp h
  rw [← Option.some.inj hafter, get?_hsetFields _ (keysUnique_serializeRefreshRequest js huniq),
    serializeRefreshRequest, get?_map_value, hval]
  rfl

lemma HashNamed.persist {id : String} (hhash : KeysUnique hash)
    (huniq : KeysUnique object) (hid : get? object "requestId" = some (.text id))
    (hmem : id ∈ ids) (h : persistScript collatesAfter hash version action timestamp
      (serializeRefreshRequest js object) = some after) :
    HashNamed ids after ∧ hashId after = some id := by
  have hname : hashId after = some id := get?_persistScript js collatesAfter huniq h hid
  refine ⟨⟨?_, id, hmem, hname⟩, hname⟩
  obtain ⟨-, hafter⟩ := Option.ite_none_right_eq_some.mp h
  rw [← Option.some.inj hafter]
  exact keysUnique_hsetFields hhash _

lemma HashNamed.read {ids : List String} {hash : RequestHash} (hhash : HashNamed ids hash)
    (hids : ∀ id ∈ ids, ∃ requestId : RequestId, requestId.text = id) :
    CopyNamed ids (readRequest js hash) := by
  obtain ⟨id, hmem, hname⟩ := hhash.named
  obtain ⟨requestId, rfl⟩ := hids id hmem
  constructor
  · unfold readRequest KeysUnique
    rw [map_map]
    exact hhash.unique
  · refine ⟨requestId.text, hmem, ?_⟩
    unfold readRequest
    rw [get?_map_value, show get? hash "requestId" = some requestId.text from hname]
    exact congrArg some (parseHashValue_requestId js requestId)

lemma HashNamed.mono (hhash : HashNamed ids hash) (hsub : ids ⊆ ids') : HashNamed ids' hash := by
  obtain ⟨id, hmem, hname⟩ := hhash.named
  exact ⟨hhash.unique, id, hsub hmem, hname⟩

lemma CopyNamed.mono (hcopy : CopyNamed ids copy) (hsub : ids ⊆ ids') : CopyNamed ids' copy := by
  obtain ⟨id, hmem, hname⟩ := hcopy.named
  exact ⟨hcopy.unique, id, hsub hmem, hname⟩

/-! ## The invariant -/

/-- Every stored hash and every copy is of a request that was enqueued. -/
structure RefreshInvariant (s : RefreshSystem) : Prop where
  ids : ∀ id ∈ s.enqueued, ∃ requestId : RequestId, requestId.text = id
  nodup : s.enqueued.Nodup
  row : ∀ r, s.row = some r → HashNamed s.enqueued r.value
  copies : ∀ worker copy, (s.phase worker).copy? = some copy → CopyNamed s.enqueued copy
  cleared : ∀ id ∈ s.cleared, id ∈ s.enqueued

/-- No cleared request is stored. -/
def NothingRestored (s : RefreshSystem) : Prop :=
  ∀ r, s.row = some r → ∀ id, hashId r.value = some id → id ∉ s.cleared

namespace RefreshSystem

variable (s)

lemma stored_cases : s.stored = [] ∨ ∃ expiresAt, s.row = some ⟨s.stored, expiresAt⟩ := by
  cases hlive : Expiring.live s.now s.row with
  | none => exact .inl (by rw [stored, hlive]; rfl)
  | some hash =>
    obtain ⟨expiresAt, hrow, -⟩ := Expiring.live_eq_some.mp hlive
    refine .inr ⟨expiresAt, ?_⟩
    rw [stored, hlive]
    exact hrow

@[simp] lemma enter_phase_self (worker : ℕ) (phase : RefreshPhase) :
    (s.enter worker phase).phase worker = phase := by
  simp [enter]

lemma enter_phase_of_ne {worker other : ℕ} (phase : RefreshPhase)
    (h : other ≠ worker) : (s.enter worker phase).phase other = s.phase other := by
  simp [enter, h]

lemma write_cases (ttlMs : ℕ) (written : Option RequestHash) :
    s.write ttlMs written = s ∨ ∃ hash, written = some hash ∧
        s.write ttlMs written = { s with row := some ⟨hash, s.now + ttlMs⟩ } := by
  cases written with
  | none => exact .inl rfl
  | some hash => exact .inr ⟨hash, rfl, rfl⟩

variable {s}

end RefreshSystem

/-- The copy whose failure an action records. -/
def failingCopy (s : RefreshSystem) : RefreshAction → Option RequestObject
  | .recordFailure worker _ _ wire =>
    match s.phase worker with
    | .failing copy => if wire = .unsent then none else some copy
    | _ => none
  | _ => none

/-- A copy that a worker holds was read from the slot. -/
lemma refreshStep_copies {action : RefreshAction}
    (hstep : refreshStep js collatesAfter ttlMs s action = some t) {worker : ℕ}
    (hcopy : (t.phase worker).copy? = some copy) :
    (s.phase worker).copy? = some copy ∨ s.stored ≠ [] ∧ copy = readRequest js s.stored := by
  -- A worker that moves on holds what it held or what it has just read.
  have hmove : ∀ {u : RefreshSystem} {mover : ℕ} {phase : RefreshPhase},
      u.phase = (s.enter mover phase).phase → (u.phase worker).copy? = some copy →
      (∀ held, phase.copy? = some held → (s.phase mover).copy? = some held ∨
        s.stored ≠ [] ∧ held = readRequest js s.stored) →
      (s.phase worker).copy? = some copy ∨ s.stored ≠ [] ∧ copy = readRequest js s.stored := by
    intro u mover phase hph hu hheld
    rw [hph] at hu
    by_cases hsame : worker = mover
    · subst hsame
      rw [RefreshSystem.enter_phase_self] at hu
      exact hheld copy hu
    · rw [RefreshSystem.enter_phase_of_ne s _ hsame] at hu
      exact .inl hu
  revert hstep
  fun_cases refreshStep js collatesAfter ttlMs s action
  all_goals
    intro hstep
    cases hstep
    try exact .inl hcopy
  next request id nowText _ =>
    refine .inl ?_
    rcases s.write_cases ttlMs (enqueueScript js collatesAfter s.stored request id nowText) with
      hwr | ⟨hash, -, hwr⟩
    all_goals simpa [hwr] using hcopy
  next mover hread =>
    refine hmove rfl hcopy fun held hheld =>
      .inr ⟨fun hemp => ?_, (Option.some.inj hheld).symm⟩
    have hreq := hread.2
    rw [hemp] at hreq
    exact absurd hreq (by simp [readRequest, isRequest, get?])
  next mover held hph _ =>
    exact hmove rfl hcopy fun _ hheld => .inl (hph ▸ hheld)
  next mover held hph _ => exact hmove rfl hcopy nofun
  next mover held hph => exact hmove rfl hcopy fun _ hheld => .inl (hph ▸ hheld)
  next mover held lost hph _ =>
    exact hmove rfl hcopy fun _ hheld => .inl (hph ▸ hheld)
  next mover held lost hph => exact hmove rfl hcopy fun _ hheld => .inl (hph ▸ hheld)
  next mover processed held lost hph =>
    refine hmove rfl hcopy fun other hheld => ?_
    split at hheld
    · exact .inl (hph ▸ hheld)
    · cases hheld
  next mover held lost hph => exact hmove rfl hcopy fun _ hheld => .inl (hph ▸ hheld)
  next mover wire held recordsError hph next after =>
    have hsame : (after.enter mover next).phase = (s.enter mover next).phase := by
      unfold after
      split <;> rfl
    refine hmove hsame hcopy fun other hheld => ?_
    unfold next at hheld
    split_ifs at hheld
    · exact .inl (hph ▸ hheld)
    all_goals cases hheld
  next mover lastError nowText wire held hph after =>
    have hsame : (after.enter mover .releasing).phase = (s.enter mover .releasing).phase := by
      unfold after
      split
      · rfl
      · rcases s.write_cases ttlMs
          (failureScript js collatesAfter s.stored held lastError nowText) with
          hwr | ⟨hash, -, hwr⟩
        all_goals rw [hwr]
        rfl
    exact hmove hsame hcopy nofun
  next mover hph => exact hmove rfl hcopy nofun

/-- What a step does to the hash. -/
inductive RowStep (s t : RefreshSystem) (action : RefreshAction) : Prop
  | quiet (row : t.row = s.row) (enqueued : t.enqueued = s.enqueued)
    (cleared : t.cleared = s.cleared)
  | refused (request : EngineRefreshRequest) (id : RequestId) (nowText : String)
    (isEnqueue : action = .enqueue request id nowText) (fresh : id.text ∉ s.enqueued)
    (row : t.row = s.row) (enqueued : t.enqueued = id.text :: s.enqueued)
    (cleared : t.cleared = s.cleared)
  | enqueued (request : EngineRefreshRequest) (id : RequestId) (nowText : String)
    (isEnqueue : action = .enqueue request id nowText) (fresh : id.text ∉ s.enqueued)
    (after : RequestHash)
    (written : enqueueScript js collatesAfter s.stored request id nowText = some after)
    (row : t.row = some ⟨after, s.now + ttlMs⟩) (enqueued : t.enqueued = id.text :: s.enqueued)
    (cleared : t.cleared = s.cleared)
  | failed (worker : ℕ) (copy : RequestObject) (lastError nowText : String)
    (isFailure : failingCopy s action = some copy)
    (held : (s.phase worker).copy? = some copy) (after : RequestHash)
    (written : failureScript js collatesAfter s.stored copy lastError nowText = some after)
    (row : t.row = some ⟨after, s.now + ttlMs⟩) (enqueued : t.enqueued = s.enqueued)
    (cleared : t.cleared = s.cleared)
  | removed (worker : ℕ) (wire : Wire) (copy : RequestObject)
    (isClear : action = .clear worker wire) (held : (s.phase worker).copy? = some copy)
    (clears : clearsStored js s copy = true) (row : t.row = none)
    (enqueued : t.enqueued = s.enqueued)
    (cleared : t.cleared = (hashId s.stored).getD "" :: s.cleared)

lemma refreshStep_row {action : RefreshAction}
    (hstep : refreshStep js collatesAfter ttlMs s action = some t) :
    RowStep js collatesAfter ttlMs s t action := by
  revert hstep
  fun_cases refreshStep js collatesAfter ttlMs s action
  all_goals
    intro hstep
    cases hstep
    try exact .quiet rfl rfl rfl
  next request id nowText hfresh =>
    rcases s.write_cases ttlMs (enqueueScript js collatesAfter s.stored request id nowText) with
      hwr | ⟨after, hwrote, hwr⟩
    · exact .refused request id nowText rfl hfresh.2 (by rw [hwr]) rfl (by rw [hwr])
    · exact .enqueued request id nowText rfl hfresh.2 after hwrote (by rw [hwr]) rfl (by rw [hwr])
  next mover wire copy recordsError hph next after =>
    by_cases hclear : wire ≠ .unsent ∧ clearsStored js s copy = true
    · rw [show after = s.remove from if_pos hclear]
      exact .removed mover wire copy rfl (by rw [hph]; rfl) hclear.2 rfl rfl rfl
    · rw [show after = s from if_neg hclear]
      exact .quiet rfl rfl rfl
  next mover lastError nowText wire copy hph after =>
    by_cases hunsen : wire = .unsent
    · rw [show after = s from if_pos hunsen]
      exact .quiet rfl rfl rfl
    · rw [show after = s.write ttlMs _ from if_neg hunsen]
      rcases s.write_cases ttlMs
        (failureScript js collatesAfter s.stored copy lastError nowText) with
        hwr | ⟨after, hwrote, hwr⟩
      · rw [hwr]
        exact .quiet rfl rfl rfl
      · rw [hwr]
        exact .failed mover copy lastError nowText (by simp [failingCopy, hph, hunsen])
          (by rw [hph]; rfl) after hwrote rfl rfl rfl

/-! ## What every step keeps -/

lemma refreshInvariant_start : RefreshInvariant refreshStart where
  ids := forall_mem_nil _
  nodup := nodup_nil
  row := fun r h => nomatch h
  copies := fun worker copy h => absurd h (by simp [refreshStart, RefreshPhase.copy?])
  cleared := forall_mem_nil _

variable {js collatesAfter ttlMs}

namespace RefreshInvariant

variable {s : RefreshSystem}

lemma stored_named (hs : RefreshInvariant s) (hne : s.stored ≠ []) :
    HashNamed s.enqueued s.stored := by
  rcases s.stored_cases with hemp | ⟨expiresAt, hrow⟩
  · exact absurd hemp hne
  · exact hs.row _ hrow

lemma stored_unique (hs : RefreshInvariant s) : KeysUnique s.stored := by
  by_cases hemp : s.stored = []
  · rw [hemp]
    exact nodup_nil
  · exact (hs.stored_named hemp).unique

lemma failed_named (hs : RefreshInvariant s) {worker : ℕ}
    {copy : RequestObject} (hheld : (s.phase worker).copy? = some copy) {after : RequestHash}
    {lastError nowText : String}
    (h : failureScript js collatesAfter s.stored copy lastError nowText = some after) :
    HashNamed s.enqueued after ∧ get? copy "requestId" = (hashId after).map text := by
  obtain ⟨huniq, id, hmem, hname⟩ := hs.copies worker copy hheld
  have hid : get? (failureRecord js copy lastError nowText) "requestId" = some (.text id) := by
    rw [get?_failureRecord js copy lastError nowText (by decide)]
    exact hname
  obtain ⟨hnamed, hafter⟩ := HashNamed.persist js collatesAfter hs.stored_unique
    (keysUnique_failureRecord js huniq lastError nowText) hid hmem h
  exact ⟨hnamed, by rw [hname, hafter]; rfl⟩

lemma step {s t : RefreshSystem} {action : RefreshAction} (hs : RefreshInvariant s)
    (hstep : refreshStep js collatesAfter ttlMs s action = some t) : RefreshInvariant t := by
  have hcop : ∀ worker copy, (t.phase worker).copy? = some copy → CopyNamed s.enqueued copy := by
    intro worker copy hcopy
    rcases refreshStep_copies js collatesAfter ttlMs hstep hcopy with hheld | ⟨hne, rfl⟩
    · exact hs.copies worker copy hheld
    · exact (hs.stored_named hne).read js hs.ids
  cases refreshStep_row js collatesAfter ttlMs hstep with
  | quiet hrow henqueued hcleared =>
    constructor
    · rw [henqueued]
      exact hs.ids
    · rw [henqueued]
      exact hs.nodup
    · rw [hrow, henqueued]
      exact hs.row
    · rw [henqueued]
      exact hcop
    · rw [hcleared, henqueued]
      exact hs.cleared
  | refused request id nowText hisEnqueue hfresh hrow henqueued hcleared =>
    have hsub : s.enqueued ⊆ id.text :: s.enqueued := subset_cons_self ..
    constructor
    · rw [henqueued]
      exact forall_mem_cons.mpr ⟨⟨id, rfl⟩, hs.ids⟩
    · rw [henqueued]
      exact nodup_cons.mpr ⟨hfresh, hs.nodup⟩
    · rw [hrow, henqueued]
      exact fun r hr => (hs.row r hr).mono hsub
    · rw [henqueued]
      exact fun worker copy hcopy => (hcop worker copy hcopy).mono hsub
    · rw [hcleared, henqueued]
      exact fun other hmem => hsub (hs.cleared other hmem)
  | enqueued request id nowText hisEnqueue hfresh after hwritten hrow henqueued hcleared =>
    have hsub : s.enqueued ⊆ id.text :: s.enqueued := subset_cons_self ..
    constructor
    · rw [henqueued]
      exact forall_mem_cons.mpr ⟨⟨id, rfl⟩, hs.ids⟩
    · rw [henqueued]
      exact nodup_cons.mpr ⟨hfresh, hs.nodup⟩
    · intro r hr
      rw [hrow] at hr
      cases hr
      rw [henqueued]
      exact (HashNamed.persist js collatesAfter hs.stored_unique
        (queuedRequest request id nowText).keysUnique_own
        (get?_queuedRequest request id nowText).1 (mem_cons_self ..) hwritten).1
    · rw [henqueued]
      exact fun worker copy hcopy => (hcop worker copy hcopy).mono hsub
    · rw [hcleared, henqueued]
      exact fun other hmem => hsub (hs.cleared other hmem)
  | failed worker copy lastError nowText hisFailure hheld after hwritten hrow henqueued hcleared =>
    constructor
    · rw [henqueued]
      exact hs.ids
    · rw [henqueued]
      exact hs.nodup
    · intro r hr
      rw [hrow] at hr
      cases hr
      rw [henqueued]
      exact (hs.failed_named hheld hwritten).1
    · rw [henqueued]
      exact hcop
    · rw [hcleared, henqueued]
      exact hs.cleared
  | removed worker wire copy hisClear hheld hclears hrow henqueued hcleared =>
    constructor
    · rw [henqueued]
      exact hs.ids
    · rw [henqueued]
      exact hs.nodup
    · intro r hr
      rw [hrow] at hr
      cases hr
    · rw [henqueued]
      exact hcop
    · rw [hcleared, henqueued]
      have hne : s.stored ≠ [] := by
        intro hemp
        simp [clearsStored, hemp] at hclears
      obtain ⟨id, hmem, hname⟩ := (hs.stored_named hne).named
      rw [hname]
      exact forall_mem_cons.mpr ⟨hmem, hs.cleared⟩

end RefreshInvariant

/-- A clear leaves the hash alone, or removes the one whose identifier the worker's copy has. -/
def ClearsNamed (js : JsTexts) (collatesAfter : String → String → Bool) (ttlMs : ℕ)
    (s : RefreshSystem) : Prop :=
  ∀ worker wire t, refreshStep js collatesAfter ttlMs s (.clear worker wire) = some t →
    t.row = s.row ∨ t.row = none ∧ ∃ copy id, (s.phase worker).copy? = some copy ∧
      get? copy "requestId" = some (.text id) ∧ hashId s.stored = some id

lemma RefreshInvariant.clearsNamed (hs : RefreshInvariant s) :
    ClearsNamed js collatesAfter ttlMs s := by
  intro worker wire t hstep
  cases refreshStep_row js collatesAfter ttlMs hstep with
  | quiet hrow henqueued hcleared => exact .inl hrow
  | refused request id nowText hisEnq hfresh hrow henqueued hcleared =>
    exact .inl hrow
  | enqueued request id nowText hisEnq hfresh after hwritten hrow henqueued hcleared =>
    cases hisEnq
  | failed other copy lastError nowText hisFail hheld after hwritten hrow henqueued hcleared =>
    cases hisFail
  | removed other wire' copy hisClear hheld hclears hrow henqueued hcleared =>
    cases hisClear
    obtain ⟨-, id, hmem, hname⟩ := hs.copies worker copy hheld
    obtain ⟨requestId, rfl⟩ := hs.ids id hmem
    have hne := requestId_ne_empty requestId
    have htext : textOr js (get? copy "requestId") = requestId.text := by
      rw [hname]
      simp [textOr, isTruthy, toText, hne]
    refine .inr ⟨hrow, copy, requestId.text, hheld, hname, ?_⟩
    simp only [clearsStored, clearScript, htext, ne_eq, hne, not_false_eq_true, if_true,
      Bool.and_eq_true, decide_eq_true_eq] at hclears
    unfold hashId
    cases hget : get? s.stored "requestId" with
    | none =>
      rw [hget] at hclears
      exact absurd hclears.2.symm hne
    | some stored =>
      rw [hget] at hclears
      exact congrArg some hclears.2

/-! ## A stored request is not replaced by one behind it -/

/-- The stored request after a step is not behind the one stored before it. -/
def MovesForward (collatesAfter : String → String → Bool) (s t : RefreshSystem) : Prop :=
  s.stored ≠ [] → t.stored ≠ [] → luaOutranks collatesAfter s.stored (luaGeneration t.stored)
      ((get? t.stored "action").getD "refresh")
      ((get? t.stored "timestamp").getD "") = false

/-- The texts of version, action and timestamp that a write is compared by are the texts that it
stores. -/
def StoresWhatItCompares (js : JsTexts) (s : RefreshSystem) (action : RefreshAction) : Prop :=
  (∀ request id nowText, action = .enqueue request id nowText →
    request.stateSwitchVersion.serialized js = request.stateSwitchVersion.toText js) ∧
  ∀ copy ∈ failingCopy s action, (get? copy "state_switch_version").map (·.serialized js) =
        some (propertyText js copy "state_switch_version") ∧
      (get? copy "action").map (·.serialized js) = some (propertyText js copy "action") ∧
      (get? copy "timestamp").map (·.serialized js) =
        some (textOr js (get? copy "timestamp"))

lemma luaOutranks_self (hstric : ∀ text, collatesAfter text text = false) (hash : RequestHash) :
    luaOutranks collatesAfter hash (luaGeneration hash) ((get? hash "action").getD "refresh")
      ((get? hash "timestamp").getD "") = false := by
  have hirref : ∀ x : Double, x.lt x = false := by
    intro x
    cases x with
    | finite q => simp [Double.lt]
    | infinity negative => cases negative <;> rfl
    | nan => rfl
  simp [luaOutranks, hirref, hstric]

lemma persistScript_forward {fields : List (String × String)}
    (h : persistScript collatesAfter hash version action timestamp fields = some after)
    (hver : get? after "state_switch_version" = some version)
    (hact : get? after "action" = some action)
    (htimes : get? after "timestamp" = some timestamp) :
    luaOutranks collatesAfter hash (luaGeneration after)
      ((get? after "action").getD "refresh") ((get? after "timestamp").getD "") =
        false := by
  obtain ⟨haccep, -⟩ := Option.ite_none_right_eq_some.mp h
  unfold luaAccepts at haccep
  split at haccep
  · rename_i generation hprop
    obtain ⟨hread, -⟩ := Option.filter_eq_some_iff.mp hprop
    have hgener : luaGeneration after = generation := by
      unfold luaGeneration
      rw [hver, Option.bind_some, hread, Option.getD_some]
    rw [hgener, hact, htimes]
    simpa using haccep
  · cases haccep

lemma movesForward_of_row_eq (hstric : ∀ text, collatesAfter text text = false)
    (hrow : t.row = s.row) : MovesForward collatesAfter s t := by
  intro hs ht
  have hstor : t.stored = s.stored := by
    rcases t.stored_cases with hemp | ⟨expiresAt, hstor⟩
    · exact absurd hemp ht
    · rcases s.stored_cases with hemp | ⟨expiresAt', hstor'⟩
      · exact absurd hemp hs
      · rw [hrow, hstor'] at hstor
        exact (congrArg Expiring.value (Option.some.inj hstor)).symm
  rw [hstor]
  exact luaOutranks_self hstric s.stored

lemma stored_of_row {expiresAt : ℕ} (hrow : t.row = some ⟨after, expiresAt⟩) (hne : t.stored ≠ []) :
    t.stored = after := by
  rcases t.stored_cases with hemp | ⟨expiresAt', hstor⟩
  · exact absurd hemp hne
  · rw [hrow] at hstor
    exact (congrArg Expiring.value (Option.some.inj hstor)).symm

lemma RefreshInvariant.movesForward (hstric : ∀ text, collatesAfter text text = false)
    {action : RefreshAction} (hs : RefreshInvariant s) (hstor : StoresWhatItCompares js s action)
    (hstep : refreshStep js collatesAfter ttlMs s action = some t) :
    MovesForward collatesAfter s t := by
  cases refreshStep_row js collatesAfter ttlMs hstep with
  | quiet hrow henqueued hcleared => exact movesForward_of_row_eq hstric hrow
  | refused request id nowText hisEnqueue hfresh hrow henqueued hcleared =>
    exact movesForward_of_row_eq hstric hrow
  | enqueued request id nowText hisEnqueue hfresh after hwritten hrow henqueued hcleared =>
    subst hisEnqueue
    intro _ hne
    rw [stored_of_row hrow hne]
    obtain ⟨-, hver, hact, htimes⟩ := get?_queuedRequest request id nowText
    have hfield : ∀ {key value}, get? (queuedRequest request id nowText).own key = some value →
        get? after key = some (value.serialized js) := fun hval =>
      get?_persistScript js collatesAfter (queuedRequest request id nowText).keysUnique_own
        hwritten hval
    apply persistScript_forward hwritten _ (hfield hact) (hfield htimes)
    rw [hfield hver]
    exact congrArg some (hstor.1 request id nowText rfl)
  | failed worker copy lastError nowText hisFail hheld after hwritten hrow henqueued hcleared =>
    intro _ hne
    rw [stored_of_row hrow hne]
    have huniq := (hs.copies worker copy hheld).unique
    obtain ⟨hver, hact, htimes⟩ := hstor.2 copy hisFail
    have hfield : ∀ {key text}, key ∉ ["retryCount", "lastError", "lastErrorAt",
          "refresh_last_error", "refresh_last_attempt_at"] →
        (get? copy key).map (·.serialized js) = some text →
        get? after key = some text := by
      intro key text hkey hval
      obtain ⟨value, hget, rfl⟩ := Option.map_eq_some_iff.mp hval
      apply get?_persistScript js collatesAfter
        (keysUnique_failureRecord js huniq lastError nowText) hwritten
      rw [get?_failureRecord js copy lastError nowText hkey]
      exact hget
    exact persistScript_forward hwritten (hfield (by decide) hver) (hfield (by decide) hact)
      (hfield (by decide) htimes)
  | removed worker wire copy hisClear hheld hclears hrow henqueued hcleared =>
    intro _ hne
    rcases t.stored_cases with hemp | ⟨expiresAt, hstore⟩
    · exact absurd hemp hne
    · rw [hrow] at hstore
      cases hstore

/-- A worker records a failure only for a request that was not cleared, or that the script
refuses. -/
def RetriesUncleared (js : JsTexts) (collatesAfter : String → String → Bool) (s : RefreshSystem)
    (action : RefreshAction) : Prop :=
  ∀ copy ∈ failingCopy s action, textOr js (get? copy "requestId") ∈ s.cleared →
      luaAccepts collatesAfter s.stored (propertyText js copy "state_switch_version")
        (propertyText js copy "action")
        (textOr js (get? copy "timestamp")) = false

instance (s : RefreshSystem) (action : RefreshAction) :
    Decidable (RetriesUncleared js collatesAfter s action) :=
  inferInstanceAs (Decidable (∀ copy ∈ failingCopy s action, _ → _ = false))

lemma RefreshInvariant.nothingRestored {action : RefreshAction} (hs : RefreshInvariant s)
    (hkept : NothingRestored s) (hcond : RetriesUncleared js collatesAfter s action)
    (hstep : refreshStep js collatesAfter ttlMs s action = some t) : NothingRestored t := by
  intro r hr id hid
  cases refreshStep_row js collatesAfter ttlMs hstep with
  | quiet hrow henqueued hcleared =>
    rw [hcleared]
    exact hkept r (hrow ▸ hr) id hid
  | refused request fresh nowText hisEnqueue hfresh hrow henqueued hcleared =>
    rw [hcleared]
    exact hkept r (hrow ▸ hr) id hid
  | enqueued request fresh nowText hisEnqueue hfresh after hwrote hrow henqueued hcleared =>
    rw [hrow] at hr
    cases hr
    have hname := get?_persistScript js collatesAfter
      (queuedRequest request fresh nowText).keysUnique_own hwrote
      (get?_queuedRequest request fresh nowText).1
    obtain rfl : fresh.text = id := Option.some.inj (hname.symm.trans hid)
    rw [hcleared]
    exact fun hmem => hfresh (hs.cleared _ hmem)
  | failed worker copy lastError nowText hisFail hheld after hwrote hrow henqueued hcleared =>
    rw [hrow] at hr
    cases hr
    rw [hcleared]
    intro hmem
    obtain ⟨hnamed, hcopy⟩ := hs.failed_named hheld hwrote
    obtain ⟨requestId, rfl⟩ := hs.ids id (hs.cleared id hmem)
    have htext : textOr js (get? copy "requestId") = requestId.text := by
      rw [hcopy, hid]
      simp [textOr, isTruthy, toText,
        requestId_ne_empty requestId]
    have hrefus := hcond copy hisFail (htext ▸ hmem)
    obtain ⟨haccep, -⟩ := Option.ite_none_right_eq_some.mp hwrote
    rw [hrefus] at haccep
    cases haccep
  | removed worker wire copy hisClear hheld hclears hrow henqueued hcleared =>
    rw [hrow] at hr
    cases hr

/-! ## Runs -/

lemma refreshInvariant_run {as : List RefreshAction}
    (hrun : run (refreshStep js collatesAfter ttlMs) refreshStart as = some t) :
    RefreshInvariant t :=
  invariant_of_step (fun _ _ _ hs hstep => hs.step hstep) refreshInvariant_start hrun

lemma nothingRestored_run {as : List RefreshAction}
    (hmeets : Meets (refreshStep js collatesAfter ttlMs) (RetriesUncleared js collatesAfter)
      refreshStart as) (hrun : run (refreshStep js collatesAfter ttlMs) refreshStart as = some t) :
    NothingRestored t := by
  have hst : RefreshInvariant refreshStart ∧ NothingRestored refreshStart :=
    ⟨refreshInvariant_start, fun r hr => nomatch hr⟩
  have hkept := invariant_of_meets (I := fun s => RefreshInvariant s ∧ NothingRestored s)
    (fun s action u hs hcond hstep =>
      ⟨hs.1.step hstep, hs.1.nothingRestored hs.2 hcond hstep⟩) hst hmeets hrun
  exact hkept.2

/-- Conversions of a JavaScript without documents, exact on integers. -/
def plainTexts : JsTexts :=
  ⟨fun q => toString q.num, fun _ => false, fun _ => .nan, fun s => s, fun s => s⟩

/-- A stop request of generation 5. -/
def stopRequest : EngineRefreshRequest where
  requestId := none
  connectionId := "bingx"
  action := "stop"
  stateSwitchVersion := .text "5"
  reason := "toggle"
  timestamp := "2026-01-01T00:00:00.000Z"
  retryCount := none
  lastError := none
  lastErrorAt := none
  refreshQueuedAt := none
  refreshLastAttemptAt := none
  refreshLastError := none
  refreshProcessedAt := none

/-- A worker acts on a request and fails. -/
def failedAttempt (others : List RefreshAction) : List RefreshAction :=
  [.enqueue stopRequest ⟨17, 1760000000000, "a"⟩ "2026-01-01T00:00:00.000Z", .read 0, .claim 0] ++
    others ++ [.throw 0, .recordFailure 0 "timeout" "2026-01-01T00:00:01.000Z" .answered]

end CtsEngine
