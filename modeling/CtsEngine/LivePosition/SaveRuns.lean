import CtsEngine.LivePosition.Save
import CtsEngine.Transition.Runs

/-!
# Interleaved saves of one position

A closed position stays closed, the stored version never falls, and an order id that one save stored
is not removed by a save from an older copy.  The saves read and write in separate commands: a save
that passed the marker before a terminal save set it reopens the position
(`savePosition_resurrects`).
-/

namespace CtsEngine

open Option Transition Function SavePhase SaveSystem

variable {W : Type*} [DecidableEq W] (positionId : String)

/-- A stored row is terminal, and the position is not in the open index. -/
def PositionRedis.Archived (redis : PositionRedis) : Prop :=
  (∀ r, redis.row = some r → r.status.isTerminal = true) ∧ positionId ∉ redis.openIndex

/-- Before the last command of a terminal save. -/
def SavePhase.endsTerminalSave : SavePhase → Bool
  | .expiring _ => true
  | _ => false

/-- What the run `acts` from `s` to `t` keeps. -/
structure Kept (s : SaveSystem W) (acts : List (SaveAction W)) (t : SaveSystem W) : Prop where
  /-- After a completed terminal save the position stays archived while the marker lives. -/
  archived : ∀ w rest, acts = .command w :: rest → (s.phase w).endsTerminalSave = true →
    t.redis.moved = true → t.redis.Archived positionId
  /-- The stored version does not fall. -/
  version : ∀ r r', s.redis.row = some r → t.redis.row = some r' → r.version ≤ r'.version
  /-- A command of a worker whose copy is older than the last write of the row removes no order id
  from the row. -/
  protection : ∀ w, acts = [.command w] → s.seen w < s.writes → ∀ r leg o, s.redis.row = some r →
    r.control leg = .armed o → ∃ r', t.redis.row = some r' ∧ r'.control leg = .armed o

/-! ### Saves that do not overlap -/

/-- Between the row write and the marker write of a terminal save. -/
def SavePhase.isArchiving : SavePhase → Bool
  | .moving _ | .trimming _ | .marking _ => true
  | _ => false

/-- Between the index move and the marker write of a terminal save. -/
def SavePhase.hasMoved : SavePhase → Bool
  | .trimming _ | .marking _ => true
  | _ => false

/-- Between the marker read and the row write of a save that is not terminal. -/
def SavePhase.reopensRow : SavePhase → Bool
  | .readingRow p | .writingRow p _ => !p.status.isTerminal
  | _ => false

/-- Between the marker read and the last index write of a save that is not terminal. -/
def SavePhase.reopensIndex : SavePhase → Bool
  | .indexing _ | .indexingAgain _ => true
  | phase => phase.reopensRow

/-- Two id properties do not name different orders. -/
def ControlId.Agrees : ControlId → ControlId → Prop
  | .armed o, .armed o' => o' = o
  | _, _ => True

instance : ∀ own stored : ControlId, Decidable (own.Agrees stored)
  | .armed o, .armed o' => inferInstanceAs (Decidable (o' = o))
  | .armed _, .absent => isTrue trivial
  | .armed _, .blank => isTrue trivial
  | .absent, _ => isTrue trivial
  | .blank, _ => isTrue trivial

/-- What a save may find when it reads the row for its version: no row, and then its copy has the
version written last; or a row whose order ids, when the copy is behind, the copy does not
contradict. -/
def CatchesUp (lastVersion : ℕ) (position : LiveRow) : Option LiveRow → Prop
  | none => lastVersion ≤ position.version
  | some r => position.version < r.version → ∀ leg, (position.control leg).Agrees (r.control leg)

instance (lastVersion : ℕ) (position : LiveRow) :
    ∀ row, Decidable (CatchesUp lastVersion position row)
  | none => inferInstanceAs (Decidable (lastVersion ≤ position.version))
  | some r => inferInstanceAs (Decidable (position.version < r.version →
      ∀ leg, (position.control leg).Agrees (r.control leg)))

/-- The stored row names no control order. -/
def Disarmed (row : Option LiveRow) : Prop := ∀ r ∈ row, ∀ leg, (r.control leg).isArmed = false

instance (row : Option LiveRow) : Decidable (Disarmed row) :=
  inferInstanceAs (Decidable (∀ r ∈ row, ∀ leg, (r.control leg).isArmed = false))

/-- When the next command of the save of `w`, which is in the given phase, does not meet a command
of another save. -/
def ApartAt (s : SaveSystem W) (w : W) : SavePhase → Prop
  | .readingMarker _ => ∀ v, (s.phase v).isArchiving = false
  | .readingRow p => CatchesUp s.lastVersion p s.redis.row
  | .writingRow p none => s.lastVersion ≤ p.version ∧
      (p.status.isTerminal = true → ∀ v, (s.phase v).reopensRow = false)
  | .writingRow p (some readAt) => readAt = s.writes ∧
      (p.status.isTerminal = true → ∀ v, (s.phase v).reopensRow = false)
  | .moving _ => ∀ v, (s.phase v).reopensIndex = false
  | .discarding _ => s.seen w < s.writes → Disarmed s.redis.row
  | .deletingRow _ readAt => readAt = s.writes
  | _ => True

/-- The condition on a step. -/
def SavesApart (s : SaveSystem W) : SaveAction W → Prop
  | .command w => ApartAt s w (s.phase w)
  | _ => True

instance [Fintype W] (s : SaveSystem W) (w : W) : ∀ phase, Decidable (ApartAt s w phase)
  | .readingMarker _ => inferInstanceAs (Decidable (∀ v, (s.phase v).isArchiving = false))
  | .readingRow p => inferInstanceAs (Decidable (CatchesUp s.lastVersion p s.redis.row))
  | .writingRow p none => inferInstanceAs (Decidable (s.lastVersion ≤ p.version ∧
      (p.status.isTerminal = true → ∀ v, (s.phase v).reopensRow = false)))
  | .writingRow p (some readAt) => inferInstanceAs (Decidable (readAt = s.writes ∧
      (p.status.isTerminal = true → ∀ v, (s.phase v).reopensRow = false)))
  | .moving _ => inferInstanceAs (Decidable (∀ v, (s.phase v).reopensIndex = false))
  | .discarding _ => inferInstanceAs (Decidable (s.seen w < s.writes → Disarmed s.redis.row))
  | .deletingRow _ readAt => inferInstanceAs (Decidable (readAt = s.writes))
  | .idle _ | .indexing _ | .indexingAgain _ | .persisting _ | .trimming _ | .marking _
  | .expiring _ | .leavingOpen _ | .leavingClosed _ => isTrue trivial

instance [Fintype W] (s : SaveSystem W) : ∀ a : SaveAction W, Decidable (SavesApart s a)
  | .command w => inferInstanceAs (Decidable (ApartAt s w (s.phase w)))
  | .read _ | .edit _ _ | .call _ | .expireMarker | .expireRow => isTrue trivial

/-! ### The counterexample -/

/-- A filled position, with or without a stop-loss order. -/
def filledRow (stopLoss : ControlId) : LiveRow where
  status := .filled
  version := 1
  control := fun leg => if leg = .stopLoss then stopLoss else .blank
  executedQuantity := 1
  totalExecutedQuantity := 1
  closedQuantity := 0
  exchangeHandles := ["entry"]
  clientOrderIds := 0
  unconfirmed := false
  pendingMutation := false

/-- The first `n` commands of the save that `w` has called. -/
def commands {W : Type*} (w : W) (n : ℕ) : List (SaveAction W) := List.replicate n (.command w)

/-- The worker `false` passes the marker with a filled copy; the worker `true` closes the position,
up to its last command. -/
def closeAfterMarkerRead : List (SaveAction Bool) :=
  [.read false, .read true, .call false, .command false,
    .edit true { filledRow .blank with status := .closed }, .call true] ++ commands true 5

/-- The closing save completes, and the other one reads the stored version and writes its row. -/
def staleRowWrite : List (SaveAction Bool) := .command true :: commands false 2

/-- A save that passed the marker before the position was closed reopens it. -/
theorem savePosition_resurrects :
    ¬ ∀ (row : LiveRow) (openIndex closedIndex : List String) (acts acts' : List (SaveAction Bool))
      (s t : SaveSystem Bool),
      run (saveStep "position") (.start row openIndex closedIndex) acts = some s →
        run (saveStep "position") s acts' = some t → Kept "position" s acts' t := by
  intro h
  have hclosing : (run (saveStep "position") (.start (filledRow .blank) ["position"] [])
      closeAfterMarkerRead).map (fun s => (s.phase true).endsTerminalSave) = some true := by
    decide +kernel
  have hreopened : (run (saveStep "position") (.start (filledRow .blank) ["position"] [])
      (closeAfterMarkerRead ++ staleRowWrite)).map
        (fun t => (t.redis.moved, t.redis.row.map (·.status.isTerminal))) =
      some (true, some false) := by
    decide +kernel
  obtain ⟨t, ht, hstatus⟩ := map_eq_some_iff.mp hreopened
  obtain ⟨s, hs, hst⟩ := run_append_eq_some.mp ht
  rw [hs, map_some, some.injEq] at hclosing
  obtain ⟨hmoved, hrow⟩ := Prod.mk.inj hstatus
  obtain ⟨r, hr, hopen⟩ := map_eq_some_iff.mp hrow
  have hterminal := ((h _ _ _ _ _ s t hs hst).archived true _ rfl hclosing hmoved).1 r hr
  rw [hopen] at hterminal
  cases hterminal

/-- The steps, one constructor for each kind of action. -/
inductive SaveStep (s : SaveSystem W) : SaveAction W → SaveSystem W → Prop
  | read (w : W) (r : LiveRow) (hidle : ∃ held, s.phase w = .idle held)
      (hrow : s.redis.row = some r) :
      SaveStep s (.read w) { s with
        phase := update s.phase w (.idle (some r))
        seen := update s.seen w s.writes }
  | edit (w : W) (p held : LiveRow) (hidle : s.phase w = .idle (some held)) :
      SaveStep s (.edit w p) (s.enter w (.idle (some { p with version := held.version })) s.redis)
  | call (w : W) (p : LiveRow) (hidle : s.phase w = .idle (some p)) :
      SaveStep s (.call w) (s.enter w (savePhase p) s.redis)
  | command (w : W) {t : SaveSystem W} (hcommand : s.command positionId w = some t) :
      SaveStep s (.command w) t
  | expireMarker : SaveStep s .expireMarker { s with redis.moved := false }
  | expireRow : SaveStep s .expireRow { s with redis.row := none, redis.rowExpires := false }

variable {positionId}

variable {s t : SaveSystem W} {phase q q' : SavePhase} {w : W} {p : LiveRow}

variable {a : SaveAction W} {redis : PositionRedis}

lemma saveStep_cases (h : saveStep positionId s a = some t) :
    SaveStep positionId s a t := by
  revert h
  fun_cases saveStep positionId s a
  all_goals
    intro h
    try cases h
  next w held r hrow hidle => exact .read w r ⟨held, hidle⟩ hrow
  next w p held hidle => exact .edit w p held hidle
  next w p hidle => exact .call w p hidle
  next w => exact .command w h
  next => exact .expireMarker
  next => exact .expireRow

/-! ### Archived positions -/

/-- How the sections of the saves exclude each other. -/
structure ArchiveInvariant (positionId : String) (s : SaveSystem W) : Prop where
  /-- While the marker lives the position is archived, and no save is about to reopen it. -/
  marked : s.redis.moved = true →
    s.redis.Archived positionId ∧ ∀ v, (s.phase v).reopensIndex = false
  /-- After the row write of a terminal save the row stays terminal. -/
  archiving : ∀ w, (s.phase w).isArchiving = true →
    (∀ r, s.redis.row = some r → r.status.isTerminal = true) ∧ ∀ v, (s.phase v).reopensRow = false
  /-- After its index move the position stays out of the open index. -/
  movedOut : ∀ w, (s.phase w).hasMoved = true →
    positionId ∉ s.redis.openIndex ∧ ∀ v, (s.phase v).reopensIndex = false

lemma SavePhase.reopensIndex_of_reopensRow (h : phase.reopensRow = true) :
    phase.reopensIndex = true := by
  cases phase <;> first | exact h | cases h

lemma SavePhase.reopensRow_of_not_reopensIndex (h : phase.reopensIndex = false) :
    phase.reopensRow = false := by
  cases hrow : phase.reopensRow with
  | false => rfl
  | true => rw [reopensIndex_of_reopensRow hrow] at h; cases h

lemma SavePhase.isArchiving_of_hasMoved (h : phase.hasMoved = true) : phase.isArchiving = true := by
  cases phase <;> first | rfl | cases h

/-- A phase `q` that claims and threatens no more than the phase `p`. -/
structure SavePhase.Calmer (p q : SavePhase) : Prop where
  archiving : q.isArchiving = true → p.isArchiving = true
  moved : q.hasMoved = true → p.hasMoved = true
  row : p.reopensRow = false → q.reopensRow = false
  index : p.reopensIndex = false → q.reopensIndex = false

lemma SavePhase.Calmer.of_outside {p : SavePhase} (hq : q.isArchiving = false)
    (hidx : q.reopensIndex = false) : p.Calmer q where
  archiving h := by rw [hq] at h; cases h
  moved h := by rw [isArchiving_of_hasMoved h] at hq; cases hq
  row _ := reopensRow_of_not_reopensIndex hidx
  index _ := hidx

/-- **Frame rule.** A step to a calmer phase that adds neither an open row, nor the open index
entry, nor the marker keeps the invariant. -/
lemma ArchiveInvariant.frame (h : ArchiveInvariant positionId s)
    (hph : t.phase = update s.phase w q) (hq : (s.phase w).Calmer q)
    (hrow : (∀ r, s.redis.row = some r → r.status.isTerminal = true) →
      ∀ r, t.redis.row = some r → r.status.isTerminal = true)
    (hidx : positionId ∉ s.redis.openIndex → positionId ∉ t.redis.openIndex)
    (hmoved : t.redis.moved = true → s.redis.moved = true) : ArchiveInvariant positionId t := by
  have hreopRow : (∀ v, (s.phase v).reopensRow = false) → ∀ v, (t.phase v).reopensRow = false := by
    intro hs
    rw [hph, forall_update_iff s.phase fun _ p => p.reopensRow = false]
    exact ⟨hq.row (hs w), fun v _ => hs v⟩
  have hreopIdx : (∀ v, (s.phase v).reopensIndex = false) →
      ∀ v, (t.phase v).reopensIndex = false := by
    intro hs
    rw [hph, forall_update_iff s.phase fun _ p => p.reopensIndex = false]
    exact ⟨hq.index (hs w), fun v _ => hs v⟩
  refine ⟨fun hm => ?_, fun v hv => ?_, fun v hv => ?_⟩
  · obtain ⟨harch, hs⟩ := h.marked (hmoved hm)
    exact ⟨⟨hrow harch.1, hidx harch.2⟩, hreopIdx hs⟩
  · have hvs : (s.phase v).isArchiving = true := by
      rw [hph] at hv
      by_cases hvw : v = w
      · subst hvw
        rw [update_self] at hv
        exact hq.archiving hv
      · rwa [update_of_ne hvw] at hv
    obtain ⟨hended, hs⟩ := h.archiving v hvs
    exact ⟨hrow hended, hreopRow hs⟩
  · have hvs : (s.phase v).hasMoved = true := by
      rw [hph] at hv
      by_cases hvw : v = w
      · subst hvw
        rw [update_self] at hv
        exact hq.moved hv
      · rwa [update_of_ne hvw] at hv
    obtain ⟨hout, hs⟩ := h.movedOut v hvs
    exact ⟨hidx hout, hreopIdx hs⟩

omit [DecidableEq W] in
lemma ArchiveInvariant.not_moved (h : ArchiveInvariant positionId s)
    (hw : (s.phase w).reopensIndex = true) :
    s.redis.moved = false ∧ ∀ v, (s.phase v).hasMoved = false := by
  constructor
  · cases hm : s.redis.moved with
    | false => rfl
    | true => rw [(h.marked hm).2 w] at hw; cases hw
  · intro v
    cases hv : (s.phase v).hasMoved with
    | false => rfl
    | true => rw [(h.movedOut v hv).2 w] at hw; cases hw

omit [DecidableEq W] in
lemma ArchiveInvariant.not_archiving (h : ArchiveInvariant positionId s)
    (hw : (s.phase w).reopensRow = true) (v : W) : (s.phase v).isArchiving = false := by
  cases hv : (s.phase v).isArchiving with
  | false => rfl
  | true => rw [(h.archiving v hv).2 w] at hw; cases hw

omit [DecidableEq W] in
lemma ArchiveInvariant.of_archived (h : s.redis.Archived positionId)
    (hs : ∀ v, (s.phase v).reopensIndex = false) : ArchiveInvariant positionId s where
  marked _ := ⟨h, hs⟩
  archiving _ _ := ⟨h.1, fun v => reopensRow_of_not_reopensIndex (hs v)⟩
  movedOut _ _ := ⟨h.2, hs⟩

omit [DecidableEq W] in
lemma ArchiveInvariant.of_unmarked (hmoved : s.redis.moved = false)
    (hs : ∀ v, (s.phase v).isArchiving = false) : ArchiveInvariant positionId s where
  marked h := by rw [hmoved] at h; cases h
  archiving v hv := by rw [hs v] at hv; cases hv
  movedOut v hv := by
    have hv := isArchiving_of_hasMoved hv
    rw [hs v] at hv
    cases hv

lemma ArchiveInvariant.writeOpen (h : ArchiveInvariant positionId s)
    (hw : (s.phase w).reopensRow = true) (hp : p.status.isTerminal = false) :
    ArchiveInvariant positionId (s.writeRow w p) := by
  have hmoved := (h.not_moved (reopensIndex_of_reopensRow hw)).1
  refine .of_unmarked hmoved ?_
  simp only [writeRow, hp, Bool.false_eq_true, if_false]
  rw [forall_update_iff s.phase fun _ q => q.isArchiving = false]
  exact ⟨rfl, fun v _ => h.not_archiving hw v⟩

lemma ArchiveInvariant.writeTerminal (h : ArchiveInvariant positionId s)
    (hp : p.status.isTerminal = true) (hs : ∀ v, (s.phase v).reopensRow = false) :
    ArchiveInvariant positionId (s.writeRow w p) := by
  have hended : ∀ r, (s.writeRow w p).redis.row = some r → r.status.isTerminal = true := by
    intro r hr
    cases hr
    exact hp
  have hph : (s.writeRow w p).phase =
      update s.phase w (.moving { p with version := p.version + 1 }) := by
    simp only [writeRow, hp, if_true]
  have hidx : (∀ v, (s.phase v).reopensIndex = false) →
      ∀ v, ((s.writeRow w p).phase v).reopensIndex = false := by
    intro hsi
    rw [hph, forall_update_iff s.phase fun _ q => q.reopensIndex = false]
    exact ⟨rfl, fun v _ => hsi v⟩
  refine ⟨fun hm => ?_, fun v _ => ⟨hended, ?_⟩, fun v hv => ?_⟩
  · obtain ⟨harch, hsi⟩ := h.marked hm
    exact ⟨⟨hended, harch.2⟩, hidx hsi⟩
  · rw [hph, forall_update_iff s.phase fun _ q => q.reopensRow = false]
    exact ⟨rfl, fun u _ => hs u⟩
  · rw [hph] at hv
    by_cases hvw : v = w
    · subst hvw
      rw [update_self] at hv
      cases hv
    · rw [update_of_ne hvw] at hv
      obtain ⟨hout, hsi⟩ := h.movedOut v hv
      exact ⟨hout, hidx hsi⟩

lemma ArchiveInvariant.upsert (h : ArchiveInvariant positionId s)
    (hw : (s.phase w).reopensIndex = true) (hq : (s.phase w).Calmer q)
    (hrow : redis.row = s.redis.row) (hmoved : redis.moved = s.redis.moved) :
    ArchiveInvariant positionId (s.enter w q redis) := by
  obtain ⟨hunmar, hout⟩ := h.not_moved hw
  -- the frame rule, in a state whose open index is still the old one
  have hframe : ArchiveInvariant positionId
      (s.enter w q { redis with openIndex := s.redis.openIndex }) :=
    h.frame rfl hq (fun hended r hr => hended r (hrow ▸ hr)) id (fun hm => hmoved ▸ hm)
  refine ⟨fun hm => ?_, hframe.archiving, fun v hv => ?_⟩
  · rw [show (s.enter w q redis).redis.moved = false from hmoved.trans hunmar] at hm
    cases hm
  · exfalso
    have hv' : (update s.phase w q v).hasMoved = true := hv
    by_cases hvw : v = w
    · subst hvw
      rw [update_self] at hv'
      have hmovedOut := hq.moved hv'
      rw [hout v] at hmovedOut
      cases hmovedOut
    · rw [update_of_ne hvw, hout v] at hv'
      cases hv'

lemma not_mem_lrem_self (value : String) (list : List String) : value ∉ lrem value list := by
  simp [lrem]

lemma not_mem_lrem {x value : String} {list : List String} (h : x ∉ list) : x ∉ lrem value list :=
  fun hx => h (List.mem_of_mem_filter hx)

lemma guardPhase_isArchiving (p : LiveRow) : (guardPhase p).isArchiving = false := by
  unfold guardPhase
  split <;> rfl

lemma guardPhase_reopensIndex (hp : p.status.isTerminal = true) :
    (guardPhase p).reopensIndex = false := by
  unfold guardPhase
  split <;> simp [reopensIndex, reopensRow, hp]

lemma savePhase_outside (p : LiveRow) :
    (savePhase p).isArchiving = false ∧ (savePhase p).reopensIndex = false := by
  unfold savePhase
  split
  · exact ⟨rfl, rfl⟩
  · split
    · rename_i hp
      exact ⟨guardPhase_isArchiving p, guardPhase_reopensIndex hp⟩
    · exact ⟨rfl, rfl⟩

lemma keepStoredControls_status (p r : LiveRow) : (keepStoredControls p r).status = p.status := by
  unfold keepStoredControls
  split <;> rfl

/-- A command of a save keeps the archive invariant. -/
lemma archiveInvariant_command (h : ArchiveInvariant positionId s)
    (hapart : ApartAt s w (s.phase w)) (hstep : s.command positionId w = some t) :
    ArchiveInvariant positionId t := by
  unfold command at hstep
  generalize hph : s.phase w = phase at hapart hstep
  cases phase with
  | idle held => cases hstep
  | readingMarker p =>
    cases hstep
    cases hm : s.redis.moved with
    | true => exact h.frame rfl (.of_outside rfl rfl) id id id
    | false =>
      -- no terminal save is between its row write and its marker write
      refine .of_unmarked hm ?_
      simp only [enter, Bool.false_eq_true, if_false]
      rw [forall_update_iff s.phase fun _ q => q.isArchiving = false]
      exact ⟨guardPhase_isArchiving p, fun v _ => hapart v⟩
  | readingRow p =>
    cases hstep
    have hstat : ((s.redis.row.map (keepStoredControls p)).getD p).status = p.status := by
      cases s.redis.row with
      | none => rfl
      | some r => exact keepStoredControls_status p r
    refine h.frame rfl ?_ id id id
    rw [hph]
    constructor <;>
      simp [isArchiving, hasMoved, reopensRow, reopensIndex, hstat]
  | writingRow p readAt =>
    have hexcl : p.status.isTerminal = true → ∀ v, (s.phase v).reopensRow = false := by
        cases readAt with
      | none => exact hapart.2
      | some n => exact hapart.2
    cases hstep
    cases hp : p.status.isTerminal with
    | true => exact h.writeTerminal hp (hexcl hp)
    | false =>
      have hw : (s.phase w).reopensRow = true := by
        rw [hph]
        simp [reopensRow, hp]
      exact h.writeOpen hw hp
  | indexing p =>
    cases hstep
    refine h.upsert (by rw [hph]; rfl) ?_ rfl rfl
    rw [hph]
    exact ⟨id, id, fun _ => rfl, id⟩
  | indexingAgain p =>
    cases hstep
    exact h.upsert (by rw [hph]; rfl) (.of_outside rfl rfl) rfl rfl
  | persisting p | expiring p | leavingClosed p =>
    cases hstep
    exact h.frame rfl (.of_outside rfl rfl) id id id
  | moving p =>
    cases hstep
    refine .of_archived ⟨(h.archiving w (by rw [hph]; rfl)).1, not_mem_lrem_self _ _⟩ ?_
    simp only [enter]
    rw [forall_update_iff s.phase fun _ q => q.reopensIndex = false]
    exact ⟨rfl, fun v _ => hapart v⟩
  | trimming p =>
    cases hstep
    refine h.frame rfl ?_ id id id
    rw [hph]
    exact ⟨id, id, id, id⟩
  | marking p =>
    cases hstep
    -- between the row write and now nothing could reopen the row or the index
    obtain ⟨hout, hs⟩ := h.movedOut w (by rw [hph]; rfl)
    refine .of_archived ⟨(h.archiving w (by rw [hph]; rfl)).1, hout⟩ ?_
    simp only [enter]
    rw [forall_update_iff s.phase fun _ q => q.reopensIndex = false]
    exact ⟨rfl, fun v _ => hs v⟩
  | discarding p =>
    cases hstep
    refine h.frame rfl ?_ id id id
    split <;> exact .of_outside rfl rfl
  | deletingRow p readAt =>
    cases hstep
    exact h.frame rfl (.of_outside rfl rfl) nofun id id
  | leavingOpen p =>
    cases hstep
    exact h.frame rfl (.of_outside rfl rfl) id not_mem_lrem id

lemma archiveInvariant_step (s : SaveSystem W) (a : SaveAction W) (t : SaveSystem W)
    (h : ArchiveInvariant positionId s) (hapart : SavesApart s a)
    (hstep : saveStep positionId s a = some t) : ArchiveInvariant positionId t := by
  cases saveStep_cases hstep with
  | command w hcommand => exact archiveInvariant_command h hapart hcommand
  | read w r hidle hrow => exact h.frame rfl (.of_outside rfl rfl) id id id
  | edit w p held hidle => exact h.frame rfl (.of_outside rfl rfl) id id id
  | call w p hidle =>
    obtain ⟨harch, hidx⟩ := savePhase_outside p
    exact h.frame rfl (.of_outside harch hidx) id id id
  | expireMarker => exact ⟨nofun, h.archiving, h.movedOut⟩
  | expireRow =>
    refine ⟨fun hm => ?_, fun v hv => ?_, h.movedOut⟩
    · obtain ⟨harchi, hs⟩ := h.marked hm
      exact ⟨⟨nofun, harchi.2⟩, hs⟩
    · exact ⟨nofun, (h.archiving v hv).2⟩

/-! ### Versions and order ids -/

/-- The copy that a phase carries, unless it was brought up to the stored row. -/
def SavePhase.held? : SavePhase → Option LiveRow
  | .idle held => held
  | .writingRow _ (some _) => none
  | .writingRow p none => some p
  | .readingMarker p | .readingRow p | .indexing p | .indexingAgain p | .persisting p
  | .moving p | .trimming p | .marking p | .expiring p | .discarding p | .deletingRow p _
  | .leavingOpen p | .leavingClosed p => some p

/-- Whether the save relies on the row it has read. -/
def SavePhase.remembersRow : SavePhase → Bool
  | .writingRow _ (some _) | .deletingRow _ _ => true
  | _ => false

/-- Every order id of the stored row is an order id of the copy. -/
def KeepsControls (position : LiveRow) (row : Option LiveRow) : Prop :=
  ∀ r, row = some r → ∀ leg o, r.control leg = .armed o → position.control leg = .armed o

/-- What the copy of a worker knows of the stored row. -/
structure Counts (s : SaveSystem W) (w : W) (phase : SavePhase) : Prop where
  /-- The version of a copy is at most the last one, and smaller when the row was written since. -/
  held : ∀ p, phase.held? = some p →
    p.version ≤ s.lastVersion ∧ (s.seen w < s.writes → p.version < s.lastVersion)
  /-- A copy brought up to the row has its version and, when it was behind, its order ids. -/
  merged : ∀ p n, phase = .writingRow p (some n) → n ≤ s.writes ∧ (n = s.writes →
    s.lastVersion ≤ p.version ∧ (s.seen w < s.writes → KeepsControls p s.redis.row))
  /-- A row that a worker with an older copy discards names no control order. -/
  discarded : ∀ p n, phase = .deletingRow p n → n ≤ s.writes ∧
    (n = s.writes → s.seen w < s.writes → Disarmed s.redis.row)

/-- The versions of the row and of the copies. -/
structure VersionInvariant (s : SaveSystem W) : Prop where
  stored : ∀ r, s.redis.row = some r → r.version = s.lastVersion
  counts : ∀ w, Counts s w (s.phase w)

/-- What a step of another worker may do to the row: nothing, remove it, or write a higher
version. -/
def Later (s t : SaveSystem W) : Prop :=
  (t.writes = s.writes ∧ t.lastVersion = s.lastVersion ∧
    (t.redis.row = s.redis.row ∨ t.redis.row = none)) ∨
  (s.writes < t.writes ∧ s.lastVersion < t.lastVersion)

omit [DecidableEq W] in
lemma Later.lastVersion_le (h : Later s t) : s.lastVersion ≤ t.lastVersion := by
  rcases h with ⟨-, hver, -⟩ | ⟨-, hver⟩ <;> omega

omit [DecidableEq W] in
/-- **Stability.** What a copy knows survives the steps of the other workers. -/
lemma Counts.later (h : Counts s w q) (hst : Later s t) (hseen : t.seen w = s.seen w) :
    Counts t w q := by
  rcases hst with ⟨hwrit, hver, hrow⟩ | ⟨hwrit, hver⟩
  · constructor
    · intro p hp
      rw [hwrit, hver, hseen]
      exact h.held p hp
    · intro p n hp
      rw [hwrit, hver, hseen]
      refine ⟨(h.merged p n hp).1, fun hn => ?_⟩
      obtain ⟨hle, hkeeps⟩ := (h.merged p n hp).2 hn
      refine ⟨hle, fun hstale => ?_⟩
      rcases hrow with hrow | hrow
      · rw [hrow]
        exact hkeeps hstale
      · intro r hr
        rw [hrow] at hr
        cases hr
    · intro p n hp
      rw [hwrit, hseen]
      refine ⟨(h.discarded p n hp).1, fun hn hstale => ?_⟩
      rcases hrow with hrow | hrow
      · rw [hrow]
        exact (h.discarded p n hp).2 hn hstale
      · intro r hr
        rw [hrow] at hr
        cases hr
  · constructor
    · intro p hp
      have hle := (h.held p hp).1
      exact ⟨by omega, fun _ => by omega⟩
    · intro p n hp
      have hle := (h.merged p n hp).1
      exact ⟨by omega, fun hn => by omega⟩
    · intro p n hp
      have hle := (h.discarded p n hp).1
      exact ⟨by omega, fun hn => by omega⟩

omit [DecidableEq W] in
lemma Counts.of_held (h : Counts s w q) (hplain : q'.remembersRow = false)
    (hheld : ∀ p', q'.held? = some p' → ∃ p, q.held? = some p ∧ p'.version = p.version) :
    Counts s w q' where
  held p' hp' := by
    obtain ⟨p, hp, hver⟩ := hheld p' hp'
    rw [hver]
    exact h.held p hp
  merged p n hq := by rw [hq] at hplain; cases hplain
  discarded p n hq := by rw [hq] at hplain; cases hplain

omit [DecidableEq W] in
lemma Counts.of_same (h : Counts s w q) (hplain : q'.remembersRow = false)
    (hheld : q'.held? = q.held?) : Counts s w q' :=
  h.of_held hplain fun p' hp' => ⟨p', hheld ▸ hp', rfl⟩

lemma VersionInvariant.enter (h : VersionInvariant s) (hq : Counts s w q)
    (hrow : redis.row = s.redis.row ∨ redis.row = none) : VersionInvariant (s.enter w q redis) := by
  have hlate : Later s (s.enter w q redis) := .inl ⟨rfl, rfl, hrow⟩
  constructor
  · intro r hr
    rcases hrow with hrow | hrow
    · exact h.stored r (hrow ▸ hr)
    · rw [show (s.enter w q redis).redis.row = none from hrow] at hr
      cases hr
  · have hcnts : ∀ v, Counts (s.enter w q redis) v (update s.phase w q v) := by
      rw [forall_update_iff s.phase fun v p => Counts (s.enter w q redis) v p]
      exact ⟨hq.later hlate rfl, fun v _ => (h.counts v).later hlate rfl⟩
    exact hcnts

lemma VersionInvariant.writeRow (h : VersionInvariant s) (hp : s.lastVersion ≤ p.version) :
    VersionInvariant (s.writeRow w p) ∧ Later s (s.writeRow w p) := by
  have hlate : Later s (s.writeRow w p) := .inr ⟨Nat.lt_succ_self _, Nat.lt_succ_of_le hp⟩
  refine ⟨⟨fun r hr => ?_, ?_⟩, hlate⟩
  · cases hr
    rfl
  · have hcnts : ∀ v, Counts (s.writeRow w p) v (update s.phase w
        (if p.status.isTerminal then .moving { p with version := p.version + 1 }
          else .indexing { p with version := p.version + 1 }) v) := by
      rw [forall_update_iff s.phase fun v q => Counts (s.writeRow w p) v q]
      refine ⟨?_, fun v hv => (h.counts v).later hlate (update_of_ne hv ..)⟩
      have hseen : (s.writeRow w p).seen w = (s.writeRow w p).writes := update_self ..
      have hheld : ∀ q : SavePhase, q.remembersRow = false →
          q.held? = some { p with version := p.version + 1 } → Counts (s.writeRow w p) w q := by
        intro q hplain hq
        refine ⟨fun p' hp' => ?_, fun p' n hq' => ?_, fun p' n hq' => ?_⟩
        · obtain rfl := some.inj (hq.symm.trans hp')
          rw [hseen]
          exact ⟨le_rfl, fun hlt => absurd hlt (lt_irrefl _)⟩
        · rw [hq'] at hplain
          cases hplain
        · rw [hq'] at hplain
          cases hplain
      split
      · exact hheld _ rfl rfl
      · exact hheld _ rfl rfl
    exact hcnts

lemma ControlId.keep_of_agrees {own : ControlId} {o : String} (h : own.Agrees (.armed o)) :
    own.keep (.armed o) = .armed o := by
  cases own with
  | absent => rfl
  | blank => rfl
  | armed o' => exact congrArg _ (Eq.symm h)

omit [DecidableEq W] in
lemma VersionInvariant.merge (h : VersionInvariant s) (hph : s.phase w = .readingRow p)
    (hcatc : CatchesUp s.lastVersion p s.redis.row) :
    Counts s w (.writingRow ((s.redis.row.map (keepStoredControls p)).getD p) (some s.writes)) := by
  refine ⟨nofun, fun p' n hp' => ?_, nofun⟩
  obtain ⟨rfl, hn⟩ := writingRow.inj hp'
  cases hn
  refine ⟨le_rfl, fun _ => ?_⟩
  cases hrow : s.redis.row with
  | none =>
    rw [hrow] at hcatc
    exact ⟨hcatc, nofun⟩
  | some r =>
    rw [hrow] at hcatc
    have hver := h.stored r hrow
    obtain ⟨hle, hbehin⟩ := (h.counts w).held p (by rw [hph]; rfl)
    simp only [map_some, getD_some, keepStoredControls]
    split
    · rename_i hlt
      refine ⟨hver.ge, fun _ r' hr' leg o ho => ?_⟩
      cases hr'
      have hagr := hcatc hlt leg
      rw [ho] at hagr
      change (p.control leg).keep (r.control leg) = .armed o
      rw [ho, ControlId.keep_of_agrees hagr]
    · rename_i hlt
      refine ⟨by omega, fun hstale => ?_⟩
      have := hbehin hstale
      omega

omit [DecidableEq W] in
lemma VersionInvariant.writes {readAt : Option ℕ} (h : VersionInvariant s)
    (hph : s.phase w = .writingRow p readAt) (hapart : ApartAt s w (.writingRow p readAt)) :
    s.lastVersion ≤ p.version ∧ (s.seen w < s.writes → KeepsControls p s.redis.row) := by
  cases readAt with
  | none =>
    refine ⟨hapart.1, fun hstale => ?_⟩
    have hbehin := ((h.counts w).held p (by rw [hph]; rfl)).2 hstale
    exact absurd hapart.1 (by omega)
  | some n => exact ((h.counts w).merged p n hph).2 hapart.1

lemma versionInvariant_command (h : VersionInvariant s) (hapart : ApartAt s w (s.phase w))
    (hstep : s.command positionId w = some t) : VersionInvariant t ∧ Later s t := by
  have hcnts := h.counts w
  unfold command at hstep
  generalize hph : s.phase w = phase at hcnts hapart hstep
  cases phase with
  | idle held => cases hstep
  | readingMarker p =>
    cases hstep
    refine ⟨h.enter ?_ (.inl rfl), .inl ⟨rfl, rfl, .inl rfl⟩⟩
    unfold guardPhase
    split
    · exact hcnts.of_same rfl rfl
    · split
      · exact hcnts.of_same rfl rfl
      · exact hcnts.of_same rfl rfl
  | readingRow p =>
    cases hstep
    exact ⟨h.enter (h.merge hph hapart) (.inl rfl), .inl ⟨rfl, rfl, .inl rfl⟩⟩
  | writingRow p readAt =>
    have hver := (h.writes hph hapart).1
    cases hstep
    exact h.writeRow hver
  | discarding p =>
    cases hstep
    refine ⟨h.enter ?_ (.inl rfl), .inl ⟨rfl, rfl, .inl rfl⟩⟩
    split
    · exact hcnts.of_same rfl rfl
    · refine ⟨hcnts.held, nofun, fun p' n hp' => ?_⟩
      obtain ⟨-, rfl⟩ := deletingRow.inj hp'
      exact ⟨le_rfl, fun _ => hapart⟩
  | deletingRow p readAt =>
    cases hstep
    exact ⟨h.enter (hcnts.of_same rfl rfl) (.inr rfl), .inl ⟨rfl, rfl, .inr rfl⟩⟩
  | indexing p | indexingAgain p | persisting p | moving p | trimming p | marking p | expiring p
  | leavingOpen p | leavingClosed p =>
    cases hstep
    exact ⟨h.enter (hcnts.of_same rfl rfl) (.inl rfl), .inl ⟨rfl, rfl, .inl rfl⟩⟩

/-- Every step keeps the invariant, and versions only rise. -/
lemma versionInvariant_step (h : VersionInvariant s) (hapart : SavesApart s a)
    (hstep : saveStep positionId s a = some t) : VersionInvariant t ∧ Later s t := by
  cases saveStep_cases hstep with
  | command w hcommand => exact versionInvariant_command h hapart hcommand
  | read w r hidle hrow =>
    set t : SaveSystem W := { s with
      phase := update s.phase w (.idle (some r))
      seen := update s.seen w s.writes } with ht
    have hlate : Later s t := .inl ⟨rfl, rfl, .inl rfl⟩
    have hcnts : ∀ v, Counts t v (update s.phase w (.idle (some r)) v) := by
      rw [forall_update_iff s.phase fun v q => Counts t v q]
      refine ⟨⟨fun p hp => ?_, nofun, nofun⟩,
        fun v hv => (h.counts v).later hlate (update_of_ne hv ..)⟩
      cases hp
      have hseen : t.seen w = t.writes := update_self ..
      rw [hseen]
      exact ⟨(h.stored _ hrow).le, fun hlt => absurd hlt (lt_irrefl _)⟩
    exact ⟨⟨h.stored, hcnts⟩, hlate⟩
  | edit w p held hidle =>
    have hcnts := h.counts w
    rw [hidle] at hcnts
    refine ⟨h.enter (hcnts.of_held rfl fun p' hp' => ⟨held, rfl, ?_⟩) (.inl rfl),
      .inl ⟨rfl, rfl, .inl rfl⟩⟩
    cases hp'
    rfl
  | call w p hidle =>
    have hcnts := h.counts w
    rw [hidle] at hcnts
    refine ⟨h.enter ?_ (.inl rfl), .inl ⟨rfl, rfl, .inl rfl⟩⟩
    unfold savePhase guardPhase
    split
    · exact hcnts.of_same rfl rfl
    · split
      · split
        · exact hcnts.of_same rfl rfl
        · exact hcnts.of_same rfl rfl
      · exact hcnts.of_same rfl rfl
  | expireMarker =>
    have hlate : Later s { s with redis.moved := false } := .inl ⟨rfl, rfl, .inl rfl⟩
    exact ⟨⟨h.stored, fun v => (h.counts v).later hlate rfl⟩, hlate⟩
  | expireRow =>
    have hlate : Later s { s with redis.row := none, redis.rowExpires := false } :=
      .inl ⟨rfl, rfl, .inr rfl⟩
    exact ⟨⟨nofun, fun v => (h.counts v).later hlate rfl⟩, hlate⟩

lemma VersionInvariant.protects (h : VersionInvariant s) (hapart : ApartAt s w (s.phase w))
    (hstep : s.command positionId w = some t) (hstale : s.seen w < s.writes) {r : LiveRow}
    {leg : ControlLeg} {o : String} (hrow : s.redis.row = some r) (ho : r.control leg = .armed o) :
    ∃ r', t.redis.row = some r' ∧ r'.control leg = .armed o := by
  unfold command at hstep
  generalize hph : s.phase w = phase at hapart hstep
  cases phase with
  | idle held => cases hstep
  | writingRow p readAt =>
    have hown : p.control leg = .armed o := (h.writes hph hapart).2 hstale r hrow leg o ho
    cases hstep
    refine ⟨_, rfl, ?_⟩
    simp only [hsetRow, hown]
  | deletingRow p readAt =>
    have hdisar := ((h.counts w).discarded p readAt hph).2 hapart hstale r hrow leg
    rw [ho] at hdisar
    cases hdisar
  | readingMarker p | readingRow p | indexing p | indexingAgain p | persisting p | moving p
  | trimming p | marking p | expiring p | discarding p | leavingOpen p | leavingClosed p =>
    cases hstep
    exact ⟨r, hrow, ho⟩

/-! ### The laws of every run -/

/-- Both invariants of the saves. -/
def SaveInvariant (positionId : String) (s : SaveSystem W) : Prop :=
  ArchiveInvariant positionId s ∧ VersionInvariant s

omit [DecidableEq W] in
lemma saveInvariant_start (row : LiveRow) (openIndex closedIndex : List String) :
    SaveInvariant positionId (start row openIndex closedIndex : SaveSystem W) := by
  refine ⟨.of_unmarked rfl fun _ => rfl, fun r hr => ?_, fun w => ⟨fun p hp => ?_, ?_, ?_⟩⟩
  · cases hr
    rfl
  · cases hp
  · intro p n hp
    cases hp
  · intro p n hp
    cases hp

lemma saveInvariant_step (s : SaveSystem W) (a : SaveAction W) (t : SaveSystem W)
    (h : SaveInvariant positionId s) (hapart : SavesApart s a)
    (hstep : saveStep positionId s a = some t) : SaveInvariant positionId t :=
  ⟨archiveInvariant_step s a t h.1 hapart hstep, (versionInvariant_step h.2 hapart hstep).1⟩

lemma lastVersion_run {acts : List (SaveAction W)} (h : SaveInvariant positionId s)
    (hm : Meets (saveStep positionId) SavesApart s acts)
    (hr : run (saveStep positionId) s acts = some t) : s.lastVersion ≤ t.lastVersion := by
  have hrun : SaveInvariant positionId t ∧ s.lastVersion ≤ t.lastVersion := by
    refine invariant_of_meets (I := fun t => SaveInvariant positionId t ∧
      s.lastVersion ≤ t.lastVersion) (fun u a v hu hapart hstep => ?_) ⟨h, le_rfl⟩ hm hr
    have hlate := (versionInvariant_step hu.1.2 hapart hstep).2
    exact ⟨saveInvariant_step u a v hu.1 hapart hstep, hu.2.trans hlate.lastVersion_le⟩
  exact hrun.2

/-- If no two saves meet, a closed position stays closed, the stored version does not fall, and a
save from an older copy removes no order id. -/
theorem savePosition_keeps_of_apart (positionId : String) (row : LiveRow)
    (openIndex closedIndex : List String) (acts acts' : List (SaveAction W)) (s t : SaveSystem W)
    (hm : Meets (saveStep positionId) SavesApart (.start row openIndex closedIndex) (acts ++ acts'))
    (hs : run (saveStep positionId) (.start row openIndex closedIndex) acts = some s)
    (ht : run (saveStep positionId) s acts' = some t) : Kept positionId s acts' t := by
  have hinv : SaveInvariant positionId s := invariant_of_meets saveInvariant_step
    (saveInvariant_start row openIndex closedIndex) hm.left hs
  have hm' : Meets (saveStep positionId) SavesApart s acts' := hm.right hs
  have hinv' : SaveInvariant positionId t := invariant_of_meets saveInvariant_step hinv hm' ht
  refine ⟨fun w rest _ _ hmoved => (hinv'.1.marked hmoved).1, fun r r' hr hr' => ?_, ?_⟩
  · calc r.version = s.lastVersion := hinv.2.stored r hr
      _ ≤ t.lastVersion := lastVersion_run hinv hm' ht
      _ = r'.version := (hinv'.2.stored r' hr').symm
  · rintro w rfl hstale r leg o hr ho
    rw [run_singleton] at ht
    exact hinv.2.protects hm'.1 ht hstale hr ho

/-- The worker `true` stores a stop-loss id, the worker `false` saves its older copy without an id,
and `true` closes the position, up to its last command. -/
def saveOneAfterAnother : List (SaveAction Bool) :=
  [.read false, .read true, .edit true (filledRow (.armed "stop")), .call true] ++
    commands true 6 ++ [.call false] ++ commands false 6 ++
    [.edit true { filledRow (.armed "stop") with status := .closed }, .call true] ++
    commands true 5

/-- A last save of the older copy finds the marker. -/
theorem savePosition_keeps_staleCopy : ∃ s t : SaveSystem Bool,
      run (saveStep "position") (.start (filledRow .blank) ["position"] []) saveOneAfterAnother =
        some s ∧
      run (saveStep "position") s [.command true, .call false, .command false] = some t ∧
      t.redis.row.map (fun r => (r.status, r.version, r.control .stopLoss)) =
        some (.closed, 4, .armed "stop") ∧
      Kept "position" s [.command true, .call false, .command false] t := by
  have hrun : (run (saveStep "position") (.start (filledRow .blank) ["position"] [])
      (saveOneAfterAnother ++ [.command true, .call false, .command false])).map
        (fun t => t.redis.row.map fun r => (r.status, r.version, r.control .stopLoss)) =
      some (some (.closed, 4, .armed "stop")) := by
    decide +kernel
  obtain ⟨t, ht, hrow⟩ := map_eq_some_iff.mp hrun
  obtain ⟨s, hs, hst⟩ := run_append_eq_some.mp ht
  exact ⟨s, t, hs, hst, hrow,
    savePosition_keeps_of_apart "position" (filledRow .blank) ["position"] [] saveOneAfterAnother
      [.command true, .call false, .command false] s t (by decide +kernel) hs hst⟩

end CtsEngine
