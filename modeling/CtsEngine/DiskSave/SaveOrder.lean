import CtsEngine.Foundation.Versions
import CtsEngine.Snapshot.Restore
import CtsEngine.Transition.Runs

/-!
# Saving the inline store

`saveToDisk` writes the snapshot line by line into a file of its own, while the store goes on
changing, and renames it into place; only one of these saves runs at a time.  `saveToDiskSync`
writes the whole snapshot at once.  Both take down which version of the store they have persisted.

A cell is a key of one of the maps, and its value is its line in a snapshot.
-/

namespace CtsEngine.DiskSave

open Option Keyed Int

/-! ## Cells -/

/-- The maps of the store. -/
inductive Bucket
  | strings
  | hashes
  | sets
  | lists
  | sorted_sets
  | ttl
deriving DecidableEq

/-- A key of a map. -/
abbrev Cell := Bucket × String

def lineOf (data : RedisData) : Cell → Option SnapshotRecord
  | (.strings, key) => (get? data.strings key).map (.string key)
  | (.hashes, key) => (get? data.hashes key).map (.hash key)
  | (.sets, key) => (get? data.sets key).map (.set key)
  | (.lists, key) => (get? data.lists key).map (.list key)
  | (.sorted_sets, key) => (get? data.sorted_sets key).map fun set => .zset key set.entries
  | (.ttl, key) => (get? data.ttl key).map (.ttl key)

/-- The cells of a map that a snapshot has. -/
def plannedKeys {V : Type} (bucket : Bucket) (entries : List (String × V)) : List Cell :=
  (keptEntries entries).map fun entry => (bucket, entry.1)

/-- The key plan of `snapshotV2Lines`. -/
def keyPlan (data : RedisData) : List Cell :=
  plannedKeys .strings data.strings ++ plannedKeys .hashes data.hashes ++
    plannedKeys .sets data.sets ++ plannedKeys .lists data.lists ++
    plannedKeys .sorted_sets data.sorted_sets ++ plannedKeys .ttl data.ttl

/-- A snapshot file: the version in its header and its lines, the last one first. -/
structure SnapshotFile where
  mutationVersion : ℕ
  lines : List (Cell × SnapshotRecord)

/-- What a file has of a cell: its last line of it. -/
def fileLine (file : Option SnapshotFile) (cell : Cell) : Option SnapshotRecord :=
  file.bind fun file => get? file.lines cell

/-- What an asynchronous save does next, with the version that it has read. -/
inductive SavePhase
  /-- It looks for the path. -/
  | resolving
  /-- It opens its file and writes the header. -/
  | opening (snapshotVersion : ℕ)
  /-- It writes the lines of these cells; after the last one it syncs and renames. -/
  | writing (snapshotVersion : ℕ) (todo : List Cell) (lines : List (Cell × SnapshotRecord))
  /-- It syncs the directory. -/
  | renamed (snapshotVersion : ℕ)

/-- The store and its snapshot. -/
structure SaveState where
  data : RedisData
  mutationVersion : ℕ := 0
  /-- -1 before the first save. -/
  persistedVersion : ℤ := -1
  /-- `__redis_snapshot_save_promise`. -/
  inFlight : Option SavePhase := none
  /-- The file in place. -/
  file : Option SnapshotFile := none
  /-- The versions that the calls of `persistNow` wait for. -/
  required : List ℕ := []
  /-- Every state that the store had, the oldest first. -/
  history : List RedisData

/-- A process that starts with these data. -/
def start (data : RedisData) : SaveState := { data := data, history := [data] }

/-- A single step. -/
inductive Event
  /-- The store changes, and `markDirty` counts it. -/
  | mutate (data : RedisData)
  /-- A call of `saveToDisk`. -/
  | saveToDisk
  /-- The save in flight reads the version. -/
  | captureVersion
  /-- After its header it takes down the keys. -/
  | planKeys
  /-- It writes the line of the next cell, if that is still there. -/
  | writeLine
  /-- The file replaces the one in place. -/
  | rename
  | markPersisted
  /-- The save gives up. -/
  | fail
  /-- A call of `saveToDiskSync`. -/
  | saveToDiskSync
  /-- A call of `persistNow`. -/
  | persistNow
  /-- A call of `persistNow` finds its version persisted and returns `true`. -/
  | persistNowTrue (i : ℕ)

def step (s : SaveState) : Event → Option SaveState
  | .mutate data =>
    some { s with
      data := data
      mutationVersion := s.mutationVersion + 1
      history := s.history ++ [data] }
  | .saveToDisk =>
    if s.inFlight.isSome ∨ (s.mutationVersion : ℤ) ≤ s.persistedVersion then some s
    else some { s with inFlight := some .resolving }
  | .captureVersion =>
    match s.inFlight with
    | some .resolving => some { s with inFlight := some (.opening s.mutationVersion) }
    | _ => none
  | .planKeys =>
    match s.inFlight with
    | some (.opening version) =>
      some { s with inFlight := some (.writing version (keyPlan s.data) []) }
    | _ => none
  | .writeLine =>
    match s.inFlight with
    | some (.writing version (cell :: todo) lines) =>
      some { s with
        inFlight := some (.writing version todo (Versions.copyPart lineOf s.data lines cell)) }
    | _ => none
  | .rename =>
    match s.inFlight with
    | some (.writing version [] lines) =>
      some { s with file := some ⟨version, lines⟩, inFlight := some (.renamed version) }
    | _ => none
  | .markPersisted =>
    match s.inFlight with
    | some (.renamed version) =>
      some { s with persistedVersion := max s.persistedVersion version, inFlight := none }
    | _ => none
  | .fail =>
    match s.inFlight with
    | some (.renamed _) => none
    | some _ => some { s with inFlight := none }
    | none => none
  | .saveToDiskSync =>
    if (s.mutationVersion : ℤ) ≤ s.persistedVersion then some s
    else some { s with
      file := some ⟨s.mutationVersion, (keyPlan s.data).foldl (Versions.copyPart lineOf s.data) []⟩
      persistedVersion := max s.persistedVersion s.mutationVersion }
  | .persistNow => some { s with required := s.required ++ [s.mutationVersion] }
  | .persistNowTrue i =>
    (s.required[i]?).bind fun required =>
      if (required : ℤ) ≤ s.persistedVersion then some s else none

/-! ## The file in place -/

open Transition
open Versions

variable {s t : SaveState} {event : Event} {data : RedisData} {cell : Cell}

/-- A cell that snapshots have: its key is not one of a product that can be computed again. -/
def Kept (cell : Cell) : Prop := isRebuildableInlineSnapshotKey cell.2 = false

/-- Every cell that snapshots have is in the file in place as some state from version `v` on had
it. -/
def FileAsOf (s : SaveState) (v : ℕ) : Prop :=
  ∀ cell, Kept cell → AsOf s.history (lineOf · cell) v (fileLine s.file cell)

/-- The file in place has the effect of every mutation up to the persisted version. -/
def Saved (s : SaveState) : Prop := ∀ v : ℕ, (v : ℤ) ≤ s.persistedVersion → FileAsOf s v

/-- A save renames its file while no later version is marked as persisted. -/
def RenamesInOrder (s : SaveState) (event : Event) : Prop :=
  match event, s.inFlight with
  | .rename, some (.writing version _ _) => s.persistedVersion ≤ version
  | _, _ => True

/-- What a save in flight has so far. -/
def FlightOk (s : SaveState) : Prop :=
  match s.inFlight with
  | some (.opening version) => version ≤ s.mutationVersion
  | some (.writing version todo lines) =>
    version ≤ s.mutationVersion ∧ Copied s.history lineOf Kept version todo lines
  | some (.renamed version) => version ≤ s.mutationVersion ∧ FileAsOf s version
  | _ => True

structure SaveOk (s : SaveState) : Prop where
  length : s.history.length = s.mutationVersion + 1
  last : s.history.getLast? = some s.data
  persisted : s.persistedVersion ≤ s.mutationVersion
  saved : Saved s
  flight : FlightOk s

lemma mem_plannedKeys {V : Type} {bucket : Bucket} {entries : List (String × V)} {key : String}
    (hkept : isRebuildableInlineSnapshotKey key = false)
    (hthere : (get? entries key).isSome) : (bucket, key) ∈ plannedKeys bucket entries := by
  obtain ⟨value, hval⟩ := isSome_iff_exists.mp hthere
  refine List.mem_map.mpr ⟨(key, value), ?_, rfl⟩
  exact List.mem_filter.mpr ⟨mem_of_get? hval, by rw [hkept]; rfl⟩

lemma mem_keyPlan (hkept : Kept cell) (hthere : (lineOf data cell).isSome) :
    cell ∈ keyPlan data := by
  obtain ⟨bucket, key⟩ := cell
  have hmem : ∀ {V : Type} {entries : List (String × V)} {f : V → SnapshotRecord},
      ((get? entries key).map f).isSome → (bucket, key) ∈ plannedKeys bucket entries :=
    fun h => mem_plannedKeys hkept (by simpa using h)
  unfold keyPlan
  simp only [List.mem_append]
  cases bucket with
  | strings => exact .inl (.inl (.inl (.inl (.inl (hmem hthere)))))
  | hashes => exact .inl (.inl (.inl (.inl (.inr (hmem hthere)))))
  | sets => exact .inl (.inl (.inl (.inr (hmem hthere))))
  | lists => exact .inl (.inl (.inr (hmem hthere)))
  | sorted_sets => exact .inl (.inr (hmem hthere))
  | ttl => exact .inr (hmem hthere)

lemma FileAsOf.mono {v w : ℕ} (h : FileAsOf s w) (hle : v ≤ w) : FileAsOf s v :=
  fun cell hkept => (h cell hkept).mono hle

lemma FileAsOf.later {v : ℕ} (h : FileAsOf s v) (hfile : t.file = s.file)
    (hhist : t.history = s.history ++ [data]) : FileAsOf t v := by
  intro cell hkept
  rw [hfile, hhist]
  exact (h cell hkept).later data

lemma fileAsOf_of_copied {v version : ℕ} {lines : List (Cell × SnapshotRecord)}
    (h : Copied s.history lineOf Kept v [] lines) (hfile : t.file = some ⟨version, lines⟩)
    (hhist : t.history = s.history) : FileAsOf t v := by
  intro cell hkept
  rw [hfile, hhist]
  exact h.asOf hkept

/-- A step that renames in order keeps the invariant. -/
lemma SaveOk.step (h : SaveOk s) (hcond : RenamesInOrder s event) (hstep : step s event = some t) :
    SaveOk t := by
  have hlen := h.length
  revert hstep
  fun_cases DiskSave.step s event
  all_goals
    intro hstep
    try cases hstep
    try exact h
    try exact ⟨h.length, h.last, h.persisted, h.saved, trivial⟩
  next data =>
    refine ⟨by simp [hlen], by simp, h.persisted.trans (by simp), fun v hv => ?_, ?_⟩
    · exact (h.saved v hv).later rfl rfl
    · have hflt := h.flight
      unfold FlightOk at hflt ⊢
      dsimp only
      split at hflt
      · exact Nat.le_succ_of_le hflt
      · exact ⟨Nat.le_succ_of_le hflt.1, hflt.2.later data⟩
      · exact ⟨Nat.le_succ_of_le hflt.1, hflt.2.later rfl rfl⟩
      · trivial
  next => exact ⟨h.length, h.last, h.persisted, h.saved, le_rfl⟩
  next version hph =>
    have hver : version ≤ s.mutationVersion := by
      simpa only [FlightOk, hph] using h.flight
    have hpast : version < s.history.length := by omega
    refine ⟨h.length, h.last, h.persisted, h.saved, hver, ?_⟩
    exact copied_start h.last hpast fun cell hkept hthere => mem_keyPlan hkept hthere
  next version cell todo lines hph =>
    obtain ⟨hver, hcop⟩ : _ ∧ Copied _ _ _ version (cell :: todo) lines := by
      simpa only [FlightOk, hph] using h.flight
    exact ⟨h.length, h.last, h.persisted, h.saved, hver, hcop.next h.last (by omega)⟩
  next version lines hph =>
    obtain ⟨hver, hcop⟩ : _ ∧ Copied _ _ _ version [] lines := by
      simpa only [FlightOk, hph] using h.flight
    have hord : s.persistedVersion ≤ version := by simpa [RenamesInOrder, hph] using hcond
    have hnew : FileAsOf { s with
        file := some ⟨version, lines⟩, inFlight := some (.renamed version) } version :=
      fileAsOf_of_copied hcop rfl rfl
    refine ⟨h.length, h.last, h.persisted, fun v hv => hnew.mono ?_, hver, hnew⟩
    exact ofNat_le.mp (le_trans hv hord)
  next version hph =>
    obtain ⟨hver, hfile⟩ : _ ∧ FileAsOf s version := by
      simpa only [FlightOk, hph] using h.flight
    refine ⟨h.length, h.last, max_le h.persisted (ofNat_le.mpr hver), ?_, trivial⟩
    intro v hv
    rcases le_max_iff.mp hv with hbef | hnow
    · exact h.saved v hbef
    · exact hfile.mono (ofNat_le.mp hnow)
  next =>
    have hcop : Copied s.history lineOf Kept s.mutationVersion []
        ((keyPlan s.data).foldl (copyPart lineOf s.data) []) := by
      have hstart : Copied s.history lineOf Kept s.mutationVersion (keyPlan s.data) [] :=
        copied_start h.last (by omega) fun cell hkept hthere => mem_keyPlan hkept hthere
      exact hstart.all h.last (by omega)
    have hnew : FileAsOf { s with
        file := some ⟨s.mutationVersion, (keyPlan s.data).foldl (copyPart lineOf s.data) []⟩
        persistedVersion := max s.persistedVersion s.mutationVersion } s.mutationVersion :=
      fileAsOf_of_copied hcop rfl rfl
    refine ⟨h.length, h.last, max_le h.persisted le_rfl, fun v hv => hnew.mono ?_, ?_⟩
    · exact ofNat_le.mp (hv.trans (max_le h.persisted le_rfl))
    · have hflt := h.flight
      unfold FlightOk at hflt ⊢
      dsimp only
      split at hflt
      · exact hflt
      · exact hflt
      · exact ⟨hflt.1, hnew.mono hflt.1⟩
      · trivial
  next => exact ⟨h.length, h.last, h.persisted, h.saved, h.flight⟩
  next i =>
    obtain ⟨required, -, hstep⟩ := bind_eq_some_iff.mp hstep
    obtain ⟨-, hst⟩ := ite_none_right_eq_some.mp hstep
    exact some.inj hst ▸ h

lemma saveOk_start (data : RedisData) : SaveOk (start data) where
  length := rfl
  last := rfl
  persisted := by simp [start]
  saved := fun v hv => absurd hv (by simp [start]; omega)
  flight := trivial

/-- **Persistence.** In a run in which no asynchronous save renames its file over that of a later
save, the file in place has every cell that snapshots have as of the persisted version; and when
`persistNow` returns `true`, as of the version at its call. -/
theorem saved_of_inOrder (data : RedisData) (events : List Event)
    (hmeets : Meets step RenamesInOrder (start data) events) (done : List Event) (s : SaveState)
    (hdone : done <+: events) (hrun : run step (start data) done = some s) :
    Saved s ∧ ∀ (i required : ℕ) (t : SaveState), s.required[i]? = some required →
      step s (.persistNowTrue i) = some t → FileAsOf t required := by
  obtain ⟨rest, rfl⟩ := hdone
  have hok : SaveOk s :=
    invariant_of_meets (fun _ _ _ h hcond hstep => SaveOk.step h hcond hstep) (saveOk_start data)
      hmeets.left hrun
  refine ⟨hok.saved, fun i required t hrequired hstep => ?_⟩
  obtain ⟨version, hversion, hstep⟩ := bind_eq_some_iff.mp hstep
  obtain rfl := some.inj (hrequired.symm.trans hversion)
  split at hstep
  · next hpersisted =>
    cases hstep
    exact hok.saved _ hpersisted
  · cases hstep

/-! ### Runs -/

instance (s : SaveState) (event : Event) : Decidable (RenamesInOrder s event) := by
  unfold RenamesInOrder
  split <;> infer_instance

/-- The maps with these strings. -/
def withStrings (strings : List (String × String)) : RedisData := { strings := strings }

/-- A string is set, and an asynchronous save writes it while another one is set. -/
def savedWhileWriting : List Event :=
  [.mutate (withStrings [("a", "1")]), .persistNow, .saveToDisk, .captureVersion, .planKeys,
    .mutate (withStrings [("a", "2"), ("b", "1")]), .writeLine, .rename, .markPersisted]

/-- A run of one save. -/
theorem saved_of_inOrder_whileWriting : Meets step RenamesInOrder (start {}) savedWhileWriting ∧
    ∀ done s, done <+: savedWhileWriting → run step (start {}) done = some s → Saved s := by
  have hmeets : Meets step RenamesInOrder (start {}) savedWhileWriting := by decide +kernel
  exact ⟨hmeets, fun done s hdone hrun => (saved_of_inOrder {} _ hmeets done s hdone hrun).1⟩

/-- The maps with the list of configurations, which can be computed again. -/
def withConfigs : RedisData := withStrings [("direct_trade:configs", "[]")]

/-- A process that has persisted these maps. -/
def configsSaved : SaveState where
  data := withConfigs
  mutationVersion := 1
  persistedVersion := 1
  file := some ⟨1, []⟩
  history := [{}, withConfigs]

lemma keyPlan_withConfigs : keyPlan withConfigs = [] := by decide +kernel

/-- The list of configurations is persisted, but no snapshot has it. -/
theorem not_saved_rebuildable : ¬ ∀ (data : RedisData) (events : List Event) (s : SaveState),
      run step (start data) events = some s → ∀ v : ℕ, (v : ℤ) ≤ s.persistedVersion → ∀ cell,
          AsOf s.history (lineOf · cell) v (fileLine s.file cell) := by
  intro hall
  have hrun : run step (start {}) [.mutate withConfigs, .saveToDiskSync] = some configsSaved := by
    simp [run, step, start, keyPlan_withConfigs, configsSaved]
  obtain ⟨u, state, hu, hstate, hline⟩ := hall _ _ _ hrun 1 le_rfl
    (.strings, "direct_trade:configs")
  obtain ⟨hlt, hat⟩ := List.getElem?_eq_some_iff.mp hstate
  obtain rfl : u = 1 := by
    have hlength : u < 2 := hlt
    omega
  obtain rfl : withConfigs = state := hat
  cases hline

end CtsEngine.DiskSave
