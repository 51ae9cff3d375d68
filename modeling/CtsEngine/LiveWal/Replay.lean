import CtsEngine.Foundation.LastMaximal
import CtsEngine.LiveWal.Entries
import Mathlib.Data.Prod.Lex

/-!
# Checkpoints

The lines that `persistLivePositionCheckpoint` writes, for positions with numbers as versions and
times.  A file of checkpoints with a torn last line is read as these checkpoints, and the newest
entries of a pass are the last maximal checkpoints of their positions.
-/

open List Keyed

namespace CtsEngine.LiveWal

open JsonText (Value Exact ExactFields)

/-- A checkpoint: its position has a version or none, a time, and a connection whose id has no
colon, which separates it from the id of the position in the key of the hash. -/
structure Checkpoint where
  savedAt : Double
  position : Fields
  version : ℚ
  updatedAt : ℚ
  exact_savedAt : savedAt.IsExact
  exact_position : ExactFields jsonNumbers position
  version_eq : jsField position "version" = none ∧ version = 0 ∨
    jsField position "version" = some (.number (.finite version))
  updatedAt_eq : jsField position "updatedAt" = some (.number (.finite updatedAt))
  updatedAt_ne : updatedAt ≠ 0
  connectionId_ne : idText [jsField position "connectionId", jsField position "connection_id"] ≠ ""
  connectionId_colon :
    ':' ∉ (idText [jsField position "connectionId", jsField position "connection_id"]).toList
  positionId_ne : idText [jsField position "id"] ≠ ""

namespace Checkpoint

/-- The connection and the id of the position. -/
def key (c : Checkpoint) : String × String :=
  (idText [jsField c.position "connectionId", jsField c.position "connection_id"],
    idText [jsField c.position "id"])

/-- The version, and then the time. -/
def rank (c : Checkpoint) : ℚ ×ₗ ℚ := toLex (c.version, c.updatedAt)

/-- The object that is written. -/
def entry (c : Checkpoint) : Fields :=
  [("v", .number (.finite 1)), ("at", .number c.savedAt), ("connectionId", .text c.key.1),
    ("positionId", .text c.key.2), ("position", .object c.position)]

/-- The line that is written. -/
def line (c : Checkpoint) : List Char := stringify (.object c.entry)

variable (c : Checkpoint)

lemma idText_text {s : String} (h : s ≠ "") (htrim : trim s = s)
    (values : List (Option (Value Double))) : idText (some (.text s) :: values) = s := by
  have htrut : jsTruthy (.text s) = true := decide_eq_true h
  rw [idText, firstTruthy, findSome?_cons, Option.filter, htrut]
  exact htrim

lemma position_entry : LiveWal.position c.entry = c.position := rfl

lemma connectionId_entry : connectionId c.entry = c.key.1 :=
  idText_text c.connectionId_ne (trim_trim _) _

lemma positionId_entry : positionId c.entry = c.key.2 := idText_text c.positionId_ne (trim_trim _) _

lemma entryKey_entry : entryKey c.entry = c.key := Prod.ext c.connectionId_entry c.positionId_entry

lemma isEntry_entry : isEntry c.entry = true := by
  have hconn : decide (connectionId c.entry ≠ "") = true :=
    decide_eq_true (c.connectionId_entry ▸ c.connectionId_ne)
  have hpos : decide (positionId c.entry ≠ "") = true :=
    decide_eq_true (c.positionId_entry ▸ c.positionId_ne)
  rw [isEntry, hconn, hpos]
  rfl

lemma entryVersion_entry : entryVersion c.entry = .finite c.version := by
  rw [entryVersion, position_entry]
  rcases c.version_eq with ⟨hnone, hzero⟩ | hsome
  · rw [hnone, hzero]
    rfl
  · rw [hsome]
    by_cases hzero : c.version = 0
    · rw [hzero]
      rfl
    · have htrut : jsTruthy (.number (.finite c.version)) = true := by
        rw [jsTruthy]
        simp [hzero]
      rw [firstTruthy, findSome?_cons, Option.filter, htrut]
      rfl

lemma entryUpdatedAt_entry : entryUpdatedAt c.entry = .finite c.updatedAt := by
  have htrut : jsTruthy (.number (.finite c.updatedAt)) = true := by
    rw [jsTruthy]
    simp [c.updatedAt_ne]
  rw [entryUpdatedAt, position_entry, c.updatedAt_eq, firstTruthy, findSome?_cons,
    Option.filter, htrut]
  rfl

lemma exact_entry : Exact jsonNumbers (.object c.entry) :=
  ⟨⟨1, rfl, by decide +kernel⟩, c.exact_savedAt, trivial, trivial, c.exact_position, trivial⟩

end Checkpoint

/-- A file of checkpoints with what is left of a last line. -/
def walFile (checkpoints : List Checkpoint) (torn : List Char) : List Char :=
  framed (checkpoints.map Checkpoint.line) ++ torn

/-- The first bytes of a checkpoint, not all of them. -/
def IsTorn (torn : List Char) : Prop :=
  ∃ c : Checkpoint, ∃ bytes < utf8Bytes c.line, torn = truncatedText c.line bytes

lemma entries_framed {objects : List Fields}
    (hexact : ∀ fields ∈ objects, Exact jsonNumbers (.object fields)) {torn : List Char}
    (htorn : '\n' ∉ torn) (hparse : jsonParse torn = none) :
    entries (framed (objects.map fun fields => stringify (.object fields)) ++ torn) = objects := by
  have hlast : lineObject torn = none := by rw [lineObject, hparse]
  rw [entries, splitOn_framed _ htorn, filterMap_append, filterMap_map, filterMap_cons, hlast]
  · induction objects with
    | nil => rfl
    | cons fields objects ih =>
      have hline : lineObject (stringify (.object fields)) = some fields := by
        rw [lineObject, jsonParse_stringify (hexact fields mem_cons_self)]
      rw [filterMap_cons, Function.comp_apply, hline]
      exact congrArg _ (ih fun other hoth => hexact other (mem_cons_of_mem _ hoth))
  · intro line hline
    obtain ⟨fields, hflds, rfl⟩ := mem_map.mp hline
    exact newline_not_mem_stringify (hexact fields hflds)

lemma entries_walFile (checkpoints : List Checkpoint) {torn : List Char} (htorn : IsTorn torn) :
    entries (walFile checkpoints torn) = checkpoints.map Checkpoint.entry := by
  obtain ⟨c, bytes, hbytes, rfl⟩ := htorn
  have hparse : jsonParse (truncatedText c.line bytes) = none :=
    jsonParse_truncatedText c.exact_entry trivial hbytes
  have hnewl : '\n' ∉ truncatedText c.line bytes := by
    intro hmem
    rcases mem_truncatedText hmem with hmem | heq
    · exact newline_not_mem_stringify c.exact_entry hmem
    · exact absurd heq (by decide)
  have hexact : ∀ fields ∈ checkpoints.map Checkpoint.entry,
      Exact jsonNumbers (.object fields) := by
    intro fields hflds
    obtain ⟨d, -, rfl⟩ := mem_map.mp hflds
    exact d.exact_entry
  have hents := entries_framed hexact hnewl hparse
  rwa [map_map] at hents

end CtsEngine.LiveWal

namespace CtsEngine.LiveWal

open Keyed (later IsLastMax firsts)

/-! ## The newest checkpoints -/

section Newest

variable {B : Type} [LinearOrder B] {f : Checkpoint → B} {checkpoints : List Checkpoint}

/-- The last maximal checkpoint of each position, in the order of the first ones. -/
def newestCheckpoints (f : Checkpoint → B) (checkpoints : List Checkpoint) : List Checkpoint :=
  (firsts Checkpoint.key checkpoints).map fun c =>
    (checkpoints.filter (·.key = c.key)).foldl (later f) c

lemma isLastMax_of_mem_newest {c : Checkpoint} (hc : c ∈ newestCheckpoints f checkpoints) :
    IsLastMax f (checkpoints.filter (·.key = c.key)) c := by
  obtain ⟨first, hfst, hfold⟩ := mem_map.mp hc
  have hmax := isLastMax_collect (f := f) hfst
  rw [hfold] at hmax
  have hkey : c.key = first.key := of_decide_eq_true (mem_filter.mp hmax.mem).2
  rwa [hkey]

lemma mem_of_mem_newest {c : Checkpoint} (hc : c ∈ newestCheckpoints f checkpoints) :
    c ∈ checkpoints :=
  mem_of_mem_filter (isLastMax_of_mem_newest hc).mem

variable (f) (checkpoints)

lemma map_key_newest :
    (newestCheckpoints f checkpoints).map Checkpoint.key =
      (firsts Checkpoint.key checkpoints).map Checkpoint.key := by
  rw [newestCheckpoints, map_map]
  refine map_congr_left fun first hfst => ?_
  have hmax := isLastMax_collect (f := f) hfst
  exact of_decide_eq_true (mem_filter.mp hmax.mem).2

lemma nodup_newest :
    ((newestCheckpoints f checkpoints).map Checkpoint.key).Nodup := by
  rw [map_key_newest]
  exact (firsts_spec Checkpoint.key checkpoints).2.1

variable {checkpoints}

lemma exists_newest {c : Checkpoint} (hc : c ∈ checkpoints) :
    ∃ d ∈ newestCheckpoints f checkpoints, d.key = c.key := by
  obtain ⟨first, hfst, hkey⟩ := (firsts_spec Checkpoint.key checkpoints).2.2 c hc
  have hmem : first.key ∈ (newestCheckpoints f checkpoints).map Checkpoint.key := by
    rw [map_key_newest]
    exact mem_map_of_mem hfst
  obtain ⟨d, hd, heq⟩ := mem_map.mp hmem
  exact ⟨d, hd, heq.trans hkey⟩

variable {f}

lemma newestCheckpoints_of_nodup (h : (checkpoints.map Checkpoint.key).Nodup) :
    newestCheckpoints f checkpoints = checkpoints := by
  rw [newestCheckpoints, Keyed.firsts_of_nodup h]
  refine (map_congr_left fun c hc => ?_).trans (map_id _)
  rw [filter_of_nodup h hc]
  exact if_pos le_rfl

lemma newestEntries_eq {replaces : Fields → Fields → Bool}
    (hrepl : ∀ c d : Checkpoint, replaces c.entry d.entry = decide (f c ≤ f d))
    (checkpoints : List Checkpoint) :
    (newestEntries replaces (checkpoints.map Checkpoint.entry)).map Prod.snd =
      (newestCheckpoints f checkpoints).map Checkpoint.entry := by
  have hcoll : newestEntries replaces (checkpoints.map Checkpoint.entry) =
      (collect Checkpoint.key id (later f) checkpoints).map
        fun entry => (entry.1, entry.2.entry) := by
    induction checkpoints using reverseRecOn with
    | nil => rfl
    | append_singleton checkpoints c ih =>
      rw [newestEntries, map_append, foldl_append, ← newestEntries, map_singleton,
        foldl_cons, foldl_nil, if_pos c.isEntry_entry, c.entryKey_entry, ih,
        collect_append_singleton, get?_map_value]
      cases hget : get? (collect Checkpoint.key id (later f) checkpoints) c.key with
      | none =>
        have hself : later f c c = c := if_pos le_rfl
        rw [Option.getD_none, id_eq, hself]
        exact put_map_value _ _ _ _
      | some previous =>
        rw [Option.map_some, Option.getD_some]
        dsimp only
        rw [hrepl, later]
        by_cases hle : f previous ≤ f c
        · rw [if_pos (decide_eq_true hle), if_pos hle]
          exact put_map_value _ _ _ _
        · rw [if_neg (by simpa using hle), if_neg hle, put_of_get? hget]
  rw [hcoll, collect_eq, newestCheckpoints, map_map, map_map, map_map]
  rfl

end Newest

lemma le_finite (p q : ℚ) : le (.finite p) (.finite q) = decide (p ≤ q) := by
  have hlt : Double.lt (.finite p) (.finite q) = decide (p < q) := rfl
  have heq : Double.eq (.finite p) (.finite q) = decide (p = q) := rfl
  rw [le, hlt, heq, ← Bool.decide_or]
  exact decide_eq_decide.mpr le_iff_lt_or_eq.symm

lemma compactsOver_entry (c d : Checkpoint) :
    compactsOver c.entry d.entry = decide (c.updatedAt ≤ d.updatedAt) := by
  rw [compactsOver, c.entryUpdatedAt_entry, d.entryUpdatedAt_entry, le_finite]

lemma replaysOver_entry (c d : Checkpoint) :
    replaysOver c.entry d.entry = decide (c.rank ≤ d.rank) := by
  have hlt : Double.lt (.finite c.version) (.finite d.version) =
    decide (c.version < d.version) := rfl
  have heq : Double.eq (.finite d.version) (.finite c.version) =
    decide (d.version = c.version) := rfl
  rw [replaysOver, c.entryVersion_entry, d.entryVersion_entry, c.entryUpdatedAt_entry,
    d.entryUpdatedAt_entry, le_finite, hlt, heq, ← Bool.decide_and, ← Bool.decide_or]
  refine decide_eq_decide.mpr ?_
  rw [Checkpoint.rank, Checkpoint.rank, Prod.Lex.toLex_le_toLex, eq_comm]

lemma replay_eq {raw : List Char} {checkpoints : List Checkpoint}
    (h : entries raw = checkpoints.map Checkpoint.entry) (store : RecoveredStore) :
    replayLivePositionWal raw store =
      ((newestCheckpoints Checkpoint.rank checkpoints).map Checkpoint.entry).foldl restoreEntry
        store := by
  rw [replayLivePositionWal, h, newestEntries_eq replaysOver_entry]

/-! ## Keys -/

variable {first second : String}

lemma append_left_cancel_text {start : String} (h : start ++ first = start ++ second) :
    first = second := by
  have hlist := congrArg String.toList h
  rw [String.toList_append, String.toList_append] at hlist
  exact String.toList_inj.mp (append_cancel_left hlist)

lemma append_right_cancel_text {stop : String} (h : first ++ stop = second ++ stop) :
    first = second := by
  have hlist := congrArg String.toList h
  rw [String.toList_append, String.toList_append] at hlist
  exact String.toList_inj.mp (append_cancel_right hlist)

lemma separated_inj {sep rest more : String} {c : Char} (hsep : sep.toList = [c])
    (hfst : c ∉ first.toList) (hsec : c ∉ second.toList)
    (h : first ++ sep ++ rest = second ++ sep ++ more) : first = second ∧ rest = more := by
  have hlist := congrArg String.toList h
  rw [String.toList_append, String.toList_append, String.toList_append, String.toList_append, hsep,
    append_assoc, append_assoc] at hlist
  exact (append_cons_inj_of_not_mem hfst hsec hlist).imp String.toList_inj.mp String.toList_inj.mp

lemma hashKey_inj {c d : Checkpoint} (h : hashKey c.key = hashKey d.key) : c.key = d.key := by
  unfold hashKey at h
  rw [String.append_assoc, String.append_assoc, String.append_assoc, String.append_assoc] at h
  have hrest := append_left_cancel_text h
  rw [← String.append_assoc, ← String.append_assoc] at hrest
  obtain ⟨hconn, hid⟩ := separated_inj rfl c.connectionId_colon d.connectionId_colon hrest
  exact Prod.ext hconn hid

lemma jsonKey_inj (h : jsonKey first = jsonKey second) :
    first = second := append_left_cancel_text h

lemma openIndexKey_inj (h : openIndexKey first = openIndexKey second) :
    first = second := append_left_cancel_text h

lemma closedIndexKey_inj (h : closedIndexKey first = closedIndexKey second) : first = second :=
  append_left_cancel_text (append_right_cancel_text h)

lemma openIndexKey_ne_closedIndexKey (c : Checkpoint) (connection : String) :
    openIndexKey c.key.1 ≠ closedIndexKey connection := by
  intro h
  unfold openIndexKey closedIndexKey at h
  rw [String.append_assoc] at h
  have hconn := congrArg String.toList (append_left_cancel_text h)
  have hcolon : ':' ∈ ":closed".toList := by decide
  rw [String.toList_append] at hconn
  exact c.connectionId_colon (hconn ▸ mem_append_right _ hcolon)

/-- The hash in the store is older than a checkpoint, or there is none. -/
def IsNewer (store : RecoveredStore) (c : Checkpoint) : Prop := isStale store c.entry = false

instance (store : RecoveredStore) (c : Checkpoint) : Decidable (IsNewer store c) :=
  inferInstanceAs (Decidable (_ = _))

/-- The writes of checkpoints one after another. -/
def writeAll (store : RecoveredStore) (checkpoints : List Checkpoint) : RecoveredStore :=
  (checkpoints.map Checkpoint.entry).foldl writeEntry store

lemma isNewer_writeEntry {store : RecoveredStore} {c d : Checkpoint} (h : c.key ≠ d.key) :
    IsNewer (writeEntry store c.entry) d ↔ IsNewer store d := by
  have hhash : (writeEntry store c.entry).hashes (hashKey (entryKey d.entry)) =
      store.hashes (hashKey (entryKey d.entry)) := by
    rw [hashes_writeEntry, c.entryKey_entry, d.entryKey_entry,
      Function.update_of_ne fun heq => h (hashKey_inj heq).symm]
  rw [IsNewer, IsNewer, isStale, isStale, hhash]

lemma foldl_restoreEntry {checkpoints : List Checkpoint}
    (h : (checkpoints.map Checkpoint.key).Nodup) (store : RecoveredStore) :
    (checkpoints.map Checkpoint.entry).foldl restoreEntry store =
      writeAll store (checkpoints.filter (IsNewer store ·)) := by
  induction checkpoints generalizing store with
  | nil => rfl
  | cons c checkpoints ih =>
    obtain ⟨hc, hrest⟩ := nodup_cons.mp h
    rw [map_cons, foldl_cons, ih hrest, filter_cons]
    by_cases hnewer : IsNewer store c
    · have hresto : restoreEntry store c.entry = writeEntry store c.entry := by
        rw [restoreEntry, show isStale store c.entry = false from hnewer]
        rfl
      have hfilt : checkpoints.filter (IsNewer (writeEntry store c.entry) ·) =
          checkpoints.filter (IsNewer store ·) := by
        refine filter_congr fun d hd => ?_
        exact decide_eq_decide.mpr (isNewer_writeEntry fun heq =>
          hc (heq ▸ mem_map_of_mem hd))
      rw [hresto, hfilt, if_pos (decide_eq_true hnewer)]
      rfl
    · have hstale : isStale store c.entry = true := by simpa [IsNewer] using hnewer
      have hresto : restoreEntry store c.entry = store := if_pos hstale
      rw [hresto, if_neg (by simpa using hnewer)]

end CtsEngine.LiveWal
