import CtsEngine.Foundation.Grouping
import CtsEngine.Snapshot.Restore

/-!
# What a snapshot restores

Each line of a snapshot is read as the record that was written, and puts it into the fresh maps.
The lines of a store give its entries in their order; a sorted set gets the index of its entries,
and an expiry that is no finite number is written as `null` and read as zero.
-/

namespace CtsEngine

open List Keyed Nat SnapshotRecord RedisData
open JsonText (Value Exact ExactElements ExactFields IsComposite)

/-- A store while a snapshot of it is written, with the time and the mutation version of the
snapshot: maps have one entry for each key, a sorted set has its entries in order and indexed, and
numbers are doubles. -/
structure SnapshotSource (localeCompare : String → String → ℤ) where
  data : RedisData
  savedAt : Double
  snapshotVersion : Double
  strings_unique : KeysUnique data.strings
  hashes_unique : KeysUnique data.hashes
  sets_unique : KeysUnique data.sets
  lists_unique : KeysUnique data.lists
  sorted_sets_unique : KeysUnique data.sorted_sets
  ttl_unique : KeysUnique data.ttl
  fields_unique : ∀ entry ∈ data.hashes, KeysUnique entry.2
  fields_exact : ∀ entry ∈ data.hashes, ExactFields jsonNumbers entry.2
  members_nodup : ∀ entry ∈ data.sets, entry.2.Nodup
  entries_unique : ∀ entry ∈ data.sorted_sets, KeysUnique entry.2.entries
  scores_exact : ∀ entry ∈ data.sorted_sets, ∀ scored ∈ entry.2.entries, scored.2.IsExact
  entries_sorted : ∀ entry ∈ data.sorted_sets,
    entry.2.entries.Pairwise fun a b => entryBefore localeCompare b a = false
  indexed : ∀ entry ∈ data.sorted_sets, ∀ member,
    get? entry.2.memberIndex member = get? entry.2.entries member
  expiries : ∀ entry ∈ data.ttl, entry.2.IsExact ∨ ∀ q, entry.2 ≠ .finite q
  savedAt_exact : savedAt.IsExact
  snapshotVersion_exact : snapshotVersion.IsExact

/-- The two have the same entries in the same order, and their sorted sets have the same scores. -/
structure SameContent (a b : RedisData) : Prop where
  strings : a.strings = b.strings
  hashes : a.hashes = b.hashes
  sets : a.sets = b.sets
  lists : a.lists = b.lists
  sorted_sets : a.sorted_sets.map (fun entry => (entry.1, entry.2.entries)) =
    b.sorted_sets.map fun entry => (entry.1, entry.2.entries)
  scores : ∀ key zset zset', get? a.sorted_sets key = some zset →
    get? b.sorted_sets key = some zset' → ∀ member,
      get? zset.memberIndex member = get? zset'.memberIndex member
  ttl : a.ttl = b.ttl

/-- The number of entries of all maps. -/
def RedisData.size (data : RedisData) : ℕ :=
  data.strings.length + data.hashes.length + data.sets.length + data.lists.length +
    data.sorted_sets.length + data.ttl.length

lemma SameContent.size_eq {a b : RedisData} (h : SameContent a b) : a.size = b.size := by
  have hzsets := congrArg List.length h.sorted_sets
  rw [length_map, length_map] at hzsets
  rw [RedisData.size, RedisData.size, h.strings, h.hashes, h.sets, h.lists, hzsets, h.ttl]

lemma size_kept (data : RedisData) : data.kept.size = (snapshotRecords data).length := by
  simp only [RedisData.size, kept, snapshotRecords, length_append, length_map]

/-! ## One record -/

variable {localeCompare : String → String → ℤ}

/-- What an expiry is after a restore. -/
def restoredExpiry : Double → Double
  | .finite q => .finite q
  | _ => .finite 0

namespace SnapshotRecord

/-- Put a record into maps. -/
def stage (staged : RedisData) : SnapshotRecord → RedisData
  | .string key value => { staged with strings := put staged.strings key value }
  | .hash key fields => { staged with hashes := put staged.hashes key fields }
  | .set key members => { staged with sets := put staged.sets key members }
  | .list key values => { staged with lists := put staged.lists key values }
  | .zset key entries =>
    { staged with sorted_sets := put staged.sorted_sets key ⟨entries, entries⟩ }
  | .ttl key expiry => { staged with ttl := put staged.ttl key (restoredExpiry expiry) }

/-- A record of a store. -/
def Sound (localeCompare : String → String → ℤ) : SnapshotRecord → Prop
  | .string _ _ => True
  | .hash _ fields => KeysUnique fields ∧ ExactFields jsonNumbers fields
  | .set _ members => members.Nodup
  | .list _ _ => True
  | .zset _ entries => KeysUnique entries ∧ (∀ scored ∈ entries, scored.2.IsExact) ∧
      entries.Pairwise fun a b => entryBefore localeCompare b a = false
  | .ttl _ expiry => expiry.IsExact ∨ ∀ q, expiry ≠ .finite q

end SnapshotRecord

lemma exactElements_map {A : Type} {f : A → Value Double} {values : List A}
    (h : ∀ value ∈ values, Exact jsonNumbers (f value)) :
    ExactElements jsonNumbers (values.map f) := by
  induction values with
  | nil => trivial
  | cons value values ih =>
    exact ⟨h value mem_cons_self, ih fun other hoth => h other (mem_cons_of_mem _ hoth)⟩

lemma exact_jsonNumber {x : Double} (h : x.IsExact ∨ ∀ q, x ≠ .finite q) :
    Exact jsonNumbers (jsonNumber x) := by
  cases x with
  | finite q => exact h.resolve_right fun hne => hne q rfl
  | infinity => trivial
  | nan => trivial

variable {record : SnapshotRecord}

lemma exact_json (h : record.Sound localeCompare) : Exact jsonNumbers record.json := by
  cases record with
  | string => exact ⟨trivial, trivial, trivial, trivial⟩
  | hash => exact ⟨trivial, trivial, h.2, trivial⟩
  | set => exact ⟨trivial, trivial, exactElements_map fun _ _ => trivial, trivial⟩
  | list => exact ⟨trivial, trivial, exactElements_map fun _ _ => trivial, trivial⟩
  | zset key entries =>
    refine ⟨trivial, trivial, exactElements_map fun scored hmem => ?_, trivial⟩
    exact ⟨exact_jsonNumber (.inl (h.2.1 scored hmem)), trivial, trivial⟩
  | ttl => exact ⟨trivial, trivial, exact_jsonNumber h, trivial⟩

lemma isComposite_json (record : SnapshotRecord) : IsComposite record.json := by
  cases record <;> trivial

lemma jsObject_of_unique {fields : List (String × Value Double)} (h : KeysUnique fields) :
    jsObject fields = fields := foldl_put_of_unique h

lemma addMembers_of_nodup {members new : List String} (h : (members ++ new).Nodup) :
    addMembers members new = members ++ new := by
  induction new generalizing members with
  | nil => exact (append_nil _).symm
  | cons member new ih =>
    have hnew : member ∉ members := fun hmem =>
      (nodup_append.mp h).2.2 member hmem member mem_cons_self rfl
    have hstep : addMembers members (member :: new) = addMembers (members ++ [member]) new := by
      rw [addMembers, foldl_cons, if_neg hnew]
      rfl
    rw [hstep, ih (by rwa [← append_cons]), ← append_cons]

lemma sortedSetEntry_entryJson {scored : String × Double} (h : scored.2.IsExact) :
    sortedSetEntry (entryJson scored) = some scored := by
  obtain ⟨member, score⟩ := scored
  obtain ⟨q, rfl, -⟩ := h
  simp [sortedSetEntry, entryJson, jsonNumber, jsField, jsObject, put, get?, jsNumber]

lemma createSortedSet_entries {entries : List (String × Double)} (huniq : KeysUnique entries)
    (hexact : ∀ scored ∈ entries, scored.2.IsExact)
    (hsort : entries.Pairwise fun a b => entryBefore localeCompare b a = false) :
    createSortedSet localeCompare (entries.map entryJson) = ⟨entries, entries⟩ := by
  have hents : (entries.map entryJson).filterMap sortedSetEntry = entries := by
    rw [filterMap_map]
    refine (filterMap_congr fun scored hmem => ?_).trans filterMap_some
    exact sortedSetEntry_entryJson (hexact scored hmem)
  have hidx : entries.foldl (fun index entry => put index entry.1 entry.2) [] = entries :=
    foldl_put_of_unique huniq
  rw [createSortedSet, hents, hidx, mergeSort_of_pairwise]
  exact hsort.imp fun h => by rw [h]; rfl

lemma jsNumber_jsonNumber (x : Double) : jsNumber (jsonNumber x) = restoredExpiry x := by
  cases x <;> rfl

lemma stageRecord_json (h : record.Sound localeCompare) (staged : RedisData) (lineNumber : ℕ) :
    stageRecord localeCompare staged lineNumber record.json = .ok (record.stage staged) := by
  cases record with
  | string key value => rfl
  | hash key fields =>
    simp [stageRecord, json, stage, jsObject_of_unique h.1]
  | set key members =>
    have hmap : (members.map Value.text).map jsString = members := by
      rw [map_map]
      exact map_id' members
    have hnodup : ([] ++ members).Nodup := h
    have hmems : addMembers [] members = members := addMembers_of_nodup hnodup
    simp [stageRecord, json, stage, hmap, hmems]
  | list key values =>
    have hmap : (values.map Value.text).map jsString = values := by
      rw [map_map]
      exact map_id' values
    simp [stageRecord, json, stage, hmap]
  | zset key entries =>
    simp [stageRecord, json, stage,
      createSortedSet_entries h.1 h.2.1 h.2.2]
  | ttl key expiry =>
    simp only [stageRecord, json, stage, head?_cons,
      Option.map_some, jsNumber_jsonNumber]
    cases expiry <;> simp [restoredExpiry]

/-! ## All records -/

section Maps

variable {V W : Type} (get : RedisData → List (String × V))
  (set : RedisData → List (String × V) → RedisData)

lemma foldl_stage_map (hget : ∀ staged record, get (set staged record) = record)
    (hset : ∀ staged record record', set (set staged record) record' = set staged record')
    (hsame : ∀ staged, set staged (get staged) = staged) {make : W → SnapshotRecord}
    {entry : W → String × V}
    (hmake : ∀ staged w, (make w).stage staged =
      set staged (put (get staged) (entry w).1 (entry w).2))
    (ws : List W) (staged : RedisData) (hemp : get staged = [])
    (huniq : KeysUnique (ws.map entry)) :
    (ws.map make).foldl stage staged = set staged (ws.map entry) := by
  have hfold : ∀ (ws : List W) (staged : RedisData),
      (ws.map make).foldl stage staged =
        set staged ((ws.map entry).foldl (fun record e => put record e.1 e.2)
          (get staged)) := by
    intro ws
    induction ws with
    | nil => exact fun staged => (hsame staged).symm
    | cons w ws ih =>
      intro staged
      rw [map_cons, foldl_cons, hmake, ih, hget, hset, map_cons, foldl_cons]
  rw [hfold, hemp, foldl_put_of_unique huniq]

end Maps

namespace SnapshotSource

variable (source : SnapshotSource localeCompare)

/-- What the restore of a complete snapshot gives. -/
def restored : RedisData :=
  { source.data.kept with
    sorted_sets := source.data.kept.sorted_sets.map fun entry =>
      (entry.1, ⟨entry.2.entries, entry.2.entries⟩)
    ttl := source.data.kept.ttl.map fun entry => (entry.1, restoredExpiry entry.2) }

lemma keysUnique_kept {V : Type} {entries : List (String × V)} (h : KeysUnique entries) :
    KeysUnique (keptEntries entries) := h.filter _

lemma keysUnique_map_value {V W : Type} {entries : List (String × V)} (h : KeysUnique entries)
    (f : V → W) : KeysUnique (entries.map fun entry => (entry.1, f entry.2)) := by
  rw [KeysUnique, map_map]
  exact h

lemma foldl_stage :
    (snapshotRecords source.data).foldl stage {} = source.restored := by
  have hstrin := keysUnique_kept source.strings_unique
  have hhash := keysUnique_kept source.hashes_unique
  have hsets := keysUnique_kept source.sets_unique
  have hlists := keysUnique_kept source.lists_unique
  have hzsets := keysUnique_map_value (keysUnique_kept source.sorted_sets_unique)
    fun zset => (⟨zset.entries, zset.entries⟩ : SortedSetData)
  have httl := keysUnique_map_value (keysUnique_kept source.ttl_unique) restoredExpiry
  rw [← map_id (keptEntries source.data.strings)] at hstrin
  rw [← map_id (keptEntries source.data.hashes)] at hhash
  rw [← map_id (keptEntries source.data.sets)] at hsets
  rw [← map_id (keptEntries source.data.lists)] at hlists
  rw [snapshotRecords, foldl_append, foldl_append, foldl_append, foldl_append, foldl_append,
    foldl_stage_map strings (fun staged record => { staged with strings := record })
      (fun _ _ => rfl) (fun _ _ _ => rfl) (fun _ => rfl) (fun _ _ => rfl) _ _ rfl hstrin,
    foldl_stage_map hashes (fun staged record => { staged with hashes := record })
      (fun _ _ => rfl) (fun _ _ _ => rfl) (fun _ => rfl) (fun _ _ => rfl) _ _ rfl hhash,
    foldl_stage_map sets (fun staged record => { staged with sets := record })
      (fun _ _ => rfl) (fun _ _ _ => rfl) (fun _ => rfl) (fun _ _ => rfl) _ _ rfl hsets,
    foldl_stage_map lists (fun staged record => { staged with lists := record })
      (fun _ _ => rfl) (fun _ _ _ => rfl) (fun _ => rfl) (fun _ _ => rfl) _ _ rfl hlists,
    foldl_stage_map sorted_sets
      (fun staged record => { staged with sorted_sets := record })
      (fun _ _ => rfl) (fun _ _ _ => rfl) (fun _ => rfl) (fun _ _ => rfl) _ _ rfl hzsets,
    foldl_stage_map ttl (fun staged record => { staged with ttl := record })
      (fun _ _ => rfl) (fun _ _ _ => rfl) (fun _ => rfl) (fun _ _ => rfl) _ _ rfl httl]
  simp only [map_id]
  rfl

lemma mem_of_mem_kept {V : Type} {entries : List (String × V)} {entry : String × V}
    (h : entry ∈ keptEntries entries) : entry ∈ entries := mem_of_mem_filter h

lemma sound (h : record ∈ snapshotRecords source.data) : record.Sound localeCompare := by
  simp only [snapshotRecords, mem_append, mem_map] at h
  rcases h with ((((⟨entry, _, rfl⟩ | ⟨entry, hmem, rfl⟩) | ⟨entry, hmem, rfl⟩) | ⟨entry, _, rfl⟩) |
    ⟨entry, hmem, rfl⟩) | ⟨entry, hmem, rfl⟩
  · trivial
  · have hent := mem_of_mem_kept hmem
    exact ⟨source.fields_unique entry hent, source.fields_exact entry hent⟩
  · exact source.members_nodup entry (mem_of_mem_kept hmem)
  · trivial
  · have hent := mem_of_mem_kept hmem
    exact ⟨source.entries_unique entry hent, source.scores_exact entry hent,
      source.entries_sorted entry hent⟩
  · exact source.expiries entry (mem_of_mem_kept hmem)

/-- The expiries that a snapshot has are finite. -/
def FiniteExpiries : Prop := ∀ entry ∈ source.data.kept.ttl, ∃ q, entry.2 = .finite q

lemma sameContent_restored_iff :
    SameContent source.restored source.data.kept ↔ source.FiniteExpiries := by
  constructor
  · intro h entry hent
    have httl : source.data.kept.ttl.map (fun entry => (entry.1, restoredExpiry entry.2)) =
        source.data.kept.ttl.map id := h.ttl.trans (map_id _).symm
    have hsame := congrArg Prod.snd (map_inj_left.mp httl entry hent)
    obtain ⟨key, expiry⟩ := entry
    cases expiry with
    | finite q => exact ⟨q, rfl⟩
    | infinity => cases hsame
    | nan => cases hsame
  · intro hfinit
    refine ⟨rfl, rfl, rfl, rfl, ?_, fun key zset zset' hzset hzset' member => ?_, ?_⟩
    · dsimp only [restored]
      rw [map_map]
      rfl
    · have hmap := get?_map_value source.data.kept.sorted_sets
        (fun zset => (⟨zset.entries, zset.entries⟩ : SortedSetData)) key
      obtain rfl := Option.some.inj (hzset.symm.trans (hmap.trans (by rw [hzset']; rfl)))
      exact (source.indexed _ (mem_of_mem_kept (mem_of_get? hzset')) member).symm
    · refine (map_congr_left fun entry hent => ?_).trans (map_id _)
      obtain ⟨q, hq⟩ := hfinit entry hent
      rw [hq]
      exact Prod.ext rfl hq.symm

/-! ## The lines -/

/-- The lines of the snapshot. -/
def lines : List (List Char) := snapshotV2Lines source.data source.savedAt source.snapshotVersion

/-- The file of the snapshot. -/
def file : List Char := framed source.lines

lemma exact_header : Exact jsonNumbers (snapshotHeader source.savedAt source.snapshotVersion) :=
  ⟨⟨2, rfl, by decide +kernel⟩, exact_jsonNumber (.inl source.savedAt_exact),
    exact_jsonNumber (.inl source.snapshotVersion_exact), trivial⟩

lemma exists_value {line : List Char} (h : line ∈ source.lines) :
    ∃ value, Exact jsonNumbers value ∧ IsComposite value ∧ line = stringify value := by
  rcases mem_cons.mp h with rfl | h
  · exact ⟨_, source.exact_header, trivial, rfl⟩
  · obtain ⟨record, hmem, rfl⟩ := mem_map.mp h
    exact ⟨_, exact_json (source.sound hmem), isComposite_json record, rfl⟩

end SnapshotSource

lemma isBlank_cons {c : Char} {cs : List Char} (h : isJsSpace c = false) :
    isBlank (c :: cs) = false := by
  rw [isBlank, all_cons, h, Bool.false_and]

lemma isBlank_stringify {value : Value Double} (h : IsComposite value) :
    isBlank (stringify value) = false := by
  obtain ⟨c, cs, heq, hc⟩ := JsonText.exists_head_composite jsonNumbers h
  rw [stringify, heq]
  exact isBlank_cons (by rcases hc with rfl | rfl <;> decide)

lemma stageLines_append (staging : Staging) (before after : List (List Char)) :
    stageLines localeCompare staging (before ++ after) =
      match stageLines localeCompare staging before with
      | .error stop => .error stop
      | .ok staging => stageLines localeCompare staging after := by
  induction before generalizing staging with
  | nil => rfl
  | cons line before ih =>
    rw [cons_append, stageLines, stageLines]
    cases stageLine localeCompare staging line with
    | error stop => rfl
    | ok staging => exact ih staging

def headerFields (savedAt snapshotVersion : Double) : List (String × Value Double) :=
  [("v", .number (.finite 2)), ("savedAt", jsonNumber savedAt),
    ("mutationVersion", jsonNumber snapshotVersion)]

lemma headerOf_snapshotHeader (savedAt snapshotVersion : Double) :
    headerOf (snapshotHeader savedAt snapshotVersion) =
      some (headerFields savedAt snapshotVersion) := by
  simp [headerOf, snapshotHeader, headerFields, jsField, jsObject, put, get?]

lemma stageLines_records {records : List SnapshotRecord}
    (h : ∀ record ∈ records, record.Sound localeCompare) {staging : Staging}
    (hline : 0 < staging.lineNumber) :
    stageLines localeCompare staging (records.map fun record => stringify record.json) = .ok
        { staging with
          data := records.foldl stage staging.data
          lineNumber := staging.lineNumber + records.length } := by
  induction records generalizing staging with
  | nil => rfl
  | cons record records ih =>
    have hsound := h record mem_cons_self
    have hfst : staging.lineNumber + 1 ≠ 1 := by omega
    have hline' : stageLine localeCompare staging (stringify record.json) = .ok { staging with
            data := record.stage staging.data
            lineNumber := staging.lineNumber + 1 } := by
      rw [stageLine, isBlank_stringify (isComposite_json record), if_neg Bool.false_ne_true,
        jsonParse_stringify (exact_json hsound)]
      dsimp only
      rw [if_neg hfst, stageRecord_json hsound]
    rw [map_cons, stageLines, hline']
    dsimp only
    rw [ih (fun other hoth => h other (mem_cons_of_mem _ hoth)) (succ_pos _),
      foldl_cons, length_cons, add_right_comm, add_assoc staging.lineNumber]

/-- **The first lines of a snapshot.** -/
theorem SnapshotSource.stageLines_take (source : SnapshotSource localeCompare) (count : ℕ) :
    stageLines localeCompare {} (source.lines.take (count + 1)) = .ok
        { data := ((snapshotRecords source.data).take count).foldl stage {}
          header := some (headerFields source.savedAt source.snapshotVersion)
          lineNumber := 1 + ((snapshotRecords source.data).take count).length } := by
  have hhead : stageLine localeCompare {}
      (stringify (snapshotHeader source.savedAt source.snapshotVersion)) = .ok
          { header := some (headerFields source.savedAt source.snapshotVersion)
            lineNumber := 1 } := by
    have hcomp : IsComposite (snapshotHeader source.savedAt source.snapshotVersion) := trivial
    rw [stageLine, isBlank_stringify hcomp, if_neg Bool.false_ne_true,
      jsonParse_stringify source.exact_header]
    dsimp only
    rw [if_pos rfl, headerOf_snapshotHeader]
  rw [lines, snapshotV2Lines, take_succ_cons, stageLines, hhead]
  rw [← map_take]
  exact stageLines_records (fun record hmem => source.sound (mem_of_mem_take hmem)) one_pos

end CtsEngine
