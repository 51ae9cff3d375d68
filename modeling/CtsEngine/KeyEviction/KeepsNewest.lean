import CtsEngine.KeyEviction.Accounts

/-!
# The newest keys are kept

A pass is to delete no protected key but those of positions that have come to an end, to leave of
each family its newest keys up to the cap, and to return how much it took.
-/

namespace CtsEngine.KeyEviction

open List OrderedStore Bool Function

open StreamedQueues (members)

/-- The newest keys of a family, up to its cap. -/
def newest (cap : ℕ) (keys : List String) : List String := keys.drop (keys.length - cap)

/-- What a pass is to do. -/
structure KeepsNewest (environment : Environment) (s : OrderedStore) : Prop where
  /-- A key that is gone is not protected, or it is a position that has come to an end. -/
  keepsProtected : ∀ kind, ∀ key ∈ s.keys kind,
    key ∉ (evictOldRecords environment s).1.keys kind → isProtected key = false ∨
      ∃ entry ∈ s.entries .hash, entry.1 = key ∧ isTerminalPosition entry = true
  hashes : ∀ family, members classify family ((evictOldRecords environment s).1.keys .hash) =
    newest (caps environment family) (members classify family (s.keys .hash))
  strings : ∀ family,
    members classifyString family ((evictOldRecords environment s).1.keys .string) =
      newest (caps environment family) (members classifyString family (s.keys .string))
  /-- The number returned is the difference of sizes, where nothing is added. -/
  counted : (evictOldRecords environment s).1.size + (evictOldRecords environment s).2 = s.size

/-- The keys beyond the caps of the maps. -/
def IsBeyond (environment : Environment) (s : OrderedStore) : KeyKind → String → Prop
  | .hash, key => BeyondCap (caps environment) classify (s.keys .hash) key
  | .string, key => BeyondCap (caps environment) classifyString (s.keys .string) key
  | .list, key => key ∈ beyond 50 ((s.keys .list).filter isStrategyList)
  | _, _ => False

/-- No family and no connection has more than one beyond its cap, and what is beyond is alone. -/
structure FitsCaps (environment : Environment) (s : OrderedStore) : Prop where
  hashes : ∀ family, (members classify family (s.keys .hash)).length ≤ caps environment family + 1
  strings : ∀ family,
    (members classifyString family (s.keys .string)).length ≤ caps environment family + 1
  positions : ∀ connection,
    (members terminalConnection connection (s.entries .hash)).length ≤ maxTerminalPositions + 1
  alone : ∀ kind key, IsBeyond environment s kind key → s.Alone kind key

variable {environment : Environment} {s : OrderedStore}

/-! ## The parts one after another -/

/-- The keys of hashes that are deleted. -/
def deletedOf (environment : Environment) (s : OrderedStore) : List String :=
  deletedKeys (caps environment) classify (s.keys .hash)

def afterHashes (environment : Environment) (s : OrderedStore) : OrderedStore :=
  s.deleteKeys (deletedOf environment s)

/-- The keys of strings that are deleted. -/
def deletedStrings (environment : Environment) (s : OrderedStore) : List String :=
  deletedKeys (caps environment) classifyString ((afterHashes environment s).keys .string)

def afterStrings (environment : Environment) (s : OrderedStore) : OrderedStore :=
  (afterHashes environment s).deleteKeys (deletedStrings environment s)

/-- The keys of lists that are deleted. -/
def deletedLists (environment : Environment) (s : OrderedStore) : List String :=
  beyond 50 (((afterStrings environment s).keys .list).filter isStrategyList)

def afterLists (environment : Environment) (s : OrderedStore) : OrderedStore :=
  (afterStrings environment s).deleteKeys (deletedLists environment s)

lemma evictHashes_fst : (evictFamilies (caps environment) classify .hash s).1 =
    afterHashes environment s := by
  rw [evictFamilies_eq]
  rfl

lemma evictStrings_fst :
    (evictFamilies (caps environment) classifyString .string (afterHashes environment s)).1 =
      afterStrings environment s := by
  rw [evictFamilies_eq]
  rfl

lemma evictLists_fst : (evictLists (afterStrings environment s)).1 = afterLists environment s := by
  rw [evictLists_eq]
  rfl

lemma evictOldRecords_eq (environment : Environment) (s : OrderedStore) :
    evictOldRecords environment s = ((pruneSets (setMemberCap environment)
          (evictTerminalPositions (afterLists environment s)).1).1,
        (evictFamilies (caps environment) classify .hash s).2 +
          (evictFamilies (caps environment) classifyString .string (afterHashes environment s)).2 +
          (evictLists (afterStrings environment s)).2 +
          (evictTerminalPositions (afterLists environment s)).2 +
          (pruneSets (setMemberCap environment)
            (evictTerminalPositions (afterLists environment s)).1).2) := by
  rw [evictOldRecords, evictHashes_fst, evictStrings_fst, evictLists_fst]

variable {key : String} {deleted keys : List String} {familyOf : String → Option Family}

lemma isProtected_of_classify (h : (classify key).isSome = true) : isProtected key = false := by
  by_contra hprot
  rw [classify_of_isProtected (eq_true_of_ne_false hprot)] at h
  cases h

lemma isProtected_of_classifyString (h : (classifyString key).isSome = true) :
    isProtected key = false := by
  rw [classifyString, Option.isSome_map] at h
  exact isProtected_of_classify h

lemma isProtected_of_deleted {key : String} (h : key ∈ deletedOf environment s ∨
    key ∈ deletedStrings environment s ∨ key ∈ deletedLists environment s) :
    isProtected key = false := by
  rcases h with hhash | hstr | hlist
  · exact isProtected_of_classify (mem_of_mem_deletedKeys hhash).2
  · exact isProtected_of_classifyString (mem_of_mem_deletedKeys hstr).2
  · have hstrat := (mem_of_mem_beyond_filter hlist).2
    rw [isStrategyList, and_eq_true, not_eq_true'] at hstrat
    exact hstrat.1

lemma isProtected_of_isTerminalPosition {entry : PositionHash}
    (h : isTerminalPosition entry = true) : isProtected entry.1 = true := by
  rw [isTerminalPosition, and_eq_true, and_eq_true] at h
  exact isProtected_of_start (by decide) h.1.1

lemma members_deleteKeys (h : ∀ key ∈ deleted, isProtected key = false) (s : OrderedStore)
    (connection : String) :
    members terminalConnection connection ((s.deleteKeys deleted).entries .hash) =
      members terminalConnection connection (s.entries .hash) := by
  rw [entries_deleteKeys (by decide), members, filter_filter]
  refine filter_congr fun entry _ => ?_
  rw [← decide_and]
  refine decide_eq_decide.mpr ⟨And.left, fun hconn => ⟨hconn, fun hmem => ?_⟩⟩
  have hterm := isTerminalPosition_of_isSome (Option.isSome_of_eq_some hconn)
  exact false_ne_true ((h entry.1 hmem).symm.trans (isProtected_of_isTerminalPosition hterm))

lemma members_afterLists (connection : String) :
    members terminalConnection connection ((afterLists environment s).entries .hash) =
      members terminalConnection connection (s.entries .hash) := by
  have hunpr := @isProtected_of_deleted environment s
  rw [afterLists, members_deleteKeys fun key hkey => hunpr (.inr (.inr hkey)),
    afterStrings, members_deleteKeys fun key hkey => hunpr (.inr (.inl hkey)),
    afterHashes, members_deleteKeys fun key hkey => hunpr (.inl hkey)]

/-! ## When as much is counted as is taken -/

lemma counted_iff_parts :
    (evictOldRecords environment s).1.size + (evictOldRecords environment s).2 = s.size ↔
      ((∀ family, (members classify family (s.keys .hash)).length ≤ caps environment family + 1) ∧
          ∀ key, BeyondCap (caps environment) classify (s.keys .hash) key → s.Alone .hash key) ∧
        ((∀ family,
            (members classifyString family ((afterHashes environment s).keys .string)).length ≤
              caps environment family + 1) ∧
          ∀ key, BeyondCap (caps environment) classifyString
            ((afterHashes environment s).keys .string) key →
              (afterHashes environment s).Alone .string key) ∧
        (∀ key ∈ deletedLists environment s, (afterStrings environment s).Alone .list key) ∧
        ∀ connection, (members terminalConnection connection (s.entries .hash)).length ≤
            maxTerminalPositions + 1 := by
  have hhash := @size_evictFamilies (caps environment) classify s .hash (by decide)
  have hstrin := @size_evictFamilies (caps environment) classifyString (afterHashes environment s)
    .string (by decide)
  have hlists := size_evictLists (afterStrings environment s)
  have hposit := size_evictTerminalPositions (afterLists environment s)
  have hsets := size_pruneSets (setMemberCap environment)
    (evictTerminalPositions (afterLists environment s)).1
  rw [evictHashes_fst] at hhash
  rw [evictStrings_fst] at hstrin
  rw [evictLists_fst] at hlists
  simp only [members_afterLists] at hposit
  rw [← hhash.2, ← hstrin.2, deletedLists, ← hlists.2, ← hposit.2, evictOldRecords_eq]
  dsimp only
  omega

lemma other_of_alone {kind place : KeyKind} (hset : kind ≠ .set)
    (halone : ∀ key ∈ deleted, s.Alone kind key) (hnodup : deleted.Nodup) (hplace : place ≠ kind) :
    (s.deleteKeys deleted).keys place = s.keys place ∧
      ∀ key ∈ s.keys place, ((s.deleteKeys deleted).Alone place key ↔ s.Alone place key) := by
  refine ⟨?_, fun key hkey => alone_deleteKeys_iff hset halone hnodup fun hmem => ?_⟩
  · rw [OrderedStore.keys, entries_deleteKeys_of_alone hset halone hnodup hplace]
    rfl
  · exact (halone key hmem).elsewhere place hplace hkey

lemma nodup_deletedOf : (deletedOf environment s).Nodup := nodup_deletedKeys (s.nodup_keys .hash)

lemma nodup_deletedStrings : (deletedStrings environment s).Nodup :=
  nodup_deletedKeys ((afterHashes environment s).nodup_keys .string)

lemma nodup_deletedLists : (deletedLists environment s).Nodup :=
  nodup_beyond_filter _ _ ((afterStrings environment s).nodup_keys .list)

variable {kind : KeyKind} {cap : Family → ℕ}

lemma mem_of_beyondCap (h : BeyondCap cap familyOf keys key) : key ∈ keys := by
  obtain ⟨family, hkey⟩ := h
  exact (filter_sublist ..).subset ((beyond_sublist ..).subset hkey)

lemma afterHashes_spec (hcaps : ∀ family, (members classify family (s.keys .hash)).length ≤
      caps environment family + 1)
    (halone : ∀ key, BeyondCap (caps environment) classify (s.keys .hash) key → s.Alone .hash key) :
    (∀ key ∈ deletedOf environment s, s.Alone .hash key) ∧
      ∀ place, place ≠ .hash → (afterHashes environment s).keys place = s.keys place ∧
        ∀ key ∈ s.keys place,
          ((afterHashes environment s).Alone place key ↔ s.Alone place key) := by
  have hdelet : ∀ key ∈ deletedOf environment s, s.Alone .hash key := fun key hkey =>
    halone key ((mem_deletedKeys_iff (dropped_eq_nil_iff.mpr hcaps)).mp hkey)
  exact ⟨hdelet, fun place hplace => other_of_alone (by decide) hdelet nodup_deletedOf hplace⟩

lemma afterStrings_spec (hcaps : ∀ family,
      (members classifyString family ((afterHashes environment s).keys .string)).length ≤
        caps environment family + 1)
    (halone : ∀ key, BeyondCap (caps environment) classifyString
      ((afterHashes environment s).keys .string) key →
      (afterHashes environment s).Alone .string key) :
    (∀ key ∈ deletedStrings environment s, (afterHashes environment s).Alone .string key) ∧
      ∀ place, place ≠ .string →
        (afterStrings environment s).keys place = (afterHashes environment s).keys place ∧
        ∀ key ∈ (afterHashes environment s).keys place,
          ((afterStrings environment s).Alone place key ↔
            (afterHashes environment s).Alone place key) := by
  have hdelet : ∀ key ∈ deletedStrings environment s,
      (afterHashes environment s).Alone .string key := fun key hkey =>
    halone key ((mem_deletedKeys_iff (dropped_eq_nil_iff.mpr hcaps)).mp hkey)
  exact ⟨hdelet, fun place hplace => other_of_alone (by decide) hdelet nodup_deletedStrings hplace⟩

/-- As much is counted as is taken exactly when the store fits its caps. -/
lemma counted_iff :
    (evictOldRecords environment s).1.size + (evictOldRecords environment s).2 = s.size ↔
      FitsCaps environment s := by
  rw [counted_iff_parts]
  constructor
  · rintro ⟨⟨hhashCaps, hhash⟩, ⟨hstrCaps, hstr⟩, hlist, hposit⟩
    obtain ⟨-, hafter⟩ := afterHashes_spec hhashCaps hhash
    obtain ⟨-, hthen⟩ := afterStrings_spec hstrCaps hstr
    obtain ⟨hkeys, halonStr⟩ := hafter .string (by decide)
    obtain ⟨hlistKeys, haloneList⟩ := hafter .list (by decide)
    obtain ⟨hsameList, hstillList⟩ := hthen .list (by decide)
    rw [hkeys] at hstrCaps hstr
    rw [deletedLists, hsameList, hlistKeys] at hlist
    rw [hlistKeys] at hstillList
    refine ⟨hhashCaps, hstrCaps, hposit, fun kind key hbeyon => ?_⟩
    cases kind with
    | hash => exact hhash key hbeyon
    | string => exact (halonStr key (mem_of_beyondCap hbeyon)).mp (hstr key hbeyon)
    | list =>
      have hmem := (mem_of_mem_beyond_filter hbeyon).1
      exact (haloneList key hmem).mp ((hstillList key hmem).mp (hlist key hbeyon))
    | set => exact hbeyon.elim
    | zset => exact hbeyon.elim
  · rintro ⟨hhashCaps, hstrCaps, hposit, halone⟩
    obtain ⟨-, hafter⟩ := afterHashes_spec hhashCaps (halone .hash)
    obtain ⟨hkeys, halonStr⟩ := hafter .string (by decide)
    obtain ⟨hlistKeys, haloneList⟩ := hafter .list (by decide)
    have hstr : ∀ key, BeyondCap (caps environment) classifyString
        ((afterHashes environment s).keys .string) key →
          (afterHashes environment s).Alone .string key := by
      intro key hbeyon
      rw [hkeys] at hbeyon
      exact (halonStr key (mem_of_beyondCap hbeyon)).mpr (halone .string key hbeyon)
    rw [← hkeys] at hstrCaps
    obtain ⟨-, hthen⟩ := afterStrings_spec hstrCaps hstr
    obtain ⟨hsameList, hstillList⟩ := hthen .list (by decide)
    rw [hlistKeys] at hstillList
    refine ⟨⟨hhashCaps, halone .hash⟩, ⟨hstrCaps, hstr⟩, fun key hbeyon => ?_, hposit⟩
    rw [deletedLists, hsameList, hlistKeys] at hbeyon
    have hmem := (mem_of_mem_beyond_filter hbeyon).1
    exact (hstillList key hmem).mpr ((haloneList key hmem).mpr (halone .list key hbeyon))

/-! ## What is gone -/

lemma hasPrefix_trans {first second : String} (hfst : hasPrefix first second = true)
    (hsec : hasPrefix second key = true) : hasPrefix first key = true := by
  simp only [hasPrefix, isPrefixOf_iff_prefix] at *
  exact hfst.trans hsec

lemma gone_of_deleteKeys (h : key ∈ s.keys kind)
    (hgone : key ∉ (s.deleteKeys deleted).keys kind) : key ∈ deleted ∨ isProtected key = false := by
  by_cases hset : kind = .set
  · subst hset
    rcases mem_keys_set_deleteKeys h deleted with hstays | hmem | hindex
    · exact absurd hstays hgone
    · exact .inl hmem
    · obtain ⟨index, hindexes, connections, hconn, hpref⟩ := hindex
      have hall : ∀ index ∈ InlineStore.secondaryIndexes,
          index.2.2.all (hasPrefix "idx:") = true := by decide +kernel
      have hidx := hall index hindexes
      rw [hconn] at hidx
      exact .inr (isProtected_of_index (hasPrefix_trans hidx hpref))
  · refine .inl (by_contra fun hnot => hgone ?_)
    rw [keys_deleteKeys hset]
    exact mem_filter.mpr ⟨h, decide_eq_true hnot⟩

/-- The positions that full connections give up. -/
def givenUp (environment : Environment) (s : OrderedStore) : List String :=
  (connectionsOf ((afterLists environment s).entries .hash)).dropped.map Prod.fst

/-- The positions beyond the newest of the connections. -/
def beyondNewest (environment : Environment) (s : OrderedStore) : List String :=
  (surplusPositions ((afterLists environment s).entries .hash)).map Prod.fst

lemma evictPositions_fst : (evictTerminalPositions (afterLists environment s)).1 =
    deleteHashes ((afterLists environment s).deleteKeys (givenUp environment s))
      (beyondNewest environment s) := by
  rw [evictTerminalPositions_eq, givenUp, beyondNewest]

lemma keys_evictOldRecords (environment : Environment) (s : OrderedStore) (kind : KeyKind) :
    (evictOldRecords environment s).1.keys kind =
      (((afterLists environment s).deleteKeys (givenUp environment s)).keys kind).filter
        fun key => decide (kind = .hash → key ∉ beyondNewest environment s) := by
  rw [evictOldRecords_eq]
  rw [evictPositions_fst, keys_pruneSets, keys_deleteHashes]

lemma isTerminalPosition_of_deleted
    (h : key ∈ givenUp environment s ∨ key ∈ beyondNewest environment s) :
    ∃ entry ∈ s.entries .hash, entry.1 = key ∧ isTerminalPosition entry = true := by
  rw [givenUp, beyondNewest, ← mem_append, ← map_append] at h
  obtain ⟨entry, hent, rfl⟩ := mem_map.mp h
  obtain ⟨hmem, hterm⟩ := mem_of_mem_positions hent
  refine ⟨entry, ?_, rfl, hterm⟩
  rw [afterLists, entries_deleteKeys (by decide), afterStrings,
    entries_deleteKeys (by decide), afterHashes,
    entries_deleteKeys (by decide)] at hmem
  exact mem_of_mem_filter (mem_of_mem_filter (mem_of_mem_filter hmem))

/-- **Nothing protected is lost**, in any store: what is gone is not protected, or a position that
has come to an end. -/
theorem evictOldRecords_keepsProtected (environment : Environment) (s : OrderedStore)
    (kind : KeyKind) (h : key ∈ s.keys kind)
    (hgone : key ∉ (evictOldRecords environment s).1.keys kind) :
    isProtected key = false ∨
      ∃ entry ∈ s.entries .hash, entry.1 = key ∧ isTerminalPosition entry = true := by
  by_cases hpos : key ∈ givenUp environment s ∨ key ∈ beyondNewest environment s
  · exact .inr (isTerminalPosition_of_deleted hpos)
  refine .inl (by_contra fun hprot => hgone ?_)
  obtain ⟨hgivenUp, hbeyon⟩ := not_or.mp hpos
  have hstays : ∀ {t : OrderedStore} {deleted : List String}, key ∈ t.keys kind →
      (key ∈ deleted → isProtected key = false) → key ∈ (t.deleteKeys deleted).keys kind := by
    intro t deleted hmem hdelet
    by_contra hnot
    rcases gone_of_deleteKeys hmem hnot with hin | hunpr
    · exact hprot (hdelet hin)
    · exact hprot hunpr
  have hunpr := @isProtected_of_deleted environment s key
  rw [keys_evictOldRecords]
  refine mem_filter.mpr ⟨hstays (hstays (hstays (hstays h
    fun hmem => hunpr (.inl hmem)) fun hmem => hunpr (.inr (.inl hmem)))
    fun hmem => hunpr (.inr (.inr hmem))) fun hmem => absurd hmem hgivenUp, ?_⟩
  exact decide_eq_true fun _ => hbeyon

/-- The keys that a pass deletes from all maps, in their order. -/
def deletedEverywhere (environment : Environment) (s : OrderedStore) : List String :=
  deletedOf environment s ++ deletedStrings environment s ++ deletedLists environment s ++
    givenUp environment s

lemma deleteKeys_deletedEverywhere : s.deleteKeys (deletedEverywhere environment s) =
    (afterLists environment s).deleteKeys (givenUp environment s) := by
  rw [deletedEverywhere, deleteKeys_append, deleteKeys_append, deleteKeys_append]
  rfl

/-- **Nothing is added or changed**, in any store: a pass takes keys, and members of sets. -/
theorem evictOldRecords_shrinks (environment : Environment) (s : OrderedStore) :
    s.Shrinks (evictOldRecords environment s).1 := by
  rw [evictOldRecords_eq]
  dsimp only
  rw [evictPositions_fst, ← deleteKeys_deletedEverywhere]
  exact (shrinks_deleteKeys ..).trans ((shrinks_deleteHashes ..).trans (shrinks_pruneSets ..))

/-- **Refinement**: the order of the maps decides which keys are deleted, and nothing else.  In the
maps without an order a deletion is the deletion of the key with the clean-up of the indexes, and a
pass is the deletion of its keys, of the hashes of surplus positions, and of the oldest members. -/
theorem toInline_evictOldRecords (environment : Environment) (s : OrderedStore) :
    (∀ key, (s.deleteKey key).toInline.data = (s.toInline.deleteKey key).data) ∧
      ∀ kind key, (evictOldRecords environment s).1.toInline.data kind key =
        let left := (deletedEverywhere environment s).foldl InlineStore.deleteKey s.toInline
        match kind with
        | .hash => if key ∈ beyondNewest environment s then none else left.data .hash key
        | .set => (left.data .set key).map fun members =>
            members.drop (prunedMembers (setMemberCap environment) (key, members))
        | kind => left.data kind key := by
  refine ⟨toInline_deleteKey s, fun kind key => ?_⟩
  dsimp only
  rw [← toInline_deleteKeys rfl, deleteKeys_deletedEverywhere, evictOldRecords_eq]
  dsimp only
  rw [evictPositions_fst]
  dsimp only [toInline, pruneSets]
  rw [entries_deleteHashes]
  cases kind with
  | hash =>
    rw [update_of_ne (by decide), update_self, Keyed.get?_filter_key _ fun key =>
      decide (key ∉ beyondNewest environment s)]
    by_cases hkey : key ∈ beyondNewest environment s
    · simp [hkey]
    · simp [hkey]
  | set =>
    rw [update_self, update_of_ne (by decide)]
    exact Keyed.get?_map_entry ..
  | string => rfl
  | list => rfl
  | zset => rfl

/-! ## What is left of the families -/

lemma filter_not_mem_take {A : Type*} [DecidableEq A] {xs : List A} (h : xs.Nodup) (n : ℕ) :
    xs.filter (fun x => decide (x ∉ xs.take n)) = xs.drop n := by
  have hsplit := take_append_drop n xs
  rw [← hsplit] at h
  calc xs.filter (fun x => decide (x ∉ xs.take n)) =
        (xs.take n ++ xs.drop n).filter (fun x => decide (x ∉ xs.take n)) := by rw [hsplit]
    _ = [] ++ xs.drop n := by
        rw [filter_append]
        congr 1
        · exact filter_eq_nil_iff.mpr fun x hx hnot => of_decide_eq_true hnot hx
        · exact filter_eq_self.mpr fun x hx => decide_eq_true fun htake =>
            (nodup_append.mp h).2.2 x htake x hx rfl
    _ = xs.drop n := nil_append _

lemma members_filter_deletedKeys (hnodup : keys.Nodup)
    (hcaps : ∀ family, (members familyOf family keys).length ≤ cap family + 1) (family : Family) :
    members familyOf family (keys.filter fun key => decide (key ∉ deletedKeys cap familyOf keys)) =
      newest (cap family) (members familyOf family keys) := by
  have hfam : (members familyOf family keys).Nodup := hnodup.filter _
  have hcomm : members familyOf family
      (keys.filter fun key => decide (key ∉ deletedKeys cap familyOf keys)) =
        (members familyOf family keys).filter
          fun key => decide (key ∉ deletedKeys cap familyOf keys) := filter_comm ..
  rw [hcomm, newest, ← filter_not_mem_take hfam]
  refine filter_congr fun key hkey => decide_eq_decide.mpr (not_congr ?_)
  rw [mem_deletedKeys_iff (dropped_eq_nil_iff.mpr hcaps)]
  refine ⟨fun ⟨other, hoth⟩ => ?_, fun htake => ⟨family, htake⟩⟩
  -- A key beyond the cap of another family would be in two families.
  have hown := of_decide_eq_true (mem_filter.mp hkey).2
  have hoths := of_decide_eq_true (mem_filter.mp ((beyond_sublist ..).subset hoth)).2
  rw [Option.some.inj (hown.symm.trans hoths)]
  exact hoth

lemma members_evictOldRecords
    (hfamOf : ∀ key, (familyOf key).isSome = true → isProtected key = false) (hset : kind ≠ .set)
    (family : Family) :
    members familyOf family ((evictOldRecords environment s).1.keys kind) =
      members familyOf family ((afterLists environment s).keys kind) := by
  have hnot : ∀ key, familyOf key = some family →
      key ∉ givenUp environment s ∧ key ∉ beyondNewest environment s := by
    intro key hkey
    refine not_or.mp fun hmem => ?_
    obtain ⟨entry, -, rfl, hterm⟩ := isTerminalPosition_of_deleted hmem
    have hunpr := hfamOf entry.1 (Option.isSome_of_eq_some hkey)
    rw [isProtected_of_isTerminalPosition hterm] at hunpr
    cases hunpr
  rw [keys_evictOldRecords, keys_deleteKeys hset, members, filter_filter, filter_filter]
  refine filter_congr fun key _ => ?_
  rw [← decide_and, ← decide_and, decide_eq_decide]
  exact ⟨fun h => h.1.1, fun h => ⟨⟨h, fun _ => (hnot key h).2⟩, (hnot key h).1⟩⟩

lemma FitsCaps.newest (h : FitsCaps environment s) (family : Family) :
    members classify family ((evictOldRecords environment s).1.keys .hash) =
        newest (caps environment family) (members classify family (s.keys .hash)) ∧
      members classifyString family ((evictOldRecords environment s).1.keys .string) =
        newest (caps environment family) (members classifyString family (s.keys .string)) := by
  obtain ⟨⟨hhashCaps, hhash⟩, ⟨hstrCaps, hstr⟩, hlist, -⟩ :=
    counted_iff_parts.mp (counted_iff.mpr h)
  obtain ⟨-, hafter⟩ := afterHashes_spec hhashCaps hhash
  obtain ⟨-, hthen⟩ := afterStrings_spec hstrCaps hstr
  have hlast : ∀ place, place ≠ .list →
      (afterLists environment s).keys place = (afterStrings environment s).keys place :=
    fun place hplace => (other_of_alone (by decide) hlist nodup_deletedLists hplace).1
  have hstrin := (hafter .string (by decide)).1
  rw [members_evictOldRecords (fun key => isProtected_of_classify) (by decide),
    members_evictOldRecords (fun key => isProtected_of_classifyString) (by decide),
    hlast .hash (by decide), hlast .string (by decide), (hthen .hash (by decide)).1,
    afterHashes, keys_deleteKeys (by decide), afterStrings,
    keys_deleteKeys (by decide)]
  refine ⟨members_filter_deletedKeys (s.nodup_keys .hash) hhashCaps family, ?_⟩
  rw [← hstrin]
  exact members_filter_deletedKeys ((afterHashes environment s).nodup_keys .string) hstrCaps family

/-- **The newest are kept** exactly when no family and no connection has more than one beyond its
cap, and what is beyond is in one map and in no index. -/
theorem keepsNewest_iff (environment : Environment) (s : OrderedStore) :
    KeepsNewest environment s ↔ FitsCaps environment s := by
  constructor
  · intro h
    exact counted_iff.mp h.counted
  · intro h
    exact {
      keepsProtected := fun kind key hkey hgone =>
        evictOldRecords_keepsProtected environment s kind hkey hgone
      hashes := fun family => (h.newest family).1
      strings := fun family => (h.newest family).2
      counted := counted_iff.mpr h }

/-- Twelve hashes of settings of strategies. -/
def twelveSettings : (kind : KeyKind) → List (String × Payload kind)
  | .hash => (List.range 12).map fun n => ("settings:strategies:" ++ toString n, [])
  | _ => []

lemma keysUnique_twelveSettings (kind : KeyKind) : Keyed.KeysUnique (twelveSettings kind) := by
  unfold Keyed.KeysUnique
  cases kind <;> decide +kernel

/-- The twelve hashes are two more than the cap: eleven are left, and nothing is counted. -/
theorem not_keepsNewest_twelveSettings :
    ¬ ∀ (environment : Environment) (s : OrderedStore), KeepsNewest environment s := by
  intro h
  have hcounted := (h (fun _ => none) ⟨twelveSettings, keysUnique_twelveSettings⟩).counted
  revert hcounted
  decide +kernel

end CtsEngine.KeyEviction
