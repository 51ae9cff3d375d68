import CtsEngine.InlineRedis.Simulation

/-!
# The maps of the store in their order

The maps of `InlineLocalRedis` with their entries in the order of insertion, the deletion of a key
from all of them, and how many keys and members a deletion takes.  A deletion takes one key exactly
when the key is in one map and in no secondary index.
-/

namespace CtsEngine.KeyEviction

open Function List Keyed InlineStore
open InlineStore (cleanupSet cleanupSet_none secondaryIndexes)

/-- The maps of the store; no map has a key twice. -/
structure OrderedStore where
  entries : (kind : KeyKind) → List (String × Payload kind)
  unique : ∀ kind, KeysUnique (entries kind)

namespace OrderedStore

/-- The keys of a map, the oldest first. -/
def keys (s : OrderedStore) (kind : KeyKind) : List String := (s.entries kind).map Prod.fst

lemma nodup_keys (s : OrderedStore) (kind : KeyKind) : (s.keys kind).Nodup := s.unique kind

/-- The number of keys of the maps and of members of the sets. -/
def size (s : OrderedStore) : ℕ :=
  (KeyKind.all.map fun kind => (s.entries kind).length).sum +
    ((s.entries .set).map fun entry : String × List String => entry.2.length).sum

/-- The store as a map from keys to values, without expiries. -/
def toInline (s : OrderedStore) : InlineStore where
  data kind key := get? (s.entries kind) key

/-! ## Deletion -/

/-- What is left of a set when a key is deleted. -/
def keptSet (key : String) (entry : String × List String) : Option (String × List String) :=
  (cleanupSet key entry.1 (some entry.2)).map fun members => (entry.1, members)

lemma keptSet_fst {key : String} {entry kept : String × List String}
    (h : keptSet key entry = some kept) : kept.1 = entry.1 := by
  obtain ⟨members, -, rfl⟩ := Option.map_eq_some_iff.mp h
  rfl

lemma keysUnique_filterMap_keptSet {sets : List (String × List String)}
    (h : KeysUnique sets) (key : String) :
    KeysUnique (sets.filterMap (keptSet key)) := by
  induction sets with
  | nil => exact nodup_nil
  | cons entry rest ih =>
    obtain ⟨hnew, hrest⟩ := nodup_cons.mp h
    cases hkept : keptSet key entry with
    | none => rw [filterMap_cons_none hkept]; exact ih hrest
    | some kept =>
      rw [filterMap_cons_some hkept]
      refine nodup_cons.mpr ⟨fun hmem => hnew ?_, ih hrest⟩
      obtain ⟨other, hoth, heq⟩ := mem_map.mp hmem
      obtain ⟨old, hold, hkeptOld⟩ := mem_filterMap.mp hoth
      rw [← keptSet_fst hkept, ← heq, keptSet_fst hkeptOld]
      exact mem_map_of_mem hold

def deleteKey (s : OrderedStore) (key : String) : OrderedStore where
  entries kind :=
    (Function.update s.entries .set ((s.entries .set).filterMap (keptSet key)) kind).filter
      fun entry => entry.1 ≠ key
  unique kind := by
    refine KeysUnique.filter ?_ _
    by_cases hkind : kind = .set
    · subst hkind
      rw [update_self]
      exact keysUnique_filterMap_keptSet (s.unique .set) key
    · rw [update_of_ne hkind]
      exact s.unique kind

/-- The deletions of keys, one after another. -/
def deleteKeys (s : OrderedStore) (deleted : List String) : OrderedStore :=
  deleted.foldl deleteKey s

variable {s : OrderedStore} {kind other : KeyKind} {key : String} {deleted : List String}

lemma entries_deleteKey (h : kind ≠ .set) :
    (s.deleteKey key).entries kind = (s.entries kind).filter fun entry => entry.1 ≠ key := by
  unfold deleteKey
  dsimp only
  rw [update_of_ne h]

lemma sets_deleteKey (s : OrderedStore) (key : String) : (s.deleteKey key).entries .set =
      ((s.entries .set).filterMap (keptSet key)).filter fun entry => entry.1 ≠ key := by
  unfold deleteKey
  dsimp only
  rw [update_self]

lemma get?_filterMap_keptSet {sets : List (String × List String)} (h : KeysUnique sets)
    (key setKey : String) :
    get? (sets.filterMap (keptSet key)) setKey =
      cleanupSet key setKey (get? sets setKey) := by
  induction sets with
  | nil => exact (cleanupSet_none key setKey).symm
  | cons entry rest ih =>
    obtain ⟨hnew, hrest⟩ := nodup_cons.mp h
    by_cases hent : entry.1 = setKey
    · have habs : get? rest setKey = none := by
        rw [← Option.not_isSome_iff_eq_none, isSome_get?_iff, ← hent]
        exact hnew
      rw [get?, if_pos hent, ← hent]
      cases hkept : cleanupSet key entry.1 (some entry.2) with
      | none =>
        rw [filterMap_cons_none (by rw [keptSet, hkept]; rfl), hent, ih hrest, habs,
          cleanupSet_none]
      | some members =>
        rw [filterMap_cons_some (b := (entry.1, members)) (by rw [keptSet, hkept]; rfl),
          get?, if_pos rfl]
    · rw [get?, if_neg hent, ← ih hrest]
      cases hkept : keptSet key entry with
      | none => rw [filterMap_cons_none hkept]
      | some kept =>
        rw [filterMap_cons_some hkept, get?,
          if_neg fun heq => hent ((keptSet_fst hkept).symm.trans heq)]

/-- The deletion in the maps with an order is the one in the maps without. -/
lemma toInline_deleteKey (s : OrderedStore) (key : String) :
    (s.deleteKey key).toInline.data = (s.toInline.deleteKey key).data := by
  funext kind other
  rw [InlineStore.deleteKey, InlineStore.data_ttlDelete]
  dsimp only [toInline]
  rw [update_apply]
  by_cases hkind : kind = .set
  · subst hkind
    rw [sets_deleteKey, get?_filter_ne, get?_filterMap_keptSet (s.unique .set),
      cleanupSecondaryIndexesForDeletedKey]
    dsimp only
    rw [update_self]
  · rw [entries_deleteKey hkind, get?_filter_ne,
      cleanupSecondaryIndexesForDeletedKey]
    dsimp only
    rw [update_of_ne hkind]

/-! ## What a deletion takes -/

/-- The key is in no other map, and its deletion leaves every set as it is. -/
structure Alone (s : OrderedStore) (kind : KeyKind) (key : String) : Prop where
  elsewhere : ∀ other, other ≠ kind → key ∉ s.keys other
  notIndexed : ∀ entry ∈ s.entries .set, keptSet key entry = some entry

lemma cleanupSet_cases (key setKey : String) (members : List String) :
    (∃ kept, cleanupSet key setKey (some members) = some kept ∧ kept.Sublist members) ∨
      cleanupSet key setKey (some members) = none ∧
        ∃ index ∈ secondaryIndexes, ∃ connections, index.2.2 = some connections ∧
          hasPrefix connections setKey = true := by
  unfold cleanupSet
  cases hfind : secondaryIndexes.find? fun index => hasPrefix index.1 key with
  | none => exact .inl ⟨members, rfl, Sublist.refl members⟩
  | some found =>
    dsimp only [Option.map_some]
    split
    · exact .inl ⟨_, rfl, filter_sublist ..⟩
    · split
      · rename_i hconn
        obtain ⟨start, hst, hpref⟩ := (Option.any_eq_true _ _).mp hconn
        rw [Option.filter_some]
        split
        · exact .inl ⟨_, rfl, filter_sublist ..⟩
        · exact .inr ⟨rfl, _, mem_of_find?_eq_some hfind, start, hst, hpref⟩
      · exact .inl ⟨members, rfl, Sublist.refl members⟩

/-- A key and its members. -/
def setWeight (entry : String × List String) : ℕ := 1 + entry.2.length

lemma keptSet_weight (key : String) (entry : String × List String) :
    (keptSet key entry).elim 0 setWeight < setWeight entry ∨ keptSet key entry = some entry := by
  unfold keptSet
  rcases cleanupSet_cases key entry.1 entry.2 with ⟨kept, heq, hsub⟩ | ⟨heq, -⟩
  · rw [heq]
    rcases Nat.lt_or_ge kept.length entry.2.length with hlt | hge
    · exact .inl (Nat.add_lt_add_left hlt 1)
    · rw [hsub.eq_of_length_le hge]
      exact .inr rfl
  · rw [heq, Option.map_none, Option.elim_none, setWeight]
    exact .inl (by omega)

lemma weight_filterMap {f : String × List String → Option (String × List String)}
    (h : ∀ entry, (f entry).elim 0 setWeight < setWeight entry ∨ f entry = some entry)
    (sets : List (String × List String)) :
    ((sets.filterMap f).map setWeight).sum < (sets.map setWeight).sum ∨
      ∀ entry ∈ sets, f entry = some entry := by
  induction sets with
  | nil => exact .inr nofun
  | cons entry rest ih =>
    have hle : ((rest.filterMap f).map setWeight).sum ≤ (rest.map setWeight).sum := by
      rcases ih with hlt | hall
      · exact hlt.le
      · rw [filterMap_congr hall, filterMap_some]
    have hsum : (((entry :: rest).filterMap f).map setWeight).sum =
        (f entry).elim 0 setWeight + ((rest.filterMap f).map setWeight).sum := by
      cases hkept : f entry with
      | none => rw [filterMap_cons_none hkept, Option.elim_none, zero_add]
      | some kept =>
        rw [filterMap_cons_some hkept, map_cons, sum_cons, Option.elim_some]
    rw [hsum]
    rcases h entry with hlt | heq
    · exact .inl (Nat.add_lt_add_of_lt_of_le hlt hle)
    · rw [heq]
      rcases ih with hlt | hall
      · exact .inl (Nat.add_lt_add_left hlt _)
      · exact .inr (forall_mem_cons.mpr ⟨heq, hall⟩)

/-- What a deletion leaves of the sets weighs less, unless it is all. -/
lemma weight_sets_deleteKey (s : OrderedStore) (key : String) :
    (((s.deleteKey key).entries .set).map setWeight).sum < ((s.entries .set).map setWeight).sum ∨
      (s.deleteKey key).entries .set = s.entries .set ∧ key ∉ s.keys .set ∧
        ∀ entry ∈ s.entries .set, keptSet key entry = some entry := by
  have hstep : ∀ entry : String × List String,
      ((keptSet key entry).filter fun kept => kept.1 ≠ key).elim 0 setWeight < setWeight entry ∨
        ((keptSet key entry).filter fun kept => kept.1 ≠ key) = some entry := by
    intro entry
    cases hkept : keptSet key entry with
    | none => exact .inl (by exact Nat.lt_add_right _ Nat.one_pos)
    | some kept =>
      rw [Option.filter_some]
      split
      · rw [← hkept]
        have hweig := keptSet_weight key entry
        rwa [hkept] at hweig ⊢
      · exact .inl (by exact Nat.lt_add_right _ Nat.one_pos)
  rw [sets_deleteKey, filter_filterMap]
  rcases weight_filterMap hstep (s.entries .set) with hlt | hall
  · exact .inl hlt
  · refine .inr ⟨?_, ?_, ?_⟩
    · rw [filterMap_congr hall, filterMap_some]
    · intro hmem
      obtain ⟨entry, hent, rfl⟩ := mem_map.mp hmem
      have hne := (Option.filter_eq_some_iff.mp (hall entry hent)).2
      exact of_decide_eq_true hne rfl
    · exact fun entry hent => (Option.filter_eq_some_iff.mp (hall entry hent)).1

lemma weight_eq (sets : List (String × List String)) :
    (sets.map setWeight).sum = sets.length + (sets.map fun entry => entry.2.length).sum := by
  induction sets with
  | nil => rfl
  | cons entry rest ih =>
    rw [map_cons, sum_cons, map_cons, sum_cons, length_cons, setWeight]
    omega

lemma size_eq (s : OrderedStore) :
    s.size = (s.entries .string).length + (s.entries .hash).length + (s.entries .list).length +
      (s.entries .zset).length + ((s.entries .set).map setWeight).sum := by
  rw [size, weight_eq]
  simp only [KeyKind.all, map_cons, map_nil, sum_cons, sum_nil]
  omega

lemma length_deleteKey (hset : kind ≠ .set) :
    ((s.deleteKey key).entries kind).length + (if key ∈ s.keys kind then 1 else 0) =
      (s.entries kind).length := by
  rw [entries_deleteKey hset]
  split
  · rename_i hmem
    exact length_filter_ne (s.unique kind) hmem
  · rename_i hmem
    rw [filter_eq_self.mpr fun entry hent => decide_eq_true ?_, add_zero]
    rintro rfl
    exact hmem (mem_map_of_mem hent)

lemma Alone.sets_deleteKey (h : s.Alone kind key) (hset : kind ≠ .set) :
    (s.deleteKey key).entries .set = s.entries .set := by
  rw [OrderedStore.sets_deleteKey, filterMap_congr h.notIndexed, filterMap_some]
  refine filter_eq_self.mpr fun entry hent => decide_eq_true ?_
  rintro rfl
  exact h.elsewhere .set hset.symm (mem_map_of_mem hent)

/-- **One deletion** of a key takes one at least, and just one when the key is alone. -/
theorem size_deleteKey (hset : kind ≠ .set) (h : key ∈ s.keys kind) :
    (s.deleteKey key).size + 1 ≤ s.size ∧
      ((s.deleteKey key).size + 1 = s.size ↔ s.Alone kind key) := by
  rw [size_eq, size_eq]
  -- The maps other than the sets, with one entry less where the key is in them.
  let count (kind : KeyKind) := if key ∈ s.keys kind then 1 else 0
  have hcnt : ∀ kind, kind ≠ .set →
      ((s.deleteKey key).entries kind).length + count kind = (s.entries kind).length :=
    fun kind hkind => length_deleteKey hkind
  have hstr := hcnt .string (by decide)
  have hhash := hcnt .hash (by decide)
  have hlist := hcnt .list (by decide)
  have hzset := hcnt .zset (by decide)
  have hone : ∀ kind, key ∈ s.keys kind → count kind = 1 := fun kind hmem => if_pos hmem
  have hzero : ∀ kind, key ∉ s.keys kind → count kind = 0 := fun kind hmem => if_neg hmem
  have hkind := hone kind h
  rcases weight_sets_deleteKey s key with hlt | ⟨hsets, hnot, hkept⟩
  · have hsmal : ¬ s.Alone kind key := by
      intro halone
      rw [halone.sets_deleteKey hset] at hlt
      exact lt_irrefl _ hlt
    refine ⟨?_, fun heq => ?_, fun halone => absurd halone hsmal⟩
    · omega
    · cases kind <;> first | omega | exact absurd rfl hset
  · rw [hsets]
    refine ⟨?_, fun heq => ⟨fun other hne hmem => ?_, hkept⟩, fun halone => ?_⟩
    · cases kind <;> first | omega | exact absurd rfl hset
    · have hoth := hone other hmem
      cases kind <;> cases other <;>
        first | omega | exact absurd rfl hset | exact absurd rfl hne | exact hnot hmem
    · have hoths := fun other hne => hzero other (halone.elsewhere other hne)
      cases kind with
      | set => exact absurd rfl hset
      | string =>
        have hhashZero := hoths .hash (by decide)
        have hlistZero := hoths .list (by decide)
        have hzsetZero := hoths .zset (by decide)
        omega
      | hash =>
        have hstrZero := hoths .string (by decide)
        have hlistZero := hoths .list (by decide)
        have hzsetZero := hoths .zset (by decide)
        omega
      | list =>
        have hstrZero := hoths .string (by decide)
        have hhashZero := hoths .hash (by decide)
        have hzsetZero := hoths .zset (by decide)
        omega
      | zset =>
        have hstrZero := hoths .string (by decide)
        have hhashZero := hoths .hash (by decide)
        have hlistZero := hoths .list (by decide)
        omega

/-! ## Deletions -/

/-- The expiries of a store do not change what a deletion leaves of its maps. -/
lemma data_deleteKey_congr {t u : InlineStore} (h : t.data = u.data) (key : String) :
    (t.deleteKey key).data = (u.deleteKey key).data := by
  rw [InlineStore.deleteKey, InlineStore.deleteKey, InlineStore.data_ttlDelete,
    data_ttlDelete, cleanupSecondaryIndexesForDeletedKey,
    cleanupSecondaryIndexesForDeletedKey, h]

lemma deleteKeys_cons (s : OrderedStore) (key : String) (deleted : List String) :
    s.deleteKeys (key :: deleted) = (s.deleteKey key).deleteKeys deleted := rfl

lemma deleteKeys_append (s : OrderedStore) (first second : List String) :
    s.deleteKeys (first ++ second) = (s.deleteKeys first).deleteKeys second :=
  foldl_append ..

/-- The deletions in the maps with an order are those in the maps without. -/
lemma toInline_deleteKeys {t : InlineStore} (h : s.toInline.data = t.data)
    (deleted : List String) :
    (s.deleteKeys deleted).toInline.data = (deleted.foldl InlineStore.deleteKey t).data := by
  induction deleted generalizing s t with
  | nil => exact h
  | cons key rest ih =>
    exact ih ((toInline_deleteKey s key).trans (data_deleteKey_congr h key))

lemma entries_deleteKeys (hset : kind ≠ .set) (s : OrderedStore) (deleted : List String) :
    (s.deleteKeys deleted).entries kind =
      (s.entries kind).filter fun entry => decide (entry.1 ∉ deleted) := by
  induction deleted generalizing s with
  | nil => simp [deleteKeys]
  | cons key rest ih =>
    rw [deleteKeys_cons, ih, entries_deleteKey hset, filter_filter]
    refine filter_congr fun entry _ => ?_
    rw [← Bool.decide_and]
    simp only [mem_cons, not_or, and_comm]

lemma keys_deleteKeys (hset : kind ≠ .set) (s : OrderedStore) (deleted : List String) :
    (s.deleteKeys deleted).keys kind = (s.keys kind).filter fun key => decide (key ∉ deleted) := by
  rw [keys, entries_deleteKeys hset, keys, filter_map]
  rfl

lemma mem_keys_set_deleteKeys (h : key ∈ s.keys .set) (deleted : List String) :
    key ∈ (s.deleteKeys deleted).keys .set ∨ key ∈ deleted ∨
      ∃ index ∈ secondaryIndexes, ∃ connections, index.2.2 = some connections ∧
        hasPrefix connections key = true := by
  induction deleted generalizing s with
  | nil => exact .inl h
  | cons first rest ih =>
    by_cases hfst : key = first
    · exact .inr (.inl (hfst ▸ mem_cons_self ..))
    · obtain ⟨entry, hent, rfl⟩ := mem_map.mp h
      rcases cleanupSet_cases first entry.1 entry.2 with ⟨kept, heq, -⟩ | ⟨-, hidx⟩
      · have hkept : entry.1 ∈ (s.deleteKey first).keys .set := by
          refine mem_map.mpr ⟨(entry.1, kept), mem_filter.mpr ⟨?_, ?_⟩, rfl⟩
          · exact mem_filterMap.mpr ⟨entry, hent, by rw [keptSet, heq]; rfl⟩
          · exact decide_eq_true hfst
        exact (ih hkept).imp_right (Or.imp_left (mem_cons_of_mem _))
      · exact .inr (.inr hidx)

lemma Alone.deleteKey_iff (h : s.Alone kind key) (hset : kind ≠ .set) {otherKey : String}
    (hne : otherKey ≠ key) :
    (s.deleteKey key).Alone other otherKey ↔ s.Alone other otherKey := by
  have hkeys : ∀ kind, otherKey ∈ (s.deleteKey key).keys kind ↔ otherKey ∈ s.keys kind := by
    intro place
    by_cases hplace : place = .set
    · rw [hplace, keys, h.sets_deleteKey hset, keys]
    · rw [keys, entries_deleteKey hplace]
      constructor
      · exact fun hmem => ((filter_sublist ..).map _).subset hmem
      · intro hmem
        obtain ⟨entry, hent, rfl⟩ := mem_map.mp hmem
        exact mem_map_of_mem (mem_filter.mpr ⟨hent, decide_eq_true hne⟩)
  constructor
  · rintro ⟨helsew, hkept⟩
    rw [h.sets_deleteKey hset] at hkept
    exact ⟨fun place hplace hmem => helsew place hplace ((hkeys place).mpr hmem), hkept⟩
  · rintro ⟨helsew, hkept⟩
    rw [← h.sets_deleteKey hset] at hkept
    exact ⟨fun place hplace hmem => helsew place hplace ((hkeys place).mp hmem), hkept⟩

/-- **Deletions** of different keys of a map take one key each at least, and just one each when
all of them are alone. -/
theorem size_deleteKeys (hset : kind ≠ .set) (hnodup : deleted.Nodup)
    (hmem : ∀ key ∈ deleted, key ∈ s.keys kind) :
    (s.deleteKeys deleted).size + deleted.length ≤ s.size ∧
      ((s.deleteKeys deleted).size + deleted.length = s.size ↔
        ∀ key ∈ deleted, s.Alone kind key) := by
  induction deleted generalizing s with
  | nil => exact ⟨le_refl _, fun _ key hkey => absurd hkey not_mem_nil, fun _ => rfl⟩
  | cons key rest ih =>
    obtain ⟨hnew, hrest⟩ := nodup_cons.mp hnodup
    obtain ⟨hkey, hoths⟩ := forall_mem_cons.mp hmem
    have hne : ∀ other ∈ rest, other ≠ key := fun other hoth heq => hnew (heq ▸ hoth)
    have hstill : ∀ other ∈ rest, other ∈ (s.deleteKey key).keys kind := by
      intro other hoth
      obtain ⟨entry, hent, heq⟩ := mem_map.mp (hoths other hoth)
      rw [keys, entries_deleteKey hset]
      exact mem_map.mpr ⟨entry, mem_filter.mpr ⟨hent, decide_eq_true (heq ▸ hne other hoth)⟩, heq⟩
    obtain ⟨hle, hiff⟩ := ih hrest hstill
    obtain ⟨hfst, halone⟩ := size_deleteKey hset hkey
    rw [deleteKeys_cons, length_cons]
    refine ⟨by omega, fun heq => ?_, fun hall => ?_⟩
    · have hkeyAlone := halone.mp (by omega)
      refine forall_mem_cons.mpr ⟨hkeyAlone, fun other hoth => ?_⟩
      exact (hkeyAlone.deleteKey_iff hset (hne other hoth)).mp (hiff.mp (by omega) other hoth)
    · obtain ⟨hkeyAlone, hrestAlone⟩ := forall_mem_cons.mp hall
      have hone := halone.mpr hkeyAlone
      have hmany := hiff.mpr fun other hoth =>
        (hkeyAlone.deleteKey_iff hset (hne other hoth)).mpr (hrestAlone other hoth)
      omega

lemma entries_deleteKeys_of_alone (hset : kind ≠ .set)
    (halone : ∀ key ∈ deleted, s.Alone kind key) (hnodup : deleted.Nodup) (hoth : other ≠ kind) :
    (s.deleteKeys deleted).entries other = s.entries other := by
  induction deleted generalizing s with
  | nil => rfl
  | cons key rest ih =>
    obtain ⟨hnew, hrest⟩ := nodup_cons.mp hnodup
    obtain ⟨hkey, hrestAlone⟩ := forall_mem_cons.mp halone
    rw [deleteKeys_cons, ih (fun next hnext =>
      (hkey.deleteKey_iff hset fun heq => hnew (heq ▸ hnext)).mpr (hrestAlone next hnext)) hrest]
    by_cases hplace : other = .set
    · rw [hplace, hkey.sets_deleteKey hset]
    · rw [entries_deleteKey hplace]
      refine filter_eq_self.mpr fun entry hent => decide_eq_true ?_
      rintro rfl
      exact hkey.elsewhere other hoth (mem_map_of_mem hent)

lemma alone_deleteKeys_iff (hset : kind ≠ .set) (halone : ∀ key ∈ deleted, s.Alone kind key)
    (hnodup : deleted.Nodup) (hkey : key ∉ deleted) :
    (s.deleteKeys deleted).Alone other key ↔ s.Alone other key := by
  induction deleted generalizing s with
  | nil => rfl
  | cons first rest ih =>
    obtain ⟨hnew, hrest⟩ := nodup_cons.mp hnodup
    obtain ⟨hfst, hrestAlone⟩ := forall_mem_cons.mp halone
    obtain ⟨hne, hnot⟩ := not_or.mp (mt mem_cons.mpr hkey)
    rw [deleteKeys_cons, ih (fun next hnext =>
      (hfst.deleteKey_iff hset fun heq => hnew (heq ▸ hnext)).mpr (hrestAlone next hnext)) hrest
      hnot, hfst.deleteKey_iff hset hne]

/-- The entries are some of those before, unchanged and in their order, and the members of a set
some of its members. -/
structure Shrinks (s t : OrderedStore) : Prop where
  entries : ∀ kind, kind ≠ .set → (t.entries kind).Sublist (s.entries kind)
  sets : (t.keys .set).Sublist (s.keys .set)
  members : ∀ entry ∈ t.entries .set, ∃ old ∈ s.entries .set,
    old.1 = entry.1 ∧ entry.2.Sublist old.2

lemma Shrinks.refl (s : OrderedStore) : s.Shrinks s where
  entries _ _ := Sublist.refl _
  sets := Sublist.refl _
  members entry hent := ⟨entry, hent, rfl, Sublist.refl _⟩

lemma Shrinks.trans {s t u : OrderedStore} (hst : s.Shrinks t) (htu : t.Shrinks u) :
    s.Shrinks u where
  entries kind hkind := (htu.entries kind hkind).trans (hst.entries kind hkind)
  sets := htu.sets.trans hst.sets
  members entry hent := by
    obtain ⟨middle, hmidd, hkey, hsub⟩ := htu.members entry hent
    obtain ⟨old, hold, holdKey, holdSub⟩ := hst.members middle hmidd
    exact ⟨old, hold, holdKey.trans hkey, hsub.trans holdSub⟩

lemma shrinks_deleteKey (s : OrderedStore) (key : String) : s.Shrinks (s.deleteKey key) where
  entries kind hkind := by
    rw [entries_deleteKey hkind]
    exact filter_sublist ..
  sets := by
    rw [keys, sets_deleteKey]
    refine ((filter_sublist ..).map Prod.fst).trans ?_
    rw [keys]
    induction s.entries .set with
    | nil => exact Sublist.refl []
    | cons entry rest ih =>
      cases hkept : keptSet key entry with
      | none =>
        rw [filterMap_cons_none hkept]
        exact ih.trans (sublist_cons_self ..)
      | some kept =>
        rw [filterMap_cons_some hkept, map_cons, keptSet_fst hkept]
        exact ih.cons_cons _
  members entry hent := by
    obtain ⟨old, hold, hkept⟩ := mem_filterMap.mp (mem_of_mem_filter hent)
    refine ⟨old, hold, (keptSet_fst hkept).symm, ?_⟩
    rw [keptSet] at hkept
    rcases cleanupSet_cases key old.1 old.2 with ⟨kept, heq, hsub⟩ | ⟨heq, -⟩
    · rw [heq] at hkept
      cases hkept
      exact hsub
    · rw [heq] at hkept
      cases hkept

lemma shrinks_deleteKeys (s : OrderedStore) (deleted : List String) :
    s.Shrinks (s.deleteKeys deleted) := by
  induction deleted generalizing s with
  | nil => exact Shrinks.refl s
  | cons key rest ih => exact (shrinks_deleteKey s key).trans (ih (s.deleteKey key))

end OrderedStore
end CtsEngine.KeyEviction
