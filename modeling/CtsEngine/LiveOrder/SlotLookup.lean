import CtsEngine.Foundation.MapIterator
import CtsEngine.StopLevels.AggregatePlans

/-!
# Looking up the rows of a slot

`LiveSlotLookupCache` keeps, for a connection and the ids of its rows, which rows stand on which
slot.  A lookup with other ids, or five seconds later, loads the rows again, and other lookups go on
while it waits: what they share is the cache after the loads that have come back.
-/

namespace CtsEngine.SlotLookup

open List Keyed

/-- A loaded row. -/
structure Row where
  id : String
  slot : String

structure Entry where
  membership : String
  loadedAt : ℤ
  rows : ℕ
  slots : List (String × List String)

/-- The entries of `LiveSlotLookupCache`, the oldest one first. -/
structure Cache where
  entries : List (String × Entry) := []
  retainedRows : ℤ := 0

def uniqueIds (ids : List String) : List String :=
  StopLevels.sortTexts (ids.foldl MapIterator.insert [])

/-- The ids, joined by NUL. -/
def membership (ids : List String) : String :=
  (String.singleton (Char.ofNat 0)).intercalate (uniqueIds ids)

/-- Ids that their joined text keeps apart: none is empty or has a NUL. -/
def Plain (ids : List String) : Prop := ∀ id ∈ ids, id ≠ "" ∧ Char.ofNat 0 ∉ id.toList

/-- A load that has come back for the ids of a lookup. -/
structure Load where
  connectionId : String
  ids : List String
  rows : List Row
  loadedAt : ℤ

/-- The ids of the rows of each slot. -/
def slotsOf (rows : List Row) : List (String × List String) :=
  collect Row.slot (fun _ => []) (fun ids row => ids ++ [row.id]) rows

/-- `slots.get(slot) || []`. -/
def membersOf (slots : List (String × List String)) (slot : String) : List String :=
  (get? slots slot).getD []

def Load.entry (load : Load) : Entry :=
  ⟨membership load.ids, load.loadedAt, (uniqueIds load.ids).length, slotsOf load.rows⟩

namespace Cache

/-- What `lookup` finds without a load. -/
def find (c : Cache) (connectionId : String) (ids : List String) (slot : String) (now : ℤ) :
    Option (List String) :=
  ((get? c.entries connectionId).filter fun cached =>
    cached.membership = membership ids ∧ now - cached.loadedAt < 5000).map fun cached =>
      membersOf cached.slots slot

/-- The entry of a connection is deleted. -/
def delete (c : Cache) (connectionId : String) : Cache :=
  match get? c.entries connectionId with
  | some previous =>
    ⟨c.entries.filter fun entry => entry.1 ≠ connectionId, c.retainedRows - previous.rows⟩
  | none => c

/-- The oldest entries give way until there is room for one with a number of rows. -/
def makeRoom (rows : ℕ) : List (String × Entry) → ℤ → Cache
  | [], retainedRows => ⟨[], retainedRows⟩
  | oldest :: rest, retainedRows =>
    if 32 ≤ (oldest :: rest).length ∨ 20000 < retainedRows + rows then
      makeRoom rows rest (retainedRows - oldest.2.rows)
    else ⟨oldest :: rest, retainedRows⟩

/-- What `lookup` does after a load; an entry with too many rows is not kept. -/
def retain (c : Cache) (load : Load) : Cache :=
  let kept := c.delete load.connectionId
  if load.entry.rows ≤ 10000 then
    let room := makeRoom load.entry.rows kept.entries kept.retainedRows
    ⟨room.entries ++ [(load.connectionId, load.entry)], room.retainedRows + load.entry.rows⟩
  else kept

end Cache

/-- The number of rows of the entries. -/
def rowsOf (entries : List (String × Entry)) : ℤ :=
  (entries.map fun entry => (entry.2.rows : ℤ)).sum

/-- What the cache keeps: its bounds, and of each connection its last load. -/
structure Cache.Law (loads : List Load) (c : Cache) : Prop where
  unique : KeysUnique c.entries
  counted : c.retainedRows = rowsOf c.entries
  few : c.entries.length ≤ 32
  within : c.retainedRows ≤ 20000
  last : ∀ entry ∈ c.entries, ∃ load,
    (loads.filter fun load => load.connectionId = entry.1).getLast? = some load ∧
      entry.2 = load.entry

variable {c : Cache} {connectionId : String} {entries : List (String × Entry)} {loads : List Load}

/-! ### The joined ids -/

lemma mem_uniqueIds {id : String} {ids : List String} : id ∈ uniqueIds ids ↔ id ∈ ids := by
  have hfold : ∀ kept : List String,
      id ∈ ids.foldl MapIterator.insert kept ↔ id ∈ kept ∨ id ∈ ids := by
    induction ids with
    | nil => simp
    | cons first ids ih =>
      intro kept
      rw [foldl_cons, ih, MapIterator.mem_insert, mem_cons, or_assoc]
  rw [uniqueIds, StopLevels.sortTexts, (mergeSort_perm ..).mem_iff, hfold, or_iff_right not_mem_nil]

/-- The ids are read back from their joined text. -/
lemma Plain.split {ids : List String} (h : Plain ids) :
    (uniqueIds ids).map String.toList =
      if membership ids = "" then [] else (membership ids).toList.splitOn (Char.ofNat 0) := by
  have hplain : Plain (uniqueIds ids) := fun id hid => h id (mem_uniqueIds.mp hid)
  unfold membership
  generalize uniqueIds ids = unique at hplain
  cases unique with
  | nil => simp
  | cons id rest =>
    have hsplit : ([Char.ofNat 0].intercalate ((id :: rest).map String.toList)).splitOn
        (Char.ofNat 0) = (id :: rest).map String.toList :=
      splitOn_intercalate _ (by simpa [Plain] using fun id hid => (hplain id hid).2) (by simp)
    rw [String.toList_intercalate, String.toList_singleton, hsplit, if_neg]
    -- an empty text has one empty piece
    intro hempty
    rw [← String.toList_singleton, ← String.toList_intercalate, hempty] at hsplit
    have hpiece : id = "" ∧ rest = [] := by simpa using hsplit.symm
    exact (hplain id (mem_cons_self ..)).1 hpiece.1

/-- Plain ids with one joined text are the same ids. -/
lemma Plain.mem_iff {ids others : List String} (h : Plain ids) (hothers : Plain others)
    (hsame : membership ids = membership others) (id : String) : id ∈ ids ↔ id ∈ others := by
  have hunique : uniqueIds ids = uniqueIds others :=
    map_injective_iff.mpr (fun _ _ => String.toList_inj.mp) (by rw [h.split, hothers.split, hsame])
  rw [← mem_uniqueIds, hunique, mem_uniqueIds]

/-! ### The entries -/

lemma rowsOf_cons (entry : String × Entry) (rest : List (String × Entry)) :
    rowsOf (entry :: rest) = entry.2.rows + rowsOf rest := by
  rw [rowsOf, map_cons, sum_cons, rowsOf]

lemma membersOf_slotsOf (rows : List Row) (slot : String) :
    membersOf (slotsOf rows) slot = (rows.filter fun row => row.slot = slot).map Row.id := by
  unfold membersOf slotsOf
  induction rows using reverseRecOn with
  | nil => rfl
  | append_singleton rows row ih =>
    rw [collect_append_singleton, filter_append, map_append, ← ih]
    by_cases hslot : row.slot = slot
    · rw [hslot, get?_put_self]
      simp [hslot]
    · rw [get?_put_of_ne _ _ (Ne.symm hslot)]
      simp [hslot]

lemma rowsOf_filter {previous : Entry} (hunique : KeysUnique entries)
    (h : get? entries connectionId = some previous) :
    rowsOf (entries.filter fun entry => entry.1 ≠ connectionId) =
      rowsOf entries - previous.rows := by
  induction entries with
  | nil => cases h
  | cons entry rest ih =>
    obtain ⟨hnew, hrest⟩ := nodup_cons.mp hunique
    by_cases hkey : entry.1 = connectionId
    · obtain rfl : entry.2 = previous := by simpa [get?, hkey] using h
      have hothers : (rest.filter fun entry => entry.1 ≠ connectionId) = rest :=
        filter_eq_self.mpr fun other hother => decide_eq_true fun heq =>
          hnew (hkey ▸ heq ▸ mem_map_of_mem hother)
      rw [filter_cons_of_neg (by simpa using hkey), hothers, rowsOf_cons]
      omega
    · have hstep := ih hrest (by simpa [get?, hkey] using h)
      rw [filter_cons_of_pos (by simpa using hkey), rowsOf_cons, rowsOf_cons, hstep]
      omega

lemma Cache.Law.delete (h : c.Law loads) (connectionId : String) :
    (c.delete connectionId).Law loads ∧
      connectionId ∉ (c.delete connectionId).entries.map Prod.fst := by
  unfold Cache.delete
  cases hget : get? c.entries connectionId with
  | none =>
    refine ⟨h, fun hmem => ?_⟩
    rw [← isSome_get?_iff, hget] at hmem
    cases hmem
  | some previous =>
    refine ⟨⟨h.unique.filter _, ?_, (length_filter_le ..).trans h.few, ?_,
      fun entry hentry => h.last entry (mem_of_mem_filter hentry)⟩, by simp⟩
    · rw [rowsOf_filter h.unique hget, h.counted]
    · exact (Int.sub_le_self _ (Int.natCast_nonneg _)).trans h.within

/-- The entries that stay are the newest ones, and an entry with the rows fits beside them. -/
lemma makeRoom_spec {rows : ℕ} (hrows : rows ≤ 10000) {retainedRows : ℤ}
    (h : retainedRows = rowsOf entries) :
    let room := Cache.makeRoom rows entries retainedRows
    room.entries.Sublist entries ∧ room.retainedRows = rowsOf room.entries ∧
      room.entries.length < 32 ∧ room.retainedRows + rows ≤ 20000 := by
  induction entries generalizing retainedRows with
  | nil =>
    have hnone : retainedRows = 0 := h
    rw [Cache.makeRoom, hnone]
    exact ⟨Sublist.refl _, rfl, Nat.zero_lt_succ _, by dsimp only; omega⟩
  | cons oldest rest ih =>
    rw [rowsOf_cons] at h
    rw [Cache.makeRoom]
    split
    · obtain ⟨hsub, hroom⟩ := ih (by omega : retainedRows - oldest.2.rows = rowsOf rest)
      exact ⟨hsub.cons _, hroom⟩
    · rename_i hfits
      rw [not_or, not_le, not_lt] at hfits
      exact ⟨Sublist.refl _, by rw [rowsOf_cons, h], hfits⟩

lemma Cache.Law.retain (h : c.Law loads) (load : Load) : (c.retain load).Law (loads ++ [load]) := by
  obtain ⟨hkept, hnew⟩ := h.delete load.connectionId
  -- the last load of another connection is still the last one
  have hlast : ∀ entry ∈ (c.delete load.connectionId).entries, ∃ last,
      ((loads ++ [load]).filter fun load => load.connectionId = entry.1).getLast? = some last ∧
        entry.2 = last.entry := by
    intro entry hentry
    have hother : load.connectionId ≠ entry.1 :=
      fun heq => hnew (mem_map.mpr ⟨entry, hentry, heq.symm⟩)
    rw [filter_append, filter_cons_of_neg (by simpa using hother), filter_nil, append_nil]
    exact hkept.last entry hentry
  unfold Cache.retain
  dsimp only
  split
  case isFalse => exact { hkept with last := hlast }
  case isTrue hsmall =>
    obtain ⟨hroom, hcounted, hfew, hwithin⟩ := makeRoom_spec hsmall hkept.counted
    refine ⟨?_, ?_, ?_, hwithin, fun entry hentry => ?_⟩
    · rw [KeysUnique, map_append, map_singleton, ← concat_eq_append, nodup_concat]
      exact ⟨fun hmem => hnew ((hroom.map _).subset hmem), hkept.unique.sublist (hroom.map _)⟩
    · rw [hcounted, rowsOf, rowsOf, map_append, sum_append, map_singleton, sum_singleton]
    · rw [length_append, length_singleton]
      exact hfew
    · rcases mem_append.mp hentry with hold | hadded
      · exact hlast entry (hroom.subset hold)
      · rw [mem_singleton.mp hadded]
        exact ⟨load, by simp [filter_append], rfl⟩

/-- **Slot lookups.**  After any loads the cache is within its bounds, and what a lookup finds is
what the last load of the connection has for the slot: a load with the same joined text, which for
plain ids means the same set of ids, less than five seconds before. -/
theorem find_of_lastLoad (loads : List Load) : (loads.foldl Cache.retain {}).Law loads ∧
      ∀ connectionId ids slot now,
        ∀ found ∈ (loads.foldl Cache.retain {}).find connectionId ids slot now, ∃ load,
          (loads.filter fun load => load.connectionId = connectionId).getLast? = some load ∧
            membership load.ids = membership ids ∧
              (Plain load.ids → Plain ids → ∀ id, id ∈ load.ids ↔ id ∈ ids) ∧
              now - load.loadedAt < 5000 ∧
              found = (load.rows.filter fun row => row.slot = slot).map Row.id := by
  have hlaw : (loads.foldl Cache.retain {}).Law loads := by
    induction loads using reverseRecOn with
    | nil => exact ⟨nodup_nil, rfl, Nat.zero_le _, by decide, forall_mem_nil _⟩
    | append_singleton loads load ih =>
      rw [foldl_append]
      exact ih.retain load
  refine ⟨hlaw, fun connectionId ids slot now found hfound => ?_⟩
  obtain ⟨cached, hcached, rfl⟩ := Option.map_eq_some_iff.mp hfound
  obtain ⟨hget, hfresh⟩ := Option.filter_eq_some_iff.mp hcached
  obtain ⟨load, hload, rfl⟩ := hlaw.last _ (mem_of_get? hget)
  obtain ⟨hsame, hrecent⟩ := of_decide_eq_true hfresh
  exact ⟨load, hload, hsame, fun hload hids => hload.mem_iff hids hsame, hrecent,
    membersOf_slotsOf load.rows slot⟩

end CtsEngine.SlotLookup
