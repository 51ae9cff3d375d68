import CtsEngine.LiveWal.Replay

/-!
# Writes in another order

The hashes that checkpoints of different positions leave do not depend on the order of the writes;
neither do the mirrors, when the positions have different ids, and the members of the lists, when no
closed list is cut or those that are cut have no id twice and no id of an open position.
-/

namespace CtsEngine.LiveWal

open List Function

variable {checkpoints others : List Checkpoint}

lemma foldl_update_perm {K V : Type} [DecidableEq K] (key : Checkpoint → K) (value : Checkpoint → V)
    (hperm : checkpoints.Perm others)
    (hkey : ∀ c ∈ checkpoints, ∀ d ∈ checkpoints, key c = key d → c = d) (g : K → V) :
    checkpoints.foldl (fun g c => update g (key c) (value c)) g =
      others.foldl (fun g c => update g (key c) (value c)) g := by
  refine hperm.foldl_eq' (fun c hc d hd g => ?_) g
  by_cases heq : key c = key d
  · rw [hkey c hc d hd heq]
  · exact update_comm heq _ _ _

variable {c d : Checkpoint} {ids closed : List String}

lemma eq_of_key (h : (checkpoints.map Checkpoint.key).Nodup) (hc : c ∈ checkpoints)
    (hd : d ∈ checkpoints) (heq : c.key = d.key) : c = d :=
  inj_on_of_nodup_map h hc hd heq

variable (store : RecoveredStore) (checkpoints)

lemma writeAll_eq : writeAll store checkpoints =
    checkpoints.foldl (fun store c => writeEntry store c.entry) store := foldl_map

lemma hashes_writeAll : (writeAll store checkpoints).hashes = checkpoints.foldl (fun hashes c =>
      update hashes (hashKey c.key) (some (normalizeRedisHash c.position)))
        store.hashes := by
  rw [writeAll_eq]
  refine (foldl_hom RecoveredStore.hashes fun store c => ?_).symm
  rw [hashes_writeEntry, c.entryKey_entry, c.position_entry]

lemma strings_writeAll : (writeAll store checkpoints).strings = checkpoints.foldl (fun strings c =>
      update strings (jsonKey c.key.2) (some (String.ofList (stringify (.object
        (buildLivePositionCompatibilitySnapshot c.position)))))) store.strings := by
  rw [writeAll_eq]
  refine (foldl_hom RecoveredStore.strings fun store c => ?_).symm
  rw [strings_writeEntry, c.positionId_entry, c.position_entry]

variable {checkpoints}

lemma hashes_writeAll_of_not_mem (hc : ∀ d ∈ checkpoints, d.key ≠ c.key) :
    (writeAll store checkpoints).hashes (hashKey c.key) = store.hashes (hashKey c.key) := by
  induction checkpoints generalizing store with
  | nil => rfl
  | cons d checkpoints ih =>
    refine (ih (writeEntry store d.entry) fun e he => hc e (mem_cons_of_mem _ he)).trans ?_
    rw [hashes_writeEntry, d.entryKey_entry,
      update_of_ne fun heq => hc d mem_cons_self (hashKey_inj heq).symm]

lemma hashes_writeAll_of_mem (h : (checkpoints.map Checkpoint.key).Nodup) (hc : c ∈ checkpoints) :
    (writeAll store checkpoints).hashes (hashKey c.key) = some (normalizeRedisHash c.position) := by
  induction checkpoints generalizing store with
  | nil => cases hc
  | cons d checkpoints ih =>
    obtain ⟨hd, hrest⟩ := nodup_cons.mp h
    rcases mem_cons.mp hc with rfl | hc
    · have hnot : ∀ e ∈ checkpoints, e.key ≠ c.key := fun e he heq => hd (heq ▸ mem_map_of_mem he)
      refine (hashes_writeAll_of_not_mem (writeEntry store c.entry) hnot).trans ?_
      rw [hashes_writeEntry, c.entryKey_entry, update_self, c.position_entry]
    · exact ih (writeEntry store d.entry) hrest hc

/-! ## Lists -/

variable (key : String)

/-- A list of the store after the write of a checkpoint. -/
def listAfter (ids : List String) (c : Checkpoint) : List String :=
  if key = closedIndexKey c.key.1 then closedIds (isTerminal c.position) c.key.2 ids
  else if key = openIndexKey c.key.1 then openIds (isTerminal c.position) c.key.2 ids
  else ids

/-- A closed list gets no id but that of the position. -/
lemma mem_listAfter_closed {connection id : String}
    (h : id ∈ listAfter (closedIndexKey connection) ids c) :
    id ∈ ids ∨ connection = c.key.1 ∧ id = c.key.2 := by
  rw [listAfter, if_neg (openIndexKey_ne_closedIndexKey c connection).symm] at h
  split at h
  case isTrue hkey =>
    rw [closedIds] at h
    split at h
    · rcases mem_cons.mp (mem_of_mem_take h) with rfl | h
      · exact .inr ⟨closedIndexKey_inj hkey, rfl⟩
      · exact .inl (mem_of_mem_filter h)
    · exact .inl (mem_of_mem_filter h)
  case isFalse => exact .inl h

/-- An open position outside a closed list leaves it alone. -/
lemma listAfter_closed_of_skip {connection : String}
    (h : c.key.1 = connection → isTerminal c.position = false ∧ c.key.2 ∉ ids) :
    listAfter (closedIndexKey connection) ids c = ids := by
  rw [listAfter, if_neg (openIndexKey_ne_closedIndexKey c connection).symm]
  split
  case isTrue hkey =>
    obtain ⟨hopen, hnot⟩ := h (closedIndexKey_inj hkey).symm
    rw [hopen]
    exact filter_eq_self.mpr fun other hoth => decide_eq_true fun heq => hnot (heq ▸ hoth)
  case isFalse => rfl

lemma lists_writeAll (checkpoints : List Checkpoint) (key : String) :
    (writeAll store checkpoints).lists key =
      checkpoints.foldl (listAfter key) (store.lists key) := by
  rw [writeAll_eq]
  refine (foldl_hom (RecoveredStore.lists · key) fun store c => ?_).symm
  rw [lists_writeEntry, c.connectionId_entry, c.positionId_entry]
  rfl

/-- The members of a list after the write of a checkpoint, when the list is not cut. -/
def membersAfter (ids : Set String) (c : Checkpoint) : Set String :=
  if key = closedIndexKey c.key.1 then
    if isTerminal c.position then insert c.key.2 ids else ids \ {c.key.2}
  else if key = openIndexKey c.key.1 then
    if isTerminal c.position then ids \ {c.key.2} else insert c.key.2 ids
  else ids

/-- The terminal checkpoints of a closed list. -/
def terminalOf (checkpoints : List Checkpoint) : List Checkpoint :=
  checkpoints.filter fun c => key = closedIndexKey c.key.1 ∧ isTerminal c.position

lemma terminalOf_cons (c : Checkpoint) (checkpoints : List Checkpoint) :
    (terminalOf key (c :: checkpoints)).length =
      (if key = closedIndexKey c.key.1 ∧ isTerminal c.position then 1 else 0) +
        (terminalOf key checkpoints).length := by
  rw [terminalOf, filter_cons]
  split
  case isTrue h => rw [if_pos (of_decide_eq_true h), length_cons, Nat.add_comm, terminalOf]
  case isFalse h =>
    rw [if_neg fun htrue => h (decide_eq_true htrue), Nat.zero_add, terminalOf]

lemma setOf_mem_listAfter {key : String}
    (hroom : key = closedIndexKey c.key.1 → isTerminal c.position = true →
      ids.length < liveClosedIndexLimit) :
    {id | id ∈ listAfter key ids c} = membersAfter key {id | id ∈ ids} c := by
  have hoths : (ids.filter (· ≠ c.key.2)).length ≤ ids.length := length_filter_le _ _
  rw [listAfter, membersAfter]
  split
  case isTrue hclos =>
    rw [closedIds]
    split
    case isTrue hterm =>
      have hlen := hroom hclos hterm
      rw [take_of_length_le (by rw [length_cons]; omega)]
      ext id
      by_cases hid : id = c.key.2 <;> simp [hid]
    case isFalse =>
      ext id
      simp
  case isFalse =>
    split
    case isTrue =>
      rw [openIds]
      split
      case isTrue =>
        ext id
        simp
      case isFalse =>
        ext id
        by_cases hid : id = c.key.2 <;> simp [hid]
    case isFalse => rfl

lemma setOf_mem_foldl_listAfter {key : String}
    (hroom : (∃ connection, key = closedIndexKey connection) →
      ids.length + (terminalOf key checkpoints).length ≤ liveClosedIndexLimit) :
    {id | id ∈ checkpoints.foldl (listAfter key) ids} =
      checkpoints.foldl (membersAfter key) {id | id ∈ ids} := by
  induction checkpoints generalizing ids with
  | nil => rfl
  | cons c checkpoints ih =>
    have hmems : {id | id ∈ listAfter key ids c} = membersAfter key {id | id ∈ ids} c := by
      refine setOf_mem_listAfter fun hclos hterm => ?_
      have hle := hroom ⟨_, hclos⟩
      rw [terminalOf_cons, if_pos ⟨hclos, hterm⟩] at hle
      omega
    rw [foldl_cons, foldl_cons, ← hmems]
    refine ih fun ⟨connection, hkey⟩ => ?_
    have hle := hroom ⟨connection, hkey⟩
    rw [terminalOf_cons] at hle
    have hoths : (ids.filter (· ≠ c.key.2)).length ≤ ids.length := length_filter_le _ _
    have hopen : key ≠ openIndexKey c.key.1 :=
      hkey ▸ (openIndexKey_ne_closedIndexKey c connection).symm
    have hlen : (listAfter key ids c).length ≤ ids.length +
        if key = closedIndexKey c.key.1 ∧ isTerminal c.position then 1 else 0 := by
      rw [listAfter, if_neg hopen, closedIds]
      by_cases hclos : key = closedIndexKey c.key.1
      · by_cases hterm : isTerminal c.position = true
        · rw [if_pos hclos, if_pos hterm, if_pos ⟨hclos, hterm⟩, length_take, length_cons]
          omega
        · rw [if_pos hclos, if_neg hterm, if_neg fun h => hterm h.2]
          exact hoths
      · rw [if_neg hclos, if_neg fun h => hclos h.1]
        exact le_rfl
    omega

lemma membersAfter_cases (c : Checkpoint) : (∀ ids, membersAfter key ids c = ids) ∨
      (key = closedIndexKey c.key.1 ∨ key = openIndexKey c.key.1) ∧
        ((∀ ids, membersAfter key ids c = insert c.key.2 ids) ∨
          ∀ ids, membersAfter key ids c = ids \ {c.key.2}) := by
  by_cases hclos : key = closedIndexKey c.key.1
  · refine .inr ⟨.inl hclos, ?_⟩
    by_cases hterm : isTerminal c.position = true
    · exact .inl fun ids => by rw [membersAfter, if_pos hclos, if_pos hterm]
    · exact .inr fun ids => by rw [membersAfter, if_pos hclos, if_neg hterm]
  by_cases hopen : key = openIndexKey c.key.1
  · refine .inr ⟨.inr hopen, ?_⟩
    by_cases hterm : isTerminal c.position = true
    · exact .inr fun ids => by
        rw [membersAfter, if_neg hclos, if_pos hopen, if_pos hterm]
    · exact .inl fun ids => by
        rw [membersAfter, if_neg hclos, if_pos hopen, if_neg hterm]
  · exact .inl fun ids => by rw [membersAfter, if_neg hclos, if_neg hopen]

lemma connection_eq_of_key {key : String}
    (hc : key = closedIndexKey c.key.1 ∨ key = openIndexKey c.key.1)
    (hd : key = closedIndexKey d.key.1 ∨ key = openIndexKey d.key.1) : c.key.1 = d.key.1 := by
  rcases hc with hc | hc <;> rcases hd with hd | hd
  · exact closedIndexKey_inj (hc.symm.trans hd)
  · exact absurd (hd.symm.trans hc) (openIndexKey_ne_closedIndexKey d _)
  · exact absurd (hc.symm.trans hd) (openIndexKey_ne_closedIndexKey c _)
  · exact openIndexKey_inj (hc.symm.trans hd)

lemma foldl_membersAfter_perm (hperm : checkpoints.Perm others)
    (hnodup : (checkpoints.map Checkpoint.key).Nodup) (ids : Set String) :
    checkpoints.foldl (membersAfter key) ids = others.foldl (membersAfter key) ids := by
  refine hperm.foldl_eq' (fun c hc d hd ids => ?_) ids
  by_cases heq : c = d
  · rw [heq]
  have hkey : c.key ≠ d.key := fun hkey => heq (eq_of_key hnodup hc hd hkey)
  rcases membersAfter_cases key c with hid | ⟨hlist, hwr⟩
  · rw [hid, hid]
  rcases membersAfter_cases key d with hid | ⟨hlist', hwr'⟩
  · rw [hid, hid]
  have hne : c.key.2 ≠ d.key.2 := fun h => hkey (Prod.ext (connection_eq_of_key hlist hlist') h)
  rcases hwr with hwr | hwr <;> rcases hwr' with hwr' | hwr'
  · rw [hwr, hwr', hwr', hwr, Set.insert_comm]
  · rw [hwr, hwr', hwr', hwr, Set.insert_sdiff_singleton_comm hne]
  · rw [hwr, hwr', hwr', hwr, Set.insert_sdiff_singleton_comm hne.symm]
  · rw [hwr, hwr', hwr', hwr, Set.sdiff_sdiff_comm]

lemma take_filter_take {A : Type} [DecidableEq A] {xs : List A} (h : xs.Nodup) (x : A) (n : ℕ) :
    ((xs.take (n + 1)).filter (· ≠ x)).take n = (xs.filter (· ≠ x)).take n := by
  induction xs generalizing n with
  | nil => rfl
  | cons y xs ih =>
    obtain ⟨hy, hrest⟩ := nodup_cons.mp h
    rw [take_succ_cons]
    by_cases hx : y = x
    · subst hx
      have hnone : ∀ l : List A, (∀ z ∈ l, z ∈ xs) → l.filter (· ≠ y) = l := by
        refine fun l hl => filter_eq_self.mpr fun z hz => ?_
        exact decide_eq_true fun heq => hy (heq ▸ hl z hz)
      rw [filter_cons_of_neg (by simp), filter_cons_of_neg (by simp),
        hnone _ fun z hz => mem_of_mem_take hz, hnone _ fun z hz => hz, take_take,
        Nat.min_self]
    · rw [filter_cons_of_pos (by simpa using hx), filter_cons_of_pos (by simpa using hx)]
      cases n with
      | zero => rfl
      | succ n => rw [take_succ_cons, take_succ_cons, ih hrest]

/-- A closed list after closed positions have been put in front of it, the last of them first. -/
def closedAfter (closed : List String) (ids : List String) : List String :=
  if closed = [] then ids else (closed ++ ids.filter (· ∉ closed)).take liveClosedIndexLimit

lemma closedIds_closedAfter (hids : ids.Nodup) (hclos : closed.Nodup) {id : String}
    (hid : id ∉ closed) :
    closedIds true id (closedAfter closed ids) = closedAfter (id :: closed) ids := by
  have hfront : id :: (closed ++ ids.filter (· ∉ closed)).filter (· ≠ id) =
      (id :: closed) ++ ids.filter (· ∉ id :: closed) := by
    rw [filter_append, filter_filter]
    congr 2
    · exact filter_eq_self.mpr fun other hoth =>
        decide_eq_true fun heq => hid (heq ▸ hoth)
    · refine filter_congr fun other _ => ?_
      rw [← Bool.decide_and, decide_eq_decide, mem_cons, not_or]
  rw [closedIds, if_pos rfl, closedAfter, closedAfter, if_neg (cons_ne_nil _ _), ← hfront]
  split
  case isTrue hnil =>
    subst hnil
    have hall : ids.filter (· ∉ ([] : List String)) = ids :=
      filter_eq_self.mpr fun other _ => decide_eq_true not_mem_nil
    rw [nil_append, hall]
  case isFalse =>
    have hnodup : (closed ++ ids.filter (· ∉ closed)).Nodup := by
      refine nodup_append.mpr ⟨hclos, hids.filter _, fun a ha b hb heq => ?_⟩
      exact of_decide_eq_true (mem_filter.mp hb).2 (heq ▸ ha)
    have hlimit : liveClosedIndexLimit = 4999 + 1 := rfl
    rw [hlimit, take_succ_cons, take_succ_cons, take_filter_take hnodup]

lemma mem_closedAfter_perm {closed' : List String} (hperm : closed.Perm closed')
    (hlen : closed.length ≤ liveClosedIndexLimit) (ids : List String) (id : String) :
    id ∈ closedAfter closed ids ↔ id ∈ closedAfter closed' ids := by
  by_cases hnil : closed = []
  · subst hnil
    rw [← hperm.nil_eq]
  · have hnil' : closed' ≠ [] := fun h => hnil (h ▸ hperm).eq_nil
    have hfilt : ids.filter (· ∉ closed) = ids.filter (· ∉ closed') :=
      filter_congr fun other _ => decide_eq_decide.mpr (not_congr hperm.mem_iff)
    have hlen' : closed'.length ≤ liveClosedIndexLimit := hperm.length_eq ▸ hlen
    have hall := take_of_length_le hlen
    have hall' := take_of_length_le hlen'
    rw [closedAfter, closedAfter, if_neg hnil, if_neg hnil', take_append, take_append,
      hall, hall', mem_append, mem_append, hperm.mem_iff, hfilt, hperm.length_eq]

/-- The closed ones come in front. -/
lemma foldl_listAfter_closed {connection : String} (hnodup : (checkpoints.map Checkpoint.key).Nodup)
    (hids : ids.Nodup)
    (hopen : ∀ c ∈ checkpoints, c.key.1 = connection → isTerminal c.position = false →
      c.key.2 ∉ ids) :
    checkpoints.foldl (listAfter (closedIndexKey connection)) ids =
      closedAfter ((terminalOf (closedIndexKey connection) checkpoints).map
        (·.key.2)).reverse ids := by
  induction checkpoints using reverseRecOn with
  | nil => rfl
  | append_singleton checkpoints c ih =>
    rw [map_append, nodup_append] at hnodup
    have hrest := ih hnodup.1 fun d hd => hopen d (mem_append_left _ hd)
    have hclos : ∀ d ∈ terminalOf (closedIndexKey connection) checkpoints,
        d ∈ checkpoints ∧ d.key.1 = connection := fun d hd =>
      ⟨mem_of_mem_filter hd, (closedIndexKey_inj (of_decide_eq_true (mem_filter.mp hd).2).1).symm⟩
    have hne : ∀ d ∈ checkpoints, d.key ≠ c.key := fun d hd =>
      hnodup.2.2 _ (mem_map_of_mem hd) _ (mem_singleton_self _)
    have htermi : terminalOf (closedIndexKey connection) (checkpoints ++ [c]) =
        terminalOf (closedIndexKey connection) checkpoints ++
          terminalOf (closedIndexKey connection) [c] := filter_append ..
    rw [foldl_append, hrest, foldl_cons, foldl_nil, htermi, listAfter]
    by_cases hconn : c.key.1 = connection
    · have hnotin : c.key.2 ∉
          ((terminalOf (closedIndexKey connection) checkpoints).map (·.key.2)).reverse := by
        intro hmem
        obtain ⟨d, hd, heq⟩ := mem_map.mp (mem_reverse.mp hmem)
        obtain ⟨hmem, hd⟩ := hclos d hd
        exact hne d hmem (Prod.ext (hd.trans hconn.symm) heq)
      rw [if_pos (congrArg closedIndexKey hconn.symm)]
      cases hterm : isTerminal c.position with
      | true =>
        have hnodup' : ((terminalOf (closedIndexKey connection) checkpoints).map
            (·.key.2)).reverse.Nodup := by
          rw [nodup_reverse]
          refine List.Nodup.map_on (fun d hd e he heq => ?_)
            ((List.Nodup.of_map _ hnodup.1).filter _)
          obtain ⟨hmem, hd⟩ := hclos d hd
          obtain ⟨hmem', he⟩ := hclos e he
          exact eq_of_key hnodup.1 hmem hmem' (Prod.ext (hd.trans he.symm) heq)
        have hself : terminalOf (closedIndexKey connection) [c] = [c] :=
          filter_cons_of_pos (by simp [hconn, hterm])
        rw [closedIds_closedAfter hids hnodup' hnotin, hself, map_append, reverse_append]
        rfl
      | false =>
        have hoths : c.key.2 ∉ ids := hopen c (mem_append_right _ mem_cons_self) hconn hterm
        have hmem : c.key.2 ∉ closedAfter
            ((terminalOf (closedIndexKey connection) checkpoints).map (·.key.2)).reverse ids := by
          rw [closedAfter]
          split
          · exact hoths
          · intro hmem
            rcases mem_append.mp (mem_of_mem_take hmem) with hmem | hmem
            · exact hnotin hmem
            · exact hoths (mem_of_mem_filter hmem)
        have hnone : terminalOf (closedIndexKey connection) [c] = [] :=
          filter_cons_of_neg (by simp [hterm])
        rw [hnone, append_nil]
        exact filter_eq_self.mpr fun other hoth =>
          decide_eq_true fun heq => hmem (heq ▸ hoth)
    · have hkey : closedIndexKey connection ≠ closedIndexKey c.key.1 :=
        fun h => hconn (closedIndexKey_inj h).symm
      have hnone : terminalOf (closedIndexKey connection) [c] = [] :=
        filter_cons_of_neg (by simp [hkey])
      rw [if_neg hkey, if_neg (openIndexKey_ne_closedIndexKey c connection).symm, hnone, append_nil]

end CtsEngine.LiveWal
