import CtsEngine.KeyEviction.Pass

/-!
# What the parts of the pass delete

Each part of the pass deletes a list of different keys of one map, and returns how many of them
were beyond a cap.  It returns less than it takes from the store exactly when a full bucket gave up
a key, or when a deleted key was not alone.
-/

namespace CtsEngine.KeyEviction

open List StreamedQueues OrderedStore Function Keyed Nat

open StreamedQueues (members surplus)

/-- The oldest keys of a bucket, beyond its cap. -/
def beyond (cap : ℕ) (bucket : List String) : List String := bucket.take (bucket.length - cap)

variable (cap : ℕ) (s : OrderedStore)

lemma beyond_sublist (bucket : List String) : (beyond cap bucket).Sublist bucket := take_sublist ..

lemma beyond_nil : beyond cap [] = [] := take_nil

lemma trimBucket_eq (bucket : List String) (cap : ℕ) :
    trimBucket s bucket cap = (s.deleteKeys (beyond cap bucket), (beyond cap bucket).length) := by
  rw [trimBucket, beyond, length_take]
  split
  · rename_i hle
    rw [Nat.sub_eq_zero_of_le hle]
    rfl
  · rw [min_eq_left (sub_le ..)]

/-! ## Families -/

section Families

variable (cap : Family → ℕ) (familyOf : String → Option Family)

/-- A bucket that is full gives up its first key and does not take the new one. -/
def shiftOldest : StreamedQueues.Offer String Family := fun family bucket key =>
  if bucket.length < cap family + 1 then (bucket ++ [key], none) else (bucket.tail, bucket.head?)

lemma bounded_shiftOldest :
    StreamedQueues.Bounded (shiftOldest cap) fun family => cap family + 1 where
  takes family bucket key h := if_pos h
  givesUp family bucket key h := by
    rw [shiftOldest, if_neg (not_lt.mpr h)]
    cases bucket with
    | nil => exact absurd h (not_succ_le_zero _)
    | cons oldest rest =>
      exact ⟨oldest, rfl, (sublist_append_left (oldest :: rest) [key]).subperm⟩

/-- The buckets after the pass over the keys of a map. -/
def bucketsOf (keys : List String) : StreamedQueues.State String Family :=
  StreamedQueues.pass (shiftOldest cap) familyOf keys

/-- The keys beyond the caps in the buckets. -/
def surplusKeys (keys : List String) : List String :=
  surplus (fun family bucket => beyond (cap family) bucket) (bucketsOf cap familyOf keys)

/-- The keys that the part deletes. -/
def deletedKeys (keys : List String) : List String :=
  (bucketsOf cap familyOf keys).dropped ++ surplusKeys cap familyOf keys

variable (s : OrderedStore)

lemma foldl_visitKey (keys : List String) :
    keys.foldl (visitKey cap familyOf) (s, []) =
      (s.deleteKeys (bucketsOf cap familyOf keys).dropped,
        (bucketsOf cap familyOf keys).queues) := by
  induction keys using reverseRecOn with
  | nil => rfl
  | append_singleton keys key ih =>
    have hpass : bucketsOf cap familyOf (keys ++ [key]) =
        visit (shiftOldest cap) familyOf (bucketsOf cap familyOf keys) key :=
      pass_append_singleton keys key
    rw [foldl_append, ih, hpass, foldl_cons, foldl_nil]
    generalize bucketsOf cap familyOf keys = state
    rw [visitKey]
    cases hfam : familyOf key with
    | none => rw [visit_of_none hfam]
    | some family =>
      rw [visit_of_some hfam]
      change (if (state.queue family).length < cap family + 1 then
          (s.deleteKeys state.dropped, put state.queues family (state.queue family ++ [key]))
        else ((state.queue family).head?.elim (s.deleteKeys state.dropped)
            (s.deleteKeys state.dropped).deleteKey,
          put state.queues family (state.queue family).tail)) = _
      rw [shiftOldest]
      by_cases hlt : (state.queue family).length < cap family + 1
      · rw [if_pos hlt, if_pos hlt, Option.toList_none, append_nil]
      · rw [if_neg hlt, if_neg hlt]
        cases hqueue : state.queue family with
        | nil => exact absurd (hqueue ▸ succ_pos _) hlt
        | cons oldest rest =>
          rw [deleteKeys_append]
          rfl

lemma foldl_trimBucket (buckets : List (Family × List String)) (count : ℕ) :
    buckets.foldl (fun state entry =>
        ((trimBucket state.1 entry.2 (cap entry.1)).1,
          state.2 + (trimBucket state.1 entry.2 (cap entry.1)).2)) (s, count) =
      (s.deleteKeys (buckets.flatMap fun entry => beyond (cap entry.1) entry.2),
        count + (buckets.flatMap fun entry => beyond (cap entry.1) entry.2).length) := by
  induction buckets generalizing s count with
  | nil => rfl
  | cons entry rest ih =>
    rw [foldl_cons, trimBucket_eq, ih, flatMap_cons, deleteKeys_append, length_append, add_assoc]

/-- The part deletes the keys given up and those beyond the caps, and counts the second. -/
theorem evictFamilies_eq (kind : KeyKind) : evictFamilies cap familyOf kind s =
      (s.deleteKeys (deletedKeys cap familyOf (s.keys kind)),
        (surplusKeys cap familyOf (s.keys kind)).length) := by
  rw [evictFamilies, foldl_visitKey, deletedKeys, deleteKeys_append]
  rw [foldl_trimBucket, zero_add]
  rfl

variable {cap familyOf} {keys : List String} {key : String}

lemma deletedKeys_subperm (keys : List String) :
    (deletedKeys cap familyOf keys).Subperm (keys.filter fun key => (familyOf key).isSome) :=
  dropped_append_surplus_subperm (bounded_shiftOldest cap)
    (fun family bucket => (beyond_sublist (cap family) bucket).subperm) keys

lemma nodup_deletedKeys (h : keys.Nodup) : (deletedKeys cap familyOf keys).Nodup := by
  obtain ⟨chosen, hperm, hsub⟩ := @deletedKeys_subperm cap familyOf keys
  exact hperm.nodup_iff.mp ((h.filter _).sublist hsub)

lemma mem_of_mem_deletedKeys (h : key ∈ deletedKeys cap familyOf keys) :
    key ∈ keys ∧ (familyOf key).isSome = true :=
  mem_filter.mp ((deletedKeys_subperm keys).subset h)

/-- The keys of the families beyond their caps. -/
def BeyondCap (cap : Family → ℕ) (familyOf : String → Option Family) (keys : List String)
    (key : String) : Prop :=
  ∃ family, key ∈ beyond (cap family) (members familyOf family keys)

lemma mem_deletedKeys_iff (h : (bucketsOf cap familyOf keys).dropped = []) :
    key ∈ deletedKeys cap familyOf keys ↔ BeyondCap cap familyOf keys key := by
  rw [deletedKeys, h]
  exact mem_surplus_iff (bounded_shiftOldest cap) (fun family => beyond_nil (cap family)) h

lemma dropped_eq_nil_iff : (bucketsOf cap familyOf keys).dropped = [] ↔
      ∀ family, (members familyOf family keys).length ≤ cap family + 1 :=
  StreamedQueues.dropped_eq_nil_iff (bounded_shiftOldest cap) keys

/-- **The families of one map**: no more is taken than counted exactly when the families have at
most one key beyond their caps, and the keys beyond them are alone. -/
theorem size_evictFamilies {kind : KeyKind} (hset : kind ≠ .set) :
    (evictFamilies cap familyOf kind s).1.size + (evictFamilies cap familyOf kind s).2 ≤ s.size ∧
      ((evictFamilies cap familyOf kind s).1.size + (evictFamilies cap familyOf kind s).2 = s.size ↔
        (∀ family, (members familyOf family (s.keys kind)).length ≤ cap family + 1) ∧
          ∀ key, BeyondCap cap familyOf (s.keys kind) key → s.Alone kind key) := by
  obtain ⟨hle, hiff⟩ := size_deleteKeys (s := s) hset
    (@nodup_deletedKeys cap familyOf _ (s.nodup_keys kind))
    fun key hkey => (mem_of_mem_deletedKeys hkey).1
  rw [evictFamilies_eq]
  have hlen : (deletedKeys cap familyOf (s.keys kind)).length =
      (bucketsOf cap familyOf (s.keys kind)).dropped.length +
        (surplusKeys cap familyOf (s.keys kind)).length := length_append
  dsimp only
  refine ⟨by omega, fun heq => ?_, fun ⟨hcaps, halone⟩ => ?_⟩
  · have hnone : (bucketsOf cap familyOf (s.keys kind)).dropped = [] :=
      length_eq_zero_iff.mp (by omega)
    exact ⟨dropped_eq_nil_iff.mp hnone, fun key hkey =>
      hiff.mp (by omega) key ((mem_deletedKeys_iff hnone).mpr hkey)⟩
  · have hnone := dropped_eq_nil_iff.mpr hcaps
    rw [hnone, length_nil, zero_add] at hlen
    rw [← hlen]
    exact hiff.mpr fun key hkey => halone key ((mem_deletedKeys_iff hnone).mp hkey)

end Families

lemma evictLists_eq :
    evictLists s = (s.deleteKeys (beyond 50 ((s.keys .list).filter isStrategyList)),
      (beyond 50 ((s.keys .list).filter isStrategyList)).length) :=
  trimBucket_eq ..

lemma mem_of_mem_beyond_filter {cap : ℕ} {p : String → Bool} {keys : List String} {key : String}
    (h : key ∈ beyond cap (keys.filter p)) : key ∈ keys ∧ p key = true :=
  mem_filter.mp ((beyond_sublist ..).subset h)

lemma nodup_beyond_filter (p : String → Bool) {keys : List String} (h : keys.Nodup) :
    (beyond cap (keys.filter p)).Nodup := (h.filter p).sublist (beyond_sublist ..)

/-- **The lists**: no more is taken than counted exactly when those beyond the cap are alone. -/
theorem size_evictLists : (evictLists s).1.size + (evictLists s).2 ≤ s.size ∧
      ((evictLists s).1.size + (evictLists s).2 = s.size ↔
        ∀ key ∈ beyond 50 ((s.keys .list).filter isStrategyList), s.Alone .list key) := by
  rw [evictLists_eq]
  exact size_deleteKeys (by decide) (nodup_beyond_filter _ _ (s.nodup_keys .list))
    fun key hkey => (mem_of_mem_beyond_filter hkey).1

/-! ## Positions -/

/-- A connection that is full gives up its oldest position and takes the new one. -/
def popOldest : StreamedQueues.Offer PositionHash String := fun _ positions entry =>
  if positions.length < maxTerminalPositions + 1 then (positions ++ [entry], none)
  else ((newestFirst positions).dropLast ++ [entry], (newestFirst positions).getLast?)

lemma bounded_popOldest : StreamedQueues.Bounded popOldest fun _ => maxTerminalPositions + 1 where
  takes connection positions entry h := if_pos h
  givesUp connection positions entry h := by
    rw [popOldest, if_neg (not_lt.mpr h)]
    have hperm : (newestFirst positions).Perm positions := Comparison.sortBy_perm ..
    have hne : newestFirst positions ≠ [] := by
      intro hnil
      rw [hnil, nil_perm] at hperm
      rw [hperm] at h
      exact absurd h (not_succ_le_zero _)
    refine ⟨(newestFirst positions).getLast hne, getLast?_eq_some_getLast hne, ?_⟩
    have hsplit := dropLast_append_getLast hne
    refine List.Perm.subperm ?_
    calc ((newestFirst positions).getLast hne ::
          ((newestFirst positions).dropLast ++ [entry])).Perm
            (((newestFirst positions).dropLast ++ [(newestFirst positions).getLast hne]) ++
              [entry]) := ((perm_append_singleton _ _).symm.append_right [entry])
      _ = newestFirst positions ++ [entry] := by rw [hsplit]
      List.Perm _ (positions ++ [entry]) := hperm.append_right [entry]

/-- The positions of the connections after the pass over the hashes. -/
def connectionsOf (hashes : List PositionHash) : StreamedQueues.State PositionHash String :=
  StreamedQueues.pass popOldest terminalConnection hashes

/-- The positions that are dropped in the end. -/
def surplusPositions (hashes : List PositionHash) : List PositionHash :=
  surplus (fun _ positions => droppedPositions positions) (connectionsOf hashes)

lemma foldl_visitPosition (hashes : List PositionHash) : hashes.foldl visitPosition (s, []) =
      (s.deleteKeys ((connectionsOf hashes).dropped.map Prod.fst),
        (connectionsOf hashes).queues) := by
  induction hashes using reverseRecOn with
  | nil => rfl
  | append_singleton hashes entry ih =>
    have hpass : connectionsOf (hashes ++ [entry]) =
        visit popOldest terminalConnection (connectionsOf hashes) entry :=
      pass_append_singleton hashes entry
    rw [foldl_append, ih, hpass, foldl_cons, foldl_nil]
    generalize connectionsOf hashes = state
    rw [visitPosition]
    cases hconn : terminalConnection entry with
    | none => rw [visit_of_none hconn]
    | some connection =>
      rw [visit_of_some hconn]
      change (if (state.queue connection).length < maxTerminalPositions + 1 then
          (s.deleteKeys (state.dropped.map Prod.fst),
            put state.queues connection (state.queue connection ++ [entry]))
        else (((newestFirst (state.queue connection)).getLast?.map Prod.fst).elim
            (s.deleteKeys (state.dropped.map Prod.fst))
            (s.deleteKeys (state.dropped.map Prod.fst)).deleteKey,
          put state.queues connection
            ((newestFirst (state.queue connection)).dropLast ++ [entry]))) = _
      rw [popOldest]
      by_cases hlt : (state.queue connection).length < maxTerminalPositions + 1
      · rw [if_pos hlt, if_pos hlt, Option.toList_none, append_nil]
      · rw [if_neg hlt, if_neg hlt, map_append, deleteKeys_append]
        cases (newestFirst (state.queue connection)).getLast? with
        | none => rfl
        | some oldest => rfl

/-- The deletions of hashes, one after another. -/
def deleteHashes (s : OrderedStore) (deleted : List String) : OrderedStore :=
  deleted.foldl deleteHash s

lemma foldl_droppedPositions (connections : List (String × List PositionHash)) (s : OrderedStore)
    (count : ℕ) :
    connections.foldl (fun state entry =>
        (droppedPositions entry.2).foldl (fun state position =>
          (deleteHash state.1 position.1, state.2 + 1)) state) (s, count) =
      (deleteHashes s ((connections.flatMap fun entry => droppedPositions entry.2).map Prod.fst),
        count + (connections.flatMap fun entry => droppedPositions entry.2).length) := by
  have hone : ∀ (positions : List PositionHash) (s : OrderedStore) (count : ℕ),
      positions.foldl (fun state position =>
          (deleteHash state.1 position.1, state.2 + 1)) (s, count) =
        (deleteHashes s (positions.map Prod.fst), count + positions.length) := by
    intro positions
    induction positions with
    | nil => exact fun _ _ => rfl
    | cons position rest ih =>
      intro s count
      rw [foldl_cons, ih, add_assoc, add_comm 1]
      rfl
  induction connections generalizing s count with
  | nil => rfl
  | cons entry rest ih =>
    rw [foldl_cons, hone, ih, flatMap_cons, map_append, length_append,
      ← add_assoc, deleteHashes, deleteHashes, deleteHashes, foldl_append]

/-- The positions given up are deleted, those beyond the newest too, and the second counted. -/
theorem evictTerminalPositions_eq : evictTerminalPositions s =
      (deleteHashes (s.deleteKeys ((connectionsOf (s.entries .hash)).dropped.map Prod.fst))
          ((surplusPositions (s.entries .hash)).map Prod.fst),
        (surplusPositions (s.entries .hash)).length) := by
  rw [evictTerminalPositions, foldl_visitPosition]
  rw [foldl_droppedPositions, zero_add]
  rfl

lemma droppedPositions_subperm (positions : List PositionHash) :
    (droppedPositions positions).Subperm positions := by
  rw [droppedPositions]
  split
  · exact nil_subperm
  · exact (take_sublist ..).subperm.trans (Comparison.sortBy_perm ..).subperm

lemma positions_subperm (hashes : List PositionHash) :
    ((connectionsOf hashes).dropped ++ surplusPositions hashes).Subperm
      (hashes.filter fun entry => (terminalConnection entry).isSome) :=
  dropped_append_surplus_subperm bounded_popOldest
    (fun _ positions => droppedPositions_subperm positions) hashes

lemma isTerminalPosition_of_isSome {entry : PositionHash}
    (h : (terminalConnection entry).isSome = true) : isTerminalPosition entry = true := by
  rw [terminalConnection] at h
  split at h
  · assumption
  · cases h

lemma mem_of_mem_positions {hashes : List PositionHash} {entry : PositionHash}
    (h : entry ∈ (connectionsOf hashes).dropped ++ surplusPositions hashes) :
    entry ∈ hashes ∧ isTerminalPosition entry = true := by
  obtain ⟨hmem, hsome⟩ := mem_filter.mp ((positions_subperm hashes).subset h)
  exact ⟨hmem, isTerminalPosition_of_isSome hsome⟩

variable (deleted : List String)

lemma entries_deleteHashes : (deleteHashes s deleted).entries = update s.entries .hash
      ((s.entries .hash).filter fun entry => decide (entry.1 ∉ deleted)) := by
  induction deleted generalizing s with
  | nil =>
    have hall : (s.entries .hash).filter (fun entry => decide (entry.1 ∉ ([] : List String))) =
        s.entries .hash := filter_eq_self.mpr fun entry _ => decide_eq_true not_mem_nil
    rw [hall, update_eq_self]
    rfl
  | cons key rest ih =>
    change (deleteHashes (deleteHash s key) rest).entries = _
    rw [ih, deleteHash]
    dsimp only
    rw [update_self, update_idem, filter_filter]
    refine congrArg (update s.entries .hash) (filter_congr fun entry _ => ?_)
    rw [← Bool.decide_and]
    simp only [mem_cons, not_or, and_comm]

lemma keys_deleteHashes (kind : KeyKind) : (deleteHashes s deleted).keys kind =
      (s.keys kind).filter fun key => decide (kind = .hash → key ∉ deleted) := by
  rw [OrderedStore.keys, entries_deleteHashes]
  by_cases hhash : kind = .hash
  · subst hhash
    rw [OrderedStore.keys, filter_map]
    refine congrArg (List.map Prod.fst) (filter_congr fun entry _ => ?_)
    exact decide_eq_decide.mpr ⟨fun h _ => h, fun h => h rfl⟩
  · rw [update_of_ne hhash]
    exact (filter_eq_self.mpr fun key _ => decide_eq_true fun h => absurd h hhash).symm

lemma shrinks_deleteHashes : s.Shrinks (deleteHashes s deleted) where
  entries kind _ := by
    rw [entries_deleteHashes]
    by_cases hhash : kind = .hash
    · subst hhash
      rw [update_self]
      exact filter_sublist ..
    · rw [update_of_ne hhash]
  sets := by
    rw [keys_deleteHashes]
    exact filter_sublist ..
  members entry hent := by
    rw [entries_deleteHashes] at hent
    exact ⟨entry, hent, rfl, List.Sublist.refl _⟩

lemma size_deleteHashes {s : OrderedStore} {deleted : List String} (hnodup : deleted.Nodup)
    (hmem : ∀ key ∈ deleted, key ∈ s.keys .hash) :
    (deleteHashes s deleted).size + deleted.length = s.size := by
  induction deleted generalizing s with
  | nil => rfl
  | cons key rest ih =>
    obtain ⟨hnew, hrest⟩ := nodup_cons.mp hnodup
    obtain ⟨hkey, hoths⟩ := forall_mem_cons.mp hmem
    have hents : (deleteHash s key).entries = update s.entries .hash
        ((s.entries .hash).filter fun entry => entry.1 ≠ key) := rfl
    have hone : (deleteHash s key).size + 1 = s.size := by
      have hlen := length_filter_ne (s.unique .hash) hkey
      rw [OrderedStore.size_eq, OrderedStore.size_eq, hents, update_self,
        update_of_ne (by decide), update_of_ne (by decide),
        update_of_ne (by decide), update_of_ne (by decide)]
      omega
    have hstill : ∀ other ∈ rest, other ∈ (deleteHash s key).keys .hash := by
      intro other hoth
      obtain ⟨entry, hent, heq⟩ := mem_map.mp (hoths other hoth)
      refine mem_map.mpr ⟨entry, mem_filter.mpr ⟨hent, decide_eq_true ?_⟩, heq⟩
      rw [heq]
      exact fun hsame => hnew (hsame ▸ hoth)
    have hmany := ih hrest hstill
    rw [length_cons]
    change (deleteHashes (deleteHash s key) rest).size + _ = _
    omega

/-- **The positions**: no more is taken than counted exactly when no connection has more than one
beyond the newest. -/
theorem size_evictTerminalPositions :
    (evictTerminalPositions s).1.size + (evictTerminalPositions s).2 ≤ s.size ∧
      ((evictTerminalPositions s).1.size + (evictTerminalPositions s).2 = s.size ↔
        ∀ connection, (members terminalConnection connection (s.entries .hash)).length ≤
          maxTerminalPositions + 1) := by
  rw [evictTerminalPositions_eq, ← StreamedQueues.dropped_eq_nil_iff bounded_popOldest]
  change _ ∧ (_ ↔ (connectionsOf (s.entries .hash)).dropped = [])
  dsimp only
  -- The deleted keys are different keys of hashes.
  obtain ⟨chosen, hperm, hsub⟩ := positions_subperm (s.entries .hash)
  have hkeys := (hsub.trans (filter_sublist ..)).map Prod.fst
  have hdelet := hperm.map Prod.fst
  rw [map_append] at hdelet
  have hnodup := hdelet.nodup_iff.mp ((s.nodup_keys .hash).sublist hkeys)
  obtain ⟨hdropp, hsurp, hdisj⟩ := nodup_append.mp hnodup
  have hmem : ∀ key ∈ (connectionsOf (s.entries .hash)).dropped.map Prod.fst ++
      (surplusPositions (s.entries .hash)).map Prod.fst, key ∈ s.keys .hash := fun key hkey =>
    hkeys.subset (hdelet.mem_iff.mpr hkey)
  generalize (connectionsOf (s.entries .hash)).dropped = dropped at *
  have hfst := (size_deleteKeys (by decide) hdropp fun key hkey =>
    hmem key (mem_append_left _ hkey)).1
  have hleft : ∀ key ∈ (surplusPositions (s.entries .hash)).map Prod.fst,
      key ∈ (s.deleteKeys (dropped.map Prod.fst)).keys .hash := by
    intro key hkey
    rw [keys_deleteKeys (by decide)]
    exact mem_filter.mpr ⟨hmem key (mem_append_right _ hkey),
      decide_eq_true fun hdrop => hdisj key hdrop key hkey rfl⟩
  have hsec := size_deleteHashes hsurp hleft
  rw [length_map] at hfst hsec
  refine ⟨by omega, fun heq => length_eq_zero_iff.mp (by omega), fun hnil => ?_⟩
  rw [hnil] at hsec ⊢
  exact hsec

lemma keys_pruneSets (s : OrderedStore) (kind : KeyKind) :
    (pruneSets cap s).1.keys kind = s.keys kind := by
  rw [OrderedStore.keys, pruneSets]
  dsimp only
  by_cases hset : kind = .set
  · subst hset
    rw [update_self, map_map]
    rfl
  · rw [update_of_ne hset]
    rfl

lemma shrinks_pruneSets (s : OrderedStore) : s.Shrinks (pruneSets cap s).1 where
  entries kind hkind := by
    rw [pruneSets]
    dsimp only
    rw [update_of_ne hkind]
  sets := by
    rw [keys_pruneSets]
  members entry hent := by
    obtain ⟨old, hold, rfl⟩ := mem_map.mp hent
    exact ⟨old, hold, rfl, drop_sublist ..⟩

/-- **The sets**: their members are counted. -/
theorem size_pruneSets (s : OrderedStore) :
    (pruneSets cap s).1.size + (pruneSets cap s).2 = s.size := by
  have hsum : ∀ sets : List (String × List String),
      ((sets.map fun entry => (entry.1, entry.2.drop (prunedMembers cap entry))).map
          setWeight).sum + (sets.map (prunedMembers cap)).sum =
        (sets.map setWeight).sum := by
    intro sets
    induction sets with
    | nil => rfl
    | cons entry rest ih =>
      have hle : prunedMembers cap entry ≤ entry.2.length := by
        rw [prunedMembers]
        split
        · exact sub_le ..
        · exact zero_le _
      have hent : setWeight (entry.1, entry.2.drop (prunedMembers cap entry)) +
          prunedMembers cap entry = setWeight entry := by
        rw [setWeight, setWeight, length_drop]
        omega
      simp only [map_cons, sum_cons]
      omega
  have hsets := hsum (s.entries .set)
  rw [OrderedStore.size_eq, OrderedStore.size_eq]
  rw [add_assoc]
  exact congrArg _ hsets

end CtsEngine.KeyEviction
