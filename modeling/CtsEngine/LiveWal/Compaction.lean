import CtsEngine.LiveWal.WriteOrder

/-!
# Compaction and recovery

`compaction_preserves`: after a compaction the replay recovers the same hashes, mirrors and members
of the lists when, for every position that is restored, the latest line has the highest version.  A
compaction keeps the latest line of a position and a replay takes the one with the highest version.
-/

namespace CtsEngine.LiveWal

open List Keyed Checkpoint Double
open Keyed (IsLastMax firsts)

variable {store : RecoveredStore} {checkpoints : List Checkpoint} {torn : List Char}

/-! ## The property -/

/-- The newest checkpoints of the positions that are newer than their hashes. -/
def restored (store : RecoveredStore) (checkpoints : List Checkpoint) : List Checkpoint :=
  (newestCheckpoints rank checkpoints).filter (IsNewer store ·)

/-- Two stores with the same hashes and mirrors and the same members of the lists. -/
structure SameRecovery (s t : RecoveredStore) : Prop where
  hashes : s.hashes = t.hashes
  strings : s.strings = t.strings
  members : ∀ key id, id ∈ s.lists key ↔ id ∈ t.lists key

/-- The hash of every position is the newest of the snapshot and the file, by version and time. -/
def HoldsNewest (store recovered : RecoveredStore) (checkpoints : List Checkpoint) : Prop :=
  ∀ c ∈ checkpoints, ((∀ d ∈ checkpoints, d.key = c.key → ¬ IsNewer store d) ∧
      recovered.hashes (hashKey c.key) = store.hashes (hashKey c.key)) ∨
    ∃ d ∈ checkpoints, d.key = c.key ∧ IsNewer store d ∧
      (∀ e ∈ checkpoints, e.key = c.key → e.rank ≤ d.rank) ∧
        recovered.hashes (hashKey c.key) = some (normalizeRedisHash d.position)

/-- A compaction preserves what is recovered, which is the newest of the snapshot and the file. -/
def PreservesRecovery (store : RecoveredStore) (checkpoints : List Checkpoint)
    (torn : List Char) : Prop :=
  SameRecovery (replayLivePositionWal (compactedWal (walFile checkpoints torn)) store)
      (replayLivePositionWal (walFile checkpoints torn) store) ∧
    HoldsNewest store (replayLivePositionWal (walFile checkpoints torn) store) checkpoints

/-- The latest line of every position that is restored has the highest version. -/
def LatestIsHighest (store : RecoveredStore) (checkpoints : List Checkpoint) : Prop :=
  ∀ c ∈ restored store checkpoints, ∀ d,
    IsLastMax (·.updatedAt) (checkpoints.filter (·.key = c.key)) d → d.version = c.version

/-- Of the restored positions with one id, the last one of the file is later than the others. -/
def LastIsLatest (restored : List Checkpoint) : Prop :=
  ∀ before c after, restored = before ++ c :: after → (∀ d ∈ after, d.key.2 ≠ c.key.2) →
    ∀ d ∈ before, d.key.2 = c.key.2 → d.updatedAt < c.updatedAt

/-- A position of the connection that enters its closed list or leaves it. -/
def MovesClosed (store : RecoveredStore) (connection : String) (c : Checkpoint) : Prop :=
  c.key.1 = connection ∧
    (isTerminal c.position = true ∨ c.key.2 ∈ store.lists (closedIndexKey connection))

instance (store : RecoveredStore) (connection : String) (c : Checkpoint) :
    Decidable (MovesClosed store connection c) := inferInstanceAs (Decidable (_ ∧ _))

/-- The closed list of a connection has room for the restored positions, or it has no id twice and
none of a restored position that is open, or the positions that change it stand in the order of
their times. -/
def ClosedListFits (store : RecoveredStore) (restored : List Checkpoint) (connection : String) :
    Prop :=
  (store.lists (closedIndexKey connection)).length +
      (terminalOf (closedIndexKey connection) restored).length ≤ liveClosedIndexLimit ∨
    ((store.lists (closedIndexKey connection)).Nodup ∧
      ∀ c ∈ restored, c.key.1 = connection → isTerminal c.position = false →
        c.key.2 ∉ store.lists (closedIndexKey connection)) ∨
    (restored.filter (MovesClosed store connection ·)).Pairwise (·.updatedAt < ·.updatedAt)

/-- When a compaction preserves what is recovered. -/
structure Compactable (store : RecoveredStore) (checkpoints : List Checkpoint) : Prop where
  latest : LatestIsHighest store checkpoints
  ids : LastIsLatest (restored store checkpoints)
  closed : ∀ connection, ClosedListFits store (restored store checkpoints) connection

/-- The checkpoints that a compaction keeps. -/
def retainedCheckpoints (checkpoints : List Checkpoint) : List Checkpoint :=
  (((newestCheckpoints (·.updatedAt) checkpoints).mergeSort fun a b =>
    decide (b.updatedAt ≤ a.updatedAt)).take maxWalPositions).reverse

lemma retainedEntries_eq {raw : List Char} (h : entries raw = checkpoints.map entry) :
    retainedEntries raw = (retainedCheckpoints checkpoints).map entry := by
  have hsort := map_mergeSort (f := entry)
    (r := fun a b => decide (b.updatedAt ≤ a.updatedAt))
    (s := fun a b => le (entryUpdatedAt b) (entryUpdatedAt a))
    (l := newestCheckpoints (·.updatedAt) checkpoints) fun a _ b _ => by
      rw [a.entryUpdatedAt_entry, b.entryUpdatedAt_entry, le_finite]
  rw [retainedEntries, h, newestEntries_eq compactsOver_entry, ← hsort, retainedCheckpoints,
    map_reverse, map_take]

lemma retained_perm (h : (firsts key checkpoints).length ≤ maxWalPositions) :
    (retainedCheckpoints checkpoints).Perm (newestCheckpoints (·.updatedAt) checkpoints) := by
  rw [retainedCheckpoints, take_of_length_le]
  · exact (reverse_perm _).trans (mergeSort_perm _ _)
  · rw [length_mergeSort, newestCheckpoints, length_map]
    exact h

lemma pairwise_retained (checkpoints : List Checkpoint) :
    (retainedCheckpoints checkpoints).Pairwise fun a b => a.updatedAt ≤ b.updatedAt := by
  rw [retainedCheckpoints, pairwise_reverse]
  have hsort : ((newestCheckpoints (·.updatedAt) checkpoints).mergeSort fun a b =>
      decide (b.updatedAt ≤ a.updatedAt)).Pairwise fun a b =>
        decide (b.updatedAt ≤ a.updatedAt) = true := by
    refine pairwise_mergeSort (fun a b c hab hbc => ?_) (fun a b => ?_) _
    · exact decide_eq_true ((of_decide_eq_true hbc).trans (of_decide_eq_true hab))
    · simpa using le_total b.updatedAt a.updatedAt
  exact (hsort.sublist (take_sublist _ _)).imp fun h => of_decide_eq_true h

variable (store) (checkpoints)

lemma replay_walFile
    (htorn : IsTorn torn) :
    replayLivePositionWal (walFile checkpoints torn) store =
      writeAll store (restored store checkpoints) := by
  rw [replay_eq (entries_walFile checkpoints htorn), foldl_restoreEntry (nodup_newest _ _),
    restored]

lemma replay_compactedWal
    (htorn : IsTorn torn)
    (h : (firsts key checkpoints).length ≤ maxWalPositions) :
    replayLivePositionWal (compactedWal (walFile checkpoints torn)) store =
      writeAll store ((retainedCheckpoints checkpoints).filter (IsNewer store ·)) := by
  have hnodup : ((retainedCheckpoints checkpoints).map key).Nodup :=
    ((retained_perm h).map _).nodup_iff.mpr (nodup_newest _ _)
  have hents : entries (compactedWal (walFile checkpoints torn)) =
      (retainedCheckpoints checkpoints).map entry := by
    rw [compactedWal, retainedEntries_eq (entries_walFile checkpoints htorn)]
    have hexact : ∀ fields ∈ (retainedCheckpoints checkpoints).map entry,
        JsonText.Exact jsonNumbers (.object fields) := by
      intro fields hflds
      obtain ⟨c, -, rfl⟩ := mem_map.mp hflds
      exact c.exact_entry
    have hread := entries_framed hexact not_mem_nil rfl
    rwa [append_nil] at hread
  rw [replay_eq hents, newestCheckpoints_of_nodup hnodup, foldl_restoreEntry hnodup]

variable {checkpoints} {store}

/-! ## The restored checkpoints -/

variable {c d : Checkpoint} {x : Double}

lemma le_of_rank_le (h : c.rank ≤ d.rank) :
    c.version < d.version ∨ c.version = d.version ∧ c.updatedAt ≤ d.updatedAt :=
  Prod.Lex.toLex_le_toLex.mp h

lemma lt_of_le_of_lt {p q : ℚ} (h : p ≤ q) (hlt : lt (.finite q) x = true) :
    lt (.finite p) x = true := by
  cases x with
  | finite r => exact decide_eq_true (h.trans_lt (of_decide_eq_true hlt))
  | infinity negative => exact hlt
  | nan => cases hlt

lemma lt_of_lt_of_eq {p q : ℚ} (h : p < q) (heq : eq (.finite q) x = true) :
    lt (.finite p) x = true := by
  cases x with
  | finite r => exact decide_eq_true (h.trans_eq (of_decide_eq_true heq))
  | infinity negative => cases heq
  | nan => cases heq

lemma le_of_le_of_le {p q : ℚ} (h : p ≤ q) (hle : le (.finite q) x = true) :
    le (.finite p) x = true := by
  rw [le, Bool.or_eq_true] at hle ⊢
  rcases hle with hlt | heq
  · exact .inl (lt_of_le_of_lt h hlt)
  · rcases h.lt_or_eq with hpq | rfl
    · exact .inl (lt_of_lt_of_eq hpq heq)
    · exact .inr heq

lemma isNewer_of_rank_le (hkey : c.key = d.key) (hrank : c.rank ≤ d.rank) (h : IsNewer store c) :
    IsNewer store d := by
  by_contra hd
  have hstale : isStale store d.entry = true := by simpa [IsNewer] using hd
  refine Bool.false_ne_true (h.symm.trans ?_)
  rw [isStale, d.entryKey_entry, d.entryVersion_entry, d.entryUpdatedAt_entry] at hstale
  rw [isStale, c.entryKey_entry, c.entryVersion_entry, c.entryUpdatedAt_entry, hkey]
  cases hhash : store.hashes (hashKey d.key) with
  | none =>
    rw [hhash] at hstale
    cases hstale
  | some current =>
    rw [hhash] at hstale
    rw [Bool.or_eq_true, Bool.and_eq_true] at hstale ⊢
    rcases le_of_rank_le hrank with hver | ⟨hver, htime⟩
    · rcases hstale with hlt | ⟨heq, -⟩
      · exact .inl (lt_of_le_of_lt hver.le hlt)
      · exact .inl (lt_of_lt_of_eq hver heq)
    · rw [hver]
      exact hstale.imp_right (And.imp_right (le_of_le_of_le htime))

lemma eq_of_version_eq {lines : List Checkpoint} (hc : IsLastMax rank lines c)
    (hd : IsLastMax (·.updatedAt) lines d) (h : d.version = c.version) : c = d := by
  have htime : d.updatedAt = c.updatedAt := by
    refine le_antisymm ?_ (hd.le hc.mem)
    exact ((le_of_rank_le (hc.le hd.mem)).resolve_left h.not_lt).2
  have hrank : d.rank = c.rank := by rw [rank, rank, h, htime]
  refine hc.unique ?_
  obtain ⟨before, after, rfl, hbef, hafter⟩ := hd
  refine ⟨before, after, rfl, fun e he => ?_, fun e he => ?_⟩
  · rw [hrank]
    exact hc.le (mem_append_left _ he)
  · have hle := hc.le (mem_append_right _ (mem_cons_of_mem _ he))
    refine lt_of_le_of_ne (hrank ▸ hle) fun heq => (hafter e he).ne ?_
    exact (Prod.ext_iff.mp (toLex.injective heq)).2

lemma filter_map_congr {A B : Type} {p : B → Bool} {f g : A → B} {xs : List A}
    (h : ∀ x ∈ xs, (p (f x) = true → g x = f x) ∧ (p (f x) = false → p (g x) = false)) :
    (xs.map g).filter p = (xs.map f).filter p := by
  induction xs with
  | nil => rfl
  | cons x xs ih =>
    obtain ⟨htrue, hfalse⟩ := h x mem_cons_self
    have hrest := ih fun y hy => h y (mem_cons_of_mem _ hy)
    rw [map_cons, map_cons]
    cases hp : p (f x) with
    | true =>
      rw [htrue hp, filter_cons_of_pos hp, filter_cons_of_pos hp, hrest]
    | false =>
      rw [filter_cons_of_neg (by simp [hfalse hp]), filter_cons_of_neg (by simp [hp]), hrest]

lemma filter_newest_eq (h : LatestIsHighest store checkpoints) :
    (newestCheckpoints (·.updatedAt) checkpoints).filter (IsNewer store ·) =
      restored store checkpoints := by
  refine filter_map_congr fun y hy => ?_
  have hrank := isLastMax_collect (f := rank) hy
  have htime := isLastMax_collect (f := fun c : Checkpoint => c.updatedAt) hy
  have hmem : (checkpoints.filter (·.key = y.key)).foldl (later rank) y ∈
      newestCheckpoints rank checkpoints := mem_map_of_mem hy
  generalize (checkpoints.filter (·.key = y.key)).foldl (later rank) y = c at *
  generalize (checkpoints.filter (·.key = y.key)).foldl
    (later fun c : Checkpoint => c.updatedAt) y = d at *
  have hc : c.key = y.key := of_decide_eq_true (mem_filter.mp hrank.mem).2
  have hd : d.key = y.key := of_decide_eq_true (mem_filter.mp htime.mem).2
  constructor
  · intro hnewer
    have hrest : c ∈ restored store checkpoints := mem_filter.mpr ⟨hmem, hnewer⟩
    exact (eq_of_version_eq hrank htime (h c hrest d (hc ▸ htime))).symm
  · intro hold
    refine decide_eq_false fun hnewer => ?_
    refine of_decide_eq_false hold ?_
    exact isNewer_of_rank_le (hd.trans hc.symm) (hrank.le htime.mem) hnewer

variable (store) (checkpoints)

lemma nodup_restored :
    ((restored store checkpoints).map key).Nodup :=
  (nodup_newest _ _).sublist (filter_sublist.map _)

/-- **The newest.**  A replay leaves the newest of the snapshot and the file. -/
lemma holdsNewest_restored :
    HoldsNewest store (writeAll store (restored store checkpoints)) checkpoints := by
  intro c hc
  obtain ⟨d, hd, hkey⟩ := exists_newest rank hc
  have hmax := isLastMax_of_mem_newest hd
  have hle : ∀ e ∈ checkpoints, e.key = c.key → e.rank ≤ d.rank := fun e he heq =>
    hmax.le (mem_filter.mpr ⟨he, decide_eq_true (heq.trans hkey.symm)⟩)
  by_cases hnewer : IsNewer store d
  · have hrest : d ∈ restored store checkpoints := mem_filter.mpr ⟨hd, decide_eq_true hnewer⟩
    refine .inr ⟨d, mem_of_mem_newest hd, hkey, hnewer, hle, ?_⟩
    rw [← hkey]
    exact hashes_writeAll_of_mem store (nodup_restored store checkpoints) hrest
  · refine .inl ⟨fun e he heq hnewer' => hnewer ?_, ?_⟩
    · exact isNewer_of_rank_le (heq.trans hkey.symm) (hle e he heq) hnewer'
    · refine hashes_writeAll_of_not_mem store fun e he heq => hnewer ?_
      obtain ⟨hmem, hnewer'⟩ := mem_filter.mp he
      have hsame := eq_of_key (nodup_newest _ _) hmem hd (heq.trans hkey.symm)
      exact hsame ▸ of_decide_eq_true hnewer'

/-- The JSON mirror of a position. -/
def mirrorText (c : Checkpoint) : String :=
  String.ofList (stringify (.object (buildLivePositionCompatibilitySnapshot c.position)))

lemma strings_writeAll_apply
    (key : String) :
    (writeAll store checkpoints).strings key =
      ((checkpoints.filter (jsonKey ·.key.2 = key)).getLast?.map mirrorText).or
        (store.strings key) := by
  rw [strings_writeAll]
  induction checkpoints using reverseRecOn with
  | nil => rfl
  | append_singleton checkpoints c ih =>
    rw [foldl_append, foldl_cons, foldl_nil, filter_append]
    by_cases hkey : jsonKey c.key.2 = key
    · have hself : [c].filter (jsonKey ·.key.2 = key) = [c] := filter_cons_of_pos (by simp [hkey])
      rw [hkey, Function.update_self, hself, getLast?_concat]
      rfl
    · have hnone : [c].filter (jsonKey ·.key.2 = key) = [] := filter_cons_of_neg (by simp [hkey])
      rw [Function.update_of_ne (Ne.symm hkey), ih, hnone, append_nil]

variable {checkpoints} {store}

variable {first second : List Checkpoint}

lemma getLast?_filter_eq (hlast : LastIsLatest first)
    (hperm : second.Perm first) (hsort : second.Pairwise fun a b => a.updatedAt ≤ b.updatedAt)
    (key : String) :
    (second.filter (jsonKey ·.key.2 = key)).getLast? =
      (first.filter (jsonKey ·.key.2 = key)).getLast? := by
  have hperm' := hperm.filter (jsonKey ·.key.2 = key)
  have hsort' := hsort.sublist (filter_sublist (p := fun c => jsonKey c.key.2 = key))
  rcases eq_nil_or_concat' (first.filter (jsonKey ·.key.2 = key)) with
    hnil | ⟨before, c, hfst⟩
  · rw [hnil] at hperm' ⊢
    rw [hperm'.eq_nil]
  have hbef : ∀ d ∈ before, d.updatedAt < c.updatedAt := by
    obtain ⟨left, right, rfl, hleft, hright⟩ := filter_eq_append_iff.mp hfst
    obtain ⟨front, back, rfl, hfront, hc, hback⟩ := filter_eq_cons_iff.mp hright
    intro d hd
    rw [← hleft] at hd
    obtain ⟨hd, hkey⟩ := mem_filter.mp hd
    refine hlast (left ++ front) c back (by simp) (fun e he heq => ?_) d
      (mem_append_left _ hd) (jsonKey_inj ?_)
    · have hnone := filter_eq_nil_iff.mp hback e he
      exact hnone (decide_eq_true (heq ▸ of_decide_eq_true hc))
    · exact (of_decide_eq_true hkey).trans (of_decide_eq_true hc).symm
  rcases eq_nil_or_concat' (second.filter (jsonKey ·.key.2 = key)) with
    hnil | ⟨before', c', hsec⟩
  · rw [hnil, hfst] at hperm'
    exact absurd hperm'.nil_eq (by simp)
  rw [hfst, hsec] at hperm'
  rw [hsec] at hsort'
  rw [hfst, hsec, getLast?_concat, getLast?_concat, Option.some_inj]
  by_contra hne
  have hc' : c' ∈ before := by
    have hmem := hperm'.mem_iff.mp (mem_append_right before' mem_cons_self)
    exact (mem_append.mp hmem).resolve_right fun h => hne (mem_singleton.mp h)
  have hc : c ∈ before' := by
    have hmem := hperm'.mem_iff.mpr (mem_append_right before mem_cons_self)
    exact (mem_append.mp hmem).resolve_right fun h => hne (mem_singleton.mp h).symm
  have hle := (pairwise_append.mp hsort').2.2 c hc c' mem_cons_self
  exact absurd (hbef c' hc') (not_lt.mpr hle)

/-- Checkpoints sorted by time are those that stand in strict order of their times. -/
lemma eq_of_sorted (hperm : second.Perm first)
    (hsort : second.Pairwise fun a b => a.updatedAt ≤ b.updatedAt)
    (hstrict : first.Pairwise (·.updatedAt < ·.updatedAt)) : second = first := by
  have hnodup : (first.map (·.updatedAt)).Nodup := (pairwise_map.mpr hstrict).imp ne_of_lt
  exact hperm.eq_of_pairwise (fun a b ha hb hab hba =>
    inj_on_of_nodup_map hnodup (hperm.mem_iff.mp ha) hb (le_antisymm hab hba)) hsort
    (hstrict.imp le_of_lt)

/-- Positions that neither enter a closed list nor leave it do not change it. -/
lemma foldl_listAfter_filter {connection : String} {p : Checkpoint → Bool} {ids : List String}
    (hnodup : (checkpoints.map key).Nodup)
    (hskip : ∀ c ∈ checkpoints, p c = false → c.key.1 = connection →
      isTerminal c.position = false ∧ c.key.2 ∉ ids) :
    (checkpoints.filter p).foldl (listAfter (closedIndexKey connection)) ids =
      checkpoints.foldl (listAfter (closedIndexKey connection)) ids := by
  induction checkpoints generalizing ids with
  | nil => rfl
  | cons c checkpoints ih =>
    obtain ⟨hc, hrest⟩ := nodup_cons.mp hnodup
    have hnext : (checkpoints.filter p).foldl (listAfter (closedIndexKey connection))
          (listAfter (closedIndexKey connection) ids c) =
        checkpoints.foldl (listAfter (closedIndexKey connection))
          (listAfter (closedIndexKey connection) ids c) := by
      refine ih hrest fun d hd hp hconn => ?_
      obtain ⟨hopen, hnot⟩ := hskip d (mem_cons_of_mem _ hd) hp hconn
      refine ⟨hopen, fun hmem => ?_⟩
      rcases mem_listAfter_closed hmem with hmem | ⟨hkey, hid⟩
      · exact hnot hmem
      · exact hc (Prod.ext (hconn.trans hkey) hid ▸ mem_map_of_mem hd)
    rw [foldl_cons, ← hnext]
    cases hp : p c with
    | true => rw [filter_cons_of_pos hp, foldl_cons]
    | false =>
      rw [filter_cons_of_neg (by simp [hp]), listAfter_closed_of_skip]
      exact hskip c mem_cons_self hp

lemma mem_lists_writeAll_perm (hperm : second.Perm first)
    (hsort : second.Pairwise fun a b => a.updatedAt ≤ b.updatedAt)
    (hnodup : (first.map key).Nodup)
    (hfits : ∀ connection, ClosedListFits store first connection)
    (hlen : first.length ≤ liveClosedIndexLimit) (key id : String) :
    id ∈ (writeAll store second).lists key ↔ id ∈ (writeAll store first).lists key := by
  have hnodup' : (second.map Checkpoint.key).Nodup := (hperm.map _).nodup_iff.mpr hnodup
  have hterm : (terminalOf key second).Perm (terminalOf key first) := hperm.filter _
  rw [lists_writeAll, lists_writeAll]
  have hroom : ((∃ connection, key = closedIndexKey connection) →
      (store.lists key).length + (terminalOf key first).length ≤ liveClosedIndexLimit) →
        (id ∈ second.foldl (listAfter key) (store.lists key) ↔
          id ∈ first.foldl (listAfter key) (store.lists key)) := by
    intro hroom
    have hfst := setOf_mem_foldl_listAfter hroom
    rw [← hterm.length_eq] at hroom
    have hsec := setOf_mem_foldl_listAfter hroom
    rw [foldl_membersAfter_perm key hperm hnodup', ← hfst] at hsec
    exact Set.ext_iff.mp hsec id
  by_cases hclos : ∃ connection, key = closedIndexKey connection
  · obtain ⟨connection, rfl⟩ := hclos
    rcases hfits connection with hle | ⟨hids, hopen⟩ | hstrict
    · exact hroom fun _ => hle
    · rw [foldl_listAfter_closed hnodup hids hopen, foldl_listAfter_closed hnodup' hids
        fun c hc => hopen c (hperm.mem_iff.mp hc)]
      refine mem_closedAfter_perm ((reverse_perm _).trans
        ((hterm.map _).trans (reverse_perm _).symm)) ?_ _ id
      rw [length_reverse, length_map, hterm.length_eq]
      exact (length_filter_le _ _).trans hlen
    · have hskip : ∀ c : Checkpoint, decide (MovesClosed store connection c) = false →
          c.key.1 = connection → isTerminal c.position = false ∧
            c.key.2 ∉ store.lists (closedIndexKey connection) := fun c hc hconn => by
        have hnot := not_or.mp (not_and.mp (of_decide_eq_false hc) hconn)
        exact ⟨Bool.eq_false_of_not_eq_true hnot.1, hnot.2⟩
      rw [← foldl_listAfter_filter hnodup fun c _ => hskip c,
        ← foldl_listAfter_filter hnodup' fun c _ => hskip c,
        eq_of_sorted (hperm.filter _) (hsort.filter _) hstrict]
  · exact hroom fun h => absurd h hclos

/-! ## Versions of hashes -/

lemma get?_normalizeRedisHash (fields : Fields) (name : String) :
    get? (normalizeRedisHash fields) name = (jsField fields name).map redisHashScalar :=
  get?_map_value _ _ _

lemma currentNumber_normalizeRedisHash {fields : Fields} {name : String}
    (h : jsField fields name = some (.number x)) (hx : x.IsExact) :
    currentNumber (normalizeRedisHash fields) name = x := by
  have htext : String.ofList (doubleText x) ≠ "" := by
    intro hemp
    have hlist := congrArg String.toList hemp
    rw [String.toList_ofList] at hlist
    exact jsonNumbers.write_ne_nil hx hlist
  rw [currentNumber, get?_normalizeRedisHash, h]
  exact (if_neg htext).trans (numberOfString_doubleText hx)

variable (c)

lemma Checkpoint.isExact_version
    (h : jsField c.position "version" = some (.number x)) : x.IsExact :=
  exact_of_mem c.exact_position (mem_of_jsField h)

lemma currentNumber_version :
    currentNumber (normalizeRedisHash c.position) "version" = .finite c.version := by
  rcases c.version_eq with ⟨hnone, hzero⟩ | hsome
  · rw [currentNumber, get?_normalizeRedisHash, hnone, hzero]
    rfl
  · exact currentNumber_normalizeRedisHash hsome (c.isExact_version hsome)

lemma currentNumber_updatedAt :
    currentNumber (normalizeRedisHash c.position) "updatedAt" = .finite c.updatedAt :=
  currentNumber_normalizeRedisHash c.updatedAt_eq
    (exact_of_mem c.exact_position (mem_of_jsField c.updatedAt_eq))

variable {c}

lemma version_eq_of_hash_eq (h : normalizeRedisHash c.position = normalizeRedisHash d.position) :
    c.version = d.version := by
  have hver := currentNumber_version c
  rw [h, currentNumber_version d] at hver
  exact (finite.inj hver).symm

lemma not_isNewer_of_hash_eq
    (h : store.hashes (hashKey c.key) = some (normalizeRedisHash c.position)) :
    ¬ IsNewer store c := by
  intro hnewer
  rw [IsNewer, isStale, c.entryKey_entry, h] at hnewer
  dsimp only at hnewer
  rw [currentNumber_version, currentNumber_updatedAt, c.entryVersion_entry,
    c.entryUpdatedAt_entry, le_finite] at hnewer
  have heq : eq (.finite c.version) (.finite c.version) = true := decide_eq_true rfl
  rw [heq, decide_eq_true le_rfl, Bool.and_self, Bool.or_true] at hnewer
  cases hnewer

lemma latestIsHighest_of_hashes_eq
    (hlen : (firsts key checkpoints).length ≤ maxWalPositions)
    (h : (writeAll store ((retainedCheckpoints checkpoints).filter (IsNewer store ·))).hashes =
      (writeAll store (restored store checkpoints)).hashes) :
        LatestIsHighest store checkpoints := by
  intro c hc d hd
  have hmem : c ∈ checkpoints := mem_of_mem_newest (mem_of_mem_filter hc)
  have hkey : d.key = c.key := of_decide_eq_true (mem_filter.mp hd.mem).2
  have hnodup : (((retainedCheckpoints checkpoints).filter (IsNewer store ·)).map
      key).Nodup :=
    (((retained_perm hlen).map _).nodup_iff.mpr (nodup_newest _ _)).sublist (filter_sublist.map _)
  have hret : d ∈ retainedCheckpoints checkpoints := by
    obtain ⟨e, he, heq⟩ := exists_newest (fun c : Checkpoint => c.updatedAt) hmem
    have hmax := isLastMax_of_mem_newest he
    rw [heq] at hmax
    exact (retained_perm hlen).mem_iff.mpr (hd.unique hmax ▸ he)
  have hhash := congrFun h (hashKey c.key)
  rw [hashes_writeAll_of_mem store (nodup_restored store checkpoints) hc] at hhash
  by_cases hnewer : IsNewer store d
  · have hwrote : d ∈ (retainedCheckpoints checkpoints).filter (IsNewer store ·) :=
      mem_filter.mpr ⟨hret, decide_eq_true hnewer⟩
    rw [← hkey, hashes_writeAll_of_mem store hnodup hwrote, Option.some_inj] at hhash
    exact version_eq_of_hash_eq hhash
  · rw [hashes_writeAll_of_not_mem store] at hhash
    · exact absurd (of_decide_eq_true (mem_filter.mp hc).2) (not_isNewer_of_hash_eq hhash)
    · intro e he heq
      obtain ⟨he, hnewer'⟩ := mem_filter.mp he
      have hsame := eq_of_key (((retained_perm hlen).map _).nodup_iff.mpr (nodup_newest _ _)) he
        hret (heq.trans hkey.symm)
      exact hnewer (hsame ▸ of_decide_eq_true hnewer')

/-- **Compaction.**  After a compaction a replay recovers the same, when the latest line of every
restored position has the highest version, and the order of the positions shows neither in a mirror
of two of them nor in a closed list that is cut. -/
theorem compaction_preserves (store : RecoveredStore) (htorn : IsTorn torn)
    (hlength : (firsts key checkpoints).length ≤ maxWalPositions) :
    (Compactable store checkpoints → PreservesRecovery store checkpoints torn) ∧
      (PreservesRecovery store checkpoints torn → LatestIsHighest store checkpoints) := by
  rw [PreservesRecovery, replay_walFile store checkpoints htorn,
    replay_compactedWal store checkpoints htorn hlength]
  constructor
  · intro h
    have hperm : ((retainedCheckpoints checkpoints).filter (IsNewer store ·)).Perm
        (restored store checkpoints) :=
      filter_newest_eq h.latest ▸ (retained_perm hlength).filter _
    have hsorted := (pairwise_retained checkpoints).sublist
      (filter_sublist (p := fun c => decide (IsNewer store c)))
    have hnodup := nodup_restored store checkpoints
    have hrestored : (restored store checkpoints).length ≤ liveClosedIndexLimit := by
      refine (length_filter_le _ _).trans (le_trans ?_ (by decide : maxWalPositions ≤ _))
      rwa [newestCheckpoints, length_map]
    refine ⟨⟨?_, ?_, ?_⟩, holdsNewest_restored store checkpoints⟩
    · rw [hashes_writeAll, hashes_writeAll]
      refine (foldl_update_perm _ _ hperm.symm (fun c hc d hd heq => ?_) _).symm
      exact eq_of_key hnodup hc hd (hashKey_inj heq)
    · funext key
      rw [strings_writeAll_apply, strings_writeAll_apply, getLast?_filter_eq h.ids hperm hsorted]
    · exact mem_lists_writeAll_perm hperm hsorted hnodup h.closed hrestored
  · exact fun h => latestIsHighest_of_hashes_eq hlength h.1.hashes

/-! ## Samples -/

/-- A position with a version and a time. -/
def sampleFields (version updatedAt : ℚ) : Fields :=
  [("id", .text "p"), ("connectionId", .text "c"), ("version", .number (.finite version)),
    ("updatedAt", .number (.finite updatedAt))]

lemma idText_sampleFields (version updatedAt : ℚ) :
    idText [jsField (sampleFields version updatedAt) "connectionId",
        jsField (sampleFields version updatedAt) "connection_id"] = "c" ∧
      idText [jsField (sampleFields version updatedAt) "id"] = "p" := by
  exact ⟨idText_text (by decide) (by decide +kernel) _,
    idText_text (by decide) (by decide +kernel) _⟩

/-- A checkpoint of the position with a version and a time. -/
def sampleCheckpoint (version updatedAt : ℚ) (hversion : Double.IsExact (.finite version))
    (hupdatedAt : Double.IsExact (.finite updatedAt)) (hne : updatedAt ≠ 0) : Checkpoint where
  savedAt := .finite updatedAt
  position := sampleFields version updatedAt
  version := version
  updatedAt := updatedAt
  exact_savedAt := hupdatedAt
  exact_position := ⟨trivial, trivial, hversion, hupdatedAt, trivial⟩
  version_eq := .inr (by simp [sampleFields, jsField, jsObject, put, get?])
  updatedAt_eq := by simp [sampleFields, jsField, jsObject, put, get?]
  updatedAt_ne := hne
  connectionId_ne := by
    rw [(idText_sampleFields version updatedAt).1]
    decide
  connectionId_colon := by
    rw [(idText_sampleFields version updatedAt).1]
    decide
  positionId_ne := by
    rw [(idText_sampleFields version updatedAt).2]
    decide

/-- The first version, saved at the time 20. -/
def firstVersion : Checkpoint :=
  sampleCheckpoint 1 20 ⟨1, rfl, by decide +kernel⟩ ⟨20, rfl, by decide +kernel⟩ (by decide)

/-- The second version, saved at the time 10. -/
def secondVersion : Checkpoint :=
  sampleCheckpoint 2 10 ⟨2, rfl, by decide +kernel⟩ ⟨10, rfl, by decide +kernel⟩ (by decide)

/-- The third version, saved at the time 30. -/
def thirdVersion : Checkpoint :=
  sampleCheckpoint 3 30 ⟨3, rfl, by decide +kernel⟩ ⟨30, rfl, by decide +kernel⟩ (by decide)

/-- A store with nothing in it. -/
def emptyStore : RecoveredStore := ⟨fun _ => none, fun _ => none, fun _ => []⟩

lemma isTorn_nil : IsTorn [] := ⟨secondVersion, 0, by decide +kernel, rfl⟩

lemma length_firsts_le_one {key : String × String} (h : ∀ c ∈ checkpoints, c.key = key) :
    (firsts Checkpoint.key checkpoints).length ≤ 1 := by
  obtain ⟨hmem, hnodup, -⟩ := firsts_spec Checkpoint.key checkpoints
  have hall : (firsts Checkpoint.key checkpoints).map Checkpoint.key =
      replicate (firsts Checkpoint.key checkpoints).length key := by
    refine eq_replicate_iff.mpr ⟨length_map _, fun k hk => ?_⟩
    obtain ⟨c, hc, rfl⟩ := mem_map.mp hk
    exact h c (hmem c hc)
  rw [hall] at hnodup
  exact nodup_replicate.mp hnodup

lemma length_le_utf8Bytes_walFile (checkpoints : List Checkpoint) (torn : List Char) :
    checkpoints.length ≤ utf8Bytes (walFile checkpoints torn) := by
  induction checkpoints with
  | nil => exact Nat.zero_le _
  | cons c checkpoints ih =>
    have hcons : walFile (c :: checkpoints) torn = c.line ++ '\n' :: walFile checkpoints torn := by
      simp [walFile, framed]
    rw [hcons, utf8Bytes, map_append, sum_append, map_cons, sum_cons,
      ← utf8Bytes, ← utf8Bytes, length_cons]
    have hsize : Char.utf8Size '\n' = 1 := rfl
    omega

/-- The lines of a second version, and then the first version at a later time. -/
def rewoundLines (n : ℕ) : List Checkpoint := replicate n secondVersion ++ [firstVersion]

lemma key_of_mem_rewoundLines {n : ℕ} (hc : c ∈ rewoundLines n) : c.key = secondVersion.key := by
  rcases mem_append.mp hc with hc | hc
  · rw [eq_of_mem_replicate hc]
  · rw [mem_singleton.mp hc]
    rfl

lemma not_latestIsHighest_rewoundLines {n : ℕ} (hn : n ≠ 0) :
    ¬ LatestIsHighest emptyStore (rewoundLines n) := by
  intro h
  have hmem : secondVersion ∈ rewoundLines n := mem_append_left _ (mem_replicate.mpr ⟨hn, rfl⟩)
  obtain ⟨c, hc, hkey⟩ := exists_newest rank hmem
  have hfilt : (rewoundLines n).filter (·.key = c.key) = rewoundLines n :=
    filter_eq_self.mpr fun d hd =>
      decide_eq_true ((key_of_mem_rewoundLines hd).trans hkey.symm)
  have hmax := isLastMax_of_mem_newest hc
  rw [hfilt] at hmax
  have hsec : c = secondVersion := by
    rcases mem_append.mp hmax.mem with hc | hc
    · exact eq_of_mem_replicate hc
    · have hle := hmax.le hmem
      rw [mem_singleton.mp hc] at hle
      exact absurd hle (by decide +kernel)
  have hrest : c ∈ restored emptyStore (rewoundLines n) := mem_filter.mpr ⟨hc, rfl⟩
  have hlates : IsLastMax (fun c : Checkpoint => c.updatedAt)
      ((rewoundLines n).filter (·.key = c.key)) firstVersion := by
    rw [hfilt]
    refine ⟨_, [], rfl, fun d hd => ?_, forall_mem_nil _⟩
    rw [eq_of_mem_replicate hd]
    decide +kernel
  have hver := h c hrest firstVersion hlates
  rw [hsec] at hver
  exact absurd hver (by decide +kernel)

/-- The file of a counterexample: it is too long, so that a compaction rewrites it. -/
def rewoundWal : List Char := walFile (rewoundLines 33554432) []

/-- **An older version.**  A compaction keeps the first version of the position, since it was saved
later, and the replay recovers it in the place of the second. -/
theorem compaction_olderVersion : maxWalBytes < utf8Bytes rewoundWal ∧
      ¬ SameRecovery (replayLivePositionWal (compactLivePositionWalIfNeeded rewoundWal) emptyStore)
        (replayLivePositionWal rewoundWal emptyStore) := by
  have hlong : ∀ n, maxWalBytes ≤ n → maxWalBytes < utf8Bytes (walFile (rewoundLines n) []) ∧
      ¬ SameRecovery (replayLivePositionWal
          (compactLivePositionWalIfNeeded (walFile (rewoundLines n) [])) emptyStore)
        (replayLivePositionWal (walFile (rewoundLines n) []) emptyStore) := by
    intro n hn
    have hbytes : maxWalBytes < utf8Bytes (walFile (rewoundLines n) []) := by
      refine lt_of_lt_of_le (Nat.lt_succ_of_le hn) (le_trans (le_of_eq ?_)
        (length_le_utf8Bytes_walFile _ _))
      rw [rewoundLines, length_append, length_replicate]
      rfl
    have hlength : (firsts Checkpoint.key (rewoundLines n)).length ≤ maxWalPositions :=
      (length_firsts_le_one fun c => key_of_mem_rewoundLines).trans (by decide)
    refine ⟨hbytes, fun hsame => ?_⟩
    rw [compactLivePositionWalIfNeeded, if_neg hbytes.not_ge,
      replay_walFile _ _ isTorn_nil, replay_compactedWal _ _ isTorn_nil hlength] at hsame
    refine not_latestIsHighest_rewoundLines ?_ (latestIsHighest_of_hashes_eq hlength hsame.hashes)
    exact Nat.ne_of_gt (lt_of_lt_of_le (by decide) hn)
  exact hlong 33554432 (by decide)

/-- A second version and then a third. -/
theorem compaction_thirdVersion :
    PreservesRecovery emptyStore [secondVersion, thirdVersion] [] := by
  have hrestored : restored emptyStore [secondVersion, thirdVersion] = [thirdVersion] := by
    rfl
  have hlength : (firsts key [secondVersion, thirdVersion]).length ≤
    maxWalPositions := by decide +kernel
  refine (compaction_preserves emptyStore isTorn_nil hlength).1 ⟨?_, ?_, fun connection => ?_⟩
  · intro c hc d hd
    rw [hrestored] at hc
    obtain rfl := mem_singleton.mp hc
    rcases mem_cons.mp hd.mem with rfl | hd'
    · have hle := hd.le (mem_cons_of_mem _ mem_cons_self)
      exact absurd hle (by decide +kernel)
    · rw [mem_singleton.mp hd']
  · intro before c after h _ d hd
    cases before with
    | nil => cases hd
    | cons e before =>
      exact absurd (List.cons.inj h).2.symm (append_ne_nil_of_right_ne_nil _ (cons_ne_nil _ _))
  · refine .inl (le_trans ?_ (by decide : 1 ≤ liveClosedIndexLimit))
    exact (Nat.zero_add _).trans_le (length_filter_le _ _)

end CtsEngine.LiveWal
