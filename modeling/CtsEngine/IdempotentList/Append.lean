import Mathlib.Data.List.Dedup
import Mathlib.Data.List.Sort
import Mathlib.Data.Rat.Floor

/-!
# Appending a batch to a bounded list exactly once

`appendUniqueListEntries` of `lib/redis-idempotent-list.ts`.  A batch is pushed to a list that keeps
its newest entries, and a marker records that the batch is complete.  Over the network one script
does everything; a client without scripts reads the list and the marker and then sends the commands
of a pipeline, one after another, each of which can be the last one that is performed.
-/

namespace CtsEngine

open List Prod

/-! ## The list and its marker -/

/-- The list of entries, newest first, and the value of the completion marker of the batch. -/
structure MarkedList where
  list : List String
  marker : Option String
  deriving DecidableEq

/-- `LPUSH` of several entries: each of them is pushed in front of what is there. -/
def lpush (list entries : List String) : List String := entries.reverse ++ list

/-- `Math.max(1, Math.floor(maxEntries))`. -/
def boundedMax (maxEntries : ℚ) : ℕ := max 1 ⌊maxEntries⌋.toNat

/-- The entries of a batch that are not among the persisted ones, each once, with their places. -/
def acceptEntries (persisted : List String) : ℕ → List String → List (ℕ × String)
  | _, [] => []
  | index, entry :: entries =>
    if entry ∈ persisted then acceptEntries persisted (index + 1) entries
    else (index, entry) :: acceptEntries (entry :: persisted) (index + 1) entries

/-- `normalizeAcceptedIndexes`: the places count from one in the reply. -/
def normalizeAcceptedIndexes (value : List ℕ) (entryCount : ℕ) : List ℕ :=
  (((value.filter fun oneBased => 1 ≤ oneBased ∧ oneBased - 1 < entryCount).map
    (· - 1)).dedup).mergeSort

/-- The pushes of the script, `chunk` entries at a time. -/
def pushChunks (chunk : ℕ) (list entries : List String) : List String :=
  (List.range ((entries.length + chunk - 1) / chunk)).foldl
    (fun list first => lpush list ((entries.drop (chunk * first)).take chunk)) list

/-- `APPEND_UNIQUE_LIST_ENTRIES_LUA`: the list and marker after it, and the accepted places. -/
def appendUniqueScript (maxEntries : ℕ) (entries : List String) (stored : MarkedList) :
    MarkedList × List ℕ :=
  if stored.marker.isSome then (stored, [])
  else
    let accepted := acceptEntries stored.list 1 entries
    let list := if accepted = [] then stored.list
      else (pushChunks 1000 stored.list (accepted.map snd)).take maxEntries
    (⟨list, some "1"⟩, accepted.map fst)

/-- One call over the network, for a batch that is not empty. -/
def appendOverNetwork (maxEntries : ℚ) (entries : List String) (stored : MarkedList) :
    MarkedList × List ℕ :=
  if entries = [] then (stored, [])
  else
    let (after, value) := appendUniqueScript (boundedMax maxEntries) entries stored
    (after, normalizeAcceptedIndexes value entries.length)

/-- The commands of the pipeline. -/
inductive AppendCommand
  | lpush (entries : List String)
  | ltrim (stop : ℕ)
  | setMarker

/-- The effect of a command; `LTRIM key 0 stop` keeps the place `stop`. -/
def AppendCommand.perform (stored : MarkedList) : AppendCommand → MarkedList
  | .lpush entries => { stored with list := CtsEngine.lpush stored.list entries }
  | .ltrim stop => { stored with list := stored.list.take (stop + 1) }
  | .setMarker => { stored with marker := some "1" }

/-- The marker is truthy. -/
def MarkedList.isMarked (stored : MarkedList) : Bool := stored.marker.any (· ≠ "")

/-- The pipeline that an attempt sends after it has read the list and the marker. -/
def appendCommands (maxEntries : ℚ) (entries : List String) (stored : MarkedList) :
    List AppendCommand :=
  if entries = [] ∨ stored.isMarked = true then []
  else
    let accepted := acceptEntries stored.list 0 entries
    (if accepted = [] then []
      else [.lpush (accepted.map snd), .ltrim (boundedMax maxEntries - 1)]) ++ [.setMarker]

/-- An attempt that is interrupted after some of its commands. -/
def interruptedAppend (maxEntries : ℚ) (entries : List String) (stored : MarkedList)
    (commands : ℕ) : MarkedList :=
  ((appendCommands maxEntries entries stored).take commands).foldl AppendCommand.perform stored

/-- An attempt that is not interrupted, and what it returns. -/
def appendLocally (maxEntries : ℚ) (entries : List String) (stored : MarkedList) :
    MarkedList × List ℕ :=
  ((appendCommands maxEntries entries stored).foldl AppendCommand.perform stored,
    if entries = [] ∨ stored.isMarked = true then []
    else (acceptEntries stored.list 0 entries).map fst)

/-! ## What is accepted -/

lemma lpush_append (list entries more : List String) :
    lpush list (entries ++ more) = lpush (lpush list entries) more := by
  simp [lpush]

lemma pushChunks_eq {chunk : ℕ} (hchunk : 0 < chunk) (list entries : List String) :
    pushChunks chunk list entries = lpush list entries := by
  have hloop : ∀ k, (List.range k).foldl
      (fun list first => lpush list ((entries.drop (chunk * first)).take chunk)) list =
        lpush list (entries.take (chunk * k)) := by
    intro k
    induction k with
    | zero => simp [lpush]
    | succ k ih =>
      rw [range_succ, foldl_append, ih, foldl_cons, foldl_nil, ← lpush_append,
        Nat.mul_succ, take_add]
  have hcover : entries.length ≤ chunk * ((entries.length + chunk - 1) / chunk) := by
    have hdiv := Nat.div_add_mod (entries.length + chunk - 1) chunk
    have hmod := Nat.mod_lt (entries.length + chunk - 1) hchunk
    omega
  rw [pushChunks, hloop, take_of_length_le hcover]

/-- The entries of a batch that are accepted. -/
def acceptedEntries (persisted entries : List String) : List String :=
  (acceptEntries persisted 0 entries).map snd

lemma acceptEntries_map_snd (persisted entries : List String) (index other : ℕ) :
    (acceptEntries persisted index entries).map snd =
      (acceptEntries persisted other entries).map snd := by
  induction entries generalizing persisted index other with
  | nil => rfl
  | cons entry entries ih =>
    unfold acceptEntries
    split
    · exact ih ..
    · rw [map_cons, map_cons, ih]

lemma mem_acceptedEntries {persisted entries : List String} {entry : String} :
    entry ∈ acceptedEntries persisted entries ↔ entry ∈ entries ∧ entry ∉ persisted := by
  unfold acceptedEntries
  generalize 0 = index
  induction entries generalizing persisted index with
  | nil => simp [acceptEntries]
  | cons other entries ih =>
    unfold acceptEntries
    split
    · next hmem =>
      rw [ih, mem_cons]
      constructor
      · exact fun ⟨hin, hno⟩ => ⟨.inr hin, hno⟩
      · rintro ⟨rfl | hin, hno⟩
        · exact absurd hmem hno
        · exact ⟨hin, hno⟩
    · next hnew =>
      rw [map_cons, mem_cons, ih]
      by_cases heq : entry = other
      · simp [heq, hnew]
      · simp [heq]

lemma acceptedEntries_eq_nil {persisted entries : List String} :
    acceptedEntries persisted entries = [] ↔ ∀ entry ∈ entries, entry ∈ persisted := by
  rw [eq_nil_iff_forall_not_mem]
  simp only [mem_acceptedEntries, not_and, not_not]

/-- The list after an attempt that finds no marker. -/
def appendedList (maxEntries : ℚ) (entries list : List String) : List String :=
  if acceptedEntries list entries = [] then list
  else (lpush list (acceptedEntries list entries)).take (boundedMax maxEntries)

section Attempts

variable {maxEntries : ℚ} {entries : List String} {stored : MarkedList}

lemma acceptEntries_eq_nil (index : ℕ) :
    acceptEntries stored.list index entries = [] ↔ acceptedEntries stored.list entries = [] := by
  rw [acceptedEntries, acceptEntries_map_snd _ _ 0 index, map_eq_nil_iff]

lemma appendCommands_of_marked (h : stored.isMarked = true) :
    appendCommands maxEntries entries stored = [] := if_pos (.inr h)

lemma appendCommands_of_unmarked (hents : entries ≠ []) (h : stored.isMarked = false) :
    appendCommands maxEntries entries stored = (if acceptedEntries stored.list entries = [] then []
        else [.lpush (acceptedEntries stored.list entries), .ltrim (boundedMax maxEntries - 1)]) ++
      [.setMarker] := by
  unfold appendCommands
  rw [if_neg (by simp [hents, h])]
  simp only [acceptEntries_eq_nil]
  rfl

lemma boundedMax_pos (maxEntries : ℚ) : 0 < boundedMax maxEntries := by
  unfold boundedMax
  omega

lemma appendLocally_of_unmarked (hents : entries ≠ []) (h : stored.isMarked = false) :
    (appendLocally maxEntries entries stored).1 =
      ⟨appendedList maxEntries entries stored.list, some "1"⟩ := by
  have hbd : boundedMax maxEntries - 1 + 1 = boundedMax maxEntries :=
    Nat.sub_add_cancel (boundedMax_pos maxEntries)
  unfold appendLocally appendedList
  rw [appendCommands_of_unmarked hents h]
  split
  · rfl
  · simp [AppendCommand.perform, hbd]

lemma appendOverNetwork_of_unmarked (hents : entries ≠ []) (h : stored.marker = none) :
    (appendOverNetwork maxEntries entries stored).1 =
      ⟨appendedList maxEntries entries stored.list, some "1"⟩ := by
  unfold appendOverNetwork appendUniqueScript appendedList
  rw [if_neg hents, if_neg (by simp [h])]
  simp only [acceptEntries_eq_nil, pushChunks_eq (Nat.succ_pos 999),
    acceptEntries_map_snd stored.list entries 1 0]
  rfl

lemma appendOverNetwork_of_marked (h : stored.marker.isSome = true) :
    (appendOverNetwork maxEntries entries stored).1 = stored := by
  unfold appendOverNetwork appendUniqueScript
  split
  · rfl
  · rfl

end Attempts

/-! ## Retries -/

/-- Attempts on the local path until one is complete; `stops` says after how many commands each of
the others is interrupted. -/
def retriedLocally (maxEntries : ℚ) (entries : List String) (stored : MarkedList)
    (stops : List ℕ) : MarkedList :=
  (appendLocally maxEntries entries (stops.foldl (interruptedAppend maxEntries entries) stored)).1

/-- Calls over the network until one is answered; `performed` says of each of the others whether
the script ran. -/
def retriedOverNetwork (maxEntries : ℚ) (entries : List String) (stored : MarkedList)
    (performed : List Bool) : MarkedList :=
  (appendOverNetwork maxEntries entries (performed.foldl (fun stored ran =>
    if ran then (appendOverNetwork maxEntries entries stored).1 else stored) stored)).1

/-- Retries leave what one attempt leaves, and the two paths leave the same list. -/
structure AppendsOnce (maxEntries : ℚ) (entries : List String) (stored : MarkedList) : Prop where
  locally : ∀ stops, retriedLocally maxEntries entries stored stops =
    (appendLocally maxEntries entries stored).1
  overNetwork : ∀ performed, retriedOverNetwork maxEntries entries stored performed =
    (appendOverNetwork maxEntries entries stored).1
  agree : (appendLocally maxEntries entries stored).1.list =
    (appendOverNetwork maxEntries entries stored).1.list

/-- The batch is marked as complete, or it adds nothing to the list, or it fits on it. -/
def BatchFits (maxEntries : ℚ) (entries : List String) (stored : MarkedList) : Prop :=
  stored.isMarked = true ∨ acceptedEntries stored.list entries = [] ∨ stored.marker = none ∧
      (acceptedEntries stored.list entries).length + stored.list.length ≤ boundedMax maxEntries

section Retries

variable {maxEntries : ℚ} {entries : List String} {stored : MarkedList}

lemma appendLocally_of_marked (h : stored.isMarked = true) :
    (appendLocally maxEntries entries stored).1 = stored := by
  unfold appendLocally
  rw [appendCommands_of_marked h]
  rfl

lemma interruptedAppend_of_marked (h : stored.isMarked = true) (commands : ℕ) :
    interruptedAppend maxEntries entries stored commands = stored := by
  unfold interruptedAppend
  rw [appendCommands_of_marked h, take_nil, foldl_nil]

/-- A call over the network that was performed before changes nothing. -/
lemma appendOverNetwork_twice :
    (appendOverNetwork maxEntries entries (appendOverNetwork maxEntries entries stored).1).1 =
      (appendOverNetwork maxEntries entries stored).1 := by
  by_cases hents : entries = []
  · simp [appendOverNetwork, hents]
  cases hmark : stored.marker with
  | some value =>
    have hsome : stored.marker.isSome = true := by rw [hmark]; rfl
    rw [appendOverNetwork_of_marked hsome, appendOverNetwork_of_marked hsome]
  | none =>
    rw [appendOverNetwork_of_unmarked hents hmark]
    exact appendOverNetwork_of_marked rfl

lemma retriedOverNetwork_eq (performed : List Bool) :
    retriedOverNetwork maxEntries entries stored performed =
      (appendOverNetwork maxEntries entries stored).1 := by
  unfold retriedOverNetwork
  induction performed generalizing stored with
  | nil => rfl
  | cons ran performed ih =>
    rw [foldl_cons, ih]
    cases ran with
    | false => rfl
    | true => exact appendOverNetwork_twice

/-- What an attempt may leave of a batch that fits: nothing, all of it without the marker, or all
of it. -/
def Partly (entries : List String) (stored t : MarkedList) : Prop :=
  t = stored ∨ t = ⟨lpush stored.list (acceptedEntries stored.list entries), stored.marker⟩ ∨
    t = ⟨lpush stored.list (acceptedEntries stored.list entries), some "1"⟩

lemma appendedList_of_fits (h : acceptedEntries stored.list entries = [] ∨
    (acceptedEntries stored.list entries).length + stored.list.length ≤ boundedMax maxEntries) :
    appendedList maxEntries entries stored.list =
      lpush stored.list (acceptedEntries stored.list entries) := by
  unfold appendedList
  split
  · next hnil => rw [hnil]; rfl
  · next hne =>
    have hle := h.resolve_left hne
    simpa [lpush] using hle

lemma acceptedEntries_lpush (list entries : List String) :
    acceptedEntries (lpush list (acceptedEntries list entries)) entries = [] := by
  rw [acceptedEntries_eq_nil]
  intro entry hent
  by_cases hmem : entry ∈ list
  · exact mem_append_right _ hmem
  · exact mem_append_left _ (mem_reverse.mpr (mem_acceptedEntries.mpr ⟨hent, hmem⟩))

/-- The list after the push, still without the marker. -/
def pushed (entries : List String) (stored : MarkedList) : MarkedList :=
  ⟨lpush stored.list (acceptedEntries stored.list entries), stored.marker⟩

lemma acceptedEntries_pushed : acceptedEntries (pushed entries stored).list entries = [] :=
  acceptedEntries_lpush ..

section

variable (hents : entries ≠ []) (h : stored.isMarked = false)

include hents h

/-- The retry after a push finds nothing to push, and does not trim. -/
lemma appendLocally_pushed : (appendLocally maxEntries entries (pushed entries stored)).1 =
      ⟨lpush stored.list (acceptedEntries stored.list entries), some "1"⟩ := by
  have hmark : (pushed entries stored).isMarked = false := h
  rw [appendLocally_of_unmarked hents hmark, appendedList, if_pos acceptedEntries_pushed]
  rfl

lemma interruptedAppend_of_nothing (hnone : acceptedEntries stored.list entries = [])
    (commands : ℕ) :
    interruptedAppend maxEntries entries stored commands = stored ∨
      interruptedAppend maxEntries entries stored commands = ⟨stored.list, some "1"⟩ := by
  unfold interruptedAppend
  rw [appendCommands_of_unmarked hents h, if_pos hnone]
  cases commands with
  | zero => exact .inl rfl
  | succ commands => exact .inr (by simp [AppendCommand.perform])

section

variable
  (hfits : acceptedEntries stored.list entries = [] ∨
    (acceptedEntries stored.list entries).length + stored.list.length ≤ boundedMax maxEntries)
  {t : MarkedList} (ht : Partly entries stored t)

include hfits ht

lemma Partly.interrupted (commands : ℕ) :
    Partly entries stored (interruptedAppend maxEntries entries t commands) := by
  rcases ht with rfl | rfl | rfl
  · by_cases hnone : acceptedEntries t.list entries = []
    · have hsame : lpush t.list (acceptedEntries t.list entries) = t.list := by
        rw [hnone]
        rfl
      rw [Partly, hsame]
      exact (interruptedAppend_of_nothing hents h hnone commands).imp_right .inr
    · have htrim : (lpush t.list (acceptedEntries t.list entries)).take
          (boundedMax maxEntries - 1 + 1) = lpush t.list (acceptedEntries t.list entries) := by
        refine take_of_length_le ?_
        have hle := hfits.resolve_left hnone
        simp only [lpush, length_append, length_reverse]
        omega
      unfold interruptedAppend
      rw [appendCommands_of_unmarked hents h, if_neg hnone]
      -- after no command, after the push, after the trim, and after the marker
      match commands with
      | 0 => exact .inl rfl
      | 1 => exact .inr (.inl rfl)
      | 2 => exact .inr (.inl (by simp [AppendCommand.perform, htrim]))
      | _ + 3 => exact .inr (.inr (by simp [AppendCommand.perform, htrim]))
  · have hmark : (pushed entries stored).isMarked = false := h
    exact .inr (interruptedAppend_of_nothing hents hmark acceptedEntries_pushed commands)
  · exact .inr (.inr (interruptedAppend_of_marked rfl commands))

lemma Partly.complete : (appendLocally maxEntries entries t).1 =
      ⟨lpush stored.list (acceptedEntries stored.list entries), some "1"⟩ := by
  rcases ht with rfl | rfl | rfl
  · rw [appendLocally_of_unmarked hents h, appendedList_of_fits hfits]
  · exact appendLocally_pushed hents h
  · exact appendLocally_of_marked rfl

end

end

lemma retriedLocally_of_fits (h : stored.isMarked = true ∨
    acceptedEntries stored.list entries = [] ∨
      (acceptedEntries stored.list entries).length + stored.list.length ≤ boundedMax maxEntries)
    (stops : List ℕ) : retriedLocally maxEntries entries stored stops =
      (appendLocally maxEntries entries stored).1 := by
  unfold retriedLocally
  by_cases hents : entries = []
  · have hidle : ∀ t k, interruptedAppend maxEntries entries t k = t := by
      simp [interruptedAppend, appendCommands, hents]
    induction stops with
    | nil => rfl
    | cons k stops ih => rw [foldl_cons, hidle, ih]
  cases hmark : stored.isMarked with
  | true =>
    induction stops with
    | nil => rfl
    | cons k stops ih => rw [foldl_cons, interruptedAppend_of_marked hmark, ih]
  | false =>
    have hfits := h.resolve_left (by simp [hmark])
    have hpart : ∀ t, Partly entries stored t →
        Partly entries stored (stops.foldl (interruptedAppend maxEntries entries) t) := by
      induction stops with
      | nil => exact fun t ht => ht
      | cons k stops ih => exact fun t ht => ih _ (ht.interrupted hents hmark hfits k)
    rw [(hpart stored (.inl rfl)).complete hents hmark hfits,
      Partly.complete hents hmark hfits (.inl rfl)]

lemma retriedLocally_after_push (hents : entries ≠ []) (h : stored.isMarked = false)
    (hsome : acceptedEntries stored.list entries ≠ []) :
    retriedLocally maxEntries entries stored [1] =
      ⟨lpush stored.list (acceptedEntries stored.list entries), some "1"⟩ := by
  have hpush : interruptedAppend maxEntries entries stored 1 = pushed entries stored := by
    unfold interruptedAppend
    rw [appendCommands_of_unmarked hents h, if_neg hsome]
    rfl
  rw [retriedLocally, foldl_cons, foldl_nil, hpush, appendLocally_pushed hents h]

/-- **Appending exactly once.** Retries leave what one attempt leaves, on the two paths, exactly
for the batches that are complete, add nothing or fit. -/
theorem appendUniqueListEntries_once_iff (maxEntries : ℚ) (entries : List String)
    (stored : MarkedList) : AppendsOnce maxEntries entries stored ↔
      BatchFits maxEntries entries stored := by
  constructor
  · intro honce
    by_contra hunfit
    obtain ⟨hmarked, hsome, hbound⟩ : stored.isMarked = false ∧
        acceptedEntries stored.list entries ≠ [] ∧ (stored.marker = none →
          boundedMax maxEntries <
            (acceptedEntries stored.list entries).length + stored.list.length) := by
      simpa [BatchFits] using hunfit
    have hentries : entries ≠ [] := by
      rintro rfl
      exact hsome rfl
    have hlocal : (appendLocally maxEntries entries stored).1 =
        ⟨appendedList maxEntries entries stored.list, some "1"⟩ :=
      appendLocally_of_unmarked hentries hmarked
    cases hmarker : stored.marker with
    | none =>
      have hretried := honce.locally [1]
      rw [retriedLocally_after_push hentries hmarked hsome, hlocal, appendedList,
        if_neg hsome, MarkedList.mk.injEq] at hretried
      have hlength := congrArg List.length hretried.1
      simp only [lpush, length_take, length_append, length_reverse] at hlength
      have hlong := hbound hmarker
      omega
    | some value =>
      have hagree := honce.agree
      rw [hlocal, appendOverNetwork_of_marked (by rw [hmarker]; rfl)] at hagree
      -- the newest entry of the list is one that was not on it
      obtain ⟨last, rest, hrest⟩ := exists_cons_of_ne_nil (reverse_ne_nil_iff.mpr hsome)
      have hnew : last ∈ acceptedEntries stored.list entries := by
        rw [← mem_reverse, hrest]
        exact mem_cons_self ..
      obtain ⟨n, hn⟩ := Nat.exists_eq_succ_of_ne_zero (boundedMax_pos maxEntries).ne'
      apply (mem_acceptedEntries.mp hnew).2
      rw [← hagree]
      simp [appendedList, hsome, lpush, hrest, hn]
  · intro hfits
    refine ⟨fun stops => ?_, retriedOverNetwork_eq, ?_⟩
    · refine retriedLocally_of_fits ?_ stops
      exact hfits.imp_right (Or.imp_right And.right)
    · by_cases hentries : entries = []
      · simp [appendLocally, appendOverNetwork, appendCommands, hentries]
      cases hmarker : stored.marker with
      | none =>
        have hmarked : stored.isMarked = false := by simp [MarkedList.isMarked, hmarker]
        rw [appendLocally_of_unmarked hentries hmarked,
          appendOverNetwork_of_unmarked hentries hmarker]
      | some value =>
        rw [appendOverNetwork_of_marked (by rw [hmarker]; rfl)]
        rcases hfits with hmarked | hnothing | ⟨hnone, -⟩
        · rw [appendLocally_of_marked hmarked]
        · cases hmarked : stored.isMarked with
          | true => rw [appendLocally_of_marked hmarked]
          | false => rw [appendLocally_of_unmarked hentries hmarked, appendedList, if_pos hnothing]
        · cases hnone.symm.trans hmarker

end Retries

/-- A batch of two entries on an empty list that keeps one: the attempt is interrupted between
its push and its trim, and the retry leaves both entries. -/
theorem appendUniqueListEntries_untrimmed :
    retriedLocally 1 ["a", "b"] ⟨[], none⟩ [1] = ⟨["b", "a"], some "1"⟩ ∧
      (appendLocally 1 ["a", "b"] ⟨[], none⟩).1 = ⟨["b"], some "1"⟩ ∧
      ¬ AppendsOnce 1 ["a", "b"] ⟨[], none⟩ := by
  have hretried : retriedLocally 1 ["a", "b"] ⟨[], none⟩ [1] = ⟨["b", "a"], some "1"⟩ := by
    decide +kernel
  have honce : (appendLocally 1 ["a", "b"] ⟨[], none⟩).1 = ⟨["b"], some "1"⟩ := by decide +kernel
  refine ⟨hretried, honce, fun h => ?_⟩
  have hclaimed := h.locally [1]
  cases hclaimed

end CtsEngine
