import CtsEngine.SetOutcomes.Split

/-!
# Booking a settled position into its Sets

`recordLiveSetOutcome` books the Sets of a row one after another: a marker of the position and the
Set is added to the close ids, and only where it was new the record is pushed to the ring of the
Set, trimmed and counted.  One script does it all; when the script fails, or where there are no
scripts, the adapter sends the commands one by one.  Any command can fail, before it is performed or
after it, and a call can be repeated.

A ring is given with the position that each of its records is about, which the store does not keep.
-/

namespace CtsEngine

open List Keyed Function OutcomeRow

/-- `RING_CAP`. -/
def liveRingCap : ℕ := 600

/-- A record of a ring, and the position that it is about. -/
structure RingRecord where
  positionId : String
  record : String

/-- The keys of one connection: the close ids, the rings and the closed counts. -/
structure SetOutcomeStore where
  closeIds : Finset String := ∅
  rings : String → List RingRecord := fun _ => []
  closedCounts : String → ℕ := fun _ => 0

namespace SetOutcomeStore

/-- `positionId|setKey`. -/
def marker (positionId setKey : String) : String := positionId ++ "|" ++ setKey

/-- `SADD` to the close ids. -/
def sadd (store : SetOutcomeStore) (member : String) : SetOutcomeStore :=
  { store with closeIds := insert member store.closeIds }

/-- `LPUSH` to a ring. -/
def lpush (store : SetOutcomeStore) (setKey : String) (record : RingRecord) : SetOutcomeStore :=
  { store with rings := update store.rings setKey (record :: store.rings setKey) }

/-- `LTRIM` of a ring to its newest records. -/
def ltrim (store : SetOutcomeStore) (setKey : String) : SetOutcomeStore :=
  { store with
    rings := update store.rings setKey ((store.rings setKey).take liveRingCap) }

/-- `HINCRBY` of the closed counts. -/
def hincrby (store : SetOutcomeStore) (setKey : String) : SetOutcomeStore :=
  { store with
    closedCounts := update store.closedCounts setKey (store.closedCounts setKey + 1) }

end SetOutcomeStore

/-! ## Calls -/

/-- What becomes of a command: it is performed, it fails without being performed, or it is performed
and its reply is an error. -/
inductive Fate
  | performed
  | refused
  | replyLost
deriving DecidableEq

/-- What becomes of the commands for one Set. -/
structure SetFates where
  sadd : Fate := .performed
  lpush : Fate := .performed
  ltrim : Fate := .performed
  expire : Fate := .performed
  hincrby : Fate := .performed

/-- One call: whether there are scripts, what becomes of the script and, in it, of the commands for
each Set, and what becomes of the commands of the adapter. -/
structure OutcomeCall where
  hasEval : Bool
  eval : Fate := .performed
  inScript : String → SetFates := fun _ => {}
  inAdapter : String → SetFates := fun _ => {}

/-- What the loop does next after one Set. -/
inductive SetResult
  | skipped
  | booked
  | stopped
deriving DecidableEq

/-- A command whose failure stops the loop. -/
def attempt (fate : Fate) (before after : SetOutcomeStore)
    (next : SetOutcomeStore → SetOutcomeStore × SetResult) : SetOutcomeStore × SetResult :=
  match fate with
  | .performed => next after
  | .refused => (before, .stopped)
  | .replyLost => (after, .stopped)

/-- The commands for a Set whose marker was new: `LPUSH`, `LTRIM`, `EXPIRE` and `HINCRBY`. -/
def pushOutcome (positionId : String) (fates : SetFates) (store : SetOutcomeStore)
    (entry : String × String) : SetOutcomeStore × SetResult :=
  attempt fates.lpush store (store.lpush entry.1 ⟨positionId, entry.2⟩) fun pushed =>
    attempt fates.ltrim pushed (pushed.ltrim entry.1) fun trimmed =>
      attempt fates.expire trimmed trimmed fun kept =>
        attempt fates.hincrby kept (kept.hincrby entry.1) fun counted => (counted, .booked)

/-- The commands for one Set.  In a script a marker command that fails stops the script; the adapter
takes its failure for a marker that was there. -/
def bookSet (script : Bool) (positionId : String) (fates : SetFates) (store : SetOutcomeStore)
    (entry : String × String) : SetOutcomeStore × SetResult :=
  let member := SetOutcomeStore.marker positionId entry.1
  let failed := if script then SetResult.stopped else .skipped
  match fates.sadd with
  | .performed =>
    if member ∈ store.closeIds then (store, .skipped)
    else pushOutcome positionId fates (store.sadd member) entry
  | .refused => (store, failed)
  | .replyLost => (store.sadd member, failed)

/-- The loop over the Sets, with the number of Sets that were booked, unless it was stopped. -/
def bookSets (script : Bool) (positionId : String) (fates : String → SetFates) :
    SetOutcomeStore → List (String × String) → SetOutcomeStore × Option ℕ
  | store, [] => (store, some 0)
  | store, entry :: entries =>
    match bookSet script positionId (fates entry.1) store entry with
    | (after, .stopped) => (after, none)
    | (after, .skipped) => bookSets script positionId fates after entries
    | (after, .booked) =>
      let (last, inserted) := bookSets script positionId fates after entries
      (last, inserted.map (· + 1))

/-- The script, and the adapter where the script fails. -/
def bookEntries (positionId : String) (entries : List (String × String)) (store : SetOutcomeStore)
    (call : OutcomeCall) : SetOutcomeStore × Option ℕ :=
  if call.hasEval = true ∧ call.eval ≠ .refused then
    match bookSets true positionId call.inScript store entries with
    | (after, some inserted) =>
      if call.eval = .performed then (after, some inserted)
      else bookSets false positionId call.inAdapter after entries
    | (after, none) => bookSets false positionId call.inAdapter after entries
  else bookSets false positionId call.inAdapter store entries

/-- `recordLiveSetOutcome`: the store after a call, and what it returns unless it throws. -/
def recordLiveSetOutcome (row : OutcomeRow) (connectionId : String) (notionalUsd : Option ℚ)
    (store : SetOutcomeStore) (call : OutcomeCall) : SetOutcomeStore × Option ℕ :=
  let positionId := text row.id
  if connectionId = "" ∨ positionId = "" then (store, some 0)
  else match row.settledLiveSetOutcome connectionId notionalUsd with
    | none => (store, some 0)
    | some outcome =>
      let entries := row.outcomeEntries outcome
      if entries = [] then (store, some 0) else bookEntries positionId entries store call

/-- The store after a sequence of calls, and whether one of them has returned. -/
def recordCalls (row : OutcomeRow) (connectionId : String) (notionalUsd : Option ℚ)
    (store : SetOutcomeStore) (calls : List OutcomeCall) : SetOutcomeStore × Bool :=
  calls.foldl (fun state call =>
    let (after, result) := recordLiveSetOutcome row connectionId notionalUsd state.1 call
    (after, state.2 || result.isSome)) (store, false)

/-! ## What is booked, and with which share -/

namespace SetOutcomeStore

/-- The records of a position in the ring of a Set. -/
def ownRecords (store : SetOutcomeStore) (positionId setKey : String) : List RingRecord :=
  (store.rings setKey).filter fun record => record.positionId = positionId

/-- The position has not been booked yet. -/
def IsFresh (store : SetOutcomeStore) (positionId : String) : Prop :=
  ∀ setKey, marker positionId setKey ∉ store.closeIds ∧ store.ownRecords positionId setKey = []

/-- A ring has at most one record of the position, and none without a marker. -/
def BooksOnce (store : SetOutcomeStore) (positionId : String) : Prop :=
  ∀ setKey, (store.ownRecords positionId setKey).length ≤ 1 ∧
    (marker positionId setKey ∉ store.closeIds → store.ownRecords positionId setKey = [])

/-- Where there is a marker there is the record. -/
def BooksMarked (store : SetOutcomeStore) (positionId : String)
    (entries : List (String × String)) : Prop :=
  ∀ entry ∈ entries, marker positionId entry.1 ∈ store.closeIds →
    store.ownRecords positionId entry.1 = [⟨positionId, entry.2⟩]

/-- All Sets have their markers. -/
def AllMarked (store : SetOutcomeStore) (positionId : String)
    (entries : List (String × String)) : Prop :=
  ∀ entry ∈ entries, marker positionId entry.1 ∈ store.closeIds

lemma marker_injective {positionId setKey other : String}
    (h : marker positionId setKey = marker positionId other) : setKey = other := by
  have hlist := congrArg String.toList h
  simp only [marker, String.toList_append] at hlist
  exact String.toList_inj.mp (append_cancel_left hlist)

end SetOutcomeStore

open SetOutcomeStore

/-- No marker is left without its push: the marker command does not fail unnoticed or after it was
performed, and the push is performed. -/
structure SetFates.Reliable (fates : SetFates) (script : Bool) : Prop where
  kept : fates.sadd ≠ .replyLost
  noticed : script = false → fates.sadd = .performed
  pushed : fates.lpush ≠ .refused

/-- A call whose fates are all reliable. -/
def OutcomeCall.Reliable (call : OutcomeCall) : Prop :=
  (∀ setKey, (call.inScript setKey).Reliable true) ∧
    ∀ setKey, (call.inAdapter setKey).Reliable false

/-! ## One Set -/

/-- A push leaves the record in front of the ring, unless it was refused. -/
lemma pushOutcome_fst (positionId : String) (fates : SetFates) (store : SetOutcomeStore)
    (entry : String × String) :
    ∃ ring, (pushOutcome positionId fates store entry).1.closeIds = store.closeIds ∧
      (pushOutcome positionId fates store entry).1.rings =
        update store.rings entry.1 ring ∧
      (ring = store.rings entry.1 ∧ fates.lpush = .refused ∨
        ∃ n, ring = (⟨positionId, entry.2⟩ :: store.rings entry.1).take (n + 1)) := by
  have hwhole : (store.lpush entry.1 ⟨positionId, entry.2⟩).rings =
      update store.rings entry.1 ((⟨positionId, entry.2⟩ :: store.rings entry.1).take
          ((store.rings entry.1).length + 1)) := by
    rw [take_of_length_le (by simp)]
    rfl
  have htrimm : ((store.lpush entry.1 ⟨positionId, entry.2⟩).ltrim entry.1).rings =
      update store.rings entry.1
        ((⟨positionId, entry.2⟩ :: store.rings entry.1).take (599 + 1)) := by
    simp [SetOutcomeStore.lpush, SetOutcomeStore.ltrim, liveRingCap]
  unfold pushOutcome
  cases hpush : fates.lpush with
  | refused =>
    refine ⟨store.rings entry.1, rfl, ?_, .inl ⟨rfl, rfl⟩⟩
    rw [update_eq_self]
    rfl
  | replyLost => exact ⟨_, rfl, hwhole, .inr ⟨_, rfl⟩⟩
  | performed =>
    cases htrim : fates.ltrim with
    | refused => exact ⟨_, rfl, hwhole, .inr ⟨_, rfl⟩⟩
    | replyLost => exact ⟨_, rfl, htrimm, .inr ⟨_, rfl⟩⟩
    | performed =>
      refine ⟨_, ?_, ?_, .inr ⟨599, rfl⟩⟩
      · cases fates.expire <;> cases fates.hincrby <;> rfl
      · rw [← htrimm]
        cases fates.expire <;> cases fates.hincrby <;> rfl

lemma bookSet_cases (script : Bool) (positionId : String) (fates : SetFates)
    (store : SetOutcomeStore) (entry : String × String) :
    ((bookSet script positionId fates store entry).1 = store ∧
      (fates.Reliable script → (bookSet script positionId fates store entry).2 ≠ .stopped →
        marker positionId entry.1 ∈ store.closeIds)) ∨
    ((bookSet script positionId fates store entry).1 = store.sadd (marker positionId entry.1) ∧
      ¬fates.Reliable script) ∨
    (marker positionId entry.1 ∉ store.closeIds ∧ (bookSet script positionId fates store entry).1 =
        (pushOutcome positionId fates (store.sadd (marker positionId entry.1)) entry).1) := by
  unfold bookSet
  cases hsadd : fates.sadd with
  | performed =>
    by_cases hmem : marker positionId entry.1 ∈ store.closeIds
    · simp [hmem]
    · simp [hmem]
  | refused =>
    left
    refine ⟨rfl, fun hreli hres => ?_⟩
    cases script with
    | true => exact absurd rfl hres
    | false =>
      have hperf := hreli.noticed rfl
      rw [hsadd] at hperf
      cases hperf
  | replyLost => exact .inr (.inl ⟨rfl, fun hreli => hreli.kept hsadd⟩)

section Pushed

variable {positionId : String} {store : SetOutcomeStore} {entry : String × String}

lemma marker_mem_sadd {setKey : String} :
    marker positionId setKey ∈ (store.sadd (marker positionId entry.1)).closeIds ↔
      setKey = entry.1 ∨ marker positionId setKey ∈ store.closeIds := by
  rw [SetOutcomeStore.sadd, Finset.mem_insert]
  exact or_congr ⟨marker_injective, fun h => congrArg _ h⟩ Iff.rfl

lemma ownRecords_pushOutcome {fates : SetFates}
    (hemp : store.ownRecords positionId entry.1 = []) (setKey : String) :
    (setKey ≠ entry.1 →
      (pushOutcome positionId fates (store.sadd (marker positionId entry.1)) entry).1.ownRecords
        positionId setKey = store.ownRecords positionId setKey) ∧
    ((pushOutcome positionId fates (store.sadd (marker positionId entry.1)) entry).1.ownRecords
        positionId entry.1 = [⟨positionId, entry.2⟩] ∨
      fates.lpush = .refused ∧
      (pushOutcome positionId fates (store.sadd (marker positionId entry.1)) entry).1.ownRecords
        positionId entry.1 = []) := by
  obtain ⟨ring, -, hrings, hring⟩ :=
    pushOutcome_fst positionId fates (store.sadd (marker positionId entry.1)) entry
  constructor
  · intro hne
    rw [ownRecords, hrings, update_of_ne hne]
    rfl
  · rw [ownRecords, hrings, update_self]
    rcases hring with ⟨hring, hrefus⟩ | ⟨n, hring⟩
    · exact .inr ⟨hrefus, hring ▸ hemp⟩
    · left
      have hrest : ((store.rings entry.1).take n).filter
          (fun record => record.positionId = positionId) = [] := by
        have hsub := ((store.rings entry.1).take_sublist n).filter
          fun record => record.positionId = positionId
        exact sublist_nil.mp (hemp ▸ hsub)
      rw [hring, take_succ_cons, filter_cons_of_pos (by simp)]
      exact congrArg _ hrest

lemma closeIds_pushOutcome {fates : SetFates} :
    (pushOutcome positionId fates (store.sadd (marker positionId entry.1)) entry).1.closeIds =
      (store.sadd (marker positionId entry.1)).closeIds := by
  obtain ⟨-, hids, -⟩ :=
    pushOutcome_fst positionId fates (store.sadd (marker positionId entry.1)) entry
  exact hids

end Pushed

section Loop

variable {script : Bool} {positionId : String} {store : SetOutcomeStore}

/-- **One Set, whatever fails.** It keeps that nothing is booked twice. -/
lemma bookSet_booksOnce {fates : SetFates} {entry : String × String}
    (h : store.BooksOnce positionId) :
    (bookSet script positionId fates store entry).1.BooksOnce positionId := by
  rcases bookSet_cases script positionId fates store entry with
    ⟨hafter, -⟩ | ⟨hafter, -⟩ | ⟨hnew, hafter⟩
  · rw [hafter]
    exact h
  · rw [hafter]
    intro setKey
    refine ⟨(h setKey).1, fun hmiss => (h setKey).2 fun hmem => hmiss ?_⟩
    exact marker_mem_sadd.mpr (.inr hmem)
  · rw [hafter]
    intro setKey
    have hemp := (h entry.1).2 hnew
    obtain ⟨hoth, hown⟩ := ownRecords_pushOutcome hemp setKey
    rw [closeIds_pushOutcome, marker_mem_sadd, not_or]
    by_cases hsame : setKey = entry.1
    · subst hsame
      rcases hown with hown | ⟨-, hown⟩ <;> rw [hown] <;> simp
    · rw [hoth hsame]
      exact ⟨(h setKey).1, fun hmiss => (h setKey).2 hmiss.2⟩

/-- **One Set, where no marker is left without its push.** It keeps that there is a record where
there is a marker, and leaves a marker of the Set unless it stops. -/
lemma bookSet_reliable {fates : SetFates} {entry : String × String}
    {entries : List (String × String)} (huniq : KeysUnique entries)
    (hent : entry ∈ entries) (honce : store.BooksOnce positionId)
    (hmark : store.BooksMarked positionId entries) (hreli : fates.Reliable script) :
    (bookSet script positionId fates store entry).1.BooksMarked positionId entries ∧
      store.closeIds ⊆ (bookSet script positionId fates store entry).1.closeIds ∧
      ((bookSet script positionId fates store entry).2 ≠ .stopped →
        marker positionId entry.1 ∈ (bookSet script positionId fates store entry).1.closeIds) := by
  rcases bookSet_cases script positionId fates store entry with
    ⟨hafter, hres⟩ | ⟨-, hunrel⟩ | ⟨hnew, hafter⟩
  · rw [hafter]
    exact ⟨hmark, subset_rfl, hres hreli⟩
  · exact absurd hreli hunrel
  · rw [hafter, closeIds_pushOutcome]
    refine ⟨?_, Finset.subset_insert .., fun _ => Finset.mem_insert_self ..⟩
    intro other hoth hmem
    have hemp := (honce entry.1).2 hnew
    obtain ⟨hrest, hown⟩ := ownRecords_pushOutcome hemp other.1
    rw [closeIds_pushOutcome, marker_mem_sadd] at hmem
    by_cases hsame : other.1 = entry.1
    · have hrec : other.2 = entry.2 := by
        have hget := get?_of_mem huniq hoth
        rw [hsame, get?_of_mem huniq hent] at hget
        exact (Option.some.inj hget).symm
      rw [hsame, hrec]
      exact hown.resolve_right fun hrefus => hreli.pushed hrefus.1
    · rw [hrest hsame]
      exact hmark other hoth (hmem.resolve_left hsame)

lemma bookSets_booksOnce {fates : String → SetFates} (entries : List (String × String))
    (h : store.BooksOnce positionId) :
    (bookSets script positionId fates store entries).1.BooksOnce positionId := by
  induction entries generalizing store with
  | nil => exact h
  | cons entry entries ih =>
    have hset : (bookSet script positionId (fates entry.1) store entry).1.BooksOnce positionId :=
      bookSet_booksOnce h
    unfold bookSets
    split
    · next after hcase =>
      rw [hcase] at hset
      exact hset
    · next after hcase =>
      rw [hcase] at hset
      exact ih hset
    · next after hcase =>
      rw [hcase] at hset
      exact ih hset

/-- What a loop over some of the Sets does: it keeps the records, keeps the markers, and leaves a
marker of each of its Sets unless it stops. -/
structure BooksAll (positionId : String) (all entries : List (String × String))
    (store : SetOutcomeStore) (result : SetOutcomeStore × Option ℕ) : Prop where
  marked : result.1.BooksMarked positionId all
  grows : store.closeIds ⊆ result.1.closeIds
  all_marked : result.2.isSome = true → result.1.AllMarked positionId entries

lemma bookSets_reliable {fates : String → SetFates} {all : List (String × String)}
    (huniq : KeysUnique all) (hreli : ∀ setKey, (fates setKey).Reliable script)
    (entries : List (String × String)) (hsub : entries ⊆ all) (honce : store.BooksOnce positionId)
    (hmark : store.BooksMarked positionId all) :
    BooksAll positionId all entries store (bookSets script positionId fates store entries) := by
  induction entries generalizing store with
  | nil => exact ⟨hmark, subset_rfl, fun _ entry hent => absurd hent not_mem_nil⟩
  | cons entry entries ih =>
    have honce' : (bookSet script positionId (fates entry.1) store entry).1.BooksOnce positionId :=
      bookSet_booksOnce honce
    obtain ⟨hset, hgrows, hmem⟩ := bookSet_reliable huniq
      (hsub (mem_cons_self ..)) honce hmark (hreli entry.1)
    have hrest : ∀ {after : SetOutcomeStore} {result : SetResult}, result ≠ .stopped →
        bookSet script positionId (fates entry.1) store entry = (after, result) →
        BooksAll positionId all (entry :: entries) store
          (bookSets script positionId fates after entries) := by
      intro after result hres hcase
      rw [hcase] at honce' hset hgrows hmem
      obtain ⟨hlast, hkeeps, hall⟩ := ih (subset_of_cons_subset hsub) honce' hset
      refine ⟨hlast, hgrows.trans hkeeps, fun hsome other hoth => ?_⟩
      rcases mem_cons.mp hoth with rfl | hoth
      · exact hkeeps (hmem hres)
      · exact hall hsome other hoth
    unfold bookSets
    split
    · next after hcase =>
      rw [hcase] at hset hgrows
      exact ⟨hset, hgrows, nofun⟩
    · next after hcase => exact hrest (by decide) hcase
    · next after hcase =>
      obtain ⟨hlast, hkeeps, hall⟩ := hrest (by decide) hcase
      exact ⟨hlast, hkeeps, fun hsome => hall (by simpa using hsome)⟩

end Loop

/-! ## Calls -/

section Calls

variable {positionId : String} {store : SetOutcomeStore}

variable {entries : List (String × String)} {call : OutcomeCall}

lemma bookEntries_booksOnce (h : store.BooksOnce positionId) :
    (bookEntries positionId entries store call).1.BooksOnce positionId := by
  have hscrip : (bookSets true positionId call.inScript store entries).1.BooksOnce positionId :=
    bookSets_booksOnce entries h
  unfold bookEntries
  split
  · split
    · next after inserted hcase =>
      rw [hcase] at hscrip
      split
      · exact hscrip
      · exact bookSets_booksOnce entries hscrip
    · next after hcase =>
      rw [hcase] at hscrip
      exact bookSets_booksOnce entries hscrip
  · exact bookSets_booksOnce entries h

lemma bookEntries_reliable (huniq : KeysUnique entries) (hreli : call.Reliable)
    (honce : store.BooksOnce positionId) (hmark : store.BooksMarked positionId entries) :
    BooksAll positionId entries entries store (bookEntries positionId entries store call) := by
  have honce' : (bookSets true positionId call.inScript store entries).1.BooksOnce positionId :=
    bookSets_booksOnce entries honce
  obtain ⟨hscrip, hgrows, hall⟩ := bookSets_reliable huniq hreli.1 entries
    (List.Subset.refl _) honce hmark
  have hadap : ∀ {after : SetOutcomeStore}, after.BooksOnce positionId →
      after.BooksMarked positionId entries → store.closeIds ⊆ after.closeIds →
      BooksAll positionId entries entries store
        (bookSets false positionId call.inAdapter after entries) := by
    intro after hafter_once hafter hst
    obtain ⟨hlast, hkeeps, hmems⟩ := bookSets_reliable huniq hreli.2
      entries (List.Subset.refl _) hafter_once hafter
    exact ⟨hlast, hst.trans hkeeps, hmems⟩
  unfold bookEntries
  split
  · split
    · next after inserted hcase =>
      rw [hcase] at honce' hscrip hgrows hall
      split
      · exact ⟨hscrip, hgrows, fun _ => hall rfl⟩
      · exact hadap honce' hscrip hgrows
    · next after hcase =>
      rw [hcase] at honce' hscrip hgrows
      exact hadap honce' hscrip hgrows
  · exact hadap honce hmark subset_rfl

end Calls

section Runs

variable {row : OutcomeRow} {connectionId : String} {notionalUsd : Option ℚ}

variable {store : SetOutcomeStore} {outcome : OutcomeRow.CloseOutcome}

lemma recordLiveSetOutcome_eq {call : OutcomeCall} (hid : text row.id ≠ "")
    (hsettl : row.settledLiveSetOutcome connectionId notionalUsd = some outcome) :
    recordLiveSetOutcome row connectionId notionalUsd store call =
      if row.outcomeEntries outcome = [] then (store, some 0)
      else bookEntries (text row.id) (row.outcomeEntries outcome) store call := by
  have hconn : connectionId ≠ "" := by
    rintro rfl
    cases hsettl
  rw [recordLiveSetOutcome, if_neg (not_or.mpr ⟨hconn, hid⟩), hsettl]

lemma keysUnique_outcomeEntries (row : OutcomeRow) (outcome : OutcomeRow.CloseOutcome) :
    KeysUnique (row.outcomeEntries outcome) := by
  have huniq := keysUnique_foldl_addShares (row.carriers ++ row.parentCarrier)
  rw [KeysUnique, outcomeEntries, map_map]
  exact huniq

lemma recordCalls_append (store : SetOutcomeStore) (calls : List OutcomeCall) (call : OutcomeCall) :
    recordCalls row connectionId notionalUsd store (calls ++ [call]) =
      ((recordLiveSetOutcome row connectionId notionalUsd
          (recordCalls row connectionId notionalUsd store calls).1 call).1,
        (recordCalls row connectionId notionalUsd store calls).2 ||
          (recordLiveSetOutcome row connectionId notionalUsd
            (recordCalls row connectionId notionalUsd store calls).1 call).2.isSome) := by
  rw [recordCalls, foldl_append]
  rfl

lemma recordCalls_booksOnce (h : store.BooksOnce (text row.id)) (calls : List OutcomeCall) :
    (recordCalls row connectionId notionalUsd store calls).1.BooksOnce (text row.id) := by
  induction calls using reverseRecOn with
  | nil => exact h
  | append_singleton calls call ih =>
    rw [recordCalls_append, recordLiveSetOutcome]
    dsimp only
    split
    · exact ih
    · split
      · exact ih
      · split
        · exact ih
        · exact bookEntries_booksOnce ih

/-- **Runs of reliable calls.** There is a record where there is a marker, and once a call has
returned every Set has its marker. -/
lemma recordCalls_reliable (hid : text row.id ≠ "")
    (hsettl : row.settledLiveSetOutcome connectionId notionalUsd = some outcome)
    (honce : store.BooksOnce (text row.id))
    (hmark : store.BooksMarked (text row.id) (row.outcomeEntries outcome))
    (calls : List OutcomeCall) (hreli : ∀ call ∈ calls, call.Reliable) :
    (recordCalls row connectionId notionalUsd store calls).1.BooksMarked (text row.id)
        (row.outcomeEntries outcome) ∧
      ((recordCalls row connectionId notionalUsd store calls).2 = true →
        (recordCalls row connectionId notionalUsd store calls).1.AllMarked (text row.id)
          (row.outcomeEntries outcome)) := by
  induction calls using reverseRecOn with
  | nil => exact ⟨hmark, nofun⟩
  | append_singleton calls call ih =>
    obtain ⟨hrun, hdone⟩ := ih fun other hoth => hreli other (mem_append_left _ hoth)
    have hcall : call.Reliable := hreli call (mem_concat_self)
    obtain ⟨hbooks, hgrows, hall⟩ := bookEntries_reliable (keysUnique_outcomeEntries row outcome)
      hcall (recordCalls_booksOnce honce calls) hrun
    rw [recordCalls_append, recordLiveSetOutcome_eq hid hsettl]
    split
    · next hnone =>
      rw [hnone]
      exact ⟨forall_mem_nil _, fun _ entry hent => absurd hent not_mem_nil⟩
    · refine ⟨hbooks, fun hany => ?_⟩
      rcases Bool.or_eq_true_iff.mp hany with hbef | hnow
      · exact fun entry hent => hgrows (hdone hbef entry hent)
      · exact hall hnow

end Runs

/-- **`recordLiveSetOutcome`.** In every sequence of calls for a settled position no Set is booked
twice; where no marker is left without its push and one call has returned, every Set of the position
is booked exactly once, with the result of its leg or with its share of the row's result. -/
theorem recordLiveSetOutcome_books (row : OutcomeRow) (connectionId : String)
    (notionalUsd : Option ℚ) (outcome : OutcomeRow.CloseOutcome) (hid : text row.id ≠ "")
    (hsettled : row.settledLiveSetOutcome connectionId notionalUsd = some outcome)
    (store : SetOutcomeStore) (hfresh : store.IsFresh (text row.id)) (calls : List OutcomeCall) :
    (∀ setKey, ((recordCalls row connectionId notionalUsd store calls).1.ownRecords (text row.id)
      setKey).length ≤ 1) ∧
    ((∀ call ∈ calls, call.Reliable) →
      (recordCalls row connectionId notionalUsd store calls).2 = true →
      ∀ entry ∈ row.liveOutcomeSetShares,
        (recordCalls row connectionId notionalUsd store calls).1.ownRecords (text row.id) entry.1 =
          [⟨text row.id, strategyOutcomeRecord
            (row.bookedOutcome outcome entry.1 entry.2)⟩]) ∧
    row.SharesSplit := by
  have honce : store.BooksOnce (text row.id) := fun setKey => by
    rw [(hfresh setKey).2]
    exact ⟨Nat.zero_le 1, fun _ => rfl⟩
  have hmarked : store.BooksMarked (text row.id) (row.outcomeEntries outcome) :=
    fun entry _ hmem => absurd hmem (hfresh entry.1).1
  refine ⟨fun setKey => (recordCalls_booksOnce honce calls setKey).1, ?_, row.sharesSplit⟩
  intro hreliable hdone entry hentry
  obtain ⟨hbooks, hall⟩ := recordCalls_reliable hid hsettled honce hmarked calls hreliable
  have hmem : (entry.1, strategyOutcomeRecord
      (row.bookedOutcome outcome entry.1 entry.2)) ∈ row.outcomeEntries outcome :=
    mem_map.mpr ⟨entry, hentry, rfl⟩
  exact hbooks _ hmem (hall hdone _ hmem)

/-- A settled position of one Set and its Base Set, with a result of two. -/
def settledRow : OutcomeRow where
  id := some "p1"
  status := some "closed"
  executionMode := some "live"
  executedQuantity := .number 1
  entryPrice := .number 100
  settledPnl := some 2
  setKey := some "a#b"

/-- A first call is stopped after the push for the Base Set, a second one returns. -/
theorem recordLiveSetOutcome_books_settledRow :
    settledRow.SharesSplit ∧ ∀ entry ∈ settledRow.liveOutcomeSetShares,
      (recordCalls settledRow "c1" none {} [⟨false, .performed, fun _ => {},
        fun _ => { ltrim := .refused }⟩,
          ⟨false, .performed, fun _ => {}, fun _ => {}⟩]).1.ownRecords
          "p1" entry.1 = [⟨"p1", "2.000000|0|0.000|2.00000000|0.10000000"⟩] := by
  have hbooks := recordLiveSetOutcome_books settledRow "c1" none ⟨2, some 2, 1 / 10, 0⟩
    (by decide +kernel) (by decide +kernel) {} (fun _ => ⟨Finset.notMem_empty _, rfl⟩)
    [⟨false, .performed, fun _ => {}, fun _ => { ltrim := .refused }⟩,
      ⟨false, .performed, fun _ => {}, fun _ => {}⟩]
  have hrecords : ∀ entry ∈ settledRow.liveOutcomeSetShares, strategyOutcomeRecord
      (settledRow.bookedOutcome ⟨2, some 2, 1 / 10, 0⟩ entry.1 entry.2) =
        "2.000000|0|0.000|2.00000000|0.10000000" := by decide +kernel
  refine ⟨hbooks.2.2, fun entry hentry => ?_⟩
  have hown := hbooks.2.1 ?_ (by decide +kernel) entry hentry
  · rw [hrecords entry hentry] at hown
    exact hown
  · intro call hcall
    rcases mem_cons.mp hcall with rfl | hcall
    · exact ⟨fun _ => ⟨nofun, fun _ => rfl, nofun⟩, fun _ => ⟨nofun, fun _ => rfl, nofun⟩⟩
    · rw [mem_singleton.mp hcall]
      exact ⟨fun _ => ⟨nofun, fun _ => rfl, nofun⟩, fun _ => ⟨nofun, fun _ => rfl, nofun⟩⟩

/-- A lineage is booked with more than the result of the position. -/
theorem liveOutcomeSetShares_exceeds :
    settledRow.settledLiveSetOutcome "c1" none = some ⟨2, some 2, 1 / 10, 0⟩ ∧
      settledRow.liveOutcomeSetShares = [("a", 1), ("a#b", 1)] ∧
      (recordLiveSetOutcome settledRow "c1" none {}
        ⟨true, .performed, fun _ => {}, fun _ => {}⟩).2 = some 2 ∧
      (settledRow.liveOutcomeSetShares.map fun entry =>
        (settledRow.bookedOutcome ⟨2, some 2, 1 / 10, 0⟩ entry.1 entry.2).pnl).sum ≠ 2 := by
  refine ⟨by decide +kernel, by decide +kernel, by decide +kernel, by decide +kernel⟩

end CtsEngine
