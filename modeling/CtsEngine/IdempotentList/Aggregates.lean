import CtsEngine.Foundation.NumberText
import CtsEngine.Transition.Runs
import Mathlib.Data.Finset.Basic

/-!
# Counting a batch into an aggregate once per marker

`incrementHistoricAggregatesOnce` of `lib/redis-idempotent-list.ts`.  An aggregate is a hash of
numbers with a set of markers beside it; a marker that is in the set, or that an earlier release
stored under a key of its own, has been counted.  Over the network one script marks and adds.  The
local path sends the commands of one marker after another: the marker goes into the set before the
increments do, and comes out again when the pipeline reports an error.
-/

namespace CtsEngine

open List Transition Option Finset

/-! ## The aggregate -/

/-- The numbers of the hash, where a field that is missing counts as `0`, the members of the set of
markers, and the keys that an earlier release stored as markers. -/
structure AggregateStore where
  fields : String → ℚ
  members : Finset String
  legacy : Finset String

/-- `HistoricAggregateIncrement`. -/
structure AggregateIncrement where
  field : String
  value : Double

/-- The increments with a name and a finite value. -/
def normalizeIncrements (increments : List AggregateIncrement) : List (String × ℚ) :=
  increments.filterMap fun item =>
    match item.value with
    | .finite value => if item.field = "" then none else some (item.field, value)
    | _ => none

/-- The markers with their members: a marker without a text for it is its own member. -/
def markerPairs (markerKeys markerMembers : List String) : List (String × String) :=
  markerKeys.zipIdx.map fun (markerKey, index) =>
    (markerKey, match markerMembers[index]? with
      | some candidate => if candidate = "" then markerKey else candidate
      | none => markerKey)

def addedTo (field : String) (increments : List (String × ℚ)) : ℚ :=
  ((increments.filter (·.1 = field)).map Prod.snd).sum

namespace AggregateStore

/-- The marker was counted by an earlier release, or is in the set under its full key. -/
def isLegacy (store : AggregateStore) (markerKey : String) : Bool :=
  markerKey ∈ store.legacy || markerKey ∈ store.members

/-- The marker has not been counted. -/
def isFresh (store : AggregateStore) (marker : String × String) : Bool :=
  !store.isLegacy marker.1 && marker.2 ∉ store.members

/-- `SADD` of a marker. -/
def mark (store : AggregateStore) (member : String) : AggregateStore :=
  { store with members := insert member store.members }

/-- The fields moved by an amount each. -/
def shift (store : AggregateStore) (amount : String → ℚ) : AggregateStore :=
  { store with fields := fun field => store.fields field + amount field }

/-- `HINCRBYFLOAT`. -/
def hincrbyfloat (store : AggregateStore) (field : String) (value : ℚ) : AggregateStore :=
  { store with fields := fun other =>
      if other = field then store.fields other + value else store.fields other }

end AggregateStore

/-- A round of the marking loop of `INCREMENT_HISTORIC_AGGREGATES_LUA`, with the number of new
markers. -/
def markOne (counted : AggregateStore × ℕ) (marker : String × String) : AggregateStore × ℕ :=
  if counted.1.isLegacy marker.1 = true then (counted.1.mark marker.2, counted.2)
  else if marker.2 ∈ counted.1.members then counted
  else (counted.1.mark marker.2, counted.2 + 1)

/-- `INCREMENT_HISTORIC_AGGREGATES_LUA`. -/
def incrementScript (markers : List (String × String)) (increments : List (String × ℚ))
    (store : AggregateStore) : AggregateStore × ℕ :=
  let (marked, accepted) := markers.foldl markOne (store, 0)
  if accepted = 0 then (marked, 0)
  else (increments.foldl (fun store item => store.hincrbyfloat item.1 (item.2 * accepted)) marked,
    accepted)

/-! ## The local path -/

/-- The writes of an attempt; no expiry is seen here. -/
inductive AggregateCommand
  | sadd (member : String)
  | hincrbyfloat (field : String) (value : ℚ)
  | expire

def AggregateCommand.perform (store : AggregateStore) : AggregateCommand → AggregateStore
  | .sadd member => store.mark member
  | .hincrbyfloat field value => store.hincrbyfloat field value
  | .expire => store

/-- The writes of `incrementHistoricAggregateOnce`. -/
def onceCommands (increments : List (String × ℚ)) (store : AggregateStore)
    (marker : String × String) : List AggregateCommand :=
  if store.isLegacy marker.1 = true then [.sadd marker.2, .expire]
  else if marker.2 ∈ store.members then [.sadd marker.2]
  else .sadd marker.2 :: increments.map (fun item => .hincrbyfloat item.1 item.2) ++
    [.expire, .expire]

/-- `incrementHistoricAggregateOnce`, and whether it counted. -/
def incrementOnce (increments : List (String × ℚ)) (store : AggregateStore)
    (marker : String × String) : AggregateStore × Bool :=
  ((onceCommands increments store marker).foldl AggregateCommand.perform store,
    store.isFresh marker)

/-- A round of the loop of `incrementHistoricAggregatesOnce` over the markers. -/
def countOne (increments : List (String × ℚ)) (counted : AggregateStore × ℕ)
    (marker : String × String) : AggregateStore × ℕ :=
  let (store, isNew) := incrementOnce increments counted.1 marker
  (store, if isNew = true then counted.2 + 1 else counted.2)

/-- `incrementHistoricAggregatesOnce` without scripts. -/
def incrementLocally (markers : List (String × String)) (increments : List (String × ℚ))
    (store : AggregateStore) : AggregateStore × ℕ :=
  markers.foldl (countOne increments) (store, 0)

/-- How an attempt fails at a marker. -/
inductive AggregateFault
  /-- It stops after some of the writes. -/
  | interrupted (commands : ℕ)
  /-- The pipeline reports errors: the increments at the places `applied` were added all the same.
  The marker is taken out of the set, unless that command fails as well. -/
  | rejected (applied : ℕ → Bool) (undone : Bool)

/-- The increments at some places. -/
def atPlaces (applied : ℕ → Bool) (increments : List (String × ℚ)) : List (String × ℚ) :=
  (increments.zipIdx.filter fun item => applied item.2).map Prod.fst

/-- What a fault leaves.  Only the pipeline of a fresh marker can be rejected. -/
def faultyOnce (increments : List (String × ℚ)) (store : AggregateStore)
    (marker : String × String) : AggregateFault → AggregateStore
  | .interrupted commands =>
    ((onceCommands increments store marker).take commands).foldl AggregateCommand.perform store
  | .rejected applied undone =>
    if store.isFresh marker = true then
      let added := (atPlaces applied increments).foldl
        (fun store item => store.hincrbyfloat item.1 item.2) (store.mark marker.2)
      if undone = true then { added with members := added.members.erase marker.2 } else added
    else store

/-- An attempt that fails: it completes some of the markers and then meets a fault. -/
structure FailedAttempt where
  completed : ℕ
  fault : AggregateFault

/-- The state after an attempt that fails. -/
def attemptStep (markers : List (String × String)) (increments : List (String × ℚ))
    (store : AggregateStore) (attempt : FailedAttempt) : Option AggregateStore :=
  (markers[attempt.completed]?).map fun marker =>
    faultyOnce increments
      (incrementLocally (markers.take attempt.completed) increments store).1 marker attempt.fault

/-! ## What is added -/

namespace AggregateStore

variable (store : AggregateStore) (amount : String → ℚ)

lemma shift_shift (more : String → ℚ) :
    (store.shift amount).shift more = store.shift fun field => amount field + more field := by
  simp only [shift, add_assoc]

lemma shift_zero : (store.shift fun _ => 0) = store := by
  simp only [shift, add_zero]

lemma mark_shift (member : String) :
    (store.shift amount).mark member = (store.mark member).shift amount := rfl

lemma isFresh_shift (marker : String × String) :
    (store.shift amount).isFresh marker = store.isFresh marker := rfl

lemma mark_of_mem {member : String} (h : member ∈ store.members) : store.mark member = store := by
  rw [mark, insert_eq_of_mem h]

lemma shift_eq_self_iff : store.shift amount = store ↔ ∀ field, amount field = 0 := by
  constructor
  · intro h field
    have hfield := congrFun (congrArg AggregateStore.fields h) field
    exact left_eq_add.mp hfield.symm
  · intro h
    rw [show amount = fun _ => 0 from funext h, shift_zero]

end AggregateStore

lemma addedTo_cons (field : String) (item : String × ℚ) (increments : List (String × ℚ)) :
    addedTo field (item :: increments) =
      (if field = item.1 then item.2 else 0) + addedTo field increments := by
  unfold addedTo
  by_cases h : field = item.1
  · simp [h]
  · simp [h, Ne.symm h]

lemma foldl_hincrbyfloat (factor : ℚ) (increments : List (String × ℚ)) (store : AggregateStore) :
    increments.foldl (fun store item => store.hincrbyfloat item.1 (item.2 * factor)) store =
      store.shift fun field => addedTo field increments * factor := by
  induction increments generalizing store with
  | nil => simpa [addedTo] using (store.shift_zero).symm
  | cons item increments ih =>
    have hfst : store.hincrbyfloat item.1 (item.2 * factor) =
        store.shift fun field => if field = item.1 then item.2 * factor else 0 := by
      unfold AggregateStore.hincrbyfloat AggregateStore.shift
      congr 1
      funext field
      by_cases h : field = item.1
      · simp only [if_pos h]
      · simp only [if_neg h, add_zero]
    rw [foldl_cons, ih, hfst, AggregateStore.shift_shift]
    congr 1
    funext field
    rw [addedTo_cons, add_mul, ite_mul, zero_mul]

lemma foldl_hincrbyfloat_one (increments : List (String × ℚ)) (store : AggregateStore) :
    increments.foldl (fun store item => store.hincrbyfloat item.1 item.2) store =
      store.shift (addedTo · increments) := by
  simpa using foldl_hincrbyfloat 1 increments store

lemma foldl_perform_hincrbyfloat (increments : List (String × ℚ)) (store : AggregateStore) :
    (increments.map fun item => AggregateCommand.hincrbyfloat item.1 item.2).foldl
      AggregateCommand.perform store = store.shift (addedTo · increments) := by
  rw [foldl_map]
  exact foldl_hincrbyfloat_one increments store

/-! ## New markers -/

/-- The markers in the set after a pass over some of them. -/
def markMany (markers : List (String × String)) (store : AggregateStore) : AggregateStore :=
  markers.foldl (fun store marker => store.mark marker.2) store

/-- The number of markers that a pass finds fresh. -/
def newMarkers : List (String × String) → AggregateStore → ℕ
  | [], _ => 0
  | marker :: markers, store =>
    (if store.isFresh marker = true then 1 else 0) + newMarkers markers (store.mark marker.2)

section Passes

variable {markers : List (String × String)} {increments : List (String × ℚ)}
  {store : AggregateStore} {marker : String × String}

variable (markers) (store) (amount : String → ℚ)

lemma newMarkers_shift : newMarkers markers (store.shift amount) = newMarkers markers store := by
  induction markers generalizing store with
  | nil => rfl
  | cons marker markers ih =>
    rw [newMarkers, newMarkers, AggregateStore.mark_shift, ih, AggregateStore.isFresh_shift]

lemma markMany_shift :
    markMany markers (store.shift amount) = (markMany markers store).shift amount := by
  induction markers generalizing store with
  | nil => rfl
  | cons marker markers ih => exact ih (store.mark marker.2)

variable (increments) (marker)

lemma incrementOnce_eq : incrementOnce increments store marker =
      ((store.mark marker.2).shift fun field =>
        if store.isFresh marker = true then addedTo field increments else 0,
      store.isFresh marker) := by
  unfold incrementOnce onceCommands
  cases hlegac : store.isLegacy marker.1 with
  | true =>
    have hfresh : store.isFresh marker = false := by simp [AggregateStore.isFresh, hlegac]
    simp [hfresh, AggregateCommand.perform, AggregateStore.shift_zero]
  | false =>
    by_cases hmem : marker.2 ∈ store.members
    · have hfresh : store.isFresh marker = false := by simp [AggregateStore.isFresh, hmem]
      simp [hmem, hfresh, AggregateCommand.perform, AggregateStore.shift_zero]
    · have hfresh : store.isFresh marker = true := by
        simp [AggregateStore.isFresh, hlegac, hmem]
      simp [hmem, hfresh, AggregateCommand.perform, foldl_perform_hincrbyfloat]

lemma markMany_cons :
    markMany (marker :: markers) store = markMany markers (store.mark marker.2) := rfl

variable {marker}

lemma foldl_markOne (accepted : ℕ) :
    markers.foldl markOne (store, accepted) =
      (markMany markers store, accepted + newMarkers markers store) := by
  induction markers generalizing store accepted with
  | nil => rfl
  | cons marker markers ih =>
    have hone : markOne (store, accepted) marker =
        (store.mark marker.2, accepted + if store.isFresh marker = true then 1 else 0) := by
      unfold markOne
      cases hlegac : store.isLegacy marker.1 with
      | true => simp [AggregateStore.isFresh, hlegac]
      | false =>
        by_cases hmem : marker.2 ∈ store.members
        · simp [AggregateStore.isFresh, hmem, store.mark_of_mem hmem]
        · simp [AggregateStore.isFresh, hlegac, hmem]
    rw [foldl_cons, hone, ih, newMarkers, markMany_cons, add_assoc]

lemma foldl_countOne (accepted : ℕ) :
    markers.foldl (countOne increments) (store, accepted) =
      ((markMany markers store).shift fun field =>
        addedTo field increments * newMarkers markers store,
      accepted + newMarkers markers store) := by
  induction markers generalizing store accepted with
  | nil => simp [newMarkers, markMany, AggregateStore.shift_zero]
  | cons marker markers ih =>
    have hone : countOne increments (store, accepted) marker =
        ((store.mark marker.2).shift fun field =>
          if store.isFresh marker = true then addedTo field increments else 0,
        accepted + if store.isFresh marker = true then 1 else 0) := by
      unfold countOne
      rw [incrementOnce_eq]
      cases store.isFresh marker with
      | true => rfl
      | false => rfl
    rw [foldl_cons, hone, ih, markMany_shift, newMarkers_shift, AggregateStore.shift_shift,
      newMarkers, markMany_cons, add_assoc]
    cases store.isFresh marker with
    | true => simp [mul_add]
    | false => simp

lemma incrementLocally_eq : incrementLocally markers increments store =
      ((markMany markers store).shift fun field =>
        addedTo field increments * newMarkers markers store, newMarkers markers store) := by
  rw [incrementLocally, foldl_countOne, zero_add]

lemma incrementScript_eq : incrementScript markers increments store =
      incrementLocally markers increments store := by
  unfold incrementScript
  rw [foldl_markOne, incrementLocally_eq]
  by_cases h : newMarkers markers store = 0
  · simp [h, AggregateStore.shift_zero]
  · simp [h, foldl_hincrbyfloat]

variable {increments} {store} {markers}

lemma incrementLocally_append (first rest : List (String × String))
    (increments : List (String × ℚ)) (store : AggregateStore) :
    (incrementLocally (first ++ rest) increments store).1 =
      (incrementLocally rest increments (incrementLocally first increments store).1).1 := by
  unfold incrementLocally
  rw [foldl_append, foldl_countOne rest, foldl_countOne rest]

lemma incrementLocally_shift : (incrementLocally markers increments (store.shift amount)).1 =
      (incrementLocally markers increments store).1.shift amount := by
  rw [incrementLocally_eq, incrementLocally_eq, markMany_shift, newMarkers_shift,
    AggregateStore.shift_shift, AggregateStore.shift_shift]
  exact congrArg (markMany markers store).shift (funext fun field => add_comm _ _)

lemma subset_markMany (markers : List (String × String)) (store : AggregateStore) :
    store.members ⊆ (markMany markers store).members := by
  induction markers generalizing store with
  | nil => exact Subset.refl _
  | cons marker markers ih =>
    exact (subset_insert marker.2 store.members).trans (ih (store.mark marker.2))

lemma mem_markMany (h : marker ∈ markers) : marker.2 ∈ (markMany markers store).members := by
  induction markers generalizing store with
  | nil => cases h
  | cons other markers ih =>
    rcases mem_cons.mp h with rfl | hmem
    · exact subset_markMany markers _ (mem_insert_self _ _)
    · exact ih hmem

lemma incrementLocally_of_marked (h : ∀ marker ∈ markers, marker.2 ∈ store.members) :
    (incrementLocally markers increments store).1 = store := by
  have hidle : markMany markers store = store ∧ newMarkers markers store = 0 := by
    induction markers with
    | nil => exact ⟨rfl, rfl⟩
    | cons marker markers ih =>
      have hmem := h marker (mem_cons_self ..)
      have hsame := store.mark_of_mem hmem
      obtain ⟨hmany, hnew⟩ := ih fun other hoth => h other (mem_cons_of_mem _ hoth)
      exact ⟨by rw [markMany_cons, hsame, hmany],
        by simp [newMarkers, hsame, hnew, AggregateStore.isFresh, hmem]⟩
  rw [incrementLocally_eq, hidle.1, hidle.2]
  simp [AggregateStore.shift_zero]

lemma incrementLocally_after_take (markers : List (String × String))
    (increments : List (String × ℚ)) (store : AggregateStore) (count : ℕ) :
    (incrementLocally markers increments
      (incrementLocally (markers.take count) increments store).1).1 =
      (incrementLocally markers increments store).1 := by
  have hsplit : ∀ t : AggregateStore, (incrementLocally markers increments t).1 =
      (incrementLocally (markers.drop count) increments
        (incrementLocally (markers.take count) increments t).1).1 := by
    intro t
    rw [← incrementLocally_append, take_append_drop]
  have hmark : ∀ marker ∈ markers.take count,
      marker.2 ∈ (incrementLocally (markers.take count) increments store).1.members := by
    intro marker hmem
    rw [incrementLocally_eq]
    exact mem_markMany hmem
  rw [hsplit, hsplit store, incrementLocally_of_marked hmark]

end Passes

/-! ## What a fault does to the count -/

/-- How far a fault moves the final value of a field. -/
def drift (increments : List (String × ℚ)) (isFresh : Bool) : AggregateFault → String → ℚ
  | .interrupted 0, _ => 0
  | .interrupted (added + 1), field =>
    if isFresh = true then addedTo field (increments.take added) - addedTo field increments else 0
  | .rejected applied undone, field =>
    if isFresh = true then addedTo field (atPlaces applied increments) -
      (if undone = true then 0 else addedTo field increments)
    else 0

section Faults

variable {markers : List (String × String)} {increments : List (String × ℚ)}
  {store : AggregateStore} {marker : String × String}

lemma foldl_expire (count : ℕ) : (([.expire, .expire] : List AggregateCommand).take count).foldl
    AggregateCommand.perform store = store := by
  match count with
  | 0 => rfl
  | 1 => rfl
  | _ + 2 => simp [AggregateCommand.perform]

lemma onceCommands_take (h : store.isFresh marker = true) (added : ℕ) :
    ((onceCommands increments store marker).take (added + 1)).foldl AggregateCommand.perform store =
      (store.mark marker.2).shift (addedTo · (increments.take added)) := by
  obtain ⟨hlegac, hmem⟩ : store.isLegacy marker.1 = false ∧ marker.2 ∉ store.members := by
    simpa [AggregateStore.isFresh] using h
  unfold onceCommands
  rw [if_neg (by simp [hlegac]), if_neg hmem, cons_append, take_succ_cons,
    foldl_cons, take_append, foldl_append, ← map_take,
    foldl_perform_hincrbyfloat, foldl_expire]
  rfl

lemma incrementOnce_of_fresh (h : store.isFresh marker = true) :
    (incrementOnce increments store marker).1 =
      (store.mark marker.2).shift (addedTo · increments) := by
  rw [incrementOnce_eq]
  simp only [h, if_true]

lemma incrementOnce_of_not_fresh (h : store.isFresh marker = false) :
    (incrementOnce increments store marker).1 = store.mark marker.2 := by
  rw [incrementOnce_eq]
  simp [h, AggregateStore.shift_zero]

lemma shift_of_fresh (h : store.isFresh marker = true) (added : List (String × ℚ)) :
    (store.mark marker.2).shift (addedTo · added) = (incrementOnce increments store marker).1.shift
        fun field => addedTo field added - addedTo field increments := by
  rw [incrementOnce_of_fresh h, AggregateStore.shift_shift]
  simp only [add_sub_cancel]

/-- What a fault leaves is what was there before the marker or what is there after it, moved by the
drift of the fault. -/
def Drifts (increments : List (String × ℚ)) (store : AggregateStore) (marker : String × String)
    (fault : AggregateFault) : Prop :=
  faultyOnce increments store marker fault =
      store.shift (drift increments (store.isFresh marker) fault) ∨
    faultyOnce increments store marker fault = (incrementOnce increments store marker).1.shift
      (drift increments (store.isFresh marker) fault)

lemma faultyOnce_interrupted (commands : ℕ) :
    Drifts increments store marker (.interrupted commands) := by
  cases commands with
  | zero => exact .inl store.shift_zero.symm
  | succ added =>
    refine .inr ?_
    cases hfresh : store.isFresh marker with
    | true =>
      rw [faultyOnce, onceCommands_take hfresh, shift_of_fresh hfresh]
      rfl
    | false =>
      have hdrift : drift increments false (.interrupted (added + 1)) = fun _ => 0 := by
        funext field
        simp [drift]
      rw [hdrift, AggregateStore.shift_zero, incrementOnce_of_not_fresh hfresh, faultyOnce,
        onceCommands]
      cases hlegac : store.isLegacy marker.1 with
      | true =>
        cases added with
        | zero => rfl
        | succ added => simp [AggregateCommand.perform]
      | false =>
        have hmem : marker.2 ∈ store.members := by
          simpa [AggregateStore.isFresh, hlegac] using hfresh
        simp [hmem, AggregateCommand.perform]

lemma faultyOnce_rejected (applied : ℕ → Bool) (undone : Bool) :
    Drifts increments store marker (.rejected applied undone) := by
  unfold Drifts
  cases hfresh : store.isFresh marker with
  | false =>
    refine .inl ?_
    have hdrift : drift increments false (.rejected applied undone) = fun _ => 0 := by
      funext field
      simp [drift]
    rw [hdrift, AggregateStore.shift_zero, faultyOnce, if_neg (by simp [hfresh])]
  | true =>
    rw [faultyOnce, if_pos hfresh]
    simp only [foldl_hincrbyfloat_one]
    cases undone with
    | false =>
      refine .inr ?_
      rw [shift_of_fresh hfresh]
      rfl
    | true =>
      have hmem : marker.2 ∉ store.members := by
        simp only [AggregateStore.isFresh, Bool.and_eq_true, decide_eq_true_eq] at hfresh
        exact hfresh.2
      have hdrift : drift increments true (.rejected applied true) =
          (addedTo · (atPlaces applied increments)) := by
        funext field
        simp [drift]
      rw [hdrift]
      simp [AggregateStore.shift, AggregateStore.mark, erase_insert hmem]

lemma incrementLocally_after_fault {attempt : FailedAttempt} {t : AggregateStore}
    (h : attemptStep markers increments store attempt = some t) :
    ∃ marker ∈ markers[attempt.completed]?, (incrementLocally markers increments t).1 =
      (incrementLocally markers increments store).1.shift (drift increments
        ((markMany (markers.take attempt.completed) store).isFresh marker) attempt.fault) := by
  obtain ⟨marker, hmark, rfl⟩ := map_eq_some_iff.mp h
  refine ⟨marker, hmark, ?_⟩
  have hfresh : (incrementLocally (markers.take attempt.completed) increments store).1.isFresh
      marker = (markMany (markers.take attempt.completed) store).isFresh marker := by
    rw [incrementLocally_eq, AggregateStore.isFresh_shift]
  have hnext : (incrementOnce increments
      (incrementLocally (markers.take attempt.completed) increments store).1 marker).1 =
        (incrementLocally (markers.take (attempt.completed + 1)) increments store).1 := by
    rw [take_add_one, hmark, incrementLocally_append]
    rfl
  have hdrif : ∀ fault, Drifts increments
      (incrementLocally (markers.take attempt.completed) increments store).1 marker fault
    | .interrupted commands => faultyOnce_interrupted commands
    | .rejected applied undone => faultyOnce_rejected applied undone
  rw [← hfresh]
  rcases hdrif attempt.fault with heq | heq
  · rw [heq, incrementLocally_shift, incrementLocally_after_take]
  · rw [heq, hnext, incrementLocally_shift, incrementLocally_after_take]

end Faults

/-! ## Every batch once -/

/-- Calls over the network until one is answered; `performed` says of each of the others whether
the script ran. -/
def incrementOverNetwork (markers : List (String × String)) (increments : List (String × ℚ))
    (store : AggregateStore) (performed : List Bool) : AggregateStore :=
  (incrementScript markers increments (performed.foldl (fun store ran =>
    if ran then (incrementScript markers increments store).1 else store) store)).1

/-- The first attempt that succeeds, after attempts that left `t`, has counted the increments once
for each marker that was new at first, and leaves what the calls over the network leave. -/
structure CountsOnce (markers : List (String × String)) (increments : List (String × ℚ))
    (store t : AggregateStore) : Prop where
  fields : ∀ field, (incrementLocally markers increments t).1.fields field =
    store.fields field + addedTo field increments * newMarkers markers store
  network : ∀ performed, (incrementLocally markers increments t).1 =
    incrementOverNetwork markers increments store performed

/-- A fault does not meet the increments of a new marker, or meets none that count: an interrupted
attempt has added them all or not marked yet, a rejected one has added none and unmarked. -/
def FaultHarmless (markers : List (String × String)) (increments : List (String × ℚ))
    (store : AggregateStore) (attempt : FailedAttempt) : Prop :=
  ∀ marker ∈ markers[attempt.completed]?,
    (markMany (markers.take attempt.completed) store).isFresh marker = true →
      match attempt.fault with
      | .interrupted commands => commands = 0 ∨ ∀ field,
          addedTo field (increments.take (commands - 1)) = addedTo field increments
      | .rejected applied undone => ∀ field, addedTo field (atPlaces applied increments) =
          if undone = true then 0 else addedTo field increments

section Once

variable {markers : List (String × String)} {increments : List (String × ℚ)}
  {store : AggregateStore}

lemma drift_eq_zero_iff (isFresh : Bool) (fault : AggregateFault) :
    (∀ field, drift increments isFresh fault field = 0) ↔ (isFresh = true →
      match fault with
      | .interrupted commands => commands = 0 ∨ ∀ field,
          addedTo field (increments.take (commands - 1)) = addedTo field increments
      | .rejected applied undone => ∀ field, addedTo field (atPlaces applied increments) =
          if undone = true then 0 else addedTo field increments) := by
  cases isFresh with
  | false =>
    cases fault with
    | interrupted commands => cases commands <;> simp [drift]
    | rejected applied undone => simp [drift]
  | true =>
    cases fault with
    | interrupted commands =>
      cases commands with
      | zero => simp [drift]
      | succ added => simp [drift, sub_eq_zero]
    | rejected applied undone => simp [drift, sub_eq_zero]

/-- A call over the network that was performed before changes nothing. -/
lemma incrementOverNetwork_eq (performed : List Bool) :
    incrementOverNetwork markers increments store performed =
      (incrementLocally markers increments store).1 := by
  unfold incrementOverNetwork
  simp only [incrementScript_eq]
  induction performed generalizing store with
  | nil => rfl
  | cons ran performed ih =>
    rw [foldl_cons, ih]
    cases ran with
    | false => rfl
    | true =>
      have hagain := incrementLocally_after_take markers increments store markers.length
      rwa [take_length] at hagain

/-- Attempts have left the count right exactly if the next one leaves what one pass leaves. -/
lemma countsOnce_iff {t : AggregateStore} : CountsOnce markers increments store t ↔
    (incrementLocally markers increments t).1 = (incrementLocally markers increments store).1 := by
  constructor
  · intro h
    exact (h.network []).trans (incrementOverNetwork_eq [])
  · intro h
    refine ⟨fun field => ?_, fun performed => h.trans (incrementOverNetwork_eq performed).symm⟩
    have hfield : ∀ markers (t : AggregateStore), (markMany markers t).fields = t.fields := by
      intro markers
      induction markers with
      | nil => exact fun t => rfl
      | cons marker markers ih => exact fun t => ih (t.mark marker.2)
    rw [h, incrementLocally_eq]
    exact congrArg (· + _) (congrFun (hfield markers store) field)

end Once

/-- **Every batch is counted once.** After attempts that fail anywhere, the count comes out right
at every point exactly when all their faults were harmless. -/
theorem incrementHistoricAggregatesOnce_once_iff (markerKeys markerMembers : List String)
    (increments : List AggregateIncrement) (store : AggregateStore)
    (attempts : List FailedAttempt) :
    Meets
        (attemptStep (markerPairs markerKeys markerMembers) (normalizeIncrements increments))
        (FaultHarmless (markerPairs markerKeys markerMembers) (normalizeIncrements increments))
        store attempts ↔
      ∀ earlier t, earlier <+: attempts → run
          (attemptStep (markerPairs markerKeys markerMembers) (normalizeIncrements increments))
          store earlier = some t →
        CountsOnce (markerPairs markerKeys markerMembers) (normalizeIncrements increments)
          store t := by
  refine meets_iff_invariant (fun s attempt hs => ?_) attempts (countsOnce_iff.mpr rfl)
  rw [countsOnce_iff] at hs
  cases hstep : attemptStep (markerPairs markerKeys markerMembers)
    (normalizeIncrements increments) s attempt with
  | none =>
    have hnone := map_eq_none_iff.mp hstep
    refine iff_of_true (fun marker hmarker => ?_) nofun
    cases hnone.symm.trans hmarker
  | some t =>
    obtain ⟨marker, hmarker, hcount⟩ := incrementLocally_after_fault hstep
    have hexact : CountsOnce (markerPairs markerKeys markerMembers)
        (normalizeIncrements increments) store t ↔ ∀ field, drift (normalizeIncrements increments)
            ((markMany ((markerPairs markerKeys markerMembers).take attempt.completed) s).isFresh
              marker) attempt.fault field = 0 := by
      rw [countsOnce_iff, hcount, hs, AggregateStore.shift_eq_self_iff]
    rw [drift_eq_zero_iff] at hexact
    constructor
    · intro hharmless t' ht
      cases ht
      exact hexact.mpr (hharmless marker hmarker)
    · intro hall marker' hmarker'
      obtain rfl := some.inj (hmarker.symm.trans hmarker')
      exact hexact.mp (hall t rfl)

/-- One marker and one increment of three: the attempt stops after it has marked, and the retry
finds the marker and reports success. -/
theorem incrementHistoricAggregatesOnce_lost :
    let store : AggregateStore := ⟨fun _ => 0, ∅, ∅⟩
    let markers := markerPairs ["m"] []
    let increments := normalizeIncrements [⟨"n", .finite 3⟩]
    ∃ t, attemptStep markers increments store ⟨0, .interrupted 1⟩ = some t ∧
      (incrementLocally markers increments t).1.fields "n" = 0 ∧
      (incrementScript markers increments store).1.fields "n" = 3 ∧
      ¬ CountsOnce markers increments store t := by
  intro store markers increments
  obtain ⟨t, ht⟩ : ∃ t, attemptStep markers increments store ⟨0, .interrupted 1⟩ = some t :=
    ⟨_, rfl⟩
  have hlost : (incrementLocally markers increments t).1.fields "n" = 0 := by
    cases ht
    decide +kernel
  have hscript : (incrementScript markers increments store).1.fields "n" = 3 := by decide +kernel
  refine ⟨t, ht, hlost, hscript, fun h => ?_⟩
  have hclaimed := h.fields "n"
  rw [hlost] at hclaimed
  revert hclaimed
  decide +kernel

end CtsEngine
