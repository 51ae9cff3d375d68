import CtsEngine.InlineRedis.Commands
import CtsEngine.Settings.HashValues
import CtsEngine.Transition.Runs

/-!
# Position hashes and their indexes

The hash of a position is found through the index of all positions and the index of its connection.
`savePosition` and `deletePosition` read the previous hash, change the indexes command by command
and write or delete the hash at the end; the readers take the ids of an index, read the hash of
each, and remove the ids without a hash from the index.  The calls of any number of workers run
command by command in any order, and no command fails.

The index `none` is the one of all positions, `some connection` the one of a connection.  The ids
are not those of live positions.
-/

namespace CtsEngine

open Function

open JsonText (Value)

/-- The fields of a hash; a hash without fields does not exist. -/
abbrev PositionHash := List (String × String)

/-- The hashes and the indexes. -/
structure PositionStore where
  hash : String → PositionHash
  index : Option String → List String

/-- `getRecordConnectionId` of the fields of a hash. -/
def getRecordConnectionId (record : PositionHash) : String :=
  trim (((Keyed.get? record "connectionId").or (Keyed.get? record "connection_id")).getD "")

/-- `position:${id}` belongs in an index. -/
def BelongsIn (hash : PositionHash) (index : Option String) : Prop :=
  hash ≠ [] ∧ ∀ connection ∈ index, connection = getRecordConnectionId hash

instance (hash : PositionHash) (index : Option String) : Decidable (BelongsIn hash index) :=
  inferInstanceAs (Decidable (_ ∧ ∀ connection ∈ index, _))

/-- There is no index of a connection without a name. -/
def IsIndex (index : Option String) : Prop := index ≠ some ""

/-- The indexes have the ids of the hashes that belong in them. -/
def PositionStore.Matches (s : PositionStore) : Prop :=
  ∀ id index, IsIndex index → (id ∈ s.index index ↔ BelongsIn (s.hash id) index)

/-! ## Commands -/

/-- A command on an index or a hash, of one id. -/
inductive IndexCommand
  | sadd (index : Option String) (id : String)
  | srem (index : Option String) (id : String)
  | hset (id : String) (data : PositionHash)
  | del (id : String)
deriving DecidableEq

namespace PositionStore

/-- `SADD`. -/
def sadd (s : PositionStore) (index : Option String) (id : String) : PositionStore :=
  { s with index := update s.index index (addMembers (s.index index) [id]) }

/-- `SREM`. -/
def srem (s : PositionStore) (index : Option String) (ids : List String) : PositionStore :=
  { s with index := update s.index index ((s.index index).filter (· ∉ ids)) }

/-- `HSET`: the other fields of the hash stay. -/
def hset (s : PositionStore) (id : String) (data : PositionHash) : PositionStore :=
  { s with hash := update s.hash id (mergeFields (s.hash id) data) }

/-- `DEL`.  The inline adapter also removes the id of a hash that exists from all indexes. -/
def del (cleansIndexes : Bool) (s : PositionStore) (id : String) : PositionStore where
  hash := update s.hash id []
  index := if cleansIndexes && !(s.hash id).isEmpty then
      fun index => (s.index index).filter (· ≠ id)
    else s.index

variable {index other : Option String} {s : PositionStore} {id member : String}

lemma mem_sadd : member ∈ (s.sadd index id).index other ↔
      (other = index ∧ member = id) ∨ member ∈ s.index other := by
  by_cases hoth : other = index
  · subst hoth
    by_cases hmem : id ∈ s.index other
    · simp +contextual [sadd, addMembers, hmem]
    · simp [sadd, addMembers, hmem, or_comm]
  · simp [sadd, hoth]

lemma mem_srem {ids : List String} : member ∈ (s.srem index ids).index other ↔
      member ∈ s.index other ∧ ¬ (other = index ∧ member ∈ ids) := by
  by_cases hoth : other = index
  · subst hoth
    simp [srem]
  · simp [srem, hoth]

lemma mem_index_del {cleansIndexes : Bool} : member ∈ (s.del cleansIndexes id).index index ↔
      member ∈ s.index index ∧ ¬ (cleansIndexes ∧ s.hash id ≠ [] ∧ member = id) := by
  rw [del]
  split
  case isTrue hclean =>
    rw [Bool.and_eq_true, Bool.not_eq_true', List.isEmpty_eq_false_iff] at hclean
    simp [hclean]
  case isFalse hclean =>
    refine (and_iff_left fun h => hclean ?_).symm
    rw [h.1, Bool.true_and, Bool.not_eq_true', List.isEmpty_eq_false_iff]
    exact h.2.1

def run (cleansIndexes : Bool) (s : PositionStore) : IndexCommand → PositionStore
  | .sadd index id => s.sadd index id
  | .srem index id => s.srem index [id]
  | .hset id data => s.hset id data
  | .del id => s.del cleansIndexes id

end PositionStore

/-! ## Calls -/

/-- `savePosition` with the time of the save, or `deletePosition`. -/
inductive WriterCall
  | savePosition (id : String) (position : List (String × Value Double)) (updatedAt : String)
  | deletePosition (id : String)

namespace WriterCall

/-- The id of the position. -/
def id : WriterCall → String
  | .savePosition id _ _ => id
  | .deletePosition id => id

/-- `flattenForHmset({ ...position, updated_at })`, nothing for a deletion. -/
def data : WriterCall → PositionHash
  | .savePosition _ position updatedAt =>
    Settings.flattenForHmset (Keyed.put position "updated_at" (.text updatedAt))
  | .deletePosition _ => []

variable (call : WriterCall)

/-- The last command of a call. -/
def lastCommand : IndexCommand :=
  match call with
  | .savePosition id _ _ => .hset id call.data
  | .deletePosition id => .del id

/-- `updatePositionIndexes` and `removePositionIndexes` after they have read the previous hash. -/
def indexChanges (previous : PositionHash) : List IndexCommand :=
  let previousConnectionId := getRecordConnectionId previous
  match call with
  | .savePosition id _ _ =>
    let nextConnectionId := getRecordConnectionId call.data
    .sadd none id :: ((if previousConnectionId ≠ "" ∧ previousConnectionId ≠ nextConnectionId then
          [.srem (some previousConnectionId) id] else []) ++
        if nextConnectionId ≠ "" then [.sadd (some nextConnectionId) id] else [])
  | .deletePosition id =>
    .srem none id ::
      if previousConnectionId ≠ "" then [.srem (some previousConnectionId) id] else []

/-- The commands of a call that has read the previous hash. -/
def commands (previous : PositionHash) : List IndexCommand :=
  call.indexChanges previous ++ [call.lastCommand]

end WriterCall

/-- What a worker is doing: it will read the previous hash, has commands left, will read the ids of
an index, has hashes of ids left to read, will remove the ids without a hash, or nothing. -/
inductive WorkerState
  | opening (call : WriterCall)
  | writing (call : WriterCall) (commands : List IndexCommand)
  | listing (index : Option String)
  | checking (index : Option String) (unread stale : List String)
  | pruning (index : Option String) (stale : List String)
  | done

/-- The store and the workers. -/
structure IndexState where
  store : PositionStore
  workers : List WorkerState := []

/-- A worker starts a call or goes on. -/
inductive IndexAction
  | write (call : WriterCall)
  | read (index : Option String)
  | advance (i : ℕ)

/-- A worker after the hashes that it has left to read. -/
def checked (index : Option String) (unread stale : List String) : WorkerState :=
  if unread ≠ [] then .checking index unread stale
  else if stale ≠ [] then .pruning index stale
  else .done

/-- One command of a worker. -/
def advanceWorker (cleansIndexes : Bool) (store : PositionStore) :
    WorkerState → Option (PositionStore × WorkerState)
  | .opening call => some (store, .writing call (call.commands (store.hash call.id)))
  | .writing call (command :: commands) =>
    some (store.run cleansIndexes command, if commands = [] then .done else .writing call commands)
  | .listing index => some (store, checked index (store.index index) [])
  | .checking index (id :: unread) stale =>
    some (store, checked index unread (if store.hash id = [] then stale ++ [id] else stale))
  | .pruning index stale => some (store.srem index stale, .done)
  | _ => none

/-- A step of a worker, or a call that starts. -/
def IndexState.step (cleansIndexes : Bool) (s : IndexState) : IndexAction → Option IndexState
  | .write call => some { s with workers := s.workers ++ [.opening call] }
  | .read index => some { s with workers := s.workers ++ [.listing index] }
  | .advance i =>
    s.workers[i]?.bind fun worker =>
      (advanceWorker cleansIndexes s.store worker).map fun (store, worker) =>
        ⟨store, s.workers.set i worker⟩

/-! ## Calls that agree -/

/-- The call of a worker that has read the previous hash. -/
def WorkerState.writer? : WorkerState → Option WriterCall
  | .writing call _ => some call
  | _ => none

/-- Two calls for one id that both delete it or both save it for one connection. -/
def WriterCall.Agrees (call other : WriterCall) : Prop :=
  (call.data = [] ↔ other.data = []) ∧
    getRecordConnectionId call.data = getRecordConnectionId other.data

instance WriterCall.decidableAgrees (call other : WriterCall) : Decidable (call.Agrees other) :=
  inferInstanceAs (Decidable (_ ∧ _))

/-- No worker is between the first and the last command of a call for an id. -/
def IndexState.IsResting (s : IndexState) (id : String) : Prop :=
  ∀ worker ∈ s.workers, ∀ call ∈ worker.writer?, call.id ≠ id

instance (s : IndexState) (id : String) : Decidable (s.IsResting id) :=
  inferInstanceAs (Decidable (∀ worker ∈ s.workers, ∀ call ∈ worker.writer?, _))

/-- What the next command of a worker has to meet. -/
def OrderlyWorker (s : IndexState) : WorkerState → Prop
  | .opening call => ∀ worker ∈ s.workers, ∀ other ∈ worker.writer?,
      other.id = call.id → call.Agrees other
  | .writing call commands => commands = [call.lastCommand] → call.data ≠ [] →
      getRecordConnectionId (mergeFields (s.store.hash call.id) call.data) =
        getRecordConnectionId call.data
  | .pruning index stale => ∀ id ∈ stale,
      (∀ worker ∈ s.workers, ∀ call ∈ worker.writer?, call.id = id → ¬ BelongsIn call.data index) ∧
        (s.IsResting id → ¬ BelongsIn (s.store.hash id) index)
  | _ => True

instance (s : IndexState) : ∀ worker, Decidable (OrderlyWorker s worker)
  | .opening _ => inferInstanceAs (Decidable (∀ worker ∈ s.workers, _))
  | .writing _ _ => inferInstanceAs (Decidable (_ → _ → _))
  | .listing _ => inferInstanceAs (Decidable True)
  | .checking _ _ _ => inferInstanceAs (Decidable True)
  | .pruning _ stale => inferInstanceAs (Decidable (∀ id ∈ stale, _))
  | .done => inferInstanceAs (Decidable True)

/-- The condition on the steps of a run. -/
def Orderly (s : IndexState) : IndexAction → Prop
  | .advance i => ∀ worker ∈ s.workers[i]?, OrderlyWorker s worker
  | _ => True

instance (s : IndexState) : ∀ action, Decidable (Orderly s action)
  | .write _ => inferInstanceAs (Decidable True)
  | .read _ => inferInstanceAs (Decidable True)
  | .advance i => inferInstanceAs (Decidable (∀ worker ∈ s.workers[i]?, _))

end CtsEngine
