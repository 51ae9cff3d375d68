import CtsEngine.PositionIndex.Calls

/-!
# Runs on the indexes of positions

`matches_of_orderly`: when all calls of an orderly run have ended, the indexes have exactly the ids
of the hashes that belong in them.  While calls for an id are under way, what an index lacks or has
too much is what one of them has yet to do.
-/

namespace CtsEngine

open Option Function List WorkerState PositionStore Keyed Transition IndexState

variable {s t : IndexState} {call other : WriterCall} {commands : List IndexCommand}

/-! ## Calls -/

lemma mergeFields_ne_nil {data : PositionHash} (h : data ≠ []) (existing : PositionHash) :
    mergeFields existing data ≠ [] := by
  obtain ⟨entry, hent⟩ := exists_mem_of_ne_nil data h
  intro hemp
  have hmem := (mem_keys_mergeFields existing data entry.1).mpr (.inr (mem_map_of_mem hent))
  rw [hemp] at hmem
  exact not_mem_nil hmem

lemma data_savePosition_ne_nil (id : String) (position : List (String × JsonText.Value Double))
    (updatedAt : String) : (WriterCall.savePosition id position updatedAt).data ≠ [] := by
  have hmem : ("updated_at", JsonText.Value.text updatedAt) ∈
      put position "updated_at" (.text updatedAt) :=
    mem_of_get? (get?_put_self position _ _)
  exact ne_nil_of_mem (mem_filterMap.mpr ⟨_, hmem, rfl⟩)

lemma WriterCall.Agrees.belongsIn_iff (h : call.Agrees other) (index : Option String) :
    BelongsIn call.data index ↔ BelongsIn other.data index := by
  rw [BelongsIn, BelongsIn, Ne, h.1, h.2]

lemma WriterCall.Agrees.symm (h : call.Agrees other) : other.Agrees call := ⟨h.1.symm, h.2.symm⟩

lemma WriterCall.Agrees.refl (call : WriterCall) : call.Agrees call := ⟨Iff.rfl, rfl⟩

/-- The commands of a call before its last one: the id is added to the indexes in which it will
belong and removed from others. -/
def IsPlan (call : WriterCall) (commands : List IndexCommand) : Prop :=
  ∃ changes, commands = changes ++ [call.lastCommand] ∧ ∀ command ∈ changes,
    (∃ index, command = .sadd index call.id ∧ BelongsIn call.data index) ∨
      ∃ index, command = .srem index call.id ∧ ¬ BelongsIn call.data index

lemma isPlan_commands (call : WriterCall) (previous : PositionHash) :
    IsPlan call (call.commands previous) := by
  refine ⟨_, rfl, fun command hmem => ?_⟩
  cases call with
  | savePosition id position updatedAt =>
    have hdata := data_savePosition_ne_nil id position updatedAt
    rcases mem_cons.mp hmem with rfl | hmem
    · exact .inl ⟨none, rfl, hdata, nofun⟩
    rcases mem_append.mp hmem with hmem | hmem
    · split at hmem
      case isTrue hmoved =>
        refine .inr ⟨_, mem_singleton.mp hmem, fun hbelon => hmoved.2 ?_⟩
        exact hbelon.2 _ rfl
      case isFalse => cases hmem
    · split at hmem
      case isTrue =>
        exact .inl ⟨_, mem_singleton.mp hmem, hdata, fun _ h => (some.inj h).symm⟩
      case isFalse => cases hmem
  | deletePosition id =>
    rcases mem_cons.mp hmem with rfl | hmem
    · exact .inr ⟨none, rfl, fun hbelon => hbelon.1 rfl⟩
    · split at hmem
      case isTrue => exact .inr ⟨_, mem_singleton.mp hmem, fun hbelon => hbelon.1 rfl⟩
      case isFalse => cases hmem

lemma sadd_mem_commands {index : Option String} (hidx : IsIndex index)
    (hbelon : BelongsIn call.data index) (previous : PositionHash) :
    .sadd index call.id ∈ call.commands previous := by
  refine mem_append_left _ ?_
  cases call with
  | savePosition id position updatedAt =>
    cases index with
    | none => exact mem_cons_self
    | some connection =>
      obtain rfl := hbelon.2 connection rfl
      refine mem_cons_of_mem _ (mem_append_right _ ?_)
      rw [if_pos fun h => hidx (congrArg some h)]
      exact mem_cons_self
  | deletePosition id => exact absurd rfl hbelon.1

lemma srem_mem_commands {index : Option String} (hidx : IsIndex index)
    (hbelon : ¬ BelongsIn call.data index) {previous : PositionHash}
    (hprev : BelongsIn previous index) :
    .srem index call.id ∈ call.commands previous := by
  cases call with
  | savePosition id position updatedAt =>
    have hdata := data_savePosition_ne_nil id position updatedAt
    cases index with
    | none => exact absurd ⟨hdata, nofun⟩ hbelon
    | some connection =>
      obtain rfl := hprev.2 connection rfl
      refine mem_cons_of_mem _ (mem_append_left _ ?_)
      rw [if_pos]
      · exact mem_cons_self
      · exact ⟨fun h => hidx (congrArg some h), fun h => hbelon
          ⟨hdata, fun _ hconn => (some.inj hconn).symm.trans h⟩⟩
  | deletePosition id =>
    cases index with
    | none => exact mem_cons_self
    | some connection =>
      obtain rfl := hprev.2 connection rfl
      refine mem_cons_of_mem _ ?_
      rw [if_pos fun h => hidx (congrArg some h)]
      exact mem_cons_self

/-! ## Calls under way -/

/-- A worker has commands of a call left. -/
def IsWriting (s : IndexState) (call : WriterCall) (commands : List IndexCommand) : Prop :=
  .writing call commands ∈ s.workers

/-- What holds at every moment of an orderly run. -/
structure Consistent (s : IndexState) : Prop where
  planned : ∀ call commands, IsWriting s call commands → IsPlan call commands
  agrees : ∀ call commands other others, IsWriting s call commands → IsWriting s other others →
    call.id = other.id → call.Agrees other
  resting : ∀ id, s.IsResting id → ∀ index, IsIndex index →
    (id ∈ s.store.index index ↔ BelongsIn (s.store.hash id) index)
  added : ∀ call commands, IsWriting s call commands → ∀ index, IsIndex index →
    BelongsIn call.data index → .sadd index call.id ∈ commands ∨ call.id ∈ s.store.index index
  removed : ∀ call commands, IsWriting s call commands → ∀ index, IsIndex index →
    ¬ BelongsIn call.data index → call.id ∈ s.store.index index →
      ∃ other others, IsWriting s other others ∧ other.id = call.id ∧ .srem index call.id ∈ others

lemma forall_writer_iff {P : WriterCall → Prop} :
    (∀ worker ∈ s.workers, ∀ call ∈ worker.writer?, P call) ↔
      ∀ call commands, IsWriting s call commands → P call := by
  constructor
  · exact fun h call commands hwrit => h _ hwrit call rfl
  · intro h worker hwork call hcall
    cases worker with
    | writing other commands =>
      cases hcall
      exact h _ commands hwork
    | _ => cases hcall

section Steps

variable {store : PositionStore} {i : ℕ} {before after : WorkerState}

lemma writes_of_set {call : WriterCall} {commands : List IndexCommand}
    (h : IsWriting ⟨store, s.workers.set i after⟩ call commands) :
    after = .writing call commands ∨ IsWriting s call commands :=
  (mem_or_eq_of_mem_set h).symm.imp_left Eq.symm

lemma writes_set (hat : s.workers[i]? = some before) {call : WriterCall}
    {commands : List IndexCommand} (h : IsWriting s call commands) :
    before = .writing call commands ∨ IsWriting ⟨store, s.workers.set i after⟩ call commands := by
  by_cases heq : before = .writing call commands
  · exact .inl heq
  · exact .inr (mem_set_of_ne hat h (Ne.symm heq))

lemma Consistent.idle (h : Consistent s) (hat : s.workers[i]? = some before)
    (hbef : before.writer? = none) (hafter : after.writer? = none) :
    Consistent ⟨s.store, s.workers.set i after⟩ := by
  have hold : ∀ {call commands}, IsWriting ⟨s.store, s.workers.set i after⟩ call commands →
      IsWriting s call commands := by
    intro call commands hwrit
    rcases writes_of_set hwrit with rfl | hwrit
    · cases hafter
    · exact hwrit
  have hnew : ∀ {call commands}, IsWriting s call commands →
      IsWriting ⟨s.store, s.workers.set i after⟩ call commands := by
    intro call commands hwrit
    rcases writes_set hat hwrit with rfl | hwrit
    · cases hbef
    · exact hwrit
  refine ⟨fun _ _ hw => h.planned _ _ (hold hw), fun _ _ _ _ hw hw' => h.agrees _ _ _ _
    (hold hw) (hold hw'), fun id hrest => h.resting id ?_, fun _ _ hw => h.added _ _ (hold hw), ?_⟩
  · rw [IndexState.IsResting, forall_writer_iff] at hrest ⊢
    exact fun call commands hw => hrest call commands (hnew hw)
  · intro call commands hw index hidx hbelon hmem
    obtain ⟨other, others, hoth, hid, hsrem⟩ :=
      h.removed call commands (hold hw) index hidx hbelon hmem
    exact ⟨other, others, hnew hoth, hid, hsrem⟩

/-- Starting a call keeps consistency. -/
lemma Consistent.open (h : Consistent s) (hat : s.workers[i]? = some (.opening call))
    (hord : ∀ other others, IsWriting s other others → other.id = call.id → call.Agrees other) :
    Consistent ⟨s.store,
      s.workers.set i (.writing call (call.commands (s.store.hash call.id)))⟩ := by
  have hnew : ∀ {other others}, IsWriting s other others → IsWriting ⟨s.store,
      s.workers.set i (.writing call (call.commands (s.store.hash call.id)))⟩ other others := by
    intro other others hwrit
    rcases writes_set hat hwrit with heq | hwrit
    · cases heq
    · exact hwrit
  have hself : IsWriting ⟨s.store,
      s.workers.set i (.writing call (call.commands (s.store.hash call.id)))⟩ call
        (call.commands (s.store.hash call.id)) := mem_set_self hat
  refine ⟨?_, ?_, ?_, ?_, ?_⟩
  · intro other others hw
    rcases writes_of_set hw with heq | hw
    · obtain ⟨rfl, rfl⟩ := writing.inj heq
      exact isPlan_commands _ _
    · exact h.planned _ _ hw
  · intro first _ second _ hfst hsec hid
    rcases writes_of_set hfst with heq | hfst <;>
      rcases writes_of_set hsec with heq' | hsec
    · obtain ⟨rfl, -⟩ := writing.inj heq
      obtain ⟨rfl, -⟩ := writing.inj heq'
      exact .refl _
    · obtain ⟨rfl, -⟩ := writing.inj heq
      exact hord _ _ hsec hid.symm
    · obtain ⟨rfl, -⟩ := writing.inj heq'
      exact (hord _ _ hfst hid).symm
    · exact h.agrees _ _ _ _ hfst hsec hid
  · intro id hrest
    refine h.resting id ?_
    rw [IndexState.IsResting, forall_writer_iff] at hrest ⊢
    exact fun other others hw => hrest other others (hnew hw)
  · intro other others hw index hidx hbelon
    rcases writes_of_set hw with heq | hw
    · obtain ⟨rfl, rfl⟩ := writing.inj heq
      exact .inl (sadd_mem_commands hidx hbelon _)
    · exact h.added other others hw index hidx hbelon
  · intro other others hw index hidx hbelon hmem
    rcases writes_of_set hw with heq | hw
    · obtain ⟨rfl, rfl⟩ := writing.inj heq
      by_cases hrest : s.IsResting call.id
      · have hprev := (h.resting call.id hrest index hidx).mp hmem
        exact ⟨call, _, hself, rfl, srem_mem_commands hidx hbelon hprev⟩
      · rw [IndexState.IsResting, forall_writer_iff] at hrest
        push Not at hrest
        obtain ⟨other, others, hoth, hid⟩ := hrest
        have hnot : ¬ BelongsIn other.data index := fun hoth' =>
          hbelon (((hord other others hoth hid).belongsIn_iff index).mpr hoth')
        obtain ⟨third, thirds, hthird, hid', hsrem⟩ :=
          h.removed other others hoth index hidx hnot (hid ▸ hmem)
        exact ⟨third, thirds, hnew hthird, hid'.trans hid, hid ▸ hsrem⟩
    · obtain ⟨third, thirds, hthird, hid, hsrem⟩ := h.removed other others hw index hidx hbelon hmem
      exact ⟨third, thirds, hnew hthird, hid, hsrem⟩

/-- A command that is not the last one keeps consistency. -/
lemma Consistent.change (h : Consistent s) {command : IndexCommand}
    (hat : s.workers[i]? = some (.writing call (command :: commands))) (hrest : commands ≠ [])
    (hhash : store.hash = s.store.hash)
    (hoth : ∀ id ≠ call.id, ∀ index, id ∈ store.index index ↔ id ∈ s.store.index index)
    (hadd : ∀ index, BelongsIn call.data index →
      call.id ∈ s.store.index index ∨ command = .sadd index call.id → call.id ∈ store.index index)
    (hremov : ∀ index, ¬ BelongsIn call.data index → call.id ∈ store.index index →
      call.id ∈ s.store.index index ∧ command ≠ .srem index call.id) :
    Consistent ⟨store, s.workers.set i (.writing call commands)⟩ := by
  have hbef : IsWriting s call (command :: commands) := mem_of_getElem? hat
  have hself : IsWriting ⟨store, s.workers.set i (.writing call commands)⟩ call commands :=
    mem_set_self hat
  have hcall : ∀ {other others},
      IsWriting ⟨store, s.workers.set i (.writing call commands)⟩ other others →
        ∃ before, IsWriting s other before := by
    intro other others hw
    rcases writes_of_set hw with heq | hw
    · obtain ⟨rfl, -⟩ := writing.inj heq
      exact ⟨_, hbef⟩
    · exact ⟨_, hw⟩
  refine ⟨?_, ?_, ?_, ?_, ?_⟩
  · intro other others hw
    rcases writes_of_set hw with heq | hw
    · obtain ⟨rfl, rfl⟩ := writing.inj heq
      obtain ⟨changes, hchan, hplan⟩ := h.planned _ _ hbef
      cases changes with
      | nil => exact absurd (List.cons.inj hchan).2 hrest
      | cons first changes =>
        obtain ⟨-, hchan⟩ := List.cons.inj hchan
        exact ⟨changes, hchan, fun c hc => hplan c (mem_cons_of_mem _ hc)⟩
    · exact h.planned _ _ hw
  · intro first _ second _ hfst hsec hid
    obtain ⟨_, hfst⟩ := hcall hfst
    obtain ⟨_, hsec⟩ := hcall hsec
    exact h.agrees _ _ _ _ hfst hsec hid
  · intro id hresti index hidx
    rw [IndexState.IsResting, forall_writer_iff] at hresti
    have hne : id ≠ call.id := (hresti _ _ hself).symm
    rw [hoth id hne, hhash]
    refine h.resting id ?_ index hidx
    rw [IndexState.IsResting, forall_writer_iff]
    intro other others hw
    rcases writes_set hat hw with heq | hw
    · obtain ⟨rfl, -⟩ := writing.inj heq
      exact hne.symm
    · exact hresti other others hw
  · intro other others hw index hidx hbelon
    by_cases hid : other.id = call.id
    · obtain ⟨before, hoth⟩ := hcall hw
      have hbelon' : BelongsIn call.data index :=
        ((h.agrees _ _ _ _ hoth hbef hid).belongsIn_iff index).mp hbelon
      rw [hid]
      rcases writes_of_set hw with heq | hw
      · obtain ⟨rfl, rfl⟩ := writing.inj heq
        rcases h.added _ _ hbef index hidx hbelon' with hmem | hmem
        · rcases mem_cons.mp hmem with heq | hmem
          · exact .inr (hadd index hbelon' (.inr heq.symm))
          · exact .inl hmem
        · exact .inr (hadd index hbelon' (.inl hmem))
      · have hadded := h.added _ _ hw index hidx hbelon
        rw [hid] at hadded
        exact hadded.imp_right fun hmem => hadd index hbelon' (.inl hmem)
    · rcases writes_of_set hw with heq | hw
      · obtain ⟨rfl, -⟩ := writing.inj heq
        exact absurd rfl hid
      · rw [hoth _ hid]
        exact h.added _ _ hw index hidx hbelon
  · intro other others hw index hidx hbelon hmem
    obtain ⟨before, hprev⟩ := hcall hw
    by_cases hid : other.id = call.id
    · have hbelon' : ¬ BelongsIn call.data index := fun hbelon' =>
        hbelon (((h.agrees _ _ _ _ hprev hbef hid).belongsIn_iff index).mpr hbelon')
      rw [hid] at hmem ⊢
      obtain ⟨hold, hne⟩ := hremov index hbelon' hmem
      obtain ⟨third, thirds, hthird, hid', hsrem⟩ := h.removed _ _ hbef index hidx hbelon' hold
      rcases writes_set hat hthird with heq | hthird
      · obtain ⟨rfl, rfl⟩ := writing.inj heq
        exact ⟨call, commands, hself, rfl, (mem_cons.mp hsrem).resolve_left fun heq => hne heq.symm⟩
      · exact ⟨third, thirds, hthird, hid', hsrem⟩
    · rw [hoth _ hid] at hmem
      obtain ⟨third, thirds, hthird, hid', hsrem⟩ := h.removed _ _ hprev index hidx hbelon hmem
      rcases writes_set hat hthird with heq | hthird
      · obtain ⟨rfl, -⟩ := writing.inj heq
        exact absurd hid'.symm hid
      · exact ⟨third, thirds, hthird, hid', hsrem⟩

lemma Consistent.command (h : Consistent s) (cleansIndexes : Bool) {command : IndexCommand}
    (hat : s.workers[i]? = some (.writing call (command :: commands))) (hrest : commands ≠ []) :
    Consistent ⟨s.store.run cleansIndexes command, s.workers.set i (.writing call commands)⟩ := by
  obtain ⟨changes, hchan, hplan⟩ := h.planned _ _ (mem_of_getElem? hat)
  have hmem : command ∈ changes := by
    cases changes with
    | nil => exact absurd (List.cons.inj hchan).2 hrest
    | cons first changes =>
      obtain ⟨rfl, -⟩ := List.cons.inj hchan
      exact mem_cons_self
  rcases hplan command hmem with ⟨index, rfl, hbelon⟩ | ⟨index, rfl, hbelon⟩
  · refine h.change hat hrest rfl (fun id hid other => ?_) (fun other _ hadd => ?_)
      fun other hnot hnew => ?_
    · rw [PositionStore.run, mem_sadd]
      exact or_iff_right fun heq => hid heq.2
    · rw [PositionStore.run, mem_sadd]
      exact hadd.symm.imp_left fun heq => ⟨(IndexCommand.sadd.inj heq).1.symm, rfl⟩
    · rcases mem_sadd.mp hnew with ⟨rfl, -⟩ | hold
      · exact absurd hbelon hnot
      · exact ⟨hold, by simp⟩
  · refine h.change hat hrest rfl (fun id hid other => ?_) (fun other hoth hadd => ?_)
      fun other hnot hnew => ?_
    · rw [PositionStore.run, mem_srem]
      exact and_iff_left fun heq => hid (mem_singleton.mp heq.2)
    · rw [PositionStore.run, mem_srem]
      refine ⟨hadd.resolve_right (by simp), fun heq => hbelon ?_⟩
      rwa [← heq.1]
    · obtain ⟨hold, hne⟩ := mem_srem.mp hnew
      refine ⟨hold, fun heq => hne ⟨(IndexCommand.srem.inj heq).1.symm, ?_⟩⟩
      exact mem_singleton_self _

/-- What the last command of a call leaves: the hash is the one of the call, and no index has more
of its id than before. -/
structure Finishes (call : WriterCall) (before after : PositionStore) : Prop where
  hash : ∀ index, BelongsIn (after.hash call.id) index ↔ BelongsIn call.data index
  hash_other : ∀ id ≠ call.id, after.hash id = before.hash id
  index_other : ∀ id ≠ call.id, ∀ index, id ∈ after.index index ↔ id ∈ before.index index
  index_kept : ∀ index, BelongsIn call.data index → call.id ∈ before.index index →
    call.id ∈ after.index index
  index_old : ∀ index, call.id ∈ after.index index → call.id ∈ before.index index

lemma finishes_lastCommand (cleansIndexes : Bool) (store : PositionStore) (hmerg : call.data ≠ [] →
      getRecordConnectionId (mergeFields (store.hash call.id) call.data) =
        getRecordConnectionId call.data) :
    Finishes call store (store.run cleansIndexes call.lastCommand) := by
  cases call with
  | savePosition id position updatedAt =>
    have hdata := data_savePosition_ne_nil id position updatedAt
    refine ⟨fun index => ?_, fun other hoth => update_of_ne hoth _ _,
      fun _ _ _ => Iff.rfl, fun _ _ h => h, fun _ h => h⟩
    have hhash : (store.run cleansIndexes
        (WriterCall.savePosition id position updatedAt).lastCommand).hash id =
          mergeFields (store.hash id) (WriterCall.savePosition id position updatedAt).data :=
      update_self _ _ _
    have hname : getRecordConnectionId (mergeFields (store.hash id)
        (WriterCall.savePosition id position updatedAt).data) = _ := hmerg hdata
    rw [WriterCall.id, hhash, BelongsIn, hname]
    exact and_congr_left' (iff_of_true (mergeFields_ne_nil hdata _) hdata)
  | deletePosition id =>
    refine ⟨fun index => ?_, fun other hoth => update_of_ne hoth _ _,
      fun other hoth index => ?_, fun index h => absurd rfl h.1,
      fun index h => (mem_index_del.mp h).1⟩
    · have hhash : (store.run cleansIndexes (WriterCall.deletePosition id).lastCommand).hash id =
          [] := update_self _ _ _
      rw [WriterCall.id, hhash]
      exact iff_of_false (fun h => h.1 rfl) fun h => h.1 rfl
    · rw [WriterCall.lastCommand, PositionStore.run, mem_index_del]
      exact and_iff_left fun h => hoth h.2.2

/-- The last command of a call keeps consistency. -/
lemma Consistent.finish (h : Consistent s)
    (hat : s.workers[i]? = some (.writing call [call.lastCommand]))
    (hfinis : Finishes call s.store store) :
    Consistent ⟨store, s.workers.set i .done⟩ := by
  have hbef : IsWriting s call [call.lastCommand] := mem_of_getElem? hat
  have hold : ∀ {other others}, IsWriting ⟨store, s.workers.set i .done⟩ other others →
      IsWriting s other others := by
    intro other others hw
    rcases writes_of_set hw with heq | hw
    · cases heq
    · exact hw
  have hnew : ∀ {other others}, IsWriting s other others → others ≠ [call.lastCommand] →
      IsWriting ⟨store, s.workers.set i .done⟩ other others := by
    intro other others hw hne
    rcases writes_set hat hw with heq | hw
    · exact absurd (writing.inj heq).2.symm hne
    · exact hw
  have hsrem : ∀ {id index}, IndexCommand.srem index id ∉ [call.lastCommand] := by
    intro id index hmem
    have heq := mem_singleton.mp hmem
    cases call <;> cases heq
  have hsadd : ∀ {id index}, IndexCommand.sadd index id ∉ [call.lastCommand] := by
    intro id index hmem
    have heq := mem_singleton.mp hmem
    cases call <;> cases heq
  refine ⟨fun _ _ hw => h.planned _ _ (hold hw), fun _ _ _ _ hw hw' => h.agrees _ _ _ _
    (hold hw) (hold hw'), ?_, ?_, ?_⟩
  · intro id hrest index hidx
    rw [IndexState.IsResting, forall_writer_iff] at hrest
    by_cases hid : id = call.id
    · subst hid
      rw [hfinis.hash]
      constructor
      · -- The id is in no other index: a call that would remove it is under way.
        intro hmem
        by_contra hbelon
        obtain ⟨other, others, hoth, hid, hoths⟩ :=
          h.removed _ _ hbef index hidx hbelon (hfinis.index_old index hmem)
        refine hrest other others (hnew hoth fun heq => ?_) hid
        rw [heq] at hoths
        exact hsrem hoths
      · intro hbelon
        have hadded := h.added _ _ hbef index hidx hbelon
        exact hfinis.index_kept index hbelon (hadded.resolve_left hsadd)
    · rw [hfinis.hash_other id hid, hfinis.index_other id hid]
      refine h.resting id ?_ index hidx
      rw [IndexState.IsResting, forall_writer_iff]
      intro other others hw
      rcases writes_set hat hw with heq | hw
      · obtain ⟨rfl, -⟩ := writing.inj heq
        exact Ne.symm hid
      · exact hrest other others hw
  · intro other others hw index hidx hbelon
    refine (h.added _ _ (hold hw) index hidx hbelon).imp_right fun hmem => ?_
    by_cases hid : other.id = call.id
    · rw [hid] at hmem ⊢
      refine hfinis.index_kept index ?_ hmem
      exact ((h.agrees _ _ _ _ (hold hw) hbef hid).belongsIn_iff index).mp hbelon
    · exact (hfinis.index_other _ hid index).mpr hmem
  · intro other others hw index hidx hbelon hmem
    have hmem' : other.id ∈ s.store.index index := by
      by_cases hid : other.id = call.id
      · rw [hid] at hmem ⊢
        exact hfinis.index_old index hmem
      · exact (hfinis.index_other _ hid index).mp hmem
    obtain ⟨third, thirds, hthird, hid, hthir⟩ := h.removed _ _ (hold hw) index hidx hbelon hmem'
    refine ⟨third, thirds, hnew hthird fun heq => ?_, hid, hthir⟩
    rw [heq] at hthir
    exact hsrem hthir

lemma Consistent.prune (h : Consistent s) {index : Option String} {stale : List String}
    (hat : s.workers[i]? = some (.pruning index stale))
    (hord : OrderlyWorker s (.pruning index stale)) :
    Consistent ⟨s.store.srem index stale, s.workers.set i .done⟩ := by
  have hold : ∀ {call commands}, IsWriting ⟨s.store.srem index stale, s.workers.set i .done⟩
      call commands → IsWriting s call commands := by
    intro call commands hw
    rcases writes_of_set hw with heq | hw
    · cases heq
    · exact hw
  have hnew : ∀ {call commands}, IsWriting s call commands →
      IsWriting ⟨s.store.srem index stale, s.workers.set i .done⟩ call commands := by
    intro call commands hw
    rcases writes_set hat hw with heq | hw
    · cases heq
    · exact hw
  refine ⟨fun _ _ hw => h.planned _ _ (hold hw), fun _ _ _ _ hw hw' => h.agrees _ _ _ _
    (hold hw) (hold hw'), ?_, ?_, ?_⟩
  · intro id hresti other hoth
    have hrest : s.IsResting id := by
      rw [IndexState.IsResting, forall_writer_iff] at hresti ⊢
      exact fun call commands hw => hresti call commands (hnew hw)
    have hiff := h.resting id hrest other hoth
    rw [mem_srem, hiff]
    refine and_iff_left_of_imp fun hbelon => ?_
    rintro ⟨rfl, hstale⟩
    exact (hord id hstale).2 hrest hbelon
  · intro call commands hw other hoth hbelon
    refine (h.added _ _ (hold hw) other hoth hbelon).imp_right fun hmem => ?_
    refine mem_srem.mpr ⟨hmem, ?_⟩
    rintro ⟨rfl, hstale⟩
    have hcalls := forall_writer_iff.mp (hord _ hstale).1
    exact hcalls call commands (hold hw) rfl hbelon
  · intro call commands hw other hoth hbelon hmem
    obtain ⟨third, thirds, hthird, hid, hsrem⟩ := h.removed _ _ (hold hw) other hoth hbelon
      (mem_srem.mp hmem).1
    exact ⟨third, thirds, hnew hthird, hid, hsrem⟩

lemma Consistent.start (h : Consistent s) (hnew : after.writer? = none) :
    Consistent ⟨s.store, s.workers ++ [after]⟩ := by
  have hiff : ∀ {call commands}, IsWriting ⟨s.store, s.workers ++ [after]⟩ call commands ↔
      IsWriting s call commands := by
    intro call commands
    rw [IsWriting, mem_append, mem_singleton]
    refine or_iff_left fun heq => ?_
    rw [← heq] at hnew
    cases hnew
  refine ⟨fun _ _ hw => h.planned _ _ (hiff.mp hw), fun _ _ _ _ hw hw' => h.agrees _ _ _ _
    (hiff.mp hw) (hiff.mp hw'), fun id hrest => h.resting id ?_,
    fun _ _ hw => h.added _ _ (hiff.mp hw), ?_⟩
  · rw [IndexState.IsResting, forall_writer_iff] at hrest ⊢
    exact fun call commands hw => hrest call commands (hiff.mpr hw)
  · intro call commands hw index hidx hbelon hmem
    obtain ⟨other, others, hoth, hid, hsrem⟩ :=
      h.removed call commands (hiff.mp hw) index hidx hbelon hmem
    exact ⟨other, others, hiff.mpr hoth, hid, hsrem⟩

lemma writer?_checked (index : Option String) (unread stale : List String) :
    (checked index unread stale).writer? = none := by
  rw [checked]
  split
  · rfl
  · split <;> rfl

lemma Consistent.advance (h : Consistent s) {cleansIndexes : Bool}
    (hat : s.workers[i]? = some before) (hord : OrderlyWorker s before)
    (hstep : advanceWorker cleansIndexes s.store before = some (store, after)) :
    Consistent ⟨store, s.workers.set i after⟩ := by
  match before, hat, hord, hstep with
  | .opening call, hat, hord, hstep =>
    cases hstep
    exact h.open hat fun other others hw => forall_writer_iff.mp hord other others hw
  | .writing call (command :: commands), hat, hord, hstep =>
    cases hstep
    by_cases hrest : commands = []
    · subst hrest
      obtain ⟨changes, hchan, -⟩ := h.planned _ _ (mem_of_getElem? hat)
      have hlast : [command] = [call.lastCommand] := by
        cases changes with
        | nil => exact hchan
        | cons _ changes =>
          exact absurd (List.cons.inj hchan).2.symm (append_ne_nil_of_right_ne_nil _
            (cons_ne_nil _ _))
      obtain ⟨rfl, -⟩ := List.cons.inj hlast
      exact h.finish hat (finishes_lastCommand cleansIndexes s.store (hord rfl))
    · rw [if_neg hrest]
      exact h.command cleansIndexes hat hrest
  | .listing index, hat, _, hstep =>
    cases hstep
    exact h.idle hat rfl (writer?_checked _ _ _)
  | .checking index (id :: unread) stale, hat, _, hstep =>
    cases hstep
    exact h.idle hat rfl (writer?_checked _ _ _)
  | .pruning index stale, hat, hord, hstep =>
    cases hstep
    exact h.prune hat hord

lemma Consistent.step (h : Consistent s) {cleansIndexes : Bool} {action : IndexAction}
    (hord : Orderly s action) (hstep : s.step cleansIndexes action = some t) :
    Consistent t := by
  cases action with
  | write call =>
    cases hstep
    exact h.start rfl
  | read index =>
    cases hstep
    exact h.start rfl
  | advance i =>
    obtain ⟨worker, hat, hwork⟩ := bind_eq_some_iff.mp hstep
    obtain ⟨⟨store, after⟩, hadvan, rfl⟩ := map_eq_some_iff.mp hwork
    exact h.advance hat (hord worker hat) hadvan

end Steps

lemma consistent_initial {store : PositionStore} (h : store.Matches) :
    Consistent { store := store } where
  planned := fun _ _ hw => absurd hw not_mem_nil
  agrees := fun _ _ _ _ hw => absurd hw not_mem_nil
  resting := fun id _ => h id
  added := fun _ _ hw => absurd hw not_mem_nil
  removed := fun _ _ hw => absurd hw not_mem_nil

/-- **Secondary indexes.**  After an orderly run in which all calls have ended, the indexes have the
ids of the hashes that belong in them. -/
theorem matches_of_orderly (cleansIndexes : Bool) {store : PositionStore} (h : store.Matches)
    {actions : List IndexAction}
    (horderly : Meets (step cleansIndexes) Orderly { store := store } actions)
    (hrun : run (step cleansIndexes) { store := store } actions = some s)
    (hdone : ∀ worker ∈ s.workers, worker = .done) : s.store.Matches := by
  have hconsistent : Consistent s :=
    invariant_of_meets (fun _ _ _ h hc hstep => h.step hc hstep)
      (consistent_initial h) horderly hrun
  refine fun id => hconsistent.resting id fun worker hworker call hcall => ?_
  rw [hdone worker hworker] at hcall
  cases hcall

/-- A save of a position of a connection, with the commands of a reader of all positions after the
first command of the save. -/
def saveWhileReading : List IndexAction :=
  [.write (.savePosition "p" [("connectionId", .text "c")] "t"), .read none, .advance 0, .advance 0,
    .advance 1, .advance 1, .advance 0, .advance 0, .advance 1]

/-- **A lost entry.**  A reader removes an id whose hash is about to be written: the hash exists,
and the index does not have it. -/
theorem matches_saveWhileReading : ∃ s, run (step true) ⟨⟨fun _ => [], fun _ => []⟩, []⟩
        saveWhileReading = some s ∧
      (∀ worker ∈ s.workers, worker = .done) ∧ s.store.hash "p" ≠ [] ∧
        "p" ∉ s.store.index none ∧ ¬ s.store.Matches := by
  refine ⟨_, rfl, ?_, by decide +kernel, by decide +kernel, fun h => ?_⟩
  · intro worker hworker
    rcases mem_cons.mp hworker with rfl | hworker
    · rfl
    · exact mem_singleton.mp hworker
  · exact absurd ((h "p" none nofun).mpr (by decide +kernel)) (by decide +kernel)

/-- Saves of two positions command by command, and the deletion of the first while the index of its
connection is read. -/
def saveReadDelete : List IndexAction :=
  [.write (.savePosition "p" [("connectionId", .text "c")] "t"),
    .write (.savePosition "q" [("connectionId", .text "d")] "t"), .advance 0, .advance 1,
    .advance 0, .advance 1, .advance 0, .advance 1, .advance 0, .read (some "c"),
    .write (.deletePosition "p"), .advance 2, .advance 1, .advance 3, .advance 3, .advance 2,
    .advance 3, .advance 3]

/-- Calls for different ids are orderly: the indexes have the second position alone. -/
theorem matches_saveReadDelete : ∃ s, run (step true) ⟨⟨fun _ => [], fun _ => []⟩, []⟩
        saveReadDelete = some s ∧ s.store.Matches ∧
      s.store.index none = ["q"] ∧ s.store.index (some "c") = [] ∧
        s.store.index (some "d") = ["q"] := by
  have hempty : PositionStore.Matches ⟨fun _ => [], fun _ => []⟩ := fun _ _ _ =>
    iff_of_false not_mem_nil fun h => h.1 rfl
  have horderly : Meets (step true) Orderly
      ⟨⟨fun _ => [], fun _ => []⟩, []⟩ saveReadDelete := by decide +kernel
  refine ⟨_, rfl, matches_of_orderly true hempty horderly rfl fun worker hworker => ?_,
    by decide +kernel, by decide +kernel, by decide +kernel⟩
  exact eq_of_mem_replicate (show worker ∈ replicate 4 WorkerState.done from hworker)

end CtsEngine
