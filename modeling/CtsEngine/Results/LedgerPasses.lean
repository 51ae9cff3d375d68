import CtsEngine.Results.Ledger
import CtsEngine.Transition.Runs

/-!
# Interrupted ledger passes

A pass of the ledger may stop after any command.  Between the `SADD` of an id to the ids and the one
to the open set, and between the `SADD` to the skip set and the count in the funnel, a stop leaves
the ledger torn for good (`ledger_torn`); so does a failed read of the ids or of the skip set, and a
row that returns after it was pruned.
-/

open List Function Option Prod

namespace CtsEngine

open Transition

/-- The store, and the commands of the pass under way that are still to be sent. -/
structure ResultsSystem where
  store : LedgerStore := {}
  todo : List LedgerCommand := []

/-- A step: a pass begins, sends its next command, or stops where it is. -/
inductive ResultsAction
  | begin (pass : LedgerPass)
  | command
  | stop

/-- The replies to the reads of a pass: what is stored, or nothing when the command failed. -/
def LedgerPass.Reads (pass : LedgerPass) (store : LedgerStore) : Prop :=
  (pass.idList = [] ∨ pass.idList.toFinset = store.ids) ∧
    (pass.skipList = [] ∨ pass.skipList.toFinset = store.skip) ∧
    (pass.openList = [] ∨ pass.openList.toFinset = store.openIds)

instance (pass : LedgerPass) (store : LedgerStore) : Decidable (pass.Reads store) :=
  inferInstanceAs (Decidable (_ ∧ _ ∧ _))

def resultsStep (s : ResultsSystem) : ResultsAction → Option ResultsSystem
  | .begin pass =>
    if s.todo = [] ∧ pass.Reads s.store then some { s with todo := pass.commands } else none
  | .command =>
    match s.todo with
    | [] => none
    | c :: cs => some ⟨s.store.exec c, cs⟩
  | .stop => some { s with todo := [] }

/-- The promise about one id. -/
structure SoundAt (s : LedgerStore) (id : String) : Prop where
  disjoint : ¬ (id ∈ s.ids ∧ id ∈ s.skip)
  counted : id ∈ s.skip → s.counted id = 1
  kept : id ∈ s.ids → ∀ entry, s.entries id = some entry → entry.final = false → id ∈ s.openIds

/-- The promise about one id, and that an id that was never skipped was never counted. -/
structure LawfulAt (s : LedgerStore) (id : String) : Prop extends SoundAt s id where
  uncounted : id ∉ s.skip → id ∉ s.pruned → s.counted id = 0

/-- A stop before this command breaks no promise: it is not the `SADD` to the open set of an id that
is not in it, nor the count of an id that is new in the skip set. -/
def LedgerStore.mayStopAt (s : LedgerStore) : List LedgerCommand → Bool
  | .saddOpen id :: _ => decide (id ∈ s.openIds)
  | .hincrbyFunnel _ _ :: _ => !s.isNew
  | _ => true

/-- The condition on a step. -/
def KeepsLedger (s : ResultsSystem) : ResultsAction → Prop
  | .begin pass =>
    pass.idList.toFinset = s.store.ids ∧ pass.skipList.toFinset = s.store.skip ∧
      ∀ id ∈ pass.readIds, id ∈ s.store.pruned → (pass.classOf id).bind RowClass.funnelField = none
  | .command => True
  | .stop => s.store.mayStopAt s.todo = true

instance decidableKeepsLedger (s : ResultsSystem) : ∀ a, Decidable (KeepsLedger s a)
  | .begin pass =>
    inferInstanceAs (Decidable (pass.idList.toFinset = s.store.ids ∧
      pass.skipList.toFinset = s.store.skip ∧ ∀ id ∈ pass.readIds, id ∈ s.store.pruned →
        (pass.classOf id).bind RowClass.funnelField = none))
  | .command => isTrue trivial
  | .stop => inferInstanceAs (Decidable (s.store.mayStopAt s.todo = true))

/-- Two stores have the same about one id. -/
structure AgreeAt (s t : LedgerStore) (id : String) : Prop where
  ids : id ∈ t.ids ↔ id ∈ s.ids
  skip : id ∈ t.skip ↔ id ∈ s.skip
  openIds : id ∈ t.openIds ↔ id ∈ s.openIds
  pruned : id ∈ t.pruned ↔ id ∈ s.pruned
  entries : t.entries id = s.entries id
  counted : t.counted id = s.counted id

variable {id x : String}

lemma exec_agreeAt (s : LedgerStore) {c : LedgerCommand} (hne : id ≠ c.id) :
    AgreeAt s (s.exec c) id := by
  cases c with
  | hincrbyFunnel x field =>
    have hne : id ≠ x := hne
    cases hnew : s.isNew <;> constructor <;> simp [LedgerStore.exec, hnew, hne]
  | sremSkip x | hsetEntry x | saddIds x | sremOpen x | saddOpen x | hdelEntry x | sremIds x
  | saddSkip x =>
    have hne : id ≠ x := hne
    constructor <;> simp [LedgerStore.exec, hne]

lemma LawfulAt.agree {s t : LedgerStore} (h : LawfulAt s id) (hagree : AgreeAt s t id) :
    LawfulAt t id := by
  obtain ⟨⟨hdisj, hcntd, hkept⟩, hunc⟩ := h
  refine ⟨⟨?_, ?_, ?_⟩, ?_⟩
  · rwa [hagree.ids, hagree.skip]
  · rwa [hagree.skip, hagree.counted]
  · rwa [hagree.ids, hagree.entries, hagree.openIds]
  · rwa [hagree.skip, hagree.pruned, hagree.counted]

/-- An id that a pass is still to come to: what it read of it is still so, and the row is no final
non-result if it was pruned. -/
structure Awaits (s : LedgerStore) (pass : LedgerPass) (id : String) : Prop where
  isOpen : id ∈ pass.openList → id ∈ s.openIds
  unseen : id ∉ pass.openList → id ∉ s.ids ∧ id ∉ s.skip
  unpruned : id ∈ s.pruned → (pass.classOf id).bind RowClass.funnelField = none

lemma Awaits.agree {s t : LedgerStore} {pass : LedgerPass} (h : Awaits s pass id)
    (hagree : AgreeAt s t id) : Awaits t pass id := by
  obtain ⟨hopen, huns, hunpr⟩ := h
  refine ⟨?_, ?_, ?_⟩
  · rwa [hagree.openIds]
  · rwa [hagree.ids, hagree.skip]
  · rwa [hagree.pruned]

/-- What is left of a program once the id is out of the ledger: nothing, or skipping the row. -/
inductive SkipTail (s : LedgerStore) (x : String) : List LedgerCommand → Prop
  | nothing : SkipTail s x []
  | skip (field : String) (hpruned : x ∉ s.pruned) :
    SkipTail s x [.saddSkip x, .hincrbyFunnel x field]

/-- Where the program of one row stands, and what is known of its id there.  Only `opening` and
`counting` are points where the promise about the id may be broken. -/
inductive RowStage (s : LedgerStore) (x : String) : List LedgerCommand → Prop
  | finished (h : LawfulAt s x) : RowStage s x []
  | newEntry (entry : LedgerEntry) (h : LawfulAt s x) (hids : x ∉ s.ids) (hskip : x ∉ s.skip) :
    RowStage s x [.hsetEntry x entry, .saddIds x, LedgerPass.openCommand x entry]
  | newId (entry : LedgerEntry) (h : LawfulAt s x) (hids : x ∉ s.ids) (hskip : x ∉ s.skip)
      (hentry : s.entries x = some entry) :
    RowStage s x [.saddIds x, LedgerPass.openCommand x entry]
  | refreshing (entry : LedgerEntry) (h : LawfulAt s x) (hopen : x ∈ s.openIds) :
    RowStage s x [.hsetEntry x entry, LedgerPass.openCommand x entry]
  | opening (entry : LedgerEntry) (hentry : s.entries x = some entry)
      (hdisjoint : ¬ (x ∈ s.ids ∧ x ∈ s.skip)) (hcounted : x ∈ s.skip → s.counted x = 1)
      (huncounted : x ∉ s.skip → x ∉ s.pruned → s.counted x = 0) :
    RowStage s x [LedgerPass.openCommand x entry]
  | withdrawing (tail : List LedgerCommand) (h : LawfulAt s x) (htail : SkipTail s x tail) :
    RowStage s x (.hdelEntry x :: .sremIds x :: .sremOpen x :: tail)
  | withdrawn (tail : List LedgerCommand) (h : LawfulAt s x) (hentry : s.entries x = none)
      (htail : SkipTail s x tail) : RowStage s x (.sremIds x :: .sremOpen x :: tail)
  | closing (tail : List LedgerCommand) (h : LawfulAt s x) (hids : x ∉ s.ids)
      (htail : SkipTail s x tail) : RowStage s x (.sremOpen x :: tail)
  | skipping (field : String) (h : LawfulAt s x) (hids : x ∉ s.ids) (hpruned : x ∉ s.pruned) :
    RowStage s x [.saddSkip x, .hincrbyFunnel x field]
  | counting (field : String) (hids : x ∉ s.ids) (hskip : x ∈ s.skip)
      (hcount : s.counted x = if s.isNew then 0 else 1) :
    RowStage s x [.hincrbyFunnel x field]

lemma SkipTail.stage {s : LedgerStore} {tail : List LedgerCommand} (htail : SkipTail s x tail)
    (h : LawfulAt s x) (hids : x ∉ s.ids) : RowStage s x tail := by
  cases htail with
  | nothing => exact .finished h
  | skip field hpruned => exact .skipping field h hids hpruned

/-- A command of a row is about its id and leaves the next stage. -/
lemma RowStage.exec {s : LedgerStore} {c : LedgerCommand} {cs : List LedgerCommand}
    (h : RowStage s x (c :: cs)) : c.id = x ∧ RowStage (s.exec c) x cs := by
  cases h with
  | newEntry entry h hids hskip =>
    obtain ⟨⟨hdisj, hcntd, -⟩, hunc⟩ := h
    refine ⟨rfl, .newId entry ⟨⟨hdisj, hcntd, fun hin => absurd hin hids⟩, hunc⟩ hids hskip ?_⟩
    exact update_self ..
  | newId entry h hids hskip hent =>
    refine ⟨rfl, .opening entry hent (fun hboth => hskip hboth.2) h.counted h.uncounted⟩
  | refreshing entry h hopen =>
    exact ⟨rfl, .opening entry (update_self ..) h.disjoint h.counted h.uncounted⟩
  | opening entry hent hdisj hcntd hunc =>
    unfold LedgerPass.openCommand
    split
    · rename_i hfinal
      refine ⟨rfl, .finished ⟨⟨hdisj, hcntd, ?_⟩, hunc⟩⟩
      intro _ other hoth hopen
      have heq : entry = other := some_inj.mp (hent.symm.trans hoth)
      rw [← heq, hfinal] at hopen
      cases hopen
    · refine ⟨rfl, .finished ⟨⟨hdisj, hcntd, ?_⟩, hunc⟩⟩
      intro _ _ _ _
      exact Finset.mem_insert_self x s.openIds
  | withdrawing tail h htail =>
    obtain ⟨⟨hdisj, hcntd, -⟩, hunc⟩ := h
    have hnone : (s.exec (.hdelEntry x)).entries x = none := update_self ..
    refine ⟨rfl, .withdrawn _ ⟨⟨hdisj, hcntd, ?_⟩, hunc⟩ hnone ?_⟩
    · intro _ entry hent
      rw [hnone] at hent
      cases hent
    · cases htail with
      | nothing => exact .nothing
      | skip field hpruned => exact .skip field hpruned
  | withdrawn tail h hent htail =>
    have hids : x ∉ (s.exec (.sremIds x)).ids := Finset.notMem_erase x s.ids
    refine ⟨rfl, .closing _ ⟨⟨fun hboth => hids hboth.1, h.counted, fun hin => absurd hin hids⟩,
      h.uncounted⟩ hids ?_⟩
    cases htail with
    | nothing => exact .nothing
    | skip field hpruned => exact .skip field hpruned
  | closing tail h hids htail =>
    have hlawf : LawfulAt (s.exec (.sremOpen x)) x :=
      ⟨⟨h.disjoint, h.counted, fun hin => absurd hin hids⟩, h.uncounted⟩
    refine ⟨rfl, SkipTail.stage ?_ hlawf hids⟩
    cases htail with
    | nothing => exact .nothing
    | skip field hpruned => exact .skip field hpruned
  | skipping field h hids hpruned =>
    refine ⟨rfl, .counting field hids (Finset.mem_insert_self x s.skip) ?_⟩
    by_cases hskip : x ∈ s.skip
    · simpa [LedgerStore.exec, hskip] using h.counted hskip
    · simpa [LedgerStore.exec, hskip] using h.uncounted hskip hpruned
  | counting field hids hskip hcnt =>
    refine ⟨rfl, .finished ?_⟩
    cases hnew : s.isNew with
    | false =>
      rw [hnew] at hcnt
      have hsame : s.exec (.hincrbyFunnel x field) = s := by
        simp [LedgerStore.exec, hnew]
      rw [hsame]
      exact ⟨⟨fun hboth => hids hboth.1, fun _ => hcnt, fun hin => absurd hin hids⟩,
        fun hnot => absurd hskip hnot⟩
    | true =>
      have hone : (s.exec (.hincrbyFunnel x field)).counted x = 1 := by
        simp [LedgerStore.exec, hnew, hcnt]
      have hids' : x ∉ (s.exec (.hincrbyFunnel x field)).ids := by
        simpa [LedgerStore.exec, hnew] using hids
      have hskip' : x ∈ (s.exec (.hincrbyFunnel x field)).skip := by
        simpa [LedgerStore.exec, hnew] using hskip
      exact ⟨⟨fun hboth => hids' hboth.1, fun _ => hone, fun hin => absurd hin hids'⟩,
        fun hnot => absurd hskip' hnot⟩

lemma RowStage.begin {s : LedgerStore} {pass : LedgerPass} (h : LawfulAt s x)
    (hawait : Awaits s pass x) : RowStage s x (pass.rowCommands x) := by
  rcases pass.rowCommands_cases x with ⟨-, hprog⟩ | ⟨-, entry, hprog⟩ | ⟨-, hprog⟩ |
    ⟨kind, field, hclass, hfield, hprog⟩
  · rw [hprog]
    exact .finished h
  · rw [hprog]
    split
    · rename_i hopen
      exact .refreshing entry h (hawait.isOpen hopen)
    · rename_i hopen
      obtain ⟨hids, hskip⟩ := hawait.unseen hopen
      exact .newEntry entry h hids hskip
  · rw [hprog]
    unfold LedgerPass.withdraw
    split
    · exact .withdrawing [] h .nothing
    · exact .finished h
  · -- a row that is taken for a final non-result was not pruned
    have hprun : x ∉ s.pruned := by
      intro hin
      have hnone := hawait.unpruned hin
      rw [hclass, bind_some, hfield] at hnone
      cases hnone
    rw [hprog]
    unfold LedgerPass.withdraw
    split
    · exact .withdrawing _ h (.skip field hprun)
    · rename_i hopen
      exact .skipping field h (hawait.unseen hopen).1 hprun

/-! ## A pass -/

/-- Where a pass stands: it prunes the skip set, or it is in the program of one row. -/
inductive PassStage (s : LedgerStore) (pass : LedgerPass) : List LedgerCommand → Prop
  | pruning (prunes rest : List String) (hall : ∀ y, LawfulAt s y)
      (hrest : ∀ y ∈ rest, Awaits s pass y) (hnodup : rest.Nodup)
      (hapart : ∀ y ∈ prunes, y ∉ rest) :
    PassStage s pass (prunes.map .sremSkip ++ rest.flatMap pass.rowCommands)
  | row (x : String) (current : List LedgerCommand) (rest : List String)
      (hstage : RowStage s x current) (hothers : ∀ y, y ≠ x → LawfulAt s y)
      (hrest : ∀ y ∈ rest, Awaits s pass y) (hnodup : (x :: rest).Nodup) :
    PassStage s pass (current ++ rest.flatMap pass.rowCommands)

variable {s : LedgerStore} {pass : LedgerPass} {c : LedgerCommand} {cs : List LedgerCommand}

lemma PassStage.exec_row {current : List LedgerCommand} {rest : List String}
    (hstage : RowStage s x (c :: current)) (hoths : ∀ y, y ≠ x → LawfulAt s y)
    (hrest : ∀ y ∈ rest, Awaits s pass y) (hnodup : (x :: rest).Nodup) :
    PassStage (s.exec c) pass (current ++ rest.flatMap pass.rowCommands) := by
  obtain ⟨hid, hnext⟩ := hstage.exec
  refine .row x current rest hnext (fun y hy => ?_) (fun y hy => ?_) hnodup
  · exact (hoths y hy).agree (exec_agreeAt s (by rw [hid]; exact hy))
  · have hne : y ≠ x := fun heq => (nodup_cons.mp hnodup).1 (heq ▸ hy)
    exact (hrest y hy).agree (exec_agreeAt s (by rw [hid]; exact hne))

lemma PassStage.exec_rest {rest : List String} (hall : ∀ y, LawfulAt s y)
    (hrest : ∀ y ∈ rest, Awaits s pass y) (hnodup : rest.Nodup)
    (hcmds : rest.flatMap pass.rowCommands = c :: cs) : PassStage (s.exec c) pass cs := by
  induction rest with
  | nil => cases hcmds
  | cons x rest ih =>
    have hbegin := RowStage.begin (hall x) (hrest x (mem_cons_self ..))
    have hlate : ∀ y ∈ rest, Awaits s pass y := fun y hy => hrest y (mem_cons_of_mem x hy)
    rw [flatMap_cons] at hcmds
    cases hprog : pass.rowCommands x with
    | nil =>
      rw [hprog] at hcmds
      exact ih hlate (nodup_cons.mp hnodup).2 hcmds
    | cons c' current =>
      rw [hprog] at hcmds
      obtain ⟨rfl, rfl⟩ := hcmds
      rw [hprog] at hbegin
      exact PassStage.exec_row hbegin (fun y _ => hall y) hlate hnodup

lemma LawfulAt.prune (h : LawfulAt s x) : LawfulAt (s.exec (.sremSkip x)) x := by
  have hskip : x ∉ (s.exec (.sremSkip x)).skip := Finset.notMem_erase x s.skip
  refine ⟨⟨fun hboth => hskip hboth.2, fun hin => absurd hin hskip, h.kept⟩, fun _ hprun => ?_⟩
  exact absurd (Finset.mem_insert_self x s.pruned) hprun

lemma PassStage.exec (h : PassStage s pass (c :: cs)) : PassStage (s.exec c) pass cs := by
  generalize htodo : c :: cs = todo at h
  cases h with
  | pruning prunes rest hall hrest hnodup hapart =>
    cases prunes with
    | nil => exact PassStage.exec_rest hall hrest hnodup htodo.symm
    | cons x prunes =>
      obtain ⟨rfl, rfl⟩ := htodo
      refine .pruning prunes rest (fun y => ?_) (fun y hy => ?_) hnodup
        (fun y hy => hapart y (mem_cons_of_mem x hy))
      · by_cases hyx : y = x
        · rw [hyx]
          exact (hall x).prune
        · exact (hall y).agree (exec_agreeAt s hyx)
      · have hne : y ≠ x := fun heq => hapart x (mem_cons_self ..) (heq ▸ hy)
        exact (hrest y hy).agree (exec_agreeAt s hne)
  | row x current rest hstage hothers hrest hnodup =>
    cases current with
    | nil =>
      have hall : ∀ y, LawfulAt s y := by
        intro y
        by_cases hyx : y = x
        · rw [hyx]
          cases hstage with
          | finished h => exact h
        · exact hothers y hyx
      exact PassStage.exec_rest hall hrest (nodup_cons.mp hnodup).2 htodo.symm
    | cons c' current =>
      obtain ⟨rfl, rfl⟩ := htodo
      exact PassStage.exec_row hstage hothers hrest hnodup

lemma PassStage.begin (hall : ∀ y, LawfulAt s y) (hreads : pass.Reads s)
    (hids : pass.idList.toFinset = s.ids) (hskip : pass.skipList.toFinset = s.skip)
    (hprun : ∀ id ∈ pass.readIds, id ∈ s.pruned →
      (pass.classOf id).bind RowClass.funnelField = none) :
    PassStage s pass pass.commands := by
  unfold LedgerPass.commands
  split
  · exact .pruning [] [] hall (by simp) nodup_nil (by simp)
  · refine .pruning pass.pruneIds pass.readIds hall (fun y hy => ?_) pass.nodup_readIds
      (fun y hy hread => ?_)
    · have htodo := pass.mem_todo.mp (pass.readIds_start.subset hy)
      refine ⟨fun hopen => ?_, fun hnew => ?_, hprun y hy⟩
      · rcases hreads.2.2 with hnil | hsame
        · rw [hnil] at hopen
          cases hopen
        · rw [← hsame]
          exact List.mem_toFinset.mpr hopen
      · rcases htodo.2 with hopen | ⟨-, hidList, hskipList⟩
        · exact absurd hopen hnew
        · rw [← hids, ← hskip, List.mem_toFinset, List.mem_toFinset]
          exact ⟨hidList, hskipList⟩
    · have hlive := (pass.mem_todo.mp (pass.readIds_start.subset hread)).1
      have hgone := (mem_filter.mp (mem_of_mem_take hy)).2
      simp [hlive] at hgone

lemma PassStage.lawful {todo : List LedgerCommand} (h : PassStage s pass todo)
    (hstop : s.mayStopAt todo = true) (y : String) : LawfulAt s y := by
  cases h with
  | pruning prunes rest hall hrest hnodup hapart => exact hall y
  | row x current rest hstage hothers hrest hnodup =>
    by_cases hyx : y = x
    · rw [hyx]
      cases hstage with
      | finished h => exact h
      | newEntry entry h hids hskip => exact h
      | newId entry h hids hskip hent => exact h
      | refreshing entry h hopen => exact h
      | opening entry hent hdisj hcntd hunc =>
        refine ⟨⟨hdisj, hcntd, fun _ other hoth hopen => ?_⟩, hunc⟩
        have heq : entry = other := some_inj.mp (hent.symm.trans hoth)
        unfold LedgerPass.openCommand at hstop
        rw [heq, hopen] at hstop
        exact of_decide_eq_true hstop
      | withdrawing tail h htail => exact h
      | withdrawn tail h hent htail => exact h
      | closing tail h hids htail => exact h
      | skipping field h hids hpruned => exact h
      | counting field hids hskip hcnt =>
        have hnew : s.isNew = false := by
          have hnot : (!s.isNew) = true := hstop
          simpa using hnot
        rw [hnew] at hcnt
        exact ⟨⟨fun hboth => hids hboth.1, fun _ => hcnt, fun hin => absurd hin hids⟩,
          fun hnot => absurd hskip hnot⟩
    · exact hothers y hyx

/-! ## Runs -/

/-- The ledger under way: some pass stands at one of its stages. -/
def Underway (s : ResultsSystem) : Prop := ∃ pass, PassStage s.store pass s.todo

lemma Underway.step {s t : ResultsSystem} {a : ResultsAction} (h : Underway s)
    (hkeeps : KeepsLedger s a) (hstep : resultsStep s a = some t) : Underway t := by
  obtain ⟨pass, hstage⟩ := h
  cases a with
  | begin next =>
    unfold resultsStep at hstep
    dsimp only at hstep
    split at hstep
    · rename_i hguard
      obtain rfl := some_inj.mp hstep
      obtain ⟨hids, hskip, hprun⟩ := hkeeps
      rw [hguard.1] at hstage
      have hall : ∀ y, LawfulAt s.store y := hstage.lawful rfl
      exact ⟨next, PassStage.begin hall hguard.2 hids hskip hprun⟩
    · cases hstep
  | command =>
    unfold resultsStep at hstep
    dsimp only at hstep
    split at hstep
    · cases hstep
    · rename_i c cs htodo
      obtain rfl := some_inj.mp hstep
      rw [htodo] at hstage
      exact ⟨pass, hstage.exec⟩
  | stop =>
    obtain rfl := some_inj.mp hstep
    exact ⟨pass, .pruning [] [] (hstage.lawful hkeeps) (by simp) nodup_nil (by simp)⟩

/-- **The ledger survives interruption.** After every run of passes whose steps meet the condition,
between the passes: no id is both kept and skipped, each skipped id was counted once, and an id with
an entry that is not final is in the open set; a complete pass that reads the open set reads it
again while its row exists. -/
theorem ledger_survivesInterruption {acts : List ResultsAction} {t : ResultsSystem}
    (hrun : run resultsStep {} acts = some t) (hmeets : Meets resultsStep KeepsLedger {} acts)
    (hbetween : t.todo = []) :
    (∀ id, SoundAt t.store id) ∧
      ∀ (id : String) (entry : LedgerEntry), id ∈ t.store.ids → t.store.entries id = some entry →
        entry.final = false → ∀ pass : LedgerPass, pass.openList.toFinset = t.store.openIds →
          pass.scanned = true → id ∈ pass.existing → pass.complete = true → id ∈ pass.readIds := by
  have hstart : Underway {} :=
    ⟨{}, .pruning [] [] (fun y => ⟨⟨by simp, by simp, by simp⟩, by simp⟩) (by simp)
      nodup_nil (by simp)⟩
  obtain ⟨pass, hstage⟩ := invariant_of_meets
    (fun s a r hs hcond hstep => Underway.step hs hcond hstep) hstart hmeets hrun
  rw [hbetween] at hstage
  have hall : ∀ y, LawfulAt t.store y := hstage.lawful rfl
  refine ⟨fun id => (hall id).toSoundAt, ?_⟩
  intro id entry hid hentry hopen next hread hscanned hexisting hcomplete
  have hlive : id ∈ next.live := next.mem_live.mpr ⟨hscanned, hexisting⟩
  have hlisted : id ∈ next.openList := by
    rw [← List.mem_toFinset, hread]
    exact (hall id).kept hid entry hentry hopen
  rcases next.complete_iff.mp hcomplete with hnil | hall
  · rw [hnil] at hlive
    cases hlive
  · rw [hall]
    exact next.mem_todo.mpr ⟨hlive, .inl hlisted⟩

/-- A filled row of the connection that is still open. -/
def filledOpenRow : LedgerRow where
  status := some "open"
  executedQuantity := some 1
  source := .real
  executedReal := true

def simulatedRow : LedgerRow where
  status := some "simulated"
  source := .simulated

/-- A first pass over an open and a simulated row. -/
def firstPass : LedgerPass where
  existing := ["open", "paper"]
  rows := fun id => if id = "open" then some filledOpenRow else some simulatedRow

/-- A second pass, after the open row was closed and settled. -/
def secondPass : LedgerPass where
  existing := ["open", "paper"]
  idList := ["open"]
  skipList := ["paper"]
  openList := ["open"]
  rows := fun id =>
    if id = "open" then some { filledOpenRow with status := some "closed", settledPnl := some 1 }
    else some simulatedRow

/-- The first pass stops after the row was skipped and counted, and begins anew; the second one
settles the open row. -/
theorem ledger_survivesInterruption_twoPasses :
    ∃ t, run resultsStep {} ([.begin firstPass] ++ replicate 5 .command ++ [.stop] ++
        [.begin secondPass] ++ replicate 2 .command ++ [.stop]) = some t ∧
      (∀ id, SoundAt t.store id) ∧ t.store.openIds = ∅ := by
  obtain ⟨t, hrun, hproj⟩ := map_eq_some_iff.mp
    (show (run resultsStep {} ([.begin firstPass] ++ replicate 5 .command ++ [.stop] ++
        [.begin secondPass] ++ replicate 2 .command ++ [.stop])).map
        (fun t => (t.todo, t.store.openIds)) = some ([], ∅) by decide +kernel)
  have htodo : t.todo = [] := congrArg fst hproj
  have hopen : t.store.openIds = ∅ := congrArg snd hproj
  exact ⟨t, hrun, (ledger_survivesInterruption hrun (by decide +kernel) htodo).1, hopen⟩

/-- A pass that stops after the second command on the open row: the row is kept, its entry is not
final, it is not in the open set, and a complete pass does not read it again.  A pass that stops
before the count: the row is skipped and was never counted. -/
theorem ledger_torn :
    (∃ t, run resultsStep {} [.begin firstPass, .command, .command, .stop] = some t ∧
      t.todo = [] ∧ ¬ SoundAt t.store "open" ∧
      let next : LedgerPass := { firstPass with idList := ["open"] }
      next.Reads t.store ∧ next.complete = true ∧ "open" ∉ next.readIds) ∧
    ∃ t, run resultsStep {} ([.begin firstPass] ++ replicate 4 .command ++ [.stop]) = some t ∧
      t.todo = [] ∧ ¬ SoundAt t.store "paper" := by
  constructor
  · obtain ⟨t, hrun, hproj⟩ := map_eq_some_iff.mp
      (show (run resultsStep {} [.begin firstPass, .command, .command, .stop]).map
        (fun t => (t.todo, t.store.ids, t.store.skip, t.store.openIds, t.store.entries "open")) =
          some ([], {"open"}, ∅, ∅, some (toLedgerEntry "open" filledOpenRow)) by decide +kernel)
    simp only [mk.injEq] at hproj
    obtain ⟨htodo, hids, hskip, hopen, hentry⟩ := hproj
    refine ⟨t, hrun, htodo, fun hsound => ?_, ?_, by decide +kernel, by decide +kernel⟩
    · have hkept := hsound.kept (by rw [hids]; simp) _ hentry (by decide +kernel)
      rw [hopen] at hkept
      cases hkept
    · refine ⟨.inr ?_, .inl rfl, .inl rfl⟩
      rw [hids]
      rfl
  · obtain ⟨t, hrun, hproj⟩ := map_eq_some_iff.mp
      (show (run resultsStep {} ([.begin firstPass] ++ replicate 4 .command ++ [.stop])).map
        (fun t => (t.todo, t.store.skip, t.store.counted "paper")) = some ([], {"paper"}, 0) by
          decide +kernel)
    simp only [mk.injEq] at hproj
    obtain ⟨htodo, hskip, hcounted⟩ := hproj
    refine ⟨t, hrun, htodo, fun hsound => ?_⟩
    have hone := hsound.counted (by rw [hskip]; simp)
    rw [hcounted] at hone
    cases hone

end CtsEngine

/-! ## The completeness of the ledger -/

namespace CtsEngine

lemma foldl_exec_agreeAt {cs : List LedgerCommand} {id : String} (s : LedgerStore)
    (hne : ∀ c ∈ cs, id ≠ c.id) : AgreeAt s (cs.foldl LedgerStore.exec s) id := by
  induction cs generalizing s with
  | nil => exact ⟨Iff.rfl, Iff.rfl, Iff.rfl, Iff.rfl, rfl, rfl⟩
  | cons c cs ih =>
    have hfst := exec_agreeAt s (hne c (mem_cons_self ..))
    have hrest := ih (s.exec c) fun c' hc' => hne c' (mem_cons_of_mem c hc')
    exact ⟨hrest.ids.trans hfst.ids, hrest.skip.trans hfst.skip,
      hrest.openIds.trans hfst.openIds, hrest.pruned.trans hfst.pruned,
      hrest.entries.trans hfst.entries, hrest.counted.trans hfst.counted⟩

namespace LedgerPass

variable (pass : LedgerPass)

/-- The store after a pass that sent all its commands. -/
def finish (s : LedgerStore) : LedgerStore := pass.commands.foldl LedgerStore.exec s

/-- The ledger knows a row: it is kept, it is skipped, or the pass read it and it is pending. -/
def Knows (s : LedgerStore) (id : String) : Prop :=
  id ∈ s.ids ∨ id ∈ s.skip ∨ (id ∈ pass.readIds ∧ pass.classOf id = some .pending)

/-- The pass decides a row: reading it succeeds, the row has a status, and if it is executed it is
not taken for one that is kept already. -/
def Decides (id : String) : Prop :=
  ∃ kind, pass.classOf id = some kind ∧ (kind = .executed → id ∉ pass.openList)

variable {pass}

lemma id_of_mem_rowCommands (x : String) : ∀ c ∈ pass.rowCommands x, c.id = x := by
  have hwith : ∀ c ∈ pass.withdraw x, c.id = x := by
    unfold withdraw
    split
    · exact forall_mem_cons.mpr ⟨rfl, forall_mem_cons.mpr ⟨rfl, forall_mem_singleton.mpr rfl⟩⟩
    · exact forall_mem_nil _
  rcases pass.rowCommands_cases x with ⟨-, hprog⟩ | ⟨-, entry, hprog⟩ | ⟨-, hprog⟩ |
    ⟨kind, field, -, -, hprog⟩
  · rw [hprog]
    exact forall_mem_nil _
  · rw [hprog]
    refine forall_mem_cons.mpr ⟨rfl, forall_mem_append.mpr ⟨?_, ?_⟩⟩
    · split
      · exact forall_mem_nil _
      · exact forall_mem_singleton.mpr rfl
    · refine forall_mem_singleton.mpr ?_
      unfold openCommand
      split <;> rfl
  · rw [hprog]
    exact hwith
  · rw [hprog]
    exact forall_mem_append.mpr ⟨hwith, forall_mem_cons.mpr ⟨rfl, forall_mem_singleton.mpr rfl⟩⟩

variable (s)

lemma knows_rowCommands {x : String} (hread : x ∈ pass.readIds) :
    pass.Knows ((pass.rowCommands x).foldl LedgerStore.exec s) x ↔
      (x ∈ s.ids ∨ x ∈ s.skip) ∨ pass.Decides x := by
  unfold Knows Decides
  rcases pass.rowCommands_cases x with ⟨hclass, hprog⟩ | ⟨hclass, entry, hprog⟩ |
    ⟨hclass, hprog⟩ | ⟨kind, field, hclass, hfield, hprog⟩
  · rw [hprog, hclass]
    simp
  · rw [hprog, hclass]
    by_cases hopen : x ∈ pass.openList <;> cases hfinal : entry.final <;>
      simp [hopen, hfinal, openCommand, LedgerStore.exec]
  · rw [hclass]
    have hpend : x ∈ pass.readIds ∧ some RowClass.pending = some RowClass.pending := ⟨hread, rfl⟩
    simp [hpend]
  · -- a final non-result is in the skip set in the end
    have hskip : x ∈ ((pass.rowCommands x).foldl LedgerStore.exec s).skip := by
      rw [hprog, foldl_append, foldl_cons, foldl_cons]
      generalize (pass.withdraw x).foldl LedgerStore.exec s = s'
      have hin : x ∈ (s'.exec (.saddSkip x)).skip := Finset.mem_insert_self x s'.skip
      unfold LedgerStore.exec
      dsimp only
      split
      · exact hin
      · exact hin
    refine iff_of_true (.inr (.inl hskip)) (.inr ⟨kind, hclass, fun heq => ?_⟩)
    rw [heq] at hfield
    cases hfield

/-- The commands before the rows and those of other rows do not touch a row that was scanned. -/
lemma ne_id_of_mem_prune {x : String} {rows : List String} (hlive : x ∈ pass.live)
    (hrows : x ∉ rows) : ∀ c ∈ pass.pruneIds.map LedgerCommand.sremSkip ++
      rows.flatMap pass.rowCommands, x ≠ c.id := by
  intro c hc heq
  rcases mem_append.mp hc with hc | hc
  · obtain ⟨y, hy, rfl⟩ := mem_map.mp hc
    have hgone := (mem_filter.mp (mem_of_mem_take hy)).2
    have hxy : x = y := heq
    rw [← hxy] at hgone
    simp [hlive] at hgone
  · obtain ⟨y, hy, hcy⟩ := mem_flatMap.mp hc
    rw [id_of_mem_rowCommands y c hcy] at heq
    exact hrows (heq ▸ hy)

lemma knows_finish_of_read {x : String} (hread : x ∈ pass.readIds) :
    pass.Knows (pass.finish s) x ↔ (x ∈ s.ids ∨ x ∈ s.skip) ∨ pass.Decides x := by
  have hlive : x ∈ pass.live := (pass.mem_todo.mp (pass.readIds_start.subset hread)).1
  obtain ⟨before, after, hsplit⟩ := mem_iff_append.mp hread
  have hnodup := pass.nodup_readIds
  rw [hsplit] at hnodup
  obtain ⟨-, hnodup', hapart⟩ := nodup_append.mp hnodup
  have hcmds : pass.commands = (pass.pruneIds.map LedgerCommand.sremSkip ++
      before.flatMap pass.rowCommands) ++ (pass.rowCommands x ++
        after.flatMap pass.rowCommands) := by
    unfold commands
    rw [if_neg (ne_nil_of_mem hlive), hsplit, flatMap_append, flatMap_cons, append_assoc]
  have hbef := ne_id_of_mem_prune hlive fun hx => hapart x hx x (mem_cons_self ..) rfl
  have hafter : ∀ c ∈ after.flatMap pass.rowCommands, x ≠ c.id := fun c hc =>
    ne_id_of_mem_prune hlive (nodup_cons.mp hnodup').1 c (mem_append_right _ hc)
  unfold finish
  rw [hcmds, foldl_append, foldl_append (l := pass.rowCommands x)]
  have hfst := foldl_exec_agreeAt s hbef
  generalize (pass.pruneIds.map LedgerCommand.sremSkip ++
    before.flatMap pass.rowCommands).foldl LedgerStore.exec s = s₁ at hfst ⊢
  have hlast := foldl_exec_agreeAt ((pass.rowCommands x).foldl LedgerStore.exec s₁) hafter
  have hrow := knows_rowCommands s₁ hread
  rw [hfst.ids, hfst.skip] at hrow
  rw [← hrow]
  unfold Knows
  rw [hlast.ids, hlast.skip]

lemma sets_finish_of_not_read {x : String} (hexis : x ∈ pass.existing)
    (hread : x ∉ pass.readIds) :
    (x ∈ (pass.finish s).ids ↔ x ∈ s.ids) ∧ (x ∈ (pass.finish s).skip ↔ x ∈ s.skip) := by
  have hne : ∀ c ∈ pass.commands, x ≠ c.id := by
    intro c hc heq
    unfold commands at hc
    split at hc
    · cases hc
    · rename_i hlive
      have hscan : pass.scanned = true := by
        by_contra hnot
        exact hlive (if_neg hnot)
      exact ne_id_of_mem_prune (pass.mem_live.mpr ⟨hscan, hexis⟩) hread c hc heq
  have hagree := foldl_exec_agreeAt s hne
  exact ⟨hagree.ids, hagree.skip⟩

variable {s}

lemma mem_todo_of_unknown {s : LedgerStore} (hreads : pass.Reads s) {x : String}
    (hlive : x ∈ pass.live) (hids : x ∉ s.ids) (hskip : x ∉ s.skip) : x ∈ pass.todo := by
  refine pass.mem_todo.mpr ⟨hlive, ?_⟩
  by_cases hopen : x ∈ pass.openList
  · exact .inl hopen
  · refine .inr ⟨hopen, fun hin => ?_, fun hin => ?_⟩
    · rcases hreads.1 with hnil | hsame
      · rw [hnil] at hin
        cases hin
      · exact hids (hsame ▸ List.mem_toFinset.mpr hin)
    · rcases hreads.2.1 with hnil | hsame
      · rw [hnil] at hin
        cases hin
      · exact hskip (hsame ▸ List.mem_toFinset.mpr hin)

end LedgerPass

/-- **Completeness of the ledger.** A pass that calls the ledger complete knows every row that
existed when it scanned the keys, exactly when this holds of a pass that the budgets let through its
list: the scan listed every row that is in neither set, and the pass decides each of them. -/
theorem ledgerComplete_iff {s : LedgerStore} {pass : LedgerPass} (hreads : pass.Reads s) :
    (pass.complete = true → ∀ id ∈ pass.existing, pass.Knows (pass.finish s) id) ↔
      (pass.live = [] ∨ pass.readIds = pass.todo →
        ∀ id ∈ pass.existing, id ∉ s.ids → id ∉ s.skip →
          pass.scanned = true ∧ pass.Decides id) := by
  rw [pass.complete_iff]
  refine forall_congr' fun hthrough => forall_congr' fun id => forall_congr' fun hexisting => ?_
  by_cases hread : id ∈ pass.readIds
  · have hlive := pass.mem_live.mp (pass.mem_todo.mp (pass.readIds_start.subset hread)).1
    rw [LedgerPass.knows_finish_of_read s hread]
    constructor
    · rintro ((hids | hskip) | hdecides) hnotIds hnotSkip
      · exact absurd hids hnotIds
      · exact absurd hskip hnotSkip
      · exact ⟨hlive.1, hdecides⟩
    · intro h
      by_cases hids : id ∈ s.ids
      · exact .inl (.inl hids)
      · by_cases hskip : id ∈ s.skip
        · exact .inl (.inr hskip)
        · exact .inr (h hids hskip).2
  · obtain ⟨hsameIds, hsameSkip⟩ := LedgerPass.sets_finish_of_not_read s hexisting hread
    unfold LedgerPass.Knows
    rw [hsameIds, hsameSkip]
    constructor
    · rintro (hids | hskip | hpending) hnotIds hnotSkip
      · exact absurd hids hnotIds
      · exact absurd hskip hnotSkip
      · exact absurd hpending.1 hread
    · intro h
      by_cases hids : id ∈ s.ids
      · exact .inl hids
      · by_cases hskip : id ∈ s.skip
        · exact .inr (.inl hskip)
        · -- the row is one to look at, and the pass is through its list
          have hscanned := (h hids hskip).1
          have hlive : id ∈ pass.live := pass.mem_live.mpr ⟨hscanned, hexisting⟩
          have htodo := LedgerPass.mem_todo_of_unknown hreads hlive hids hskip
          rcases hthrough with hnil | hall
          · rw [hnil] at hlive
            cases hlive
          · exact absurd (hall ▸ htodo) hread

/-- A pass over an open and a simulated row knows both. -/
theorem ledgerComplete_iff_firstPass :
    firstPass.complete = true ∧ ∀ id ∈ firstPass.existing, firstPass.Knows
      (firstPass.finish {}) id := by
  have hreads : firstPass.Reads {} := ⟨.inl rfl, .inl rfl, .inl rfl⟩
  have hcomplete : firstPass.complete = true := by decide +kernel
  refine ⟨hcomplete, (ledgerComplete_iff hreads).mpr (fun _ id hid _ _ => ⟨rfl, ?_⟩) hcomplete⟩
  rcases mem_pair.mp hid with rfl | rfl
  · exact ⟨.executed, by decide +kernel, fun _ => by decide⟩
  · exact ⟨.simulated, by decide +kernel, fun _ => by decide⟩

/-- Three passes that call the ledger complete and do not know the open row: the scan of the keys
fails, the read of the row fails, and an earlier pass left the id in the open set only. -/
theorem ledgerComplete_unknownRow :
    (∀ pass ∈ [{ firstPass with scanned := false }, { firstPass with rows := fun _ => none }],
      pass.complete = true ∧ "open" ∈ pass.existing ∧ ¬ pass.Knows (pass.finish {}) "open") ∧
    let pass : LedgerPass := { firstPass with openList := ["open"] }
    let store : LedgerStore := { openIds := {"open"} }
    pass.Reads store ∧ pass.complete = true ∧ "open" ∈ pass.existing ∧
      ¬ pass.Knows (pass.finish store) "open" := by
  refine ⟨?_, ⟨.inl rfl, .inl rfl, .inr rfl⟩, ?_⟩
  · unfold LedgerPass.Knows
    intro pass hpass
    rcases mem_pair.mp hpass with rfl | rfl
    · decide +kernel
    · decide +kernel
  · unfold LedgerPass.Knows
    decide +kernel

end CtsEngine
