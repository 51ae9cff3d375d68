import CtsEngine.Transition.Runs

/-!
# Moving a value to the head of a list

`upsertRedisListHead` and `moveRedisListMembershipToHead` remove a value from lists and push it to
the head of one.  An adapter with `eval` runs the commands of a call in one step; the transaction of
the inline adapter awaits each command, so that commands of other calls and reads come between
them.  Lists have no expiry.
-/

open List Function Transition Option

namespace CtsEngine

/-- `LREM key 0 value` and `LPUSH key value`. -/
inductive ListCommand
  | lrem (key value : String)
  | lpush (key value : String)
deriving DecidableEq

/-- What a command makes of the lists. -/
def ListCommand.apply (lists : String → List String) : ListCommand → String → List String
  | .lrem key value => update lists key ((lists key).filter (· ≠ value))
  | .lpush key value => update lists key (value :: lists key)

namespace ListCommand

variable {lists : String → List String} {key value k v : String}

lemma mem_apply_lrem :
    v ∈ (lrem key value).apply lists k ↔ v ∈ lists k ∧ ¬ (k = key ∧ v = value) := by
  rw [apply]
  by_cases hk : k = key
  · subst hk
    simp
  · simp [hk]

lemma mem_apply_lpush :
    v ∈ (lpush key value).apply lists k ↔ (k = key ∧ v = value) ∨ v ∈ lists k := by
  rw [apply]
  by_cases hk : k = key
  · subst hk
    simp
  · simp [hk]

lemma count_apply_lpush_self (lists : String → List String) (key value : String) :
    ((lpush key value).apply lists key).count value = (lists key).count value + 1 := by
  rw [apply, update_self, count_cons_self]

lemma count_apply_of_ne (h : ¬ (k = key ∧ v = value)) :
    ((lrem key value).apply lists k).count v = (lists k).count v ∧
      ((lpush key value).apply lists k).count v = (lists k).count v := by
  rw [apply, apply]
  by_cases hk : k = key
  · subst hk
    have hv : v ≠ value := fun hv => h ⟨rfl, hv⟩
    rw [update_self, update_self]
    exact ⟨count_filter (by simpa using hv), count_cons_of_ne hv.symm⟩
  · rw [update_of_ne hk, update_of_ne hk]
    exact ⟨rfl, rfl⟩

end ListCommand

inductive MembershipCall
  | upsertRedisListHead (key value : String)
  | moveRedisListMembershipToHead (sourceKey targetKey value : String)
deriving DecidableEq

namespace MembershipCall

def value : MembershipCall → String
  | .upsertRedisListHead _ value => value
  | .moveRedisListMembershipToHead _ _ value => value

/-- The list that the value is pushed to. -/
def targetKey : MembershipCall → String
  | .upsertRedisListHead key _ => key
  | .moveRedisListMembershipToHead _ targetKey _ => targetKey

/-- The commands of a call, of its script as of its transaction. -/
def commands : MembershipCall → List ListCommand
  | .upsertRedisListHead key value => [.lrem key value, .lpush key value]
  | .moveRedisListMembershipToHead sourceKey targetKey value =>
    [.lrem sourceKey value, .lrem targetKey value, .lpush targetKey value]

end MembershipCall

/-- A call and the number of its commands that were run. -/
abbrev CallProgress := MembershipCall × ℕ

/-- The lists, the calls with their progress, the calls that have finished, in their order, and what
readers have seen. -/
structure MembershipState where
  lists : String → List String
  calls : List CallProgress := []
  finished : List MembershipCall := []
  reads : List (String × List String) := []

/-- A call starts, goes on, or a list is read. -/
inductive MembershipAction
  | start (call : MembershipCall)
  | advance (i : ℕ)
  | read (key : String)

namespace MembershipState

/-- Run the next command of a call. -/
def runCommand (s : MembershipState) (i : ℕ) : Option MembershipState :=
  s.calls[i]?.bind fun progress =>
    progress.1.commands[progress.2]?.map fun command =>
      { s with
        lists := command.apply s.lists
        calls := s.calls.set i (progress.1, progress.2 + 1)
        finished := if progress.2 + 1 = progress.1.commands.length then
          s.finished ++ [progress.1] else s.finished }

/-- A step of an adapter with or without `eval`, which runs all commands of a call at once. -/
def step (hasEval : Bool) (s : MembershipState) : MembershipAction → Option MembershipState
  | .start call => some { s with calls := s.calls ++ [(call, 0)] }
  | .advance i =>
    if hasEval then
      s.calls[i]?.bind fun progress => run runCommand s
        (replicate (progress.1.commands.length - progress.2) i)
    else s.runCommand i
  | .read key => some { s with reads := s.reads ++ [(key, s.lists key)] }

/-- All calls have finished. -/
def AllFinished (s : MembershipState) : Prop := ∀ p ∈ s.calls, p.2 = p.1.commands.length

instance (s : MembershipState) : Decidable s.AllFinished :=
  inferInstanceAs (Decidable (∀ p ∈ s.calls, _))

/-- The calls of a value are all insertions at the head. -/
def OnlyUpserted (s : MembershipState) (value : String) : Prop :=
  ∀ p ∈ s.calls, p.1.value = value → p.1 = .upsertRedisListHead p.1.targetKey value

instance (s : MembershipState) (value : String) : Decidable (s.OnlyUpserted value) :=
  inferInstanceAs (Decidable (∀ p ∈ s.calls, _))

/-- Each value is once in the list of its last call, and not in the source of a move unless that
call or a later one pushed it there. -/
structure SingleMembership (s : MembershipState) : Prop where
  once : ∀ before call after, s.finished = before ++ call :: after →
    (∀ c ∈ after, c.value ≠ call.value) → (s.lists call.targetKey).count call.value = 1
  gone : ∀ before sourceKey targetKey value after, s.finished = before ++
      .moveRedisListMembershipToHead sourceKey targetKey value :: after →
    (∀ c ∈ .moveRedisListMembershipToHead sourceKey targetKey value :: after, c.value = value →
      c.targetKey ≠ sourceKey) → value ∉ s.lists sourceKey

/-- No reader missed a value that was in a list at the start and is only inserted at heads. -/
def NeverMissed (lists : String → List String) (s : MembershipState) : Prop :=
  ∀ observed ∈ s.reads, ∀ value ∈ lists observed.1, s.OnlyUpserted value → value ∈ observed.2

end MembershipState

/-! ## Calls under way -/

/-- A call under way has removed a value from a list. -/
def HasRemoved (p : CallProgress) (key value : String) : Prop :=
  p.2 < p.1.commands.length ∧ .lrem key value ∈ p.1.commands.take p.2

instance (p : CallProgress) (key value : String) : Decidable (HasRemoved p key value) :=
  inferInstanceAs (Decidable (_ ∧ _))

/-- What keeps the calls apart: no value is pushed to a list from which another call under way has
removed it, and no list is read between the two commands of an insertion at its head. -/
def Apart (s : MembershipState) : MembershipAction → Prop
  | .start _ => True
  | .advance i => ∀ p ∈ s.calls[i]?,
      p.1.commands[p.2]? = some (.lpush p.1.targetKey p.1.value) →
        ∀ j < s.calls.length, j ≠ i → ∀ q ∈ s.calls[j]?, ¬ HasRemoved q p.1.targetKey p.1.value
  | .read key => ∀ p ∈ s.calls, p.1 = .upsertRedisListHead key p.1.value → p.2 ≠ 1

instance (s : MembershipState) : ∀ action, Decidable (Apart s action)
  | .start _ => inferInstanceAs (Decidable True)
  | .advance i => inferInstanceAs (Decidable (∀ p ∈ s.calls[i]?, _))
  | .read _ => inferInstanceAs (Decidable (∀ p ∈ s.calls, _))

namespace MembershipCall

variable {key value : String} {call : MembershipCall}

lemma value_of_mem (h : .lrem key value ∈ call.commands) : value = call.value := by
  cases call with
  | upsertRedisListHead k v =>
    simp only [commands, mem_cons, ListCommand.lrem.injEq, reduceCtorEq, not_mem_nil, or_false] at h
    exact h.2
  | moveRedisListMembershipToHead source target v =>
    simp only [commands, mem_cons, ListCommand.lrem.injEq, reduceCtorEq, not_mem_nil, or_false] at h
    exact h.elim And.right And.right

lemma targetKey_of_mem {k v : String} (h : .lrem k v ∈ (upsertRedisListHead key value).commands) :
    k = key := by
  simp only [commands, mem_cons, ListCommand.lrem.injEq, reduceCtorEq, not_mem_nil, or_false] at h
  exact h.1

lemma lt_length_of_lrem {n : ℕ} (h : call.commands[n]? = some (.lrem key value)) :
    n + 1 < call.commands.length := by
  cases call with
  | upsertRedisListHead k v =>
    match n with
    | 0 => exact Nat.lt_of_sub_eq_succ rfl
    | 1 => cases some.inj h
    | n + 2 => cases h
  | moveRedisListMembershipToHead source target v =>
    match n with
    | 0 => exact Nat.lt_of_sub_eq_succ rfl
    | 1 => exact Nat.lt_of_sub_eq_succ rfl
    | 2 => cases some.inj h
    | n + 3 => cases h

lemma spec_of_lpush {n : ℕ} (h : call.commands[n]? = some (.lpush key value)) :
    n + 1 = call.commands.length ∧ key = call.targetKey ∧ value = call.value ∧
      .lrem key value ∈ call.commands.take n ∧
        ∀ source, call = moveRedisListMembershipToHead source key value →
          .lrem source value ∈ call.commands.take n := by
  cases call with
  | upsertRedisListHead k v =>
    match n with
    | 0 => cases some.inj h
    | 1 =>
      obtain ⟨rfl, rfl⟩ := ListCommand.lpush.inj (some.inj h)
      exact ⟨rfl, rfl, rfl, mem_cons_self, nofun⟩
    | n + 2 => cases h
  | moveRedisListMembershipToHead source target v =>
    match n with
    | 0 => cases some.inj h
    | 1 => cases some.inj h
    | 2 =>
      obtain ⟨rfl, rfl⟩ := ListCommand.lpush.inj (some.inj h)
      refine ⟨rfl, rfl, rfl, mem_cons_of_mem _ mem_cons_self, fun other hmove => ?_⟩
      obtain ⟨rfl, -, -⟩ := moveRedisListMembershipToHead.inj hmove
      exact mem_cons_self
    | n + 3 => cases h

end MembershipCall

lemma HasRemoved.value_eq {p : CallProgress} {key value : String} (h : HasRemoved p key value) :
    value = p.1.value := MembershipCall.value_of_mem (mem_of_mem_take h.2)

end CtsEngine

/-! ## Runs of list moves -/

namespace CtsEngine

open ListCommand

namespace MembershipState

variable {lists : String → List String} {s t : MembershipState}

/-- What holds at every moment of a run whose calls keep apart. -/
structure Kept (lists : String → List String) (s : MembershipState) : Prop where
  absent : ∀ p ∈ s.calls, ∀ key value, HasRemoved p key value → value ∉ s.lists key
  once : ∀ before call after, s.finished = before ++ call :: after →
    (∀ c ∈ after, c.value ≠ call.value) →
      (∀ p ∈ s.calls, ¬ HasRemoved p call.targetKey call.value) →
        (s.lists call.targetKey).count call.value = 1
  gone : ∀ before sourceKey targetKey value after, s.finished = before ++
      .moveRedisListMembershipToHead sourceKey targetKey value :: after →
    (∀ c ∈ .moveRedisListMembershipToHead sourceKey targetKey value :: after, c.value = value →
      c.targetKey ≠ sourceKey) → value ∉ s.lists sourceKey
  present : ∀ key, ∀ value ∈ lists key, s.OnlyUpserted value →
    (∀ p ∈ s.calls, ¬ HasRemoved p key value) → value ∈ s.lists key
  seen : NeverMissed lists s

lemma kept_initial (lists : String → List String) : Kept lists { lists := lists } where
  absent := forall_mem_nil _
  once := fun _ _ _ h => absurd h.symm (append_ne_nil_of_right_ne_nil _ (cons_ne_nil _ _))
  gone := fun _ _ _ _ _ h =>
    absurd h.symm (append_ne_nil_of_right_ne_nil _ (cons_ne_nil _ _))
  present := fun _ _ hval _ _ => hval
  seen := forall_mem_nil _

variable (call)

lemma not_hasRemoved_start (key value : String) :
    ¬ HasRemoved (call, 0) key value := fun h => absurd h.2 not_mem_nil

lemma Kept.start (h : Kept lists s) :
    Kept lists { s with calls := s.calls ++ [(call, 0)] } := by
  have hold : ∀ {key value}, (∀ p ∈ s.calls ++ [(call, 0)], ¬ HasRemoved p key value) →
        ∀ p ∈ s.calls, ¬ HasRemoved p key value :=
    fun hnone p hp => hnone p (mem_append_left _ hp)
  have hupser : ∀ {value},
      OnlyUpserted { s with calls := s.calls ++ [(call, 0)] } value → s.OnlyUpserted value :=
    fun honly p hp => honly p (mem_append_left _ hp)
  refine ⟨?_, ?_, h.gone, ?_, ?_⟩
  · intro p hp key value hremov
    rcases mem_append.mp hp with hp | hp
    · exact h.absent p hp key value hremov
    · rw [mem_singleton.mp hp] at hremov
      exact absurd hremov (not_hasRemoved_start call key value)
  · exact fun before c after hfin hlast hnone =>
      h.once before c after hfin hlast (hold hnone)
  · exact fun key value hval honly hnone =>
      h.present key value hval (hupser honly) (hold hnone)
  · exact fun observed hobser value hval honly =>
      h.seen observed hobser value hval (hupser honly)

variable {call}

lemma Kept.read (h : Kept lists s) {key : String} (hapart : Apart s (.read key)) :
    Kept lists { s with reads := s.reads ++ [(key, s.lists key)] } := by
  refine ⟨h.absent, h.once, h.gone, h.present, fun observed hobser value hval honly => ?_⟩
  rcases mem_append.mp hobser with hobser | hobser
  · exact h.seen observed hobser value hval honly
  · rw [mem_singleton.mp hobser] at hval ⊢
    refine h.present key value hval honly fun p hp hremov => ?_
    obtain ⟨other, hcall⟩ : ∃ other, p.1 = .upsertRedisListHead other value :=
      ⟨_, honly p hp hremov.value_eq.symm⟩
    -- between its commands a call has removed the value from the list that it pushes to
    obtain ⟨call, n⟩ := p
    subst hcall
    obtain ⟨hlt, hmem⟩ := hremov
    match n with
    | 0 => exact absurd hmem not_mem_nil
    | 1 =>
      obtain ⟨rfl, -⟩ := ListCommand.lrem.inj (mem_singleton.mp hmem)
      exact hapart _ hp rfl rfl
    | n + 2 => exact absurd hlt (Nat.not_lt.mpr (Nat.le_add_left 2 n))

lemma append_singleton_cases {α : Type} {xs before after : List α} {x c : α}
    (h : xs ++ [x] = before ++ c :: after) :
    (after = [] ∧ xs = before ∧ x = c) ∨
      ∃ rest, after = rest ++ [x] ∧ xs = before ++ c :: rest := by
  rcases eq_nil_or_concat' after with rfl | ⟨rest, last, rfl⟩
  · obtain ⟨hxs, hx⟩ := append_inj' h rfl
    exact .inl ⟨rfl, hxs, head_eq_of_cons_eq hx⟩
  · have hassoc : before ++ c :: (rest ++ [last]) = (before ++ c :: rest) ++ [last] := by
      rw [append_assoc, cons_append]
    obtain ⟨hxs, hx⟩ := append_inj' (h.trans hassoc) rfl
    exact .inr ⟨rest, by rw [head_eq_of_cons_eq hx], hxs⟩

section Commands

variable {i n : ℕ} {call : MembershipCall} {key value : String}

lemma onlyUpserted_set (hat : s.calls[i]? = some (call, n)) {other : MembershipState}
    (hcalls : other.calls = s.calls.set i (call, n + 1)) {v : String}
    (honly : other.OnlyUpserted v) : s.OnlyUpserted v := by
  intro p hp hval
  obtain ⟨j, hj⟩ := mem_iff_getElem?.mp hp
  by_cases hij : i = j
  · subst hij
    obtain rfl := some.inj (hat.symm.trans hj)
    exact honly (call, n + 1) (hcalls ▸ mem_set (List.getElem?_eq_some_iff.mp hat).1 _) hval
  · refine honly p ?_ hval
    rw [hcalls]
    refine mem_iff_getElem?.mpr ⟨j, ?_⟩
    rw [getElem?_set_ne hij, hj]

/-- A removal by a call keeps the invariant. -/
lemma Kept.lrem (h : Kept lists s) (hat : s.calls[i]? = some (call, n))
    (hcmd : call.commands[n]? = some (.lrem key value)) :
    Kept lists { s with
      lists := (ListCommand.lrem key value).apply s.lists
      calls := s.calls.set i (call, n + 1) } := by
  have hlt := MembershipCall.lt_length_of_lrem hcmd
  have hremov : HasRemoved (call, n + 1) key value := by
    refine ⟨hlt, ?_⟩
    rw [take_add_one, hcmd]
    exact mem_append_right _ mem_cons_self
  have hself : (call, n + 1) ∈ s.calls.set i (call, n + 1) :=
    mem_set (List.getElem?_eq_some_iff.mp hat).1 _
  -- what no call has removed afterwards, none had removed before, and it was not removed now
  have hnone : ∀ {k v}, (∀ p ∈ s.calls.set i (call, n + 1), ¬ HasRemoved p k v) →
      (∀ p ∈ s.calls, ¬ HasRemoved p k v) ∧ ¬ (k = key ∧ v = value) := by
    intro k v hnone
    refine ⟨fun p hp hold => ?_, ?_⟩
    · obtain ⟨j, hj⟩ := mem_iff_getElem?.mp hp
      by_cases hij : i = j
      · subst hij
        obtain rfl := some.inj (hat.symm.trans hj)
        exact hnone _ hself ⟨hlt, take_subset_take_left _ (Nat.le_succ n) hold.2⟩
      · refine hnone p ?_ hold
        rw [mem_iff_getElem?]
        exact ⟨j, by rw [getElem?_set_ne hij, hj]⟩
    · rintro ⟨rfl, rfl⟩
      exact hnone _ hself hremov
  refine ⟨?_, ?_, ?_, ?_, ?_⟩
  · intro p hp k v hp'
    rw [mem_apply_lrem]
    rintro ⟨hmem, hne⟩
    rcases mem_set_cases hp with rfl | ⟨j, -, hj⟩
    · obtain ⟨-, htake⟩ := hp'
      rw [take_add_one, hcmd] at htake
      rcases mem_append.mp htake with htake | htake
      · exact h.absent _ (mem_of_getElem? hat) k v ⟨Nat.lt_of_succ_lt hlt, htake⟩ hmem
      · exact hne (ListCommand.lrem.inj (mem_singleton.mp htake))
    · exact h.absent p (mem_of_getElem? hj) k v hp' hmem
  · intro before c after hfin hlast hfree
    obtain ⟨hold, hne⟩ := hnone hfree
    rw [(count_apply_of_ne hne).1]
    exact h.once before c after hfin hlast hold
  · intro before source target v after hfin hlast hmem
    exact h.gone before source target v after hfin hlast (mem_apply_lrem.mp hmem).1
  · intro k v hmem honly hfree
    obtain ⟨hold, hne⟩ := hnone hfree
    exact mem_apply_lrem.mpr ⟨h.present k v hmem (onlyUpserted_set hat rfl honly) hold, hne⟩
  · exact fun observed hobser v hmem honly =>
      h.seen observed hobser v hmem (onlyUpserted_set hat rfl honly)

/-- A push of a call keeps the invariant. -/
lemma Kept.lpush (h : Kept lists s) (hapart : Apart s (.advance i))
    (hat : s.calls[i]? = some (call, n))
    (hcmd : call.commands[n]? = some (.lpush key value)) :
    Kept lists { s with
      lists := (ListCommand.lpush key value).apply s.lists
      calls := s.calls.set i (call, n + 1)
      finished := s.finished ++ [call] } := by
  obtain ⟨hlen, rfl, rfl, hremov, hsrc⟩ := MembershipCall.spec_of_lpush hcmd
  have hlt : n < call.commands.length := by omega
  have hbef : ∀ {k}, .lrem k call.value ∈ call.commands.take n → call.value ∉ s.lists k :=
    fun hmem => h.absent _ (mem_of_getElem? hat) _ _ ⟨hlt, hmem⟩
  have hended : ∀ {k v}, ¬ HasRemoved (call, n + 1) k v :=
    fun hp => absurd hp.1 (by dsimp only; omega)
  -- a call that has removed a value of another call is not the one that ends
  have hnone : ∀ {k v}, (∀ p ∈ s.calls.set i (call, n + 1), ¬ HasRemoved p k v) →
      v ≠ call.value → ∀ p ∈ s.calls, ¬ HasRemoved p k v := by
    intro k v hnone hne p hp hold
    obtain ⟨j, hj⟩ := mem_iff_getElem?.mp hp
    by_cases hij : i = j
    · subst hij
      obtain rfl := some.inj (hat.symm.trans hj)
      exact hne hold.value_eq
    · refine hnone p ?_ hold
      rw [mem_iff_getElem?]
      exact ⟨j, by rw [getElem?_set_ne hij, hj]⟩
  refine ⟨?_, ?_, ?_, ?_, ?_⟩
  · intro p hp k v hp'
    rcases mem_set_cases hp with rfl | ⟨j, hj, hjp⟩
    · exact absurd hp' hended
    · rw [mem_apply_lpush]
      rintro (⟨rfl, rfl⟩ | hmem)
      · exact hapart _ hat hcmd j (List.getElem?_eq_some_iff.mp hjp).1 hj p hjp hp'
      · exact h.absent p (mem_of_getElem? hjp) k v hp' hmem
  · intro before c after hfin hlast hfree
    rcases append_singleton_cases hfin with ⟨rfl, rfl, rfl⟩ | ⟨after, rfl, hold⟩
    · exact (count_apply_lpush_self s.lists _ _).trans
        (congrArg (· + 1) (count_eq_zero.mpr (hbef hremov)))
    · have hne : call.value ≠ c.value := hlast call (mem_append_right _ mem_cons_self)
      have hcnt := h.once before c after hold
        (fun d hd => hlast d (mem_append_left _ hd)) (hnone hfree hne.symm)
      exact (count_apply_of_ne fun heq => hne heq.2.symm).2.trans hcnt
  · intro before source target v after hfin hlast hmem
    rcases append_singleton_cases hfin with ⟨rfl, rfl, rfl⟩ | ⟨after, rfl, hold⟩
    · rcases mem_apply_lpush.mp hmem with ⟨heq, -⟩ | hmem
      · exact hlast _ mem_cons_self rfl heq.symm
      · exact hbef (hsrc source rfl) hmem
    · rcases mem_apply_lpush.mp hmem with ⟨rfl, rfl⟩ | hmem
      · exact hlast call (by simp) rfl rfl
      · refine h.gone before source target v after hold (fun d hd => hlast d ?_) hmem
        rcases mem_cons.mp hd with rfl | hd
        · exact mem_cons_self
        · exact mem_cons_of_mem _ (mem_append_left _ hd)
  · intro k v hmem honly hfree
    refine mem_apply_lpush.mpr (or_iff_not_imp_left.mpr fun hne => ?_)
    refine h.present k v hmem (onlyUpserted_set hat rfl honly) fun p hp hold => ?_
    by_cases hv : v = call.value
    · -- the value is removed from its target only
      obtain ⟨j, hj⟩ := mem_iff_getElem?.mp hp
      by_cases hij : i = j
      · subst hij
        obtain rfl := some.inj (hat.symm.trans hj)
        obtain ⟨other, hcall⟩ : ∃ other, call = .upsertRedisListHead other v :=
          ⟨_, onlyUpserted_set hat rfl honly _ (mem_of_getElem? hat) hv.symm⟩
        subst hcall
        exact hne ⟨MembershipCall.targetKey_of_mem (mem_of_mem_take hold.2), hv⟩
      · refine hfree p ?_ hold
        rw [mem_iff_getElem?]
        exact ⟨j, by rw [getElem?_set_ne hij, hj]⟩
    · exact hnone hfree hv p hp hold
  · exact fun observed hobser v hmem honly =>
      h.seen observed hobser v hmem (onlyUpserted_set hat rfl honly)

lemma Kept.runCommand (h : Kept lists s) {i : ℕ} (hapart : Apart s (.advance i))
    (hstep : s.runCommand i = some t) : Kept lists t := by
  obtain ⟨⟨call, n⟩, hat, hrest⟩ := bind_eq_some_iff.mp hstep
  obtain ⟨command, hcmd, rfl⟩ := map_eq_some_iff.mp hrest
  cases command with
  | lrem key value =>
    rw [if_neg (Nat.ne_of_lt (MembershipCall.lt_length_of_lrem hcmd))]
    exact h.lrem hat hcmd
  | lpush key value =>
    rw [if_pos (MembershipCall.spec_of_lpush hcmd).1]
    exact h.lpush hapart hat hcmd

end Commands

lemma Kept.step (h : Kept lists s) {action : MembershipAction} (hapart : Apart s action)
    (hstep : s.step false action = some t) : Kept lists t := by
  cases action with
  | start call =>
    cases hstep
    exact h.start call
  | advance i => exact h.runCommand hapart hstep
  | read key =>
    cases hstep
    exact h.read hapart

/-! ## Adapters with `eval` -/

/-- Every call but one has run all of its commands or none. -/
def QuietBut (i : ℕ) (s : MembershipState) : Prop :=
  ∀ j p, j ≠ i → s.calls[j]? = some p → p.2 = 0 ∨ p.2 = p.1.commands.length

lemma QuietBut.apart {i : ℕ} (h : QuietBut i s) : Apart s (.advance i) := by
  rintro p - - j - hj q hq hremov
  rcases h j q hj hq with hzero | hend
  · rw [HasRemoved, hzero] at hremov
    exact absurd hremov.2 not_mem_nil
  · exact absurd hremov.1 (by omega)

lemma QuietBut.runCommand {i : ℕ} (h : QuietBut i s) (hstep : s.runCommand i = some t) :
    QuietBut i t := by
  obtain ⟨⟨call, n⟩, -, hrest⟩ := bind_eq_some_iff.mp hstep
  obtain ⟨command, -, rfl⟩ := map_eq_some_iff.mp hrest
  intro j p hj hp
  rw [getElem?_set_ne hj.symm] at hp
  exact h j p hj hp

lemma Kept.runScript {i k : ℕ} (h : Kept lists s) (hquiet : QuietBut i s)
    (hrun : run MembershipState.runCommand s (replicate k i) = some t) :
    Kept lists t ∧ QuietBut i t := by
  induction k generalizing s with
  | zero =>
    cases hrun
    exact ⟨h, hquiet⟩
  | succ k ih =>
    obtain ⟨r, hstep, hrest⟩ := run_cons_eq_some.mp hrun
    exact ih (h.runCommand hquiet.apart hstep) (hquiet.runCommand hstep) hrest

lemma progress_runScript {i k n : ℕ} {call : MembershipCall} (hat : s.calls[i]? = some (call, n))
    (hrun : run MembershipState.runCommand s (replicate k i) = some t) :
    t.calls[i]? = some (call, n + k) := by
  induction k generalizing s n with
  | zero =>
    cases hrun
    exact hat
  | succ k ih =>
    obtain ⟨r, hstep, hrest⟩ := run_cons_eq_some.mp hrun
    obtain ⟨p, hp, hcmd⟩ := bind_eq_some_iff.mp hstep
    obtain rfl := some.inj (hat.symm.trans hp)
    obtain ⟨command, -, rfl⟩ := map_eq_some_iff.mp hcmd
    rw [ih (getElem?_set_self (List.getElem?_eq_some_iff.mp hat).1) hrest,
      Nat.add_assoc, Nat.add_comm 1]

/-- Every call has run all of its commands or none. -/
def Quiet (s : MembershipState) : Prop := ∀ p ∈ s.calls, p.2 = 0 ∨ p.2 = p.1.commands.length

lemma Kept.evalStep (h : Kept lists s ∧ s.Quiet) {action : MembershipAction}
    (hstep : s.step true action = some t) : Kept lists t ∧ t.Quiet := by
  obtain ⟨h, hquiet⟩ := h
  cases action with
  | start call =>
    cases hstep
    refine ⟨h.start call, fun p hp => ?_⟩
    rcases mem_append.mp hp with hp | hp
    · exact hquiet p hp
    · exact .inl (by rw [mem_singleton.mp hp])
  | advance i =>
    obtain ⟨⟨call, n⟩, hat, hrun⟩ := bind_eq_some_iff.mp hstep
    have hbut : QuietBut i s := fun j p _ hp => hquiet p (mem_of_getElem? hp)
    obtain ⟨hkept, hbut⟩ := h.runScript hbut hrun
    have hat' := progress_runScript hat hrun
    refine ⟨hkept, fun p hp => ?_⟩
    obtain ⟨j, hj⟩ := mem_iff_getElem?.mp hp
    by_cases hij : j = i
    · subst hij
      obtain rfl := some.inj (hat'.symm.trans hj)
      have hle := hquiet _ (mem_of_getElem? hat)
      dsimp only at hle ⊢
      omega
    · exact hbut j p hij hj
  | read key =>
    cases hstep
    refine ⟨h.read fun p hp hcall hone => ?_, hquiet⟩
    rcases hquiet p hp with hzero | hend
    · omega
    · rw [hone, hcall] at hend
      cases hend

lemma kept_of_run {hasEval : Bool} {actions : List MembershipAction}
    (hapart : hasEval = true ∨ Meets (step false) Apart { lists := lists } actions)
    (hrun : run (step hasEval) { lists := lists } actions = some s) : Kept lists s := by
  cases hasEval with
  | false =>
    refine invariant_of_meets (fun _ _ _ h hc hstep => h.step hc hstep)
      (kept_initial lists) (hapart.resolve_left Bool.false_ne_true) hrun
  | true =>
    have hst : Kept lists { lists := lists } ∧ Quiet { lists := lists } :=
      ⟨kept_initial lists, forall_mem_nil _⟩
    exact (invariant_of_step (fun _ _ _ h hstep => Kept.evalStep h hstep) hst hrun).1

/-- **Membership.**  With `eval`, and without it when the calls keep apart: after all calls have
finished each value is once in the list of its last call and not in the source of a move unless it
was pushed there since; and no reader has missed a value that is only inserted at heads. -/
theorem membership_of_apart (hasEval : Bool) {actions : List MembershipAction}
    (hapart : hasEval = true ∨ Meets (step false) Apart { lists := lists } actions)
    (hrun : run (step hasEval) { lists := lists } actions = some s) :
    (s.AllFinished → s.SingleMembership) ∧ NeverMissed lists s := by
  have h := kept_of_run hapart hrun
  refine ⟨fun hfinished => ⟨fun before call after hcalls hlast => ?_, h.gone⟩, h.seen⟩
  refine h.once before call after hcalls hlast fun p hp hremoved => ?_
  exact absurd hremoved.1 (by rw [hfinished p hp]; exact Nat.lt_irrefl _)

/-- **Gaps and duplicates.**  Without `eval`, a reader misses a value while it is moved to the head
of its list, and two calls leave it there twice. -/
theorem membership_overlap : (∃ s, run (step false) { lists := fun _ => ["a"] }
      [.start (.upsertRedisListHead "open" "a"), .advance 0, .read "open"] = some s ∧
        ¬ NeverMissed (fun _ => ["a"]) s) ∧
      ∃ s, run (step false) { lists := fun _ => [] }
        [.start (.upsertRedisListHead "open" "a"), .start (.upsertRedisListHead "open" "a"),
          .advance 0, .advance 1, .advance 0, .advance 1] = some s ∧
        s.AllFinished ∧ (s.lists "open").count "a" = 2 ∧ ¬ s.SingleMembership := by
  refine ⟨⟨_, rfl, fun h => ?_⟩, ⟨_, rfl, by decide, by decide, fun h => ?_⟩⟩
  · exact absurd (h ("open", []) (by decide) "a" (by decide) (by decide)) (by decide)
  · exact absurd (h.once [.upsertRedisListHead "open" "a"] _ [] rfl (forall_mem_nil _)) (by decide)

def twoValues (key : String) : List String := if key = "open" then ["a", "b"] else []

/-- An insertion and a move of another value, command by command, with a read between them. -/
def commandByCommand : List MembershipAction :=
  [.start (.upsertRedisListHead "open" "a"),
    .start (.moveRedisListMembershipToHead "open" "closed" "b"), .advance 0, .advance 1, .advance 0,
    .read "open", .advance 1, .advance 1]

/-- Two insertions of one value, one of which begins before the other has ended. -/
def twoInsertions : List MembershipAction :=
  [.start (.upsertRedisListHead "open" "b"), .start (.upsertRedisListHead "open" "b"), .advance 1,
    .read "open", .advance 0]

/-- Calls of different values keep apart without `eval`; with it all calls do. -/
theorem membership_commandByCommand : (∃ s,
      run (step false) { lists := twoValues } commandByCommand = some s ∧
        s.lists "open" = ["a"] ∧ s.lists "closed" = ["b"] ∧ s.SingleMembership ∧
        NeverMissed twoValues s) ∧
      ∃ s, run (step true) { lists := twoValues } twoInsertions = some s ∧
        s.lists "open" = ["b", "a"] ∧ s.SingleMembership ∧ NeverMissed twoValues s := by
  have hapart : Meets (step false) Apart { lists := twoValues } commandByCommand := by decide
  obtain ⟨hsingle, hnever⟩ := membership_of_apart false (.inr hapart) rfl
  have hrun : run (step true) { lists := twoValues } twoInsertions = some _ := rfl
  obtain ⟨hatomic, hread⟩ := membership_of_apart true (.inl rfl) hrun
  exact ⟨⟨_, rfl, by decide, by decide, hsingle (by decide), hnever⟩,
    _, rfl, by decide, hatomic (by decide), hread⟩

end MembershipState

end CtsEngine
