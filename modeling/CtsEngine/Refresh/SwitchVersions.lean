import CtsEngine.Foundation.NumberText
import CtsEngine.Transition.Runs

/-!
# Versions of state switches

`allocateStateSwitchVersion` of `lib/engine-refresh-queue.ts`: a call increments the counter of its
connection and, if the result does not exceed the version that the connection already has, adds the
difference in a second command.  Any number of calls interleave command by command.
-/

namespace CtsEngine

open Option Function List Transition Nat Double

/-- The number that the client makes of an integer: the nearest double. -/
def replyNumber (n : ℕ) : ℕ :=
  match ofRat n with
  | .finite q => q.num.toNat
  | _ => 0

/-- The backends of the client: a Redis server, or the store in the process. -/
inductive CounterBackend
  | network
  | inline

/-- `INCRBY`: the server refuses an overflow, the store in the process adds doubles. -/
def incrby (backend : CounterBackend) (counter increment : ℕ) : Option ℕ :=
  match backend with
  | .network => if counter + increment < 2 ^ 63 then some (counter + increment) else none
  | .inline => some (replyNumber (counter + increment))

/-- `floor`, of what `Number` makes of the version of the connection. -/
def versionFloor (current : Double) : ℕ := (safeNat current).getD 0

/-! ## Calls -/

/-- Where a call stands: before `INCR`, after it, after `INCRBY`, or at its end. -/
inductive AllocationStage
  | idle
  | called
  | incremented (allocated : ℕ)
  | caughtUp (allocated : ℕ)
  | returned (version : ℕ)
  | rejected
  deriving DecidableEq

/-- The number that a call has got last. -/
def AllocationStage.allocated? : AllocationStage → Option ℕ
  | .incremented allocated | .caughtUp allocated | .returned allocated => some allocated
  | _ => none

/-- A call, and the versions that other calls had returned when it started. -/
structure VersionCall where
  floor : ℕ
  before : List ℕ
  stage : AllocationStage

/-- The counter of a connection, the calls, and the versions returned so far. -/
structure VersionSystem where
  counter : ℕ
  call : ℕ → VersionCall
  returned : List ℕ

namespace VersionSystem

/-- No call was made. -/
def start (counter : ℕ) : VersionSystem := ⟨counter, fun _ => ⟨0, [], .idle⟩, []⟩

/-- A call goes on. -/
def enter (s : VersionSystem) (i : ℕ) (stage : AllocationStage) : VersionSystem :=
  { s with call := Function.update s.call i { s.call i with stage } }

/-- A call sends a command, and its reply is put into the stage after it. -/
def count (s : VersionSystem) (backend : CounterBackend) (i increment : ℕ)
    (stage : ℕ → AllocationStage) : VersionSystem :=
  match incrby backend s.counter increment with
  | some counter => { s.enter i (stage (replyNumber counter)) with counter }
  | none => s.enter i .rejected

end VersionSystem

/-- What happens to a call. -/
inductive VersionAction
  | call (i : ℕ) (current : Double)
  | incr (i : ℕ)
  | incrby (i : ℕ)
  | finish (i : ℕ)

/-- One step of `allocateStateSwitchVersion`. -/
def versionStep (backend : CounterBackend) (s : VersionSystem) :
    VersionAction → Option VersionSystem
  | .call i current =>
    if (s.call i).stage = .idle then
      some { s with
        call := Function.update s.call i ⟨versionFloor current, s.returned, .called⟩ }
    else none
  | .incr i =>
    if (s.call i).stage = .called then some (s.count backend i 1 .incremented) else none
  | .incrby i =>
    match (s.call i).stage with
    | .incremented allocated =>
      if allocated ≤ (s.call i).floor then
        some (s.count backend i ((s.call i).floor - allocated + 1) .caughtUp)
      else none
    | _ => none
  | .finish i =>
    match (s.call i).stage with
    | .incremented allocated =>
      if allocated ≤ (s.call i).floor then none
      else some { s.enter i (.returned allocated) with returned := s.returned ++ [allocated] }
    | .caughtUp allocated =>
      some { s.enter i (.returned allocated) with returned := s.returned ++ [allocated] }
    | _ => none

/-- What the versions promise. -/
structure VersionSystem.Law (s : VersionSystem) : Prop where
  distinct : s.returned.Nodup
  above : ∀ i version, (s.call i).stage = .returned version → (s.call i).floor < version
  /-- A call that starts after another one has returned gets a larger version. -/
  ordered : ∀ i version, (s.call i).stage = .returned version →
    ∀ earlier ∈ (s.call i).before, earlier < version

/-- What an action adds to the counter. -/
def VersionSystem.added (s : VersionSystem) : VersionAction → ℕ
  | .incr _ => 1
  | .incrby i =>
    match (s.call i).stage with
    | .incremented allocated => (s.call i).floor - allocated + 1
    | _ => 0
  | _ => 0

/-- A command does not take the counter beyond `2 ^ 53`. -/
def VersionSystem.CountsExactly (s : VersionSystem) (action : VersionAction) : Prop :=
  0 < s.added action → s.counter + s.added action ≤ 2 ^ 53

instance (s : VersionSystem) (action : VersionAction) : Decidable (s.CountsExactly action) :=
  inferInstanceAs (Decidable (_ → _))

lemma ofRat_natCast {n : ℕ} (hn : n < 2 ^ 53) : ofRat n = .finite n := by
  rcases Nat.eq_zero_or_pos n with rfl | hpos
  · rfl
  have hne : (n : ℚ) ≠ 0 := by exact_mod_cast hpos.ne'
  have hexpon : binaryExponent |(n : ℚ)| = log2 n := by
    have hle : (2 : ℚ) ^ ((log2 (n : ℚ).num.natAbs : ℤ) - log2 (n : ℚ).den) ≤ n := by
      rw [Rat.num_natCast, Rat.den_natCast, Int.natAbs_natCast, show log2 1 = 0 from rfl,
        cast_zero, sub_zero, zpow_natCast]
      exact_mod_cast log2_self_le hpos.ne'
    rw [abs_of_nonneg (cast_nonneg n)]
    refine (if_pos hle).trans ?_
    rw [Rat.num_natCast, Rat.den_natCast, Int.natAbs_natCast, show log2 1 = 0 from rfl,
      cast_zero, sub_zero]
  have hlog : log2 n < 53 := (log2_lt hpos.ne').mpr hn
  obtain ⟨k, hk⟩ : ∃ k : ℕ, max ((log2 n : ℤ) - 52) (-1074) = -(k : ℤ) :=
    ⟨(52 - log2 n), by omega⟩
  have hulp : (n : ℚ) / 2 ^ max ((log2 n : ℤ) - 52) (-1074) = ((n * 2 ^ k : ℕ) : ℤ) := by
    rw [hk, zpow_neg, zpow_natCast, div_inv_eq_mul]
    push_cast
    rfl
  have hrnd : roundEven (((n * 2 ^ k : ℕ) : ℤ) : ℚ) = ((n * 2 ^ k : ℕ) : ℤ) := by
    rw [roundEven, Int.floor_intCast, sub_self]
    exact if_pos (by norm_num)
  have hback : ((((n * 2 ^ k : ℕ) : ℤ) : ℤ) : ℚ) * 2 ^ max ((log2 n : ℤ) - 52) (-1074) = n := by
    rw [← hulp, div_mul_cancel₀]
    exact (zpow_pos two_pos _).ne'
  have hsmall : |(n : ℚ)| < 2 ^ 1024 := by
    rw [abs_of_nonneg (cast_nonneg n)]
    exact_mod_cast hn.trans (by decide +kernel)
  rw [ofRat, if_neg hne]
  dsimp only
  rw [hexpon, hulp, hrnd, hback, if_pos hsmall]

lemma replyNumber_eq {n : ℕ} (hn : n ≤ 2 ^ 53) : replyNumber n = n := by
  rcases hn.lt_or_eq with hlt | rfl
  · rw [replyNumber, ofRat_natCast hlt]
    simp
  · decide +kernel

lemma VersionSystem.count_eq {s : VersionSystem} {increment : ℕ} (backend : CounterBackend) (i : ℕ)
    (stage : ℕ → AllocationStage) (hexact : s.counter + increment ≤ 2 ^ 53) :
    s.count backend i increment stage =
      { s.enter i (stage (s.counter + increment)) with counter := s.counter + increment } := by
  have hincrby : incrby backend s.counter increment = some (s.counter + increment) := by
    cases backend with
    | network => exact if_pos (hexact.trans_lt (by decide))
    | inline => exact congrArg some (replyNumber_eq hexact)
  rw [count, hincrby]
  dsimp only
  rw [replyNumber_eq hexact]

/-! ## The order of the versions -/

namespace VersionSystem

/-- The invariant of the runs that count exactly. -/
structure Ordered (s : VersionSystem) : Prop where
  le_counter : ∀ i n, (s.call i).stage.allocated? = some n → n ≤ s.counter
  distinct : ∀ i j n, (s.call i).stage.allocated? = some n →
    (s.call j).stage.allocated? = some n → i = j
  before_lt : ∀ i n, (s.call i).stage.allocated? = some n → ∀ earlier ∈ (s.call i).before,
    earlier < n
  before_le : ∀ i, ∀ earlier ∈ (s.call i).before, earlier ≤ s.counter
  above : ∀ i n, (s.call i).stage = .caughtUp n ∨ (s.call i).stage = .returned n →
    (s.call i).floor < n
  returned : ∀ n ∈ s.returned, ∃ i, (s.call i).stage = .returned n
  nodup : s.returned.Nodup

lemma ordered_start (counter : ℕ) : (start counter).Ordered where
  le_counter _ _ := nofun
  distinct _ _ _ := nofun
  before_lt _ _ := nofun
  before_le _ := nofun
  above _ _ h := h.elim nofun nofun
  returned _ := nofun
  nodup := nodup_nil

variable {s : VersionSystem} {i n : ℕ}

lemma Ordered.law (hs : s.Ordered) : s.Law where
  distinct := hs.nodup
  above i n h := hs.above i n (.inr h)
  ordered i n h := hs.before_lt i n (congrArg AllocationStage.allocated? h)

lemma Ordered.le_of_returned (hs : s.Ordered) (hn : n ∈ s.returned) : n ≤ s.counter := by
  obtain ⟨i, hi⟩ := hs.returned n hn
  exact hs.le_counter i n (congrArg AllocationStage.allocated? hi)

lemma update_cases (calls : ℕ → VersionCall) (i j : ℕ) (c : VersionCall) :
    j = i ∧ Function.update calls i c j = c ∨ j ≠ i ∧ Function.update calls i c j = calls j := by
  by_cases hj : j = i
  · subst hj
    exact .inl ⟨rfl, update_self ..⟩
  · exact .inr ⟨hj, update_of_ne hj ..⟩

lemma Ordered.begin (hs : s.Ordered) (hidle : (s.call i).stage = .idle) (floor : ℕ) :
    Ordered { s with call := Function.update s.call i ⟨floor, s.returned, .called⟩ } := by
  have hold : ∀ j n, (Function.update s.call i ⟨floor, s.returned, .called⟩ j).stage.allocated? =
      some n → j ≠ i ∧ Function.update s.call i ⟨floor, s.returned, .called⟩ j = s.call j := by
    intro j n hn
    rcases update_cases s.call i j ⟨floor, s.returned, .called⟩ with ⟨-, heq⟩ | hoth
    · rw [heq] at hn
      cases hn
    · exact hoth
  refine ⟨fun j n hn => ?_, fun j k n hj hk => ?_, fun j n hn => ?_, fun j earlier hearl => ?_,
    fun j n hn => ?_, fun n hn => ?_, hs.nodup⟩
  · exact hs.le_counter j n ((hold j n hn).2 ▸ hn)
  · exact hs.distinct j k n ((hold j n hj).2 ▸ hj) ((hold k n hk).2 ▸ hk)
  · have heq := (hold j n hn).2
    rw [show ({ s with call := _ } : VersionSystem).call j = s.call j from heq]
    exact hs.before_lt j n (heq ▸ hn)
  · change earlier ∈ (Function.update s.call i ⟨floor, s.returned, .called⟩ j).before at hearl
    rcases update_cases s.call i j ⟨floor, s.returned, .called⟩ with
      ⟨-, heq⟩ | ⟨-, heq⟩
    · rw [heq] at hearl
      exact hs.le_of_returned hearl
    · rw [heq] at hearl
      exact hs.before_le j earlier hearl
  · have hsome : (Function.update s.call i ⟨floor, s.returned, .called⟩ j).stage.allocated? =
        some n := by
      rcases hn with hn | hn
      · exact congrArg AllocationStage.allocated? hn
      · exact congrArg AllocationStage.allocated? hn
    have heq := (hold j n hsome).2
    rw [show ({ s with call := _ } : VersionSystem).call j = s.call j from heq]
    exact hs.above j n (heq ▸ hn)
  · obtain ⟨j, hj⟩ := hs.returned n hn
    have hne : j ≠ i := by
      rintro rfl
      rw [hidle] at hj
      cases hj
    exact ⟨j, (congrArg VersionCall.stage (update_of_ne hne ..)).trans hj⟩

/-- A step of one call keeps the order of the versions. -/
lemma Ordered.advance (hs : s.Ordered) {counter : ℕ} {stage : AllocationStage}
    (hcntr : s.counter ≤ counter) (hn : stage.allocated? = some n) (hle : n ≤ counter)
    (hnew : s.counter < n ∨ (s.call i).stage.allocated? = some n)
    (hopen : ∀ version, (s.call i).stage ≠ .returned version)
    (habove : stage = .caughtUp n ∨ stage = .returned n → (s.call i).floor < n)
    {returned : List ℕ} (hretur : returned = s.returned ∨
      stage = .returned n ∧ returned = s.returned ++ [n]) :
    Ordered { s.enter i stage with counter, returned } := by
  have hself : ((s.enter i stage).call i) = { s.call i with stage } := update_self ..
  have hoth : ∀ j, j ≠ i → (s.enter i stage).call j = s.call j := fun j hj =>
    update_of_ne hj ..
  have hapart : ∀ j, j ≠ i → (s.call j).stage.allocated? ≠ some n := by
    intro j hj hjn
    rcases hnew with hlt | hsame
    · exact absurd (hs.le_counter j n hjn) (not_le.mpr hlt)
    · exact hj (hs.distinct j i n hjn hsame)
  have hreturOld : ∀ m ∈ s.returned, ∃ j, j ≠ i ∧ (s.call j).stage = .returned m := by
    intro m hm
    obtain ⟨j, hj⟩ := hs.returned m hm
    exact ⟨j, fun heq => hopen m (heq ▸ hj), hj⟩
  refine ⟨?_, ?_, ?_, ?_, ?_, ?_, ?_⟩
  · intro j m hm
    by_cases hj : j = i
    · subst hj
      rw [hself] at hm
      obtain rfl := some.inj (hn.symm.trans hm)
      exact hle
    · rw [hoth j hj] at hm
      exact (hs.le_counter j m hm).trans hcntr
  · intro j k m hjm hkm
    by_cases hj : j = i <;> by_cases hk : k = i
    · rw [hj, hk]
    · subst hj
      rw [hself] at hjm
      rw [hoth k hk] at hkm
      obtain rfl := some.inj (hn.symm.trans hjm)
      exact absurd hkm (hapart k hk)
    · subst hk
      rw [hself] at hkm
      rw [hoth j hj] at hjm
      obtain rfl := some.inj (hn.symm.trans hkm)
      exact absurd hjm (hapart j hj)
    · rw [hoth j hj] at hjm
      rw [hoth k hk] at hkm
      exact hs.distinct j k m hjm hkm
  · intro j m hm earlier hearl
    by_cases hj : j = i
    · subst hj
      rw [hself] at hm hearl
      obtain rfl := some.inj (hn.symm.trans hm)
      rcases hnew with hlt | hsame
      · exact (hs.before_le j earlier hearl).trans_lt hlt
      · exact hs.before_lt j _ hsame earlier hearl
    · rw [hoth j hj] at hm hearl
      exact hs.before_lt j m hm earlier hearl
  · intro j earlier hearl
    refine le_trans (hs.before_le j earlier ?_) hcntr
    by_cases hj : j = i
    · subst hj
      rwa [hself] at hearl
    · rwa [hoth j hj] at hearl
  · intro j m hm
    by_cases hj : j = i
    · subst hj
      rw [hself] at hm ⊢
      have hsome : stage.allocated? = some m := by
        rcases hm with hm | hm
        · exact congrArg AllocationStage.allocated? hm
        · exact congrArg AllocationStage.allocated? hm
      obtain rfl := some.inj (hn.symm.trans hsome)
      exact habove hm
    · rw [hoth j hj] at hm ⊢
      exact hs.above j m hm
  · intro m hm
    have hold : ∀ m ∈ s.returned, ∃ j, ((s.enter i stage).call j).stage = .returned m := by
      intro m hm
      obtain ⟨j, hj, hjm⟩ := hreturOld m hm
      exact ⟨j, by rw [hoth j hj, hjm]⟩
    rcases hretur with rfl | ⟨hstage, rfl⟩
    · exact hold m hm
    · rcases mem_append.mp hm with hm | hm
      · exact hold m hm
      · obtain rfl := mem_singleton.mp hm
        exact ⟨i, by rw [hself, hstage]⟩
  · rcases hretur with rfl | ⟨hstage, rfl⟩
    · exact hs.nodup
    · refine nodup_append.mpr ⟨hs.nodup, pairwise_singleton _ _, ?_⟩
      rintro m hm _ hmn rfl
      obtain rfl := mem_singleton.mp hmn
      obtain ⟨j, hj, hjm⟩ := hreturOld m hm
      exact hapart j hj (congrArg AllocationStage.allocated? hjm)

lemma Ordered.finish (hs : s.Ordered) {stage : AllocationStage} (hstage : (s.call i).stage = stage)
    (hn : stage.allocated? = some n) (hopen : ∀ version, stage ≠ .returned version)
    (habove : (s.call i).floor < n) :
    Ordered { s.enter i (.returned n) with returned := s.returned ++ [n] } := by
  subst hstage
  exact hs.advance le_rfl rfl (hs.le_counter i n hn) (.inr hn) hopen (fun _ => habove)
    (.inr ⟨rfl, rfl⟩)

end VersionSystem

open VersionSystem

lemma versionStep_ordered {backend : CounterBackend} {s t : VersionSystem} {action : VersionAction}
    (hs : s.Ordered) (hexact : s.CountsExactly action)
    (hstep : versionStep backend s action = some t) : t.Ordered := by
  revert hstep
  fun_cases versionStep backend s action
  all_goals
    intro hstep
    cases hstep
  next i current hidle => exact hs.begin hidle _
  next i hcall =>
    have hle : s.counter + 1 ≤ 2 ^ 53 := hexact one_pos
    rw [count_eq backend i _ hle]
    refine hs.advance (le_add_right _ _) rfl le_rfl (.inl (lt_succ_self _)) ?_ ?_ (.inl rfl)
    · intro version hver
      rw [hcall] at hver
      cases hver
    · exact fun h => h.elim nofun nofun
  next i allocated hstage hbelow =>
    have hle := hs.le_counter i allocated (by rw [hstage]; rfl)
    have hadded : s.added (.incrby i) = (s.call i).floor - allocated + 1 := by
      simp only [added, hstage]
    rw [count_eq backend i _ (hadded ▸ hexact (hadded ▸ succ_pos _))]
    refine hs.advance (le_add_right _ _) rfl le_rfl (.inl (by omega)) ?_ ?_ (.inl rfl)
    · intro version hver
      rw [hstage] at hver
      cases hver
    · intro _
      omega
  next i allocated hstage habove =>
    exact hs.finish hstage rfl nofun (not_le.mp habove)
  next i allocated hstage =>
    exact hs.finish hstage rfl nofun (hs.above i _ (.inl hstage))

/-- **Versions are unique and ordered** in every run that keeps the counter within `2 ^ 53`, on both
backends and from any counter. -/
theorem switchVersions_ordered {backend : CounterBackend} {counter : ℕ} {as : List VersionAction}
    {t : VersionSystem}
    (hexact : Meets (versionStep backend) CountsExactly (.start counter) as)
    (hrun : run (versionStep backend) (.start counter) as = some t) : t.Law :=
  (invariant_of_meets (fun _ _ _ => versionStep_ordered) (ordered_start counter) hexact hrun).law

/-- A call that has to catch up, overtaken by one that has not, and a third one after both. -/
def overtakenCalls : List VersionAction :=
  [.call 0 (.finite 5), .incr 0, .call 1 (.finite 0), .incr 1, .finish 1, .incrby 0, .finish 0,
    .call 2 (.finite 7), .incr 2, .finish 2]

theorem switchVersions_ordered_overtaken :
    ∃ t, run (versionStep .network) (.start 0) overtakenCalls = some t ∧
      t.returned = [2, 7, 8] ∧ t.Law := by
  have hrun : (run (versionStep .network) (.start 0) overtakenCalls).map (·.returned) =
      some [2, 7, 8] := by decide +kernel
  obtain ⟨t, ht, hreturned⟩ := map_eq_some_iff.mp hrun
  exact ⟨t, ht, hreturned, switchVersions_ordered (by decide +kernel) ht⟩

/-- Two calls, one after the other, with the greatest safe integer as their floor. -/
def greatestFloor : List VersionAction :=
  [.call 0 (.finite (2 ^ 53 - 1)), .incr 0, .incrby 0, .finish 0,
    .call 1 (.finite (2 ^ 53 - 1)), .incr 1, .finish 1]

theorem not_ordered_greatestFloor :
    ¬ ∀ (backend : CounterBackend) (counter : ℕ) (as : List VersionAction) (t : VersionSystem),
      run (versionStep backend) (.start counter) as = some t → t.Law := by
  intro hall
  have hrun : (run (versionStep .network) (.start 0) greatestFloor).map (·.returned) =
      some [2 ^ 53, 2 ^ 53] := by decide +kernel
  obtain ⟨t, ht, hreturned⟩ := map_eq_some_iff.mp hrun
  have hdistinct := (hall .network 0 greatestFloor t ht).distinct
  rw [hreturned] at hdistinct
  exact absurd hdistinct (by decide)

end CtsEngine
