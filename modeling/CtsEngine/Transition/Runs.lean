import Mathlib.Algebra.BigOperators.Group.List.Basic
import Mathlib.Tactic.Abel

/-!
# Runs of guarded step functions

A concurrent program is given by a step function `step : σ → α → Option σ`: the state of all
parties and of the shared store is one value of type `σ`, an action of type `α` names the party
that moves and the values it is handed by its surroundings (a clock reading, a venue reply), and
`step s a = none` says that the action is not enabled in `s`.  An interleaving is a list of actions.
-/

namespace Transition

open Option List

universe u v

variable {σ : Type u} {α : Type v}

/-- Perform a list of actions, stopping with `none` at the first action that is not enabled. -/
def run (step : σ → α → Option σ) : σ → List α → Option σ
  | s, [] => some s
  | s, a :: as => (step s a).bind fun t => run step t as

/-- Every action of the run starting in `s` meets `cond` in the state where it is performed. -/
def Meets (step : σ → α → Option σ) (cond : σ → α → Prop) : σ → List α → Prop
  | _, [] => True
  | s, a :: as => cond s a ∧ ∀ t, step s a = some t → Meets step cond t as

variable {step : σ → α → Option σ}

/-- Whether a run meets a decidable condition is decided by performing it. -/
instance decidableMeets {cond : σ → α → Prop} [∀ s a, Decidable (cond s a)] :
    ∀ (s : σ) (as : List α), Decidable (Meets step cond s as)
  | _, [] => isTrue trivial
  | s, a :: as =>
    match h : step s a with
    | none => decidable_of_iff (cond s a) (by simp [Meets, h])
    | some t =>
      have : Decidable (Meets step cond t as) := decidableMeets t as
      decidable_of_iff (cond s a ∧ Meets step cond t as) (by simp [Meets, h])

@[simp] lemma run_nil (s : σ) : run step s [] = some s := rfl

lemma run_cons (s : σ) (a : α) (as : List α) :
    run step s (a :: as) = (step s a).bind fun t => run step t as := rfl

variable {as bs : List α} {s t r : σ} {cond : σ → α → Prop}

lemma run_cons_eq_some {a : α} :
    run step s (a :: as) = some t ↔ ∃ r, step s a = some r ∧ run step r as = some t := by
  rw [run_cons, bind_eq_some_iff]

lemma run_append (s : σ) (as bs : List α) :
    run step s (as ++ bs) = (run step s as).bind fun t => run step t bs := by
  induction as generalizing s with
  | nil => rfl
  | cons a as ih =>
    rw [cons_append, run_cons, run_cons, bind_assoc]
    exact congrArg _ (funext fun t => ih t)

lemma run_append_of_eq_some (has : run step s as = some r) (hbs : run step r bs = some t) :
    run step s (as ++ bs) = some t := by
  rw [run_append, has]
  exact hbs

lemma run_append_eq_some :
    run step s (as ++ bs) = some t ↔ ∃ r, run step s as = some r ∧ run step r bs = some t := by
  rw [run_append, bind_eq_some_iff]

lemma run_singleton (s : σ) (a : α) : run step s [a] = step s a := by
  rw [run_cons]
  cases step s a <;> rfl

@[simp] lemma meets_nil (cond : σ → α → Prop) (s : σ) : Meets step cond s [] := trivial

lemma meets_cons_of_eq_some {a : α} (h : step s a = some t) :
    Meets step cond s (a :: as) ↔ cond s a ∧ Meets step cond t as := by
  refine and_congr_right fun _ => ⟨fun hrest => hrest t h, fun hrest q hq => ?_⟩
  obtain rfl := some.inj (h.symm.trans hq)
  exact hrest

lemma Meets.left (h : Meets step cond s (as ++ bs)) : Meets step cond s as := by
  induction as generalizing s with
  | nil => trivial
  | cons a as ih => exact ⟨h.1, fun t ht => ih (h.2 t ht)⟩

lemma Meets.right (h : Meets step cond s (as ++ bs)) (hr : run step s as = some r) :
    Meets step cond r bs := by
  induction as generalizing s with
  | nil =>
    obtain rfl : s = r := by simpa using hr
    exact h
  | cons a as ih =>
    obtain ⟨q, hq, hrun⟩ := run_cons_eq_some.mp hr
    exact ih (h.2 q hq) hrun

lemma meets_of_forall (h : ∀ a ∈ as, ∀ s, cond s a) (s : σ) : Meets step cond s as := by
  induction as generalizing s with
  | nil => trivial
  | cons a as ih =>
    exact ⟨h a (mem_cons_self ..) s, fun t _ => ih (fun b hb => h b (mem_cons_of_mem a hb)) t⟩

lemma meets_of_reached (h : ∀ done a r, done ++ [a] <+: as → run step s done = some r → cond r a) :
    Meets step cond s as := by
  induction as generalizing s with
  | nil => trivial
  | cons a as ih =>
    refine ⟨h [] a s ⟨as, rfl⟩ rfl, fun t ht => ih fun done b r hpre hr => ?_⟩
    refine h (a :: done) b r ((prefix_cons_inj a).mpr hpre) ?_
    exact run_cons_eq_some.mpr ⟨t, ht, hr⟩

lemma Meets.and {c₁ c₂ : σ → α → Prop} (h₁ : Meets step c₁ s as) (h₂ : Meets step c₂ s as) :
    Meets step (fun s a => c₁ s a ∧ c₂ s a) s as := by
  induction as generalizing s with
  | nil => trivial
  | cons a as ih => exact ⟨⟨h₁.1, h₂.1⟩, fun t ht => ih (h₁.2 t ht) (h₂.2 t ht)⟩

/-- **Bounded runs.** If every step uses up some of a measure, a run is no longer than what the
measure had at its start. -/
theorem length_le_of_decreasing {measure : σ → ℕ}
    (hstep : ∀ s a t, step s a = some t → measure t < measure s) (hr : run step s as = some t) :
    as.length ≤ measure s := by
  induction as generalizing s with
  | nil => exact Nat.zero_le _
  | cons a as ih =>
    obtain ⟨r, hstepr, hrun⟩ := run_cons_eq_some.mp hr
    have hless := hstep s a r hstepr
    have hrest := ih hrun
    rw [length_cons]
    omega

section Invariants

variable {cond : σ → α → Prop} {I : σ → Prop}

/-- **Invariant rule for restricted runs.** What every step that meets `cond` preserves holds after
every run whose steps meet `cond`. -/
theorem invariant_of_meets (hstep : ∀ s a t, I s → cond s a → step s a = some t → I t)
    {s t : σ} {as : List α} (hs : I s) (hm : Meets step cond s as) (hr : run step s as = some t) :
    I t := by
  induction as generalizing s with
  | nil =>
    obtain rfl : s = t := by simpa using hr
    exact hs
  | cons a as ih =>
    obtain ⟨r, hstepr, hrun⟩ := run_cons_eq_some.mp hr
    exact ih (hstep s a r hs hm.1 hstepr) (hm.2 r hstepr) hrun

/-- **Invariant rule.** What every step preserves holds after every run. -/
theorem invariant_of_step (hstep : ∀ s a t, I s → step s a = some t → I t)
    {s t : σ} {as : List α} (hs : I s) (hr : run step s as = some t) : I t :=
  have hm : Meets step (fun _ _ => True) s as := meets_of_forall (fun _ _ _ => trivial) s
  invariant_of_meets (fun s a t hs _ => hstep s a t hs) hs hm hr

/-- **Exact conditions for a property.** The runs whose steps all meet `cond` are the runs that have
the property all along. -/
theorem meets_iff_property {P : σ → Prop} (hP : ∀ s, I s → P s)
    (hkeep : ∀ s a t, I s → cond s a → step s a = some t → I t)
    (hcond : ∀ s a, I s → (∀ t, step s a = some t → P t) → cond s a)
    {s : σ} (as : List α) (hs : I s) :
    Meets step cond s as ↔ ∀ bs t, bs <+: as → run step s bs = some t → P t := by
  constructor
  · rintro hm bs t ⟨cs, rfl⟩ hr
    exact hP t (invariant_of_meets hkeep hs hm.left hr)
  · intro hall
    induction as generalizing s with
    | nil => trivial
    | cons a as ih =>
      have hstep : ∀ t, step s a = some t → P t := by
        intro t ht
        apply hall [a] t
        · exact ⟨as, rfl⟩
        · rw [run_singleton, ht]
      have hmeets := hcond s a hs hstep
      refine ⟨hmeets, fun t ht => ih (hkeep s a t hs hmeets ht) ?_⟩
      intro bs u hbs hu
      apply hall (a :: bs) u
      · exact (prefix_cons_inj a).mpr hbs
      · rw [run_cons_eq_some]
        exact ⟨t, ht, hu⟩

/-- **Exact conditions.** If a step out of a state with the invariant keeps it exactly when the
action meets `cond`, then the runs whose steps all meet `cond` are the runs that keep the invariant
all along. -/
theorem meets_iff_invariant (hcond : ∀ s a, I s → (cond s a ↔ ∀ t, step s a = some t → I t))
    {s : σ} (as : List α) (hs : I s) :
    Meets step cond s as ↔ ∀ bs t, bs <+: as → run step s bs = some t → I t :=
  meets_iff_property (fun _ h => h) (fun s a t hs hc => (hcond s a hs).mp hc t)
    (fun s a hs => (hcond s a hs).mpr) as hs

end Invariants

/-! ### Lists of parties

The parties of a concurrent program are the elements of a list; a step replaces one of them. -/

section Parties

variable {β : Type*} {parties : List β} {i : ℕ} {before after other : β}

lemma mem_set_cases (h : other ∈ parties.set i after) :
    other = after ∨ ∃ j, j ≠ i ∧ parties[j]? = some other := by
  obtain ⟨j, hj⟩ := mem_iff_getElem?.mp h
  by_cases hij : i = j
  · subst hij
    rw [getElem?_set_self'] at hj
    obtain ⟨_, -, rfl⟩ := map_eq_some_iff.mp hj
    exact .inl rfl
  · rw [getElem?_set_ne hij] at hj
    exact .inr ⟨j, Ne.symm hij, hj⟩

lemma mem_set_of_ne (hat : parties[i]? = some before) (hoth : other ∈ parties)
    (hne : other ≠ before) : other ∈ parties.set i after := by
  obtain ⟨j, hj⟩ := mem_iff_getElem?.mp hoth
  refine mem_iff_getElem?.mpr ⟨j, ?_⟩
  rw [getElem?_set_ne, hj]
  rintro rfl
  exact hne (some.inj (hj.symm.trans hat))

lemma forall_mem_set {P : β → Prop} (h : ∀ other ∈ parties, P other) (hafter : P after) :
    ∀ other ∈ parties.set i after, P other := fun other hoth =>
  (mem_or_eq_of_mem_set hoth).elim (h other) fun heq => heq ▸ hafter

lemma forall_mem_concat {P : β → Prop} (h : ∀ other ∈ parties, P other) (hafter : P after) :
    ∀ other ∈ parties ++ [after], P other :=
  forall_mem_append.mpr ⟨h, forall_mem_singleton.mpr hafter⟩

lemma mem_set_self (hat : parties[i]? = some before) : after ∈ parties.set i after :=
  mem_set (List.getElem?_eq_some_iff.mp hat).1 _

lemma sum_map_set {M : Type*} [AddCommMonoid M] (f : β → M) (after : β)
    (hat : parties[i]? = some before) :
    ((parties.set i after).map f).sum + f before = (parties.map f).sum + f after := by
  induction parties generalizing i with
  | nil => exact absurd hat (by simp)
  | cons party rest ih =>
    rcases i with _ | i
    · obtain rfl : party = before := by simpa using hat
      rw [set_cons_zero, map_cons, map_cons, sum_cons, sum_cons]
      abel
    · rw [set_cons_succ, map_cons, map_cons, sum_cons, sum_cons,
        add_assoc, add_assoc, ih (by simpa using hat)]

end Parties

end Transition
