import CtsEngine.Foundation.Keyed
import Mathlib.Data.List.Sort
import Mathlib.Order.WithBot

/-!
# One holder of a key at a time

Requests arrive in the order of their start.  A request is taken when its key is free at its start,
and a taken request holds its key until its release, possibly for ever.  `taken` is the list of the
requests that are taken.
-/

namespace Occupancy

open List Keyed

variable {A : Type*} {K : Type*} {T : Type*} [LinearOrder T]

/-- The time `t` is before the release. -/
def Before (t : T) (release : WithTop T) : Prop := (t : WithTop T) < release

instance (t : T) (release : WithTop T) : Decidable (Before t release) :=
  inferInstanceAs (Decidable ((t : WithTop T) < release))

@[simp] lemma before_coe {t u : T} : Before t u ↔ t < u := WithTop.coe_lt_coe

@[simp] lemma before_top (t : T) : Before t ⊤ := WithTop.coe_lt_top t

/-- Some request of the list holds the key at the time `t`. -/
def Held (key : A → K) (release : A → WithTop T) (holders : List A) (k : K) (t : T) : Prop :=
  ∃ a ∈ holders, key a = k ∧ Before t (release a)

section

variable {key : A → K} {release : A → WithTop T}

lemma held_append {holders more : List A} {k : K} {t : T} : Held key release (holders ++ more) k t ↔
      Held key release holders k t ∨ Held key release more k t := by
  constructor
  · rintro ⟨a, ha, hkey⟩
    exact (mem_append.mp ha).imp (fun ha => ⟨a, ha, hkey⟩) (fun ha => ⟨a, ha, hkey⟩)
  · rintro (⟨a, ha, hkey⟩ | ⟨a, ha, hkey⟩)
    · exact ⟨a, mem_append_left _ ha, hkey⟩
    · exact ⟨a, mem_append_right _ ha, hkey⟩

lemma held_singleton {a : A} {k : K} {t : T} :
    Held key release [a] k t ↔ key a = k ∧ Before t (release a) := by
  simp [Held]

lemma Held.earlier {holders : List A} {k : K} {t u : T} (h : Held key release holders k u)
    (htu : t ≤ u) : Held key release holders k t := by
  obtain ⟨a, ha, hkey, hlt⟩ := h
  exact ⟨a, ha, hkey, lt_of_le_of_lt (WithTop.coe_le_coe.mpr htu) hlt⟩

end

variable [DecidableEq K]

instance (key : A → K) (release : A → WithTop T) (holders : List A) (k : K) (t : T) :
    Decidable (Held key release holders k t) :=
  inferInstanceAs (Decidable (∃ a ∈ holders, key a = k ∧ Before t (release a)))

/-- The requests that are taken when `holders` were taken before. -/
def taken (key : A → K) (start : A → T) (release : A → WithTop T) : List A → List A → List A
  | _, [] => []
  | holders, a :: rest =>
    if Held key release holders (key a) (start a) then taken key start release holders rest
    else a :: taken key start release (holders ++ [a]) rest

variable {key : A → K} {start : A → T} {release : A → WithTop T}

lemma taken_append (holders xs ys : List A) :
    taken key start release holders (xs ++ ys) = taken key start release holders xs ++
      taken key start release (holders ++ taken key start release holders xs) ys := by
  induction xs generalizing holders with
  | nil => simp [taken]
  | cons a xs ih =>
    by_cases hheld : Held key release holders (key a) (start a)
    · simp only [cons_append, taken, if_pos hheld, ih]
    · simp only [cons_append, taken, if_neg hheld, ih, append_assoc, nil_append]

lemma mem_of_mem_taken {holders xs : List A} {a : A} (h : a ∈ taken key start release holders xs) :
    a ∈ xs := by
  induction xs generalizing holders with
  | nil => cases h
  | cons b xs ih =>
    unfold taken at h
    split at h
    · exact mem_cons_of_mem b (ih h)
    · rcases mem_cons.mp h with rfl | h
      · exact mem_cons_self ..
      · exact mem_cons_of_mem b (ih h)

/-- Nothing is taken exactly when every request finds its key held. -/
lemma taken_eq_nil_iff {holders xs : List A} : taken key start release holders xs = [] ↔
    ∀ a ∈ xs, Held key release holders (key a) (start a) := by
  induction xs with
  | nil => simp [taken]
  | cons a xs ih =>
    rw [forall_mem_cons]
    by_cases hheld : Held key release holders (key a) (start a)
    · rw [taken, if_pos hheld, ih]
      exact ⟨fun h => ⟨hheld, h⟩, fun h => h.2⟩
    · rw [taken, if_neg hheld]
      exact ⟨fun h => absurd h (cons_ne_nil _ _), fun h => absurd h.1 hheld⟩

/-- From `t` on, the table of the last releases decides which keys are held. -/
def Tracks (key : A → K) (release : A → WithTop T) (table : List (K × WithTop T))
    (holders : List A) (t : T) : Prop :=
  ∀ k u, t ≤ u → (Held key release holders k u ↔
    ∃ free, get? table k = some free ∧ Before u free)

lemma Tracks.later {table : List (K × WithTop T)} {holders : List A} {t u : T}
    (h : Tracks key release table holders t) (htu : t ≤ u) :
    Tracks key release table holders u :=
  fun k v huv => h k v (htu.trans huv)

lemma tracks_nil (t : T) : Tracks key release [] [] t := by
  intro k u _
  simp [Held, get?]

lemma Tracks.take {table : List (K × WithTop T)} {holders : List A} {t : T} {a : A}
    (h : Tracks key release table holders t) (hfree : ¬ Held key release holders (key a) t) :
    Tracks key release (put table (key a) (release a)) (holders ++ [a]) t := by
  intro k u htu
  rw [held_append, held_singleton]
  by_cases hk : k = key a
  · subst hk
    have hnot : ¬ Held key release holders (key a) u := fun hheld => hfree (hheld.earlier htu)
    simp [hnot]
  · rw [get?_put_of_ne table (release a) hk, h k u htu]
    have hne : key a ≠ k := fun heq => hk heq.symm
    simp [hne]

end Occupancy
