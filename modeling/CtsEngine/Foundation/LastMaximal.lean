import CtsEngine.Foundation.Grouping

/-!
# The last maximal element of each key

A pass over a list that keeps for each key the last of the elements with the greatest value.
-/

namespace Keyed

open List

variable {A : Type*} {B : Type*} {K : Type*} [DecidableEq K] [LinearOrder B]

/-- Take an element in the place of one that is not greater. -/
def later (f : A → B) (best x : A) : A := if f best ≤ f x then x else best

/-- An element of a list, with no greater one before it and only smaller ones after it. -/
def IsLastMax (f : A → B) (xs : List A) (m : A) : Prop :=
  ∃ before after, xs = before ++ m :: after ∧ (∀ x ∈ before, f x ≤ f m) ∧ ∀ x ∈ after, f x < f m

variable {f : A → B} {key : A → K}

variable {xs : List A}

lemma IsLastMax.mem {m : A} (h : IsLastMax f xs m) : m ∈ xs := by
  obtain ⟨before, after, rfl, -, -⟩ := h
  exact mem_append_right _ mem_cons_self

lemma IsLastMax.le {m : A} (h : IsLastMax f xs m) {x : A} (hx : x ∈ xs) : f x ≤ f m := by
  obtain ⟨before, after, rfl, hbef, hafter⟩ := h
  rcases mem_append.mp hx with hx | hx
  · exact hbef x hx
  · rcases mem_cons.mp hx with rfl | hx
    · exact le_rfl
    · exact (hafter x hx).le

lemma IsLastMax.unique {m n : A} (hm : IsLastMax f xs m) (hn : IsLastMax f xs n) : m = n := by
  have heq : f m = f n := le_antisymm (hn.le hm.mem) (hm.le hn.mem)
  obtain ⟨before, after, hxs, -, hafter⟩ := hm
  obtain ⟨before', after', hxs', -, hafter'⟩ := hn
  rcases append_eq_append_iff.mp (hxs.symm.trans hxs') with ⟨more, h, h'⟩ | ⟨more, h, h'⟩
  · cases more with
    | nil => exact (List.cons.inj h').1
    | cons _ more =>
      obtain ⟨-, hrest⟩ := List.cons.inj h'
      exact absurd heq (hafter n (hrest ▸ by simp)).ne'
  · cases more with
    | nil => exact (List.cons.inj h').1.symm
    | cons _ more =>
      obtain ⟨-, hrest⟩ := List.cons.inj h'
      exact absurd heq (hafter' m (hrest ▸ by simp)).ne

lemma isLastMax_append_singleton {m : A} (h : IsLastMax f xs m) (x : A) :
    IsLastMax f (xs ++ [x]) (later f m x) := by
  rw [later]
  split
  case isTrue hle =>
    exact ⟨xs, [], rfl, fun y hy => (h.le hy).trans hle, forall_mem_nil _⟩
  case isFalse hlt =>
    obtain ⟨before, after, rfl, hbef, hafter⟩ := h
    refine ⟨before, after ++ [x], by simp, hbef, fun y hy => ?_⟩
    rcases mem_append.mp hy with hy | hy
    · exact hafter y hy
    · exact mem_singleton.mp hy ▸ not_le.mp hlt

lemma isLastMax_foldl_later (x : A) (xs : List A) :
    IsLastMax f (x :: xs) (xs.foldl (later f) x) := by
  induction xs using reverseRecOn with
  | nil => exact ⟨[], [], rfl, forall_mem_nil _, forall_mem_nil _⟩
  | append_singleton xs y ih =>
    rw [foldl_append]
    exact isLastMax_append_singleton ih y

/-- **One pass.**  The record has for each key the last maximal element with it. -/
theorem isLastMax_collect {y : A} (hy : y ∈ firsts key xs) :
    IsLastMax f (xs.filter (key · = key y)) ((xs.filter (key · = key y)).foldl (later f) y) := by
  have hhead := head?_filter_of_mem_firsts key hy
  obtain ⟨rest, hrest⟩ := head?_eq_some_iff.mp hhead
  have hself : later f y y = y := if_pos le_rfl
  rw [hrest, foldl_cons, hself]
  exact isLastMax_foldl_later y rest

end Keyed
