import Mathlib.Data.List.TakeWhile

/-!
# Binary search

A list is partitioned by a test when the elements that pass it come first.  Halving finds the
number of those elements, so the search splits the list into the elements that pass and the others.
-/

namespace PartitionPoint

open List Nat

variable {α : Type*}

/-- No element that passes the test comes after one that does not. -/
def Partitioned (test : α → Bool) (xs : List α) : Prop :=
  xs.Pairwise fun a b => test b = true → test a = true

/-- Halve the range between `low` and `high`. -/
def searchFrom (test : α → Bool) (xs : List α) : ℕ → ℕ → ℕ → ℕ
  | 0, low, _ => low
  | fuel + 1, low, high =>
    if low < high then
      let mid := (low + high) / 2
      if (xs[mid]?).any test then searchFrom test xs fuel (mid + 1) high
      else searchFrom test xs fuel low mid
    else low

/-- The place before which every element passes the test. -/
def search (test : α → Bool) (xs : List α) : ℕ := searchFrom test xs (xs.length + 1) 0 xs.length

namespace Partitioned

variable {test other : α → Bool} {xs : List α}

section

variable (h : Partitioned test xs)

include h

lemma takeWhile_eq : xs.takeWhile test = xs.filter test := by
  induction xs with
  | nil => rfl
  | cons x xs ih =>
    obtain ⟨hx, hxs⟩ := pairwise_cons.mp h
    by_cases hpass : test x = true
    · rw [takeWhile_cons_of_pos hpass, filter_cons_of_pos hpass, ih hxs]
    · rw [takeWhile_cons_of_neg hpass, filter_cons_of_neg hpass, eq_comm, filter_eq_nil_iff]
      exact fun y hy hy' => hpass (hx y hy hy')

lemma dropWhile_eq : xs.dropWhile test = xs.filter fun x => !test x := by
  induction xs with
  | nil => rfl
  | cons x xs ih =>
    obtain ⟨hx, hxs⟩ := pairwise_cons.mp h
    by_cases hpass : test x = true
    · rw [dropWhile_cons_of_pos hpass, filter_cons_of_neg (by simp [hpass]), ih hxs]
    · rw [dropWhile_cons_of_neg hpass, eq_comm, filter_eq_self]
      intro y hy
      rcases mem_cons.mp hy with rfl | hy
      · simpa using hpass
      · simpa using fun hy' => hpass (hx y hy hy')

/-- An element passes exactly when its place is below the number of those that do. -/
lemma any_getElem?_iff {i : ℕ} (hi : i < xs.length) :
    (xs[i]?).any test = true ↔ i < (xs.takeWhile test).length := by
  induction xs generalizing i with
  | nil => simp at hi
  | cons x xs ih =>
    obtain ⟨hx, hxs⟩ := pairwise_cons.mp h
    by_cases hpass : test x = true
    · rw [takeWhile_cons_of_pos hpass]
      cases i with
      | zero => simp [hpass]
      | succ i => simpa using ih hxs (lt_of_succ_lt_succ hi)
    · rw [takeWhile_cons_of_neg hpass]
      cases i with
      | zero => simpa using hpass
      | succ i =>
        have hmem := getElem_mem (lt_of_succ_lt_succ hi)
        simp only [getElem?_cons_succ, getElem?_eq_getElem (lt_of_succ_lt_succ hi),
          length_nil, not_lt_zero, iff_false]
        exact fun hy => hpass (hx _ hmem hy)

lemma searchFrom_eq (fuel low high : ℕ)
    (hlow : low ≤ (xs.takeWhile test).length) (hhigh : (xs.takeWhile test).length ≤ high)
    (hlen : high ≤ xs.length) (hfuel : high - low < fuel) :
    searchFrom test xs fuel low high = (xs.takeWhile test).length := by
  induction fuel generalizing low high with
  | zero => omega
  | succ fuel ih =>
    rw [searchFrom]
    split_ifs with hlt
    · have hmid : (low + high) / 2 < xs.length := by omega
      have hiff := h.any_getElem?_iff hmid
      dsimp only
      split_ifs with hpass
      · have := hiff.mp hpass
        exact ih _ _ (by omega) hhigh hlen (by omega)
      · have := mt hiff.mpr hpass
        exact ih _ _ hlow (by omega) (by omega) (by omega)
    · omega

lemma search_eq : search test xs = (xs.takeWhile test).length :=
  h.searchFrom_eq _ _ _ (zero_le _) (takeWhile_sublist _).length_le le_rfl (by omega)

lemma search_eq_length_filter :
    search test xs = (xs.filter test).length := by rw [h.search_eq, h.takeWhile_eq]

lemma take_search : xs.take (search test xs) = xs.filter test := by
  rw [h.search_eq, ← h.takeWhile_eq]
  exact prefix_iff_eq_take.mp (List.takeWhile_prefix _) |>.symm

lemma drop_search : xs.drop (search test xs) = xs.filter fun x => !test x := by
  rw [h.search_eq, ← h.dropWhile_eq]
  have hsplit : (xs.takeWhile test ++ xs.dropWhile test).drop (xs.takeWhile test).length =
      xs.dropWhile test := drop_left
  rwa [takeWhile_append_dropWhile] at hsplit

lemma drop_take_search (hoth : Partitioned other xs) :
    (xs.take (search other xs)).drop (search test xs) = xs.filter fun x => !test x && other x := by
  rw [hoth.take_search, ← hoth.takeWhile_eq, h.search_eq]
  induction xs with
  | nil => rfl
  | cons x xs ih =>
    obtain ⟨hx, hxs⟩ := pairwise_cons.mp h
    obtain ⟨hx', hxs'⟩ := pairwise_cons.mp hoth
    by_cases hpass : test x = true
    · rw [takeWhile_cons_of_pos (p := test) hpass, filter_cons_of_neg (by simp [hpass])]
      by_cases hpass' : other x = true
      · rw [takeWhile_cons_of_pos hpass', length_cons, drop_succ_cons, ih hxs hxs']
      · rw [takeWhile_cons_of_neg hpass', drop_nil, eq_comm, filter_eq_nil_iff]
        intro y hy hy'
        exact hpass' (hx' y hy (by simpa using (Bool.and_eq_true_iff.mp hy').2))
    · rw [takeWhile_cons_of_neg (p := test) hpass, hoth.takeWhile_eq]
      refine filter_congr fun y hy => ?_
      have hfail : test y = false := by
        rcases mem_cons.mp hy with rfl | hy
        · simpa using hpass
        · simpa using fun hy' => hpass (hx y hy hy')
      rw [hfail, Bool.not_false, Bool.true_and]

lemma sub_search (hoth : Partitioned other xs) :
    (search other xs : ℤ) - search test xs = ((xs.filter fun x => !test x && other x).length : ℤ) -
        (xs.filter fun x => test x && !other x).length := by
  rw [h.search_eq_length_filter, hoth.search_eq_length_filter]
  clear h hoth
  induction xs with
  | nil => rfl
  | cons x xs ih =>
    simp only [filter_cons]
    cases test x <;> cases other x <;>
      simp only [Bool.not_true, Bool.not_false, Bool.and_true, Bool.and_false, Bool.false_eq_true,
        if_true, if_false, length_cons] <;> omega

end

end Partitioned

end PartitionPoint
