import Mathlib.Data.List.Sort
import Mathlib.Data.String.Basic
import Mathlib.Tactic.Linarith

/-!
# Sorting by a comparison

A comparison of two elements is a number: negative when the first comes before the second and
positive when it comes after it.  A sort by a comparison that tells the elements of a list apart
does not depend on their order in the list.

`localeCompare` compares texts by tables of the language that the source does not fix.  What is
proved about code that sorts by it assumes of it that it is a comparison, and that it tells apart
the texts that matter.
-/

namespace Comparison

variable {α β : Type*}

/-- Changing the places changes the sign, and not coming after is transitive. -/
structure IsComparison (compare : α → α → ℚ) : Prop where
  sign : ∀ a b, compare a b < 0 ↔ 0 < compare b a
  trans : ∀ a b c, compare a b ≤ 0 → compare b c ≤ 0 → compare a c ≤ 0

/-- `compare(a, b) || other(a, b)`. -/
def orElse (compare other : α → α → ℚ) (a b : α) : ℚ :=
  if compare a b = 0 then other a b else compare a b

/-- `xs.sort(compare)`. -/
def sortBy (compare : α → α → ℚ) (xs : List α) : List α := xs.mergeSort fun a b => compare a b ≤ 0

namespace IsComparison

variable {compare other : α → α → ℚ}

lemma zero_iff (h : IsComparison compare) (a b : α) : compare a b = 0 ↔ compare b a = 0 := by
  have hab := h.sign a b
  have hba := h.sign b a
  constructor <;> intro hzero
  · rw [hzero] at hab hba
    exact le_antisymm (not_lt.mp fun hlt => lt_irrefl 0 (hab.mpr hlt))
      (not_lt.mp fun hlt => lt_irrefl 0 (hba.mp hlt))
  · rw [hzero] at hab hba
    exact le_antisymm (not_lt.mp fun hlt => lt_irrefl 0 (hba.mpr hlt))
      (not_lt.mp fun hlt => lt_irrefl 0 (hab.mp hlt))

lemma le_total (h : IsComparison compare) (a b : α) : compare a b ≤ 0 ∨ compare b a ≤ 0 := by
  rcases le_or_gt (compare a b) 0 with hle | hlt
  · exact .inl hle
  · exact .inr ((h.sign b a).mpr hlt).le

lemma of_number (f : α → ℚ) : IsComparison fun a b => f a - f b where
  sign a b := by rw [sub_neg, sub_pos]
  trans a b c hab hbc := by linarith

lemma comap (h : IsComparison compare) (f : β → α) :
    IsComparison fun a b => compare (f a) (f b) where
  sign a b := h.sign (f a) (f b)
  trans a b c := h.trans (f a) (f b) (f c)

lemma lt_of_lt_of_le (h : IsComparison compare) {a b c : α} (hab : compare a b < 0)
    (hbc : compare b c ≤ 0) : compare a c < 0 := by
  by_contra hac
  have hca : compare c a ≤ 0 := by
    by_contra hpos
    exact hac ((h.sign a c).mpr (not_le.mp hpos))
  exact absurd (h.trans b c a hbc hca) (not_le.mpr ((h.sign a b).mp hab))

lemma lt_of_le_of_lt (h : IsComparison compare) {a b c : α} (hab : compare a b ≤ 0)
    (hbc : compare b c < 0) : compare a c < 0 := by
  by_contra hac
  have hca : compare c a ≤ 0 := by
    by_contra hpos
    exact hac ((h.sign a c).mpr (not_le.mp hpos))
  exact absurd (h.trans c a b hca hab) (not_le.mpr ((h.sign b c).mp hbc))

lemma orElse (h : IsComparison compare) (h' : IsComparison other) :
    IsComparison (orElse compare other) where
  sign a b := by
    unfold Comparison.orElse
    by_cases hzero : compare a b = 0
    · rw [if_pos hzero, if_pos ((h.zero_iff a b).mp hzero)]
      exact h'.sign a b
    · rw [if_neg hzero, if_neg fun hba => hzero ((h.zero_iff a b).mpr hba)]
      exact h.sign a b
  trans a b c := by
    unfold Comparison.orElse
    intro hab hbc
    by_cases hab' : compare a b = 0
    · rw [if_pos hab'] at hab
      by_cases hbc' : compare b c = 0
      · rw [if_pos hbc'] at hbc
        have hac : compare a c = 0 := by
          refine le_antisymm (h.trans a b c hab'.le hbc'.le) (not_lt.mp fun hlt => ?_)
          exact absurd (h.trans c b a ((h.zero_iff b c).mp hbc').le ((h.zero_iff a b).mp hab').le)
            (not_le.mpr ((h.sign a c).mp hlt))
        rw [if_pos hac]
        exact h'.trans a b c hab hbc
      · rw [if_neg hbc'] at hbc
        have hac := h.lt_of_le_of_lt hab'.le (lt_of_le_of_ne hbc hbc')
        rw [if_neg hac.ne]
        exact hac.le
    · rw [if_neg hab'] at hab
      have hbc' : compare b c ≤ 0 := by
        split_ifs at hbc with hzero
        · exact hzero.le
        · exact hbc
      have hac := h.lt_of_lt_of_le (lt_of_le_of_ne hab hab') hbc'
      rw [if_neg hac.ne]
      exact hac.le

end IsComparison

lemma orElse_eq_zero_iff {compare other : α → α → ℚ} (a b : α) :
    orElse compare other a b = 0 ↔ compare a b = 0 ∧ other a b = 0 := by
  unfold orElse
  split_ifs with h <;> simp [h]

lemma sortBy_perm (compare : α → α → ℚ) (xs : List α) : (sortBy compare xs).Perm xs :=
  List.mergeSort_perm ..

section

variable {compare : α → α → ℚ} (h : IsComparison compare)

include h

lemma sortBy_pairwise (xs : List α) :
    (sortBy compare xs).Pairwise fun a b => compare a b ≤ 0 := by
  refine (List.pairwise_mergeSort (fun a b c hab hbc => ?_) (fun a b => ?_) xs).imp
    of_decide_eq_true
  · exact decide_eq_true (h.trans a b c (of_decide_eq_true hab) (of_decide_eq_true hbc))
  · rw [Bool.or_eq_true, decide_eq_true_eq, decide_eq_true_eq]
    exact h.le_total a b

lemma sortBy_eq_of_perm {xs ys : List α}
    (hperm : xs.Perm ys) (hsame : ∀ a ∈ xs, ∀ b ∈ xs, compare a b = 0 → a = b) :
    sortBy compare xs = sortBy compare ys := by
  have hsort := (sortBy_perm compare xs).trans (hperm.trans (sortBy_perm compare ys).symm)
  refine hsort.eq_of_pairwise ?_ (sortBy_pairwise h xs) (sortBy_pairwise h ys)
  intro a b ha hb hab hba
  have hmem : b ∈ xs := hperm.mem_iff.mpr ((sortBy_perm compare ys).mem_iff.mp hb)
  refine hsame a ((sortBy_perm compare xs).mem_iff.mp ha) b hmem (le_antisymm hab ?_)
  exact not_lt.mp fun hlt => absurd ((h.sign a b).mp hlt) (not_lt.mpr hba)

lemma sortBy_cons_of_le {a : α} {xs : List α}
    (hle : ∀ x ∈ xs, compare a x ≤ 0) : sortBy compare (a :: xs) = a :: sortBy compare xs := by
  obtain ⟨before, after, hsort, hrest, hbef⟩ := @List.mergeSort_cons α
    (fun a b => decide (compare a b ≤ 0))
    (fun a b c hab hbc =>
      decide_eq_true (h.trans a b c (of_decide_eq_true hab) (of_decide_eq_true hbc)))
    (fun a b => by
      rw [Bool.or_eq_true, decide_eq_true_eq, decide_eq_true_eq]
      exact h.le_total a b) a xs
  have hnil : before = [] := by
    refine List.eq_nil_iff_forall_not_mem.mpr fun b hb => ?_
    have hmem : b ∈ xs := by
      refine (List.mergeSort_perm xs fun a b => decide (compare a b ≤ 0)).mem_iff.mp ?_
      rw [hrest]
      exact List.mem_append_left _ hb
    simpa [hle b hmem] using hbef b hb
  rw [sortBy, hsort, sortBy, hrest, hnil]
  rfl

end

end Comparison

/-! ## Orders of texts -/

namespace CtsEngine

/-- `localeCompare` is a strict total order of `members`. -/
structure StrictlyOrders (localeCompare : String → String → ℤ) (members : Set String) : Prop where
  irrefl : ∀ a ∈ members, ¬localeCompare a a < 0
  trans : ∀ a ∈ members, ∀ b ∈ members, ∀ c ∈ members,
    localeCompare a b < 0 → localeCompare b c < 0 → localeCompare a c < 0
  total : ∀ a ∈ members, ∀ b ∈ members, a ≠ b → localeCompare a b < 0 ∨ localeCompare b a < 0

def codeOrder (a b : String) : ℤ := if a < b then -1 else if b < a then 1 else 0

lemma codeOrder_neg_iff (a b : String) : codeOrder a b < 0 ↔ a < b := by
  rw [codeOrder]
  split_ifs <;> simp_all

lemma codeOrder_pos_iff (a b : String) : 0 < codeOrder a b ↔ b < a := by
  rw [codeOrder]
  split_ifs with hab hba
  · exact iff_of_false (by decide) hab.asymm
  · exact iff_of_true (by decide) hba
  · exact iff_of_false (by decide) hba

lemma strictlyOrders_codeOrder : StrictlyOrders codeOrder Set.univ where
  irrefl a _ h := lt_irrefl a ((codeOrder_neg_iff a a).mp h)
  trans a _ b _ c _ hab hbc := (codeOrder_neg_iff a c).mpr
    (((codeOrder_neg_iff a b).mp hab).trans ((codeOrder_neg_iff b c).mp hbc))
  total a _ b _ hne :=
    (lt_or_gt_of_ne hne).imp (codeOrder_neg_iff a b).mpr (codeOrder_neg_iff b a).mpr

lemma isComparison_codeOrder : Comparison.IsComparison fun a b => (codeOrder a b : ℚ) where
  sign a b := by
    rw [Int.cast_lt_zero, Int.cast_pos, codeOrder_neg_iff, codeOrder_pos_iff]
  trans a b c hab hbc := by
    rw [← not_lt, Int.cast_pos, codeOrder_pos_iff, not_lt] at hab hbc ⊢
    exact hab.trans hbc

lemma codeOrder_eq_zero {a b : String} (h : codeOrder a b = 0) : a = b := by
  rcases lt_trichotomy a b with hlt | heq | hlt
  · exact absurd h ((codeOrder_neg_iff a b).mpr hlt).ne
  · exact heq
  · exact absurd h ((codeOrder_pos_iff a b).mpr hlt).ne'

end CtsEngine
