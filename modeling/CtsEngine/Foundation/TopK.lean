import Mathlib.Data.List.Perm.Subperm
import Mathlib.Data.List.Sort

/-!
# The greatest values

The `k` greatest values of a list, in falling order.  A value that `k` others reach can be forgotten
without changing them, also when more values come later.
-/

namespace TopK

open List

variable {V : Type*} [LinearOrder V]

/-- The `k` greatest values. -/
def topK (k : ℕ) (values : List V) : List V := (values.mergeSort (· ≥ ·)).take k

/-- `k` of the values reach `x`. -/
def Reached (k : ℕ) (values : List V) (x : V) : Prop := k ≤ values.countP (x ≤ ·)

variable {k : ℕ} {values more kept dropped forgotten sorted : List V} {x : V}

lemma mergeSort_eq (hsort : sorted.Pairwise (· ≥ ·)) (hperm : sorted.Perm values) :
    values.mergeSort (· ≥ ·) = sorted :=
  ((mergeSort_perm ..).trans hperm.symm).eq_of_pairwise' (pairwise_mergeSort' (· ≥ ·) values) hsort

lemma topK_perm (hperm : values.Perm more) : topK k values = topK k more := by
  have hsort := pairwise_mergeSort' (· ≥ ·) more
  rw [topK, topK, mergeSort_eq hsort ((mergeSort_perm ..).trans hperm.symm)]

lemma topK_subperm (k : ℕ) (values : List V) : (topK k values).Subperm values :=
  (take_sublist ..).subperm.trans (mergeSort_perm ..).subperm

lemma le_of_mem_take (hsort : sorted.Pairwise (· ≥ ·)) (hreach : Reached k sorted x) :
    ∀ y ∈ sorted.take k, x ≤ y := by
  induction sorted generalizing k with
  | nil => simp
  | cons y rest ih =>
    obtain ⟨hhead, htail⟩ := pairwise_cons.mp hsort
    rcases k with _ | k
    · simp
    have hy : x ≤ y := by
      by_contra hlt
      have hnone : (y :: rest).countP (x ≤ ·) = 0 := by
        refine countP_eq_zero.mpr fun z hz hle => hlt ?_
        rcases mem_cons.mp hz with rfl | hrest
        · exact of_decide_eq_true hle
        · exact (of_decide_eq_true hle).trans (hhead z hrest)
      rw [Reached] at hreach
      omega
    have hrest : Reached k rest x := by
      rw [Reached, countP_cons_of_pos (by simpa using hy)] at hreach
      exact Nat.le_of_succ_le_succ hreach
    intro z hz
    rcases mem_cons.mp hz with rfl | hmem
    · exact hy
    · exact ih htail hrest z hmem

/-- **Forgetting.** Values that `k` others reach are not needed for the `k` greatest. -/
theorem topK_append_of_reached (hreach : ∀ x ∈ forgotten, Reached k values x) :
    topK k (values ++ forgotten) = topK k values := by
  rcases forgotten with _ | ⟨x, rest⟩
  · rw [append_nil]
  -- `values` in falling order: the first `k`, and then the others merged with what was forgotten
  have hsort := pairwise_mergeSort' (· ≥ ·) values
  have hperm := mergeSort_perm values (· ≥ ·)
  have hlen : k ≤ (values.mergeSort (· ≥ ·)).length := by
    rw [hperm.length_eq]
    exact (hreach x (mem_cons_self ..)).trans countP_le_length
  have hfst : ∀ y ∈ (values.mergeSort (· ≥ ·)).take k, ∀ z ∈ x :: rest, z ≤ y := by
    intro y hy z hz
    refine le_of_mem_take hsort ?_ y hy
    rw [Reached, hperm.countP_eq]
    exact hreach z hz
  rw [topK, topK]
  generalize values.mergeSort (· ≥ ·) = ordered at *
  rw [← take_append_drop k ordered] at hsort
  obtain ⟨hhead, -, hsplit⟩ := pairwise_append.mp hsort
  have hmerg : (ordered.take k ++ (ordered.drop k ++ x :: rest).mergeSort (· ≥ ·)).Pairwise
      (· ≥ ·) := by
    refine pairwise_append.mpr ⟨hhead, pairwise_mergeSort' _ _, fun y hy z hz => ?_⟩
    rcases mem_append.mp ((mergeSort_perm ..).subset hz) with hdrop | hforg
    · exact hsplit y hy z hdrop
    · exact hfst y hy z hforg
  have hall : (ordered.take k ++ (ordered.drop k ++ x :: rest).mergeSort (· ≥ ·)).Perm
      (values ++ x :: rest) := by
    refine ((mergeSort_perm ..).append_left _).trans ?_
    rw [← append_assoc, take_append_drop]
    exact hperm.append_right _
  rw [mergeSort_eq hmerg hall, take_append_of_le_length, take_take, min_self]
  rw [length_take]
  omega

lemma Reached.append (h : Reached k values x) (more : List V) : Reached k (values ++ more) x := by
  rw [Reached, countP_append]
  exact h.trans (Nat.le_add_right _ _)

lemma Reached.perm (h : Reached k values x) (hperm : values.Perm more) : Reached k more x := by
  rwa [Reached, ← hperm.countP_eq]

lemma reached_of_dropped (hlen : dropped ≠ [] → kept.length = k)
    (hbelow : ∀ y ∈ kept, ∀ z ∈ dropped, z ≤ y) : ∀ z ∈ dropped, Reached k kept z := by
  intro z hz
  rw [Reached, countP_eq_length.mpr fun y hy => decide_eq_true (hbelow y hy z hz)]
  exact (hlen (ne_nil_of_mem hz)).ge

/-- **Compaction.** What `k` values reached is reached by those that are kept. -/
lemma Reached.of_kept (h : Reached k (kept ++ dropped) x)
    (hlen : dropped ≠ [] → kept.length = k) (hbelow : ∀ y ∈ kept, ∀ z ∈ dropped, z ≤ y) :
    Reached k kept x := by
  by_cases hall : ∀ y ∈ kept, x ≤ y
  · rcases eq_or_ne dropped [] with rfl | hne
    · rwa [append_nil] at h
    · rw [Reached, countP_eq_length.mpr fun y hy => decide_eq_true (hall y hy)]
      exact (hlen hne).ge
  · -- a value that is kept does not reach `x`, and so nothing that was dropped does
    simp only [not_forall, not_le] at hall
    obtain ⟨y, hy, hlt⟩ := hall
    have hnone : dropped.countP (x ≤ ·) = 0 :=
      countP_eq_zero.mpr fun z hz hle =>
        absurd ((of_decide_eq_true hle).trans (hbelow y hy z hz)) (not_le.mpr hlt)
    rwa [Reached, countP_append, hnone] at h

end TopK
