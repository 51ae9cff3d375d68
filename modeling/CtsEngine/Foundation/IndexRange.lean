import Mathlib.Data.List.Basic
import Mathlib.Algebra.Order.Group.Int

/-!
# Ranges of indices that may count from the end

A negative index counts from the end of a list.  `slice` leaves its second end out and clips both
ends to the list; a closed range contains the elements whose places lie between its two ends,
however far the ends lie outside the list.
-/

namespace IndexRange

open List

variable {α : Type*}

/-- The place of an index: a negative one counts from the end, and may lie before the start. -/
def place (length : ℕ) (index : ℤ) : ℤ := if index < 0 then length + index else index

/-- An end of `slice`: clipped to the list. -/
def clip (length : ℕ) (index : ℤ) : ℕ := min (place length index).toNat length

variable (xs : List α) (start : ℤ)

variable (stop : ℤ)

/-- `xs.slice(start, stop)`. -/
def slice : List α := (xs.take (clip xs.length stop)).drop (clip xs.length start)

/-- The elements from the place of `start` to the place of `stop`, both included. -/
def closed : List α :=
  (xs.zipIdx.filter fun entry =>
    place xs.length start ≤ entry.2 ∧ (entry.2 : ℤ) ≤ place xs.length stop).map Prod.fst

lemma filter_zipIdx (first low high : ℕ) :
    ((xs.zipIdx first).filter fun entry => low ≤ entry.2 ∧ entry.2 < high).map Prod.fst =
      (xs.take (high - first)).drop (low - first) := by
  induction xs generalizing first with
  | nil => simp
  | cons x xs ih =>
    rw [zipIdx_cons, filter_cons]
    by_cases hlow : low ≤ first
    · by_cases hhigh : first < high
      · obtain ⟨n, hn⟩ : ∃ n, high - first = n + 1 := ⟨high - first - 1, by omega⟩
        rw [if_pos (by simp [hlow, hhigh]), map_cons, ih, hn, take_succ_cons,
          Nat.sub_eq_zero_of_le hlow, Nat.sub_eq_zero_of_le (by omega : low ≤ first + 1),
          drop_zero, drop_zero, (by omega : high - (first + 1) = n)]
      · rw [if_neg (by simp [hhigh]), ih, Nat.sub_eq_zero_of_le (by omega : high ≤ first + 1),
          Nat.sub_eq_zero_of_le (by omega : high ≤ first)]
        simp
    · obtain ⟨m, hm⟩ : ∃ m, low - first = m + 1 := ⟨low - first - 1, by omega⟩
      rw [if_neg (by simp [hlow]), ih, hm, (by omega : low - (first + 1) = m)]
      rcases hhigh : high - first with - | n
      · rw [Nat.sub_eq_zero_of_le (by omega : high ≤ first + 1)]
        simp
      · rw [take_succ_cons, drop_succ_cons, (by omega : high - (first + 1) = n)]

lemma closed_eq : closed xs start stop =
      (xs.take (place xs.length stop + 1).toNat).drop (place xs.length start).toNat := by
  have hpart := filter_zipIdx xs 0 (place xs.length start).toNat (place xs.length stop + 1).toNat
  rw [Nat.sub_zero, Nat.sub_zero] at hpart
  rw [closed, ← hpart]
  congr 2
  funext entry
  exact decide_eq_decide.mpr (by omega)

/-- A closed range is empty exactly when no place of the list lies between its ends. -/
lemma closed_ne_nil_iff : closed xs start stop ≠ [] ↔
      ∃ i < xs.length, place xs.length start ≤ i ∧ (i : ℤ) ≤ place xs.length stop := by
  rw [closed_eq, Ne, drop_eq_nil_iff, length_take]
  constructor
  · intro h
    exact ⟨(place xs.length start).toNat, by omega, by omega, by omega⟩
  · omega

lemma take_append_slice_append_drop (a b : ℕ) :
    xs.take a ++ ((xs.take b).drop a ++ xs.drop (a + ((xs.take b).drop a).length)) = xs := by
  rw [← drop_drop, List.drop_take, prefix_iff_eq_append.mp (List.take_prefix _ _), take_append_drop]

/-- `slice` up to the place after the last one reads the end from the other side when that place
lies before the start. -/
def ReadsEnd (length : ℕ) (start stop : ℤ) : Prop :=
  -(length + 1) ≤ stop ∨ 2 * length + stop + 1 ≤ max 0 (place length start)

lemma slice_eq_closed_iff :
    slice xs (max 0 (place xs.length start)) (place xs.length stop + 1) = closed xs start stop ↔
      ReadsEnd xs.length start stop := by
  rw [closed_eq, slice, clip, clip, ReadsEnd]
  have hst : place xs.length (max 0 (place xs.length start)) =
      max 0 (place xs.length start) := if_neg (by omega)
  by_cases hstop : -(xs.length + 1 : ℤ) ≤ stop
  · refine iff_of_true ?_ (.inl hstop)
    have hplace : 0 ≤ place xs.length stop + 1 := by
      rw [place]
      split_ifs <;> omega
    have hsame : place xs.length (place xs.length stop + 1) = place xs.length stop + 1 :=
      if_neg (by omega)
    apply ext_getElem?
    simp only [getElem?_drop, getElem?_take]
    grind
  · have hplace : place xs.length stop = xs.length + stop := if_pos (by omega)
    have hback : place xs.length (xs.length + stop + 1) = 2 * xs.length + stop + 1 := by
      rw [place]
      omega
    rw [hplace, (by omega : (xs.length + stop + 1).toNat = 0), take_zero, drop_nil,
      drop_eq_nil_iff, length_take]
    omega

end IndexRange
