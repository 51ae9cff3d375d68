import Mathlib.Algebra.BigOperators.Group.List.Basic
import Mathlib.Algebra.Order.Group.Nat
import Mathlib.Tactic.Abel

/-!
# Rungs that a row of offers builds

Offers come one after another and are counted.  The offer with a given count becomes a rung of the
ladder, unless the count adds nothing.  What the first counts build does not depend on how many
counts follow, as long as no count is skipped before one that adds.
-/

namespace Ladder

open List

variable {α β : Type*} (Adds : ℕ → Prop) [DecidablePred Adds] (rung : ℕ → α → β)

/-- The rungs of the offers, the first of which has the given count. -/
def climb : ℕ → List α → List β
  | _, [] => []
  | count, offer :: offers =>
    if Adds count then rung count offer :: climb (count + 1) offers else climb (count + 1) offers

/-- No count up to `k` is skipped before one up to `n` that adds. -/
def Unskipped (k n : ℕ) : Prop :=
  ∀ low high, 1 ≤ low → low ≤ k → k < high → high ≤ n → Adds high → Adds low

variable {Adds rung}

variable (count : ℕ) (offers : List α)

lemma climb_append (later : List α) : climb Adds rung count (offers ++ later) =
      climb Adds rung count offers ++ climb Adds rung (count + offers.length) later := by
  induction offers generalizing count with
  | nil => rfl
  | cons offer offers ih =>
    have hcnt : count + (offer :: offers).length = count + 1 + offers.length := by
      rw [length_cons]
      omega
    rw [hcnt, cons_append, climb, climb, ih]
    split
    · rfl
    · rfl

lemma climb_cons (offer : α) (offers : List α) : climb Adds rung count (offer :: offers) =
      climb Adds rung count [offer] ++ climb Adds rung (count + 1) offers :=
  climb_append count [offer] offers

lemma length_climb_le : (climb Adds rung count offers).length ≤ offers.length := by
  induction offers generalizing count with
  | nil => exact le_rfl
  | cons offer offers ih =>
    rw [climb]
    split
    · exact Nat.succ_le_succ (ih (count + 1))
    · exact (ih (count + 1)).trans (Nat.le_succ _)

lemma length_climb_eq_iff : (climb Adds rung count offers).length = offers.length ↔
      ∀ later, count ≤ later → later < count + offers.length → Adds later := by
  induction offers generalizing count with
  | nil => exact ⟨fun _ later hlow hhigh => absurd hhigh (not_lt.mpr hlow), fun _ => rfl⟩
  | cons offer offers ih =>
    rw [climb, length_cons]
    by_cases hadds : Adds count
    · rw [if_pos hadds, length_cons, Nat.add_right_cancel_iff, ih]
      constructor
      · intro hall later hlow hhigh
        obtain rfl | hlt := hlow.eq_or_lt
        · exact hadds
        · exact hall later hlt (by omega)
      · exact fun hall later hlow hhigh => hall later (by omega) (by omega)
    · rw [if_neg hadds]
      constructor
      · have hle := @length_climb_le _ _ Adds _ rung (count + 1) offers
        omega
      · exact fun hall => absurd (hall count le_rfl (by omega)) hadds

lemma climb_eq_nil {count : ℕ} {offers : List α}
    (h : ∀ later, count ≤ later → later < count + offers.length → ¬ Adds later) :
    climb Adds rung count offers = [] := by
  induction offers generalizing count with
  | nil => rfl
  | cons offer offers ih =>
    rw [climb, if_neg (h count le_rfl (by rw [length_cons]; omega))]
    exact ih fun later hlow hhigh => h later (by omega) (by rw [length_cons]; omega)

/-- The first `k` rungs of `n` counts are the rungs of `k` counts. -/
theorem take_climb {k n : ℕ} (hkn : k ≤ n) (h : Unskipped Adds k n) (offers : List α) :
    (climb Adds rung 1 (offers.take n)).take k = climb Adds rung 1 (offers.take k) := by
  have hsplit : offers.take n = offers.take k ++ (offers.take n).drop k := by
    conv_lhs => rw [← take_append_drop k (offers.take n), take_take, min_eq_left hkn]
  have hfst : (climb Adds rung 1 (offers.take k)).length ≤ k :=
    (length_climb_le 1 _).trans (length_take_le k offers)
  have hlast : ∀ later, 1 + (offers.take k).length ≤ later →
      later < 1 + (offers.take k).length + ((offers.take n).drop k).length → later ≤ n := by
    intro later _ hhigh
    rw [length_drop, length_take, length_take] at hhigh
    omega
  rw [hsplit, climb_append]
  by_cases hfull : (climb Adds rung 1 (offers.take k)).length = k
  · rw [take_append_of_le_length hfull.ge, take_of_length_le hfull.le]
  · -- a count up to `k` adds nothing or has no offer, so no later count adds
    suffices hnil : climb Adds rung (1 + (offers.take k).length) ((offers.take n).drop k) = [] by
      rw [hnil, append_nil, take_of_length_le hfst]
    by_cases hoffer : k ≤ offers.length
    · have hlen : (offers.take k).length = k := length_take_of_le hoffer
      refine climb_eq_nil fun later hlow hhigh hadds => hfull ?_
      have hall : (climb Adds rung 1 (offers.take k)).length = (offers.take k).length :=
        (length_climb_eq_iff 1 _).mpr fun low hlow' hhigh' =>
          h low later hlow' (by omega) (by omega) (hlast later hlow hhigh) hadds
      rw [hall, hlen]
    · rw [drop_eq_nil_of_le ((length_take_le' n offers).trans (by omega))]
      rfl

/-- A level that the counts raise, from the level below the first of them. -/
theorem sum_climb {G : Type*} [AddCommGroup G] {level : ℕ → G} {weight : β → G} {count : ℕ}
    {offers : List α}
    (hrung : ∀ later offer, Adds (later + 1) →
      weight (rung (later + 1) offer) = level (later + 1) - level later)
    (h : ∀ later, count + 1 ≤ later → later < count + 1 + offers.length → Adds later) :
    ((climb Adds rung (count + 1) offers).map weight).sum =
      level (count + offers.length) - level count := by
  induction offers generalizing count with
  | nil => exact (sub_self (level count)).symm
  | cons offer offers ih =>
    have hadds : Adds (count + 1) := h (count + 1) le_rfl (by rw [length_cons]; omega)
    have hrest := @ih (count + 1) fun later hlow hhigh =>
      h later (by omega) (by rw [length_cons]; omega)
    have hlen : count + 1 + offers.length = count + (offer :: offers).length := by
      rw [length_cons]
      omega
    rw [climb, if_pos hadds, map_cons, sum_cons, hrest, hrung count offer hadds, hlen]
    abel

end Ladder
