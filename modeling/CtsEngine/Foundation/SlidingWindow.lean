import Mathlib.Data.List.Basic
import Mathlib.Order.Nat

/-!
# Sliding windows of timestamps

A budget on a rolling window is kept by asking, before a new timestamp is taken, how many of the
timestamps taken so far are younger than the width of the window.  The clock may move on between
the question and the new timestamp: `Within.push` is the rule that carries the budget to every
window of that width.
-/

namespace SlidingWindow

open List

variable {width budget kept asked now : ℕ} {stamps : List ℕ}

/-- The timestamps that are younger than `width` at `now`. -/
def recent (width now : ℕ) (stamps : List ℕ) : List ℕ := stamps.filter fun ts => now - ts < width

/-- At most `budget` of the timestamps lie in any window of `width`. -/
def Within (width budget : ℕ) (stamps : List ℕ) : Prop :=
  ∀ start, stamps.countP (fun ts => start ≤ ts ∧ ts < start + width) ≤ budget

lemma within_nil (width budget : ℕ) : Within width budget [] := fun _ => Nat.zero_le _

/-- Dropping what is older than `kept` hides nothing from a shorter window, now or later. -/
lemma recent_recent (hwidth : width ≤ kept) (hle : asked ≤ now) (stamps : List ℕ) :
    recent width now (recent kept asked stamps) = recent width now stamps := by
  unfold recent
  rw [filter_filter]
  refine filter_congr fun ts _ => ?_
  rw [← Bool.decide_and, decide_eq_decide, and_iff_left_iff_imp]
  intro hyoung
  exact lt_of_lt_of_le (lt_of_le_of_lt (Nat.sub_le_sub_right hle ts) hyoung) hwidth

/-- **Budget rule.** A timestamp taken at or after the moment at which there was room keeps the
budget of every window. -/
theorem Within.push (h : Within width budget stamps) (hle : asked ≤ now)
    (hroom : (recent width asked stamps).length < budget) :
    Within width budget (stamps ++ [now]) := by
  intro start
  rw [countP_append, countP_singleton]
  by_cases hin : start ≤ now ∧ now < start + width
  · -- everything in the window of the new timestamp was young when the room was asked for
    have hold : stamps.countP (fun ts => start ≤ ts ∧ ts < start + width) ≤
        (recent width asked stamps).length := by
      unfold recent
      rw [← countP_eq_length_filter]
      refine countP_mono_left fun ts hts hwin => ?_
      have hboun : start ≤ ts ∧ ts < start + width := of_decide_eq_true hwin
      refine decide_eq_true ?_
      omega
    rw [if_pos (decide_eq_true hin)]
    omega
  · rw [if_neg (fun hdec => hin (of_decide_eq_true hdec))]
    exact h start

end SlidingWindow
