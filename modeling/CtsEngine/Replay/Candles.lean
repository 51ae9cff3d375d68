import Mathlib.Data.Rat.Defs
import Mathlib.Data.List.Chain
import Mathlib.Algebra.Order.Ring.Int

/-!
# One-minute bars

`lib/trade-engine/prehistoric-type-replay.ts`: the bars that the replays and the exit evaluators
walk.  A bar starts at its timestamp and ends one minute later.  A position leaves on a bar that
reaches its stop or its target.
-/

namespace CtsEngine

open List

/-- `MINUTE_MS`. -/
def minuteMs : ℤ := 60000

structure ReplayCandle where
  timestamp : ℤ
  openPrice : ℚ
  high : ℚ
  low : ℚ
  close : ℚ
  volume : ℚ

variable (bar : ReplayCandle)

/-- `barEnd`: the close time of a bar. -/
def ReplayCandle.barEnd : ℤ := bar.timestamp + minuteMs

/-- The price `pct` percent against (`side = -1`) or for (`side = 1`) a long position; the other way
for a short one. -/
def levelAt (price : ℚ) (long : Bool) (side pct : ℚ) : ℚ :=
  price * (1 + (if long then side else -side) * pct / 100)

/-- The price is at the stop or beyond it. -/
def stopHit (long : Bool) (price stop : ℚ) : Bool :=
  if long then decide (price ≤ stop) else decide (stop ≤ price)

/-- The price is at the target or beyond it; a strict target must be traded through. -/
def targetHit (strict long : Bool) (price target : ℚ) : Bool :=
  if strict then
    if long then decide (target < price) else decide (price < target)
  else
    if long then decide (target ≤ price) else decide (price ≤ target)

/-- The price of the bar that is worst for the position. -/
def ReplayCandle.worst (long : Bool) : ℚ := if long then bar.low else bar.high

/-- The price of the bar that is best for the position. -/
def ReplayCandle.best (long : Bool) : ℚ := if long then bar.high else bar.low

/-- The close time of the last bar. -/
def lastClose (bars : List ReplayCandle) : ℤ := (bars.getLast?.map ReplayCandle.barEnd).getD 0

/-- Every bar ends where the next one starts. -/
def Contiguous (bars : List ReplayCandle) : Prop :=
  bars.IsChain fun bar next => next.timestamp = bar.barEnd

lemma eq_filter_append_filter_not {A : Type*} {r : A → A → Prop} {p : A → Bool} {xs : List A}
    (hsort : xs.Pairwise r) (hp : ∀ a ∈ xs, ∀ b ∈ xs, r a b → p b = true → p a = true) :
    xs = xs.filter p ++ xs.filter fun a => !p a := by
  induction xs with
  | nil => rfl
  | cons a xs ih =>
    obtain ⟨hfst, hsort⟩ := pairwise_cons.mp hsort
    have hrest := ih hsort fun b hb c hc =>
      hp b (mem_cons_of_mem a hb) c (mem_cons_of_mem a hc)
    by_cases hpa : p a = true
    · rw [filter_cons_of_pos hpa, filter_cons_of_neg (by simp [hpa]), cons_append, ← hrest]
    · have hnone : ∀ b ∈ a :: xs, ¬ p b = true := by
        intro b hb hpb
        rcases mem_cons.mp hb with rfl | hmem
        · exact hpa hpb
        · exact hpa (hp a (mem_cons_self ..) b hb (hfst b hmem) hpb)
      have hall : ∀ b ∈ a :: xs, (!p b) = true := fun b hb => by simpa using hnone b hb
      rw [filter_eq_nil_iff.mpr hnone, filter_eq_self.mpr hall, nil_append]

lemma minuteMs_pos : 0 < minuteMs := by
  unfold minuteMs
  omega

lemma ReplayCandle.lt_barEnd : bar.timestamp < bar.barEnd := by
  have hpos := minuteMs_pos
  unfold ReplayCandle.barEnd
  omega

lemma Contiguous.barEnd_le {bar : ReplayCandle} {rest : List ReplayCandle}
    (h : Contiguous (bar :: rest)) : ∀ next ∈ rest, bar.barEnd ≤ next.timestamp := by
  induction rest generalizing bar with
  | nil => exact fun next hnext => by cases hnext
  | cons first rest ih =>
    obtain ⟨hfst, hrest⟩ := isChain_cons_cons.mp h
    intro next hnext
    rcases mem_cons.mp hnext with rfl | hnext
    · exact hfst.ge
    · have hend := ih hrest next hnext
      have hlt := first.lt_barEnd
      omega

lemma Contiguous.tail {bar : ReplayCandle} {rest : List ReplayCandle}
    (h : Contiguous (bar :: rest)) : Contiguous rest := List.IsChain.tail h

end CtsEngine
