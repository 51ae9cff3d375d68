import Mathlib.Data.PNat.Defs

/-!
# Loops with a deadline

A loop asks for a value again and again, folds every value that it gets into a state, and ends with
a result of the fold or at a deadline.  `Run` says what it returns for the values that it reads.
-/

namespace DeadlineLoop

/-- One question: its answer, if there is one, the time that it took, and how late the timer of the
pause after it fires. -/
structure Ask (V : Type) where
  answer : Option V
  took : ℕ
  late : ℕ

variable {S V R : Type} (read : S → V → S × Option R) (timedOut : S → R) (pause : ℕ → ℕ+) (rest : ℕ)

/-- The loop at a time, with the values that it reads.  After a question the loop ends when no more
than `rest` is left, and pauses otherwise. -/
def loop (asks : ℕ → Ask V) (deadline : ℤ) (i : ℕ) (now : ℤ) (s : S) : List V × R :=
  if now < deadline then
    let answered := now + (asks i).took
    let left := deadline - answered
    let next := answered + min ((pause i : ℕ) : ℤ) left + (asks i).late
    match (asks i).answer with
    | none => if left ≤ rest then ([], timedOut s) else loop asks deadline (i + 1) next s
    | some value =>
      match read s value with
      | (_, some result) => ([value], result)
      | (s, none) =>
        if left ≤ rest then ([value], timedOut s)
        else
          let (values, result) := loop asks deadline (i + 1) next s
          (value :: values, result)
  else ([], timedOut s)
termination_by (deadline - now).toNat
decreasing_by
  all_goals
    have hpause := (pause i).pos
    omega

/-- What a loop returns from a state for the values that it reads. -/
inductive Run : S → List V → R → Prop
  | timedOut (s : S) : Run s [] (timedOut s)
  | exit {s s' : S} {value : V} {result : R} (h : read s value = (s', some result)) :
      Run s [value] result
  | next {s s' : S} {value : V} {values : List V} {result : R} (h : read s value = (s', none))
      (later : Run s' values result) : Run s (value :: values) result

theorem loop_run (asks : ℕ → Ask V) (deadline : ℤ) (i : ℕ) (now : ℤ) (s : S) :
    Run read timedOut s (loop read timedOut pause rest asks deadline i now s).1
      (loop read timedOut pause rest asks deadline i now s).2 := by
  fun_induction loop read timedOut pause rest asks deadline i now s with
  | case1 => exact .timedOut _
  | case2 => assumption
  | case3 => exact .exit ‹_›
  | case4 => exact .next ‹_› (.timedOut _)
  | case5 =>
    rename_i hlate ih
    rw [hlate] at ih
    exact .next ‹_› ih
  | case6 => exact .timedOut _

/-- The values that a loop reads lie at least the shortest pause apart, however late a timer is. -/
theorem length_loop_mul_lt {p : ℕ+} (hpause : ∀ i, (p : ℕ) ≤ pause i) (asks : ℕ → Ask V)
    (deadline : ℤ) (i : ℕ) (now : ℤ) (s : S) :
    ((loop read timedOut pause rest asks deadline i now s).1.length : ℤ) * p <
      max 0 (deadline - now) + p := by
  have hp : (0 : ℤ) < p := Int.natCast_pos.mpr p.pos
  fun_induction loop read timedOut pause rest asks deadline i now s with
  | case2 i now s hnow answered left next hans hleft ih =>
    have hnext : now ≤ next := by omega
    omega
  | case5 i now s hnow answered left next value hans s' hread hleft values result hrec ih =>
    rw [hrec] at ih
    dsimp only at ih
    have hle : (p : ℤ) ≤ (pause i : ℕ) := Int.ofNat_le.mpr (hpause i)
    rw [List.length_cons, Int.natCast_succ, Int.add_mul, Int.one_mul]
    by_cases hlast : left < (pause i : ℕ)
    · have hdone : max 0 (deadline - next) = 0 := by omega
      rw [hdone, Int.zero_add] at ih
      have hnone : (values.length : ℤ) < 1 :=
        Int.lt_of_mul_lt_mul_right (by rwa [Int.one_mul]) hp.le
      have hzero : (values.length : ℤ) = 0 := by omega
      rw [hzero]
      omega
    · omega
  | case1 => simp only [List.length_nil]; omega
  | case6 => simp only [List.length_nil]; omega
  | case3 => simp only [List.length_singleton]; omega
  | case4 => simp only [List.length_singleton]; omega

end DeadlineLoop
