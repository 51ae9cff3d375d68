import Mathlib.Data.Nat.Notation
import Mathlib.Data.Option.Basic

/-!
# Keys that expire

A stored value with the time at which it expires, by the clock of the store, and what can become of
a command that is sent to the store.
-/

/-- A stored value, and when it expires. -/
structure Expiring (α : Type*) where
  value : α
  expiresAt : ℕ

namespace Expiring

variable {α : Type*}

/-- The value, unless it has expired. -/
def live (now : ℕ) (row : Option (Expiring α)) : Option α :=
  (row.filter fun r => now < r.expiresAt).map Expiring.value

lemma live_eq_some {now : ℕ} {row : Option (Expiring α)} {value : α} :
    live now row = some value ↔ ∃ expiresAt, row = some ⟨value, expiresAt⟩ ∧ now < expiresAt := by
  unfold live
  constructor
  · intro h
    obtain ⟨r, hr, hval⟩ := Option.map_eq_some_iff.mp h
    obtain ⟨hrow, hlive⟩ := Option.filter_eq_some_iff.mp hr
    subst hval
    exact ⟨r.expiresAt, hrow, of_decide_eq_true hlive⟩
  · rintro ⟨expiresAt, rfl, hlive⟩
    have hkept : decide (now < expiresAt) = true := decide_eq_true hlive
    rw [Option.filter_some, if_pos hkept]
    rfl

end Expiring

/-- What becomes of a command to the store. -/
inductive Wire
  | answered
  /-- It runs, and its reply is lost. -/
  | unanswered
  /-- It does not run. -/
  | unsent
deriving DecidableEq
