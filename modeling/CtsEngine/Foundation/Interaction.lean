import Mathlib.Data.List.Basic

/-!
# Programs that call an environment

A program either is done or makes a call and goes on with the answer, which may be anything.  An
environment answers a call from all that has happened before, so that quantifying over environments
is quantifying over every behaviour of the other side.  `Ensures` says what holds of the calls, the
answers and the result whatever the answers are; its rules follow the program.
-/

namespace Interaction

/-- A program with calls in `C`, the answers to a call in `R`, and a result in `A`. -/
inductive Program (C : Type) (R : C → Type) (A : Type)
  | done (result : A)
  | call (c : C) (next : R c → Program C R A)

variable {C : Type} {R : C → Type} {A B : Type}

/-- A call with its answer. -/
abbrev Event (C : Type) (R : C → Type) := Σ c : C, R c

/-- Answers to calls, from what has happened before. -/
abbrev Environment (C : Type) (R : C → Type) := List (Event C R) → (c : C) → R c

namespace Program

/-- Go on with the result. -/
def bind : Program C R A → (A → Program C R B) → Program C R B
  | done a, next => next a
  | call c rest, next => call c fun answer => (rest answer).bind next

/-- The calls that a program makes in an environment, with their answers, and its result. -/
def run (environment : Environment C R) : List (Event C R) → Program C R A → List (Event C R) × A
  | _, done a => ([], a)
  | history, call c next =>
    let answer := environment history c
    let rest := run environment (history ++ [⟨c, answer⟩]) (next answer)
    (⟨c, answer⟩ :: rest.1, rest.2)

/-- Whatever the answers are, the calls with their answers and the result are as they should be. -/
def Ensures : Program C R A → (List (Event C R) → A → Prop) → Prop
  | done a, post => post [] a
  | call c next, post => ∀ answer : R c, (next answer).Ensures fun trace a =>
      post (⟨c, answer⟩ :: trace) a

variable {p : Program C R A}

@[simp] lemma ensures_done (a : A) (post : List (Event C R) → A → Prop) :
    (done a : Program C R A).Ensures post ↔ post [] a := Iff.rfl

lemma Ensures.mono {post post' : List (Event C R) → A → Prop}
    (h : p.Ensures post) (himp : ∀ trace a, post trace a → post' trace a) : p.Ensures post' := by
  induction p generalizing post post' with
  | done a => exact himp [] a h
  | call c next ih => exact fun answer => ih answer (h answer) fun trace a => himp _ a

lemma Ensures.bind {next : A → Program C R B}
    {mid : List (Event C R) → A → Prop} {post : List (Event C R) → B → Prop} (h : p.Ensures mid)
    (hnext : ∀ trace a, mid trace a → (next a).Ensures fun trace' b => post (trace ++ trace') b) :
    (p.bind next).Ensures post := by
  induction p generalizing mid post with
  | done a => exact hnext [] a h
  | call c rest ih => exact fun answer => ih answer (h answer) fun trace a => hnext _ a

/-- **What is ensured holds in every environment.** -/
theorem Ensures.run {post : List (Event C R) → A → Prop} (h : p.Ensures post)
    (environment : Environment C R) (history : List (Event C R)) :
    post (p.run environment history).1 (p.run environment history).2 := by
  induction p generalizing post history with
  | done a => exact h
  | call c next ih => exact ih _ (h _) _

end Program

end Interaction
