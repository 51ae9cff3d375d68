import CtsEngine.Foundation.Keyed

/-!
# Versions of a state and copies made part by part

A state that changes has a history: the list of all states it had, the oldest first, so that the
state of version `v` is the entry `v` of the list.  A copy of a keyed state may be made key by key
while the state goes on changing.  Its parts then belong to different states; it is a copy of
version `v` when none of these states is older than `v`.
-/

namespace Versions

open List Keyed

variable {S A K V : Type*}

/-- A value that some state from version `v` on has. -/
def AsOf (history : List S) (read : S → A) (v : ℕ) (value : A) : Prop :=
  ∃ u state, v ≤ u ∧ history[u]? = some state ∧ read state = value

variable {history : List S} {read : S → A} {v w : ℕ} {value : A} {state : S}

lemma AsOf.mono (h : AsOf history read w value) (hle : v ≤ w) : AsOf history read v value := by
  obtain ⟨u, state, hu, hstate, hval⟩ := h
  exact ⟨u, state, hle.trans hu, hstate, hval⟩

lemma AsOf.later (h : AsOf history read v value) (next : S) :
    AsOf (history ++ [next]) read v value := by
  obtain ⟨u, state, hu, hstate, hval⟩ := h
  refine ⟨u, state, hu, ?_, hval⟩
  rw [getElem?_append_left (List.getElem?_eq_some_iff.mp hstate).1]
  exact hstate

lemma asOf_last (hlast : history.getLast? = some state) (hv : v < history.length) :
    AsOf history read v (read state) := by
  refine ⟨history.length - 1, state, by omega, ?_, rfl⟩
  rw [← hlast, getLast?_eq_getElem?]

/-! ### Copies -/

variable [DecidableEq K] {part : S → K → Option V} {kept : K → Prop} {key : K} {todo plan : List K}
  {copy : List (K × V)}

/-- A copy in the making: a key that is kept has a part of version `v` already, or it is still to
come. -/
def Copied (history : List S) (part : S → K → Option V) (kept : K → Prop) (v : ℕ) (todo : List K)
    (copy : List (K × V)) : Prop :=
  ∀ key, kept key → (get? copy key = none ∧ key ∈ todo) ∨
    AsOf history (part · key) v (get? copy key)

/-- Copy one key of a state, in front of what was copied before; a key that is gone is passed
over. -/
def copyPart (part : S → K → Option V) (state : S) (copy : List (K × V)) (key : K) : List (K × V) :=
  match part state key with
  | some value => (key, value) :: copy
  | none => copy

lemma get?_copyPart_of_ne {other : K} (h : key ≠ other) (state : S) (copy : List (K × V)) :
    get? (copyPart part state copy key) other = get? copy other := by
  unfold copyPart
  cases part state key with
  | some value => exact if_neg h
  | none => rfl

lemma Copied.later (h : Copied history part kept v todo copy) (next : S) :
    Copied (history ++ [next]) part kept v todo copy :=
  fun key hkept => (h key hkept).imp_right fun hpart => hpart.later next

lemma copied_start (hlast : history.getLast? = some state) (hv : v < history.length)
    (hplan : ∀ key, kept key → (part state key).isSome → key ∈ plan) :
    Copied history part kept v plan [] := by
  intro key hkept
  cases hpart : part state key with
  | none =>
    have hlastp : AsOf history (part · key) v (part state key) := asOf_last hlast hv
    rw [hpart] at hlastp
    exact .inr hlastp
  | some value => exact .inl ⟨rfl, hplan key hkept (by rw [hpart]; rfl)⟩

lemma Copied.next (h : Copied history part kept v (key :: todo) copy)
    (hlast : history.getLast? = some state) (hv : v < history.length) :
    Copied history part kept v todo (copyPart part state copy key) := by
  intro other hkept
  by_cases hsame : key = other
  · subst hsame
    have hlastp : AsOf history (part · key) v (part state key) := asOf_last hlast hv
    refine .inr ?_
    unfold copyPart
    cases hpart : part state key with
    | some value =>
      rw [hpart] at hlastp
      exact (congrArg (AsOf history (part · key) v) (if_pos rfl)).mpr hlastp
    | none =>
      -- a key that was copied before keeps its part
      rcases h key hkept with ⟨hnone, -⟩ | hbef
      · rw [hpart] at hlastp
        exact (congrArg (AsOf history (part · key) v) hnone).mpr hlastp
      · exact hbef
  · rw [get?_copyPart_of_ne hsame]
    refine (h other hkept).imp_left fun hcomin => ⟨hcomin.1, ?_⟩
    exact (mem_cons.mp hcomin.2).resolve_left fun heq => hsame heq.symm

lemma Copied.asOf (h : Copied history part kept v [] copy) (hkept : kept key) :
    AsOf history (part · key) v (get? copy key) :=
  (h key hkept).resolve_left fun hcomin => absurd hcomin.2 (not_mem_nil)

lemma Copied.all (h : Copied history part kept v todo copy)
    (hlast : history.getLast? = some state) (hv : v < history.length) :
    Copied history part kept v [] (todo.foldl (copyPart part state) copy) := by
  induction todo generalizing copy with
  | nil => exact h
  | cons key todo ih => exact ih (h.next hlast hv)

end Versions
