import Mathlib.Data.List.GetD
import Mathlib.Data.List.TakeWhile

/-!
# Growing series

A series grows at its end.  A function of the series and an index is causal when it reads the series
only up to that index, so that its value never changes once the index is reached; slices that end at
the index are causal, and so is what is computed from them.  A cursor over a series reads on while
the next entry is known; over decision times at which more and more is known, every decision sees
the last entry known to it.
-/

namespace Series

open List Option

variable {α : Type*} {β : Type*} {γ : Type*} {δ : Type*}

/-- The entries from index `a` up to index `b`, without `b`. -/
def slice (xs : List α) (a b : ℕ) : List α := (xs.drop a).take (b - a)

/-- What is computed at an index never changes as the series grows. -/
def Causal (f : List α → ℕ → β) : Prop :=
  ∀ (xs rest : List α) (i : ℕ), i < xs.length → f (xs ++ rest) i = f xs i

lemma slice_append (xs rest : List α) {a b : ℕ} (h : b ≤ xs.length) :
    slice (xs ++ rest) a b = slice xs a b := by
  unfold slice
  rcases Nat.lt_or_ge b a with hlt | hle
  · rw [Nat.sub_eq_zero_of_le hlt.le, take_zero, take_zero]
  · rw [drop_append_of_le_length (hle.trans h), take_append_of_le_length]
    rw [length_drop]
    omega

lemma causal_slice (a b : ℕ → ℕ) (h : ∀ i, b i ≤ i + 1) :
    Causal fun (xs : List α) i => slice xs (a i) (b i) :=
  fun xs rest i hi => slice_append xs rest ((h i).trans hi)

lemma Causal.map {f : List α → ℕ → β} (hf : Causal f) (g : ℕ → β → γ) :
    Causal fun xs i => g i (f xs i) :=
  fun xs rest i hi => congrArg (g i) (hf xs rest i hi)

/-! ## Cursors -/

/-- A place in a series: what has not been read, and the value of the last entry read. -/
structure Cursor (α : Type*) (β : Type*) where
  unread : List α
  last : Option β

/-- Read on while the next entry is known. -/
def advance (known : α → Bool) (value : α → β) : List α → Option β → Cursor α β
  | [], last => ⟨[], last⟩
  | entry :: unread, last =>
    if known entry then advance known value unread (some (value entry)) else ⟨entry :: unread, last⟩

/-- The value of the last known entry of a series. -/
def lastKnown (known : α → Bool) (value : α → β) (xs : List α) : Option β :=
  (xs.takeWhile known).getLast?.map value

lemma advance_eq (known : α → Bool) (value : α → β) (unread : List α) (last : Option β) :
    advance known value unread last =
      ⟨unread.dropWhile known, (lastKnown known value unread).or last⟩ := by
  induction unread generalizing last with
  | nil => rfl
  | cons entry unread ih =>
    by_cases h : known entry
    · rw [advance, if_pos h, ih, dropWhile_cons_of_pos h, lastKnown, lastKnown,
        takeWhile_cons_of_pos h, getLast?_cons]
      cases (unread.takeWhile known).getLast? <;> rfl
    · rw [advance, if_neg h, dropWhile_cons_of_neg h, lastKnown, takeWhile_cons_of_neg h]
      rfl

variable {p q known : α → Bool}

lemma takeWhile_append_dropWhile_of_imp (h : ∀ x, p x → q x) (xs : List α) :
    xs.takeWhile p ++ (xs.dropWhile p).takeWhile q = xs.takeWhile q := by
  induction xs with
  | nil => rfl
  | cons x xs ih =>
    by_cases hp : p x
    · rw [takeWhile_cons_of_pos hp, dropWhile_cons_of_pos hp, cons_append, ih,
        takeWhile_cons_of_pos (h x hp)]
    · rw [takeWhile_cons_of_neg hp, dropWhile_cons_of_neg hp, nil_append]

lemma dropWhile_dropWhile_of_imp (h : ∀ x, p x → q x) (xs : List α) :
    (xs.dropWhile p).dropWhile q = xs.dropWhile q := by
  induction xs with
  | nil => rfl
  | cons x xs ih =>
    by_cases hp : p x
    · rw [dropWhile_cons_of_pos hp, ih, dropWhile_cons_of_pos (h x hp)]
    · rw [dropWhile_cons_of_neg hp]

lemma advance_dropWhile (h : ∀ x, p x → q x) (value : α → β) (xs : List α) :
    advance q value (xs.dropWhile p) (lastKnown p value xs) =
      ⟨xs.dropWhile q, lastKnown q value xs⟩ := by
  rw [advance_eq, dropWhile_dropWhile_of_imp h, lastKnown, lastKnown, lastKnown,
    ← takeWhile_append_dropWhile_of_imp h xs, getLast?_append]
  cases ((xs.dropWhile p).takeWhile q).getLast? <;> rfl

section Scan

variable {F : Type*} {D : Type*} (known : F → D → α → Bool) (value : F → α → β)

/-- Decisions one after another, each after every cursor of a family has read on to what the
decision knows; a decision sees the last values read. -/
def scan (decide : (F → Option β) → γ) : (F → Cursor α β) → List D → List γ
  | _, [] => []
  | cursors, d :: decisions =>
    let next := fun f => advance (known f d) (value f) (cursors f).unread (cursors f).last
    decide (fun f => (next f).last) :: scan decide next decisions

/-- Each decision knows everything that an earlier one knew. -/
def Grows (decisions : List D) : Prop :=
  decisions.Pairwise fun d e => ∀ f x, known f d x → known f e x

/-- **Cursors see the last known entry.** Where each decision knows what the earlier ones knew, a
decision made with cursors is the one made from the whole series. -/
lemma scan_eq_map {known : F → D → α → Bool} {value : F → α → β} (decide : (F → Option β) → γ)
    (series : F → List α) {decisions : List D} (hgrows : Grows known decisions) :
    scan known value decide (fun f => ⟨series f, none⟩) decisions =
      decisions.map fun d => decide fun f => lastKnown (known f d) (value f) (series f) := by
  have hrun : ∀ (before : F → α → Bool) (decisions : List D), Grows known decisions →
      (∀ d ∈ decisions, ∀ f x, before f x → known f d x) →
      scan known value decide
          (fun f => ⟨(series f).dropWhile (before f), lastKnown (before f) (value f) (series f)⟩)
          decisions =
        decisions.map fun d => decide fun f => lastKnown (known f d) (value f) (series f) := by
    intro before decisions
    induction decisions generalizing before with
    | nil => exact fun _ _ => rfl
    | cons d decisions ih =>
      intro hgrows hbef
      obtain ⟨hhead, htail⟩ := pairwise_cons.mp hgrows
      have hnext : (fun f => advance (known f d) (value f) ((series f).dropWhile (before f))
          (lastKnown (before f) (value f) (series f))) =
          fun f => ⟨(series f).dropWhile (known f d), lastKnown (known f d) (value f) (series f)⟩ :=
        funext fun f => advance_dropWhile (hbef d (mem_cons_self ..) f) (value f) (series f)
      rw [scan]
      dsimp only
      rw [hnext, ih (fun f => known f d) htail fun e he => hhead e he]
      have hlast := fun f => congrArg Cursor.last (congrFun hnext f)
      exact congrArg (· :: _) (congrArg decide (funext hlast))
  -- before the first decision nothing is known
  have hst := hrun (fun _ _ => false) decisions hgrows (by simp)
  have hnone : (fun f => (⟨(series f).dropWhile fun _ => false,
      lastKnown (fun _ => false) (value f) (series f)⟩ : Cursor α β)) =
      fun f => ⟨series f, none⟩ := by
    funext f
    cases hser : series f <;> rfl
  rw [← hst, hnone]

end Scan

/-- The last known entry does not change when nothing of what is added is known. -/
lemma lastKnown_append {xs rest : List α} (h : ∀ x ∈ rest, ¬ known x) (value : α → β) :
    lastKnown known value (xs ++ rest) = lastKnown known value xs := by
  have hrest : rest.takeWhile known = [] := by
    cases rest with
    | nil => rfl
    | cons x rest => exact takeWhile_cons_of_neg (h x (mem_cons_self ..))
  unfold lastKnown
  rw [takeWhile_append]
  split
  · rw [hrest, append_nil]
    congr 2
    exact ((List.takeWhile_prefix known).eq_of_length ‹_›).symm
  · rfl

lemma lastKnown_congr {xs : List α} {value value' : α → β} (h : ∀ x ∈ xs, value x = value' x) :
    lastKnown known value xs = lastKnown known value' xs := by
  unfold lastKnown
  cases hlast : (xs.takeWhile known).getLast? with
  | none => rfl
  | some x =>
    have hmem : x ∈ xs := (List.takeWhile_prefix known).subset (mem_of_getLast? hlast)
    rw [map_some, map_some, h x hmem]

/-- The last known value is that of a known entry. -/
lemma exists_of_lastKnown {value : α → β} {xs : List α} {v : β}
    (h : lastKnown known value xs = some v) : ∃ x ∈ xs, known x = true ∧ value x = v := by
  obtain ⟨x, hlast, hval⟩ := map_eq_some_iff.mp h
  have hmem := mem_of_getLast? hlast
  exact ⟨x, (List.takeWhile_prefix known).subset hmem, mem_takeWhile_imp hmem, hval⟩

end Series
