import CtsEngine.Foundation.Keyed
import Mathlib.Algebra.Order.Group.Multiset
import Mathlib.Data.List.Induction

/-!
# Queues of families in one pass

A pass over a list keeps a queue for each family of elements.  An element is offered to the queue
of its family, and an element without a family is passed over.  A queue below its bound takes the
element; a queue that has reached it gives up an element.
-/

namespace StreamedQueues

open Option List Keyed Prod

variable {A : Type*} {F : Type*}

/-- What a queue of a family makes of an element: the queue after it and an element given up. -/
abbrev Offer (A F : Type*) := F → List A → A → List A × Option A

/-- Queues take elements below their bounds and give one up for each element from there on. -/
structure Bounded (offer : Offer A F) (bound : F → ℕ) : Prop where
  takes : ∀ family queue x, queue.length < bound family →
    offer family queue x = (queue ++ [x], none)
  givesUp : ∀ family queue x, bound family ≤ queue.length →
    ∃ y, (offer family queue x).2 = some y ∧ (y :: (offer family queue x).1).Subperm (queue ++ [x])

/-- The queues in the order in which they were first used, and the elements given up. -/
structure State (A F : Type*) where
  queues : List (F × List A) := []
  dropped : List A := []

variable [DecidableEq F]

def State.queue (s : State A F) (family : F) : List A := (get? s.queues family).getD []

/-- One element of the list. -/
def visit (offer : Offer A F) (familyOf : A → Option F) (s : State A F) (x : A) : State A F :=
  match familyOf x with
  | none => s
  | some family =>
    let offered := offer family (s.queue family) x
    { queues := put s.queues family offered.1, dropped := s.dropped ++ offered.2.toList }

/-- The whole list. -/
def pass (offer : Offer A F) (familyOf : A → Option F) (xs : List A) : State A F :=
  xs.foldl (visit offer familyOf) {}

/-- The elements of a family. -/
def members (familyOf : A → Option F) (family : F) (xs : List A) : List A :=
  xs.filter fun x => decide (familyOf x = some family)

variable {offer : Offer A F} {bound : F → ℕ} {familyOf : A → Option F}

lemma pass_append_singleton (xs : List A) (x : A) :
    pass offer familyOf (xs ++ [x]) = visit offer familyOf (pass offer familyOf xs) x := by
  unfold pass
  rw [foldl_append]
  rfl

lemma visit_of_none {s : State A F} {x : A} (h : familyOf x = none) :
    visit offer familyOf s x = s := by
  rw [visit, h]

lemma visit_of_some {s : State A F} {x : A} {family : F} (h : familyOf x = some family) :
    visit offer familyOf s x =
      { queues := put s.queues family (offer family (s.queue family) x).1
        dropped := s.dropped ++ (offer family (s.queue family) x).2.toList } := by
  rw [visit, h]

lemma members_append_singleton (family : F) (xs : List A) (x : A) :
    members familyOf family (xs ++ [x]) =
      members familyOf family xs ++ if familyOf x = some family then [x] else [] := by
  rw [members, filter_append, filter_singleton]
  by_cases h : familyOf x = some family
  · rw [if_pos h, decide_eq_true h]
    rfl
  · rw [if_neg h, decide_eq_false h]
    rfl

omit [DecidableEq F] in
lemma Bounded.subperm (h : Bounded offer bound) (family : F) (queue : List A) (x : A) :
    ((offer family queue x).1 ++ (offer family queue x).2.toList).Subperm (queue ++ [x]) := by
  rcases lt_or_ge queue.length (bound family) with hlt | hge
  · rw [h.takes family queue x hlt, toList_none, append_nil]
  · obtain ⟨y, hy, hsub⟩ := h.givesUp family queue x hge
    rw [hy, toList_some]
    exact (perm_append_singleton y _).subperm.trans hsub

lemma flatMap_put_perm (queues : List (F × List A)) (family : F) (queue : List A) :
    ((put queues family queue).flatMap snd ++
      (get? queues family).getD []).Perm (queues.flatMap snd ++ queue) := by
  induction queues with
  | nil => simp [put, get?]
  | cons entry rest ih =>
    by_cases hkey : entry.1 = family
    · rw [put, get?, if_pos hkey, if_pos hkey, flatMap_cons]
      rw [append_assoc]
      exact perm_append_comm.trans (perm_append_comm.append_right queue)
    · rw [put, get?, if_neg hkey, if_neg hkey, flatMap_cons, flatMap_cons,
        append_assoc, append_assoc]
      exact ih.append_left entry.2

/-- The queues and what was given up are elements with a family. -/
theorem pass_subperm (h : Bounded offer bound) (xs : List A) :
    ((pass offer familyOf xs).dropped ++ (pass offer familyOf xs).queues.flatMap snd).Subperm
      (xs.filter fun x => (familyOf x).isSome) := by
  induction xs using reverseRecOn with
  | nil => exact List.Subperm.refl []
  | append_singleton xs x ih =>
    rw [pass_append_singleton, filter_append, filter_singleton]
    cases hfam : familyOf x with
    | none =>
      rw [visit_of_none hfam, isSome_none, cond_false, append_nil]
      exact ih
    | some family =>
      rw [visit_of_some hfam]
      generalize pass offer familyOf xs = s at ih
      -- As bags: the queue that is replaced is added on both sides.
      have hput := Multiset.coe_eq_coe.mpr
        (flatMap_put_perm s.queues family (offer family (s.queue family) x).1)
      have hoffer := Multiset.coe_le.mpr (h.subperm family (s.queue family) x)
      have hold := Multiset.coe_le.mpr ih
      rw [← Multiset.coe_le]
      simp only [← Multiset.coe_add] at hput hoffer hold ⊢
      change _ + (s.queue family : Multiset A) = _ at hput
      refine le_of_add_le_add_right (a := (s.queue family : Multiset A)) ?_
      calc _ = (s.dropped + s.queues.flatMap snd : Multiset A) +
            ((offer family (s.queue family) x).1 +
              (offer family (s.queue family) x).2.toList : Multiset A) := by
              rw [add_assoc, hput]
              abel
        _ ≤ (xs.filter fun x => (familyOf x).isSome : List A) + (s.queue family + [x]) :=
              add_le_add hold hoffer
        _ = _ := by abel

lemma keysUnique_queues (xs : List A) : KeysUnique (pass offer familyOf xs).queues := by
  induction xs using reverseRecOn with
  | nil => exact nodup_nil
  | append_singleton xs x ih =>
    rw [pass_append_singleton]
    cases hfam : familyOf x with
    | none => rwa [visit_of_none hfam]
    | some family =>
      rw [visit_of_some hfam]
      exact ih.put _ _

/-- No family is larger than its bound, or else some element is given up. -/
theorem pass_cases (h : Bounded offer bound) (xs : List A) :
    (pass offer familyOf xs).dropped = [] ∧ (∀ family,
        (pass offer familyOf xs).queue family = members familyOf family xs ∧
          (members familyOf family xs).length ≤ bound family) ∨
      (pass offer familyOf xs).dropped ≠ [] ∧
        ∃ family, bound family < (members familyOf family xs).length := by
  induction xs using reverseRecOn with
  | nil => exact .inl ⟨rfl, fun family => ⟨rfl, Nat.zero_le _⟩⟩
  | append_singleton xs x ih =>
    rw [pass_append_singleton]
    cases hfam : familyOf x with
    | none =>
      have hmems : ∀ family, members familyOf family (xs ++ [x]) = members familyOf family xs := by
        intro family
        rw [members_append_singleton, hfam, if_neg (some_ne_none family).symm, append_nil]
      simpa only [visit_of_none hfam, hmems] using ih
    | some family =>
      rw [visit_of_some hfam]
      generalize pass offer familyOf xs = s at ih
      rcases ih with ⟨hnone, hqueues⟩ | ⟨hsome, larger, hlarg⟩
      · obtain ⟨hqueue, hle⟩ := hqueues family
        have hown : members familyOf family (xs ++ [x]) = members familyOf family xs ++ [x] := by
          rw [members_append_singleton, if_pos hfam]
        rcases Nat.lt_or_ge (s.queue family).length (bound family) with hlt | hge
        · -- The queue takes the element, and the other families stay as they are.
          refine .inl ⟨?_, fun other => ?_⟩
          · rw [h.takes family _ x hlt, hnone]
            rfl
          · rw [State.queue, h.takes family _ x hlt]
            by_cases heq : other = family
            · rw [heq, get?_put_self, hown, hqueue, length_append]
              exact ⟨rfl, by rw [← hqueue]; exact hlt⟩
            · rw [get?_put_of_ne _ _ heq, members_append_singleton, hfam,
                if_neg fun hsome => heq (some.inj hsome).symm, append_nil]
              exact hqueues other
        · refine .inr ⟨?_, family, ?_⟩
          · obtain ⟨y, hy, -⟩ := h.givesUp family _ x hge
            rw [hy]
            exact append_ne_nil_of_right_ne_nil _ (cons_ne_nil y [])
          · rw [hown, length_append, ← hqueue]
            exact Nat.lt_succ_of_le hge
      · refine .inr ⟨fun hnil => hsome (append_eq_nil_iff.mp hnil).1, larger, ?_⟩
        rw [members_append_singleton, length_append]
        exact Nat.lt_add_right _ hlarg

/-- Nothing is given up exactly when no family is larger than its bound. -/
theorem dropped_eq_nil_iff (h : Bounded offer bound) (xs : List A) :
    (pass offer familyOf xs).dropped = [] ↔
      ∀ family, (members familyOf family xs).length ≤ bound family := by
  rcases @pass_cases A F _ offer bound familyOf h xs with ⟨hnone, hqueue⟩ | ⟨hsome, family, hlt⟩
  · exact ⟨fun _ family => (hqueue family).2, fun _ => hnone⟩
  · exact ⟨fun hnone => absurd hnone hsome, fun hle => absurd (hle family) (not_le.mpr hlt)⟩

lemma queue_eq (h : Bounded offer bound) {xs : List A}
    (hnone : (pass offer familyOf xs).dropped = []) (family : F) :
    (pass offer familyOf xs).queue family = members familyOf family xs := by
  rcases @pass_cases A F _ offer bound familyOf h xs with ⟨-, hqueue⟩ | ⟨hsome, -⟩
  · exact (hqueue family).1
  · exact absurd hnone hsome

/-- What is taken out of the queues in the end. -/
def surplus (trim : F → List A → List A) (s : State A F) : List A :=
  s.queues.flatMap fun entry => trim entry.1 entry.2

variable {trim : F → List A → List A}

/-- Elements are given up, or are surplus, once at most. -/
theorem dropped_append_surplus_subperm (h : Bounded offer bound)
    (htrim : ∀ family queue, (trim family queue).Subperm queue) (xs : List A) :
    ((pass offer familyOf xs).dropped ++ surplus trim (pass offer familyOf xs)).Subperm
      (xs.filter fun x => (familyOf x).isSome) := by
  refine List.Subperm.trans ?_ (pass_subperm h xs)
  generalize pass offer familyOf xs = s
  refine (subperm_append_left s.dropped).mpr ?_
  unfold surplus
  induction s.queues with
  | nil => exact List.Subperm.refl []
  | cons entry rest ih =>
    exact (htrim entry.1 entry.2).append ih

/-- When nothing was given up, the surplus is the surplus of the families. -/
theorem mem_surplus_iff (h : Bounded offer bound) (hnil : ∀ family, trim family [] = [])
    {xs : List A} (hnone : (pass offer familyOf xs).dropped = []) {x : A} :
    x ∈ surplus trim (pass offer familyOf xs) ↔
      ∃ family, x ∈ trim family (members familyOf family xs) := by
  have hqueue := @queue_eq A F _ offer bound familyOf h xs hnone
  have huniq := @keysUnique_queues A F _ offer familyOf xs
  generalize pass offer familyOf xs = s at hqueue huniq
  rw [surplus, mem_flatMap]
  constructor
  · rintro ⟨entry, hent, hx⟩
    refine ⟨entry.1, ?_⟩
    rw [← hqueue entry.1, State.queue, get?_of_mem huniq hent]
    exact hx
  · rintro ⟨family, hx⟩
    rw [← hqueue family, State.queue] at hx
    cases hget : get? s.queues family with
    | none =>
      rw [hget, getD_none, hnil] at hx
      exact absurd hx not_mem_nil
    | some queue =>
      rw [hget] at hx
      exact ⟨(family, queue), mem_of_get? hget, hx⟩

end StreamedQueues
