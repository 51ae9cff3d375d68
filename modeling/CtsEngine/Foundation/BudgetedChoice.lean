import Mathlib.Data.Finset.Card

/-!
# Choosing under a budget

A choice from a list in two passes: first one element of every family, as long as the budget lasts,
and then whatever comes next.  Elements that are chosen anyway are excluded.
-/

namespace BudgetedChoice

open Finset List

variable {T : Type*} {F : Type*} [DecidableEq T] [DecidableEq F]

/-- What the first pass has chosen, and the families that it has seen. -/
structure Reserved (T : Type*) (F : Type*) where
  chosen : Finset T
  represented : Finset F

/-- The first pass: the first element of every family. -/
def reserve (excluded : Finset T) (family : T → F) (budget : ℕ) :
    List T → Reserved T F → Reserved T F
  | [], s => s
  | x :: rest, s =>
    if x ∈ excluded ∨ budget ≤ s.chosen.card then reserve excluded family budget rest s
    else if family x ∈ s.represented then reserve excluded family budget rest s
    else reserve excluded family budget rest ⟨insert x s.chosen, insert (family x) s.represented⟩

/-- The second pass: the elements in their order. -/
def fill (excluded : Finset T) (budget : ℕ) : List T → Finset T → Finset T
  | [], chosen => chosen
  | x :: rest, chosen =>
    if x ∈ excluded then fill excluded budget rest chosen
    else if budget ≤ chosen.card then chosen
    else fill excluded budget rest (insert x chosen)

variable {excluded chosen : Finset T} {family : T → F} {budget : ℕ} {xs : List T} {s : Reserved T F}

/-- The families are those of the elements chosen, which have one each. -/
structure Reserved.Represents (family : T → F) (s : Reserved T F) : Prop where
  families : s.represented = s.chosen.image family
  card : s.represented.card = s.chosen.card

lemma Reserved.Represents.insert (hs : s.Represents family) {x : T}
    (hx : family x ∉ s.represented) :
    Represents family ⟨Insert.insert x s.chosen, Insert.insert (family x) s.represented⟩ where
  families := by rw [image_insert, hs.families]
  card := by
    have hnew : x ∉ s.chosen := fun hmem =>
      hx (hs.families ▸ mem_image_of_mem family hmem)
    rw [card_insert_of_notMem hx, card_insert_of_notMem hnew, hs.card]

omit [DecidableEq F] in
/-- What may be chosen after an element that is not excluded may be chosen with it. -/
lemma eligible_cons {x y : T} {rest : List T} (hx : x ∉ excluded)
    (h : y ∈ insert x chosen ∨ y ∈ rest ∧ y ∉ excluded) :
    y ∈ chosen ∨ y ∈ x :: rest ∧ y ∉ excluded := by
  rcases h with hold | hrest
  · rcases Finset.mem_insert.mp hold with rfl | hold
    · exact .inr ⟨mem_cons_self .., hx⟩
    · exact .inl hold
  · exact .inr ⟨mem_cons_of_mem _ hrest.1, hrest.2⟩

/-- What the first pass leaves. -/
structure AfterReserve (excluded : Finset T) (family : T → F) (budget : ℕ) (xs : List T)
    (s t : Reserved T F) : Prop where
  represents : t.Represents family
  grows : s.chosen ⊆ t.chosen
  eligible : ∀ x ∈ t.chosen, x ∈ s.chosen ∨ x ∈ xs ∧ x ∉ excluded
  card_le : t.chosen.card ≤ budget
  /-- A budget for all the families leaves none out. -/
  complete : ∀ families : Finset F, s.represented ⊆ families → families.card ≤ budget →
    (∀ x ∈ xs, x ∉ excluded → family x ∈ families) →
      ∀ x ∈ xs, x ∉ excluded → family x ∈ t.represented

omit [DecidableEq T] in
lemma AfterReserve.represented_subset {t : Reserved T F} (hs : s.Represents family)
    (h : AfterReserve excluded family budget xs s t) : s.represented ⊆ t.represented := by
  rw [hs.families, h.represents.families]
  exact image_subset_image h.grows

/-- **The first pass** keeps to the budget and represents the families that it has room for. -/
lemma reserve_spec (hs : s.Represents family) (hle : s.chosen.card ≤ budget) :
    AfterReserve excluded family budget xs s (reserve excluded family budget xs s) := by
  induction xs generalizing s with
  | nil => exact ⟨hs, subset_rfl, fun x hx => .inl hx, hle, fun _ _ _ _ _ => nofun⟩
  | cons x rest ih =>
    -- what a pass that skips `x` leaves
    have hskip : ∀ {t : Reserved T F}, AfterReserve excluded family budget rest s t →
        (∀ families : Finset F, s.represented ⊆ families → families.card ≤ budget →
          family x ∈ families → x ∉ excluded → family x ∈ s.represented) →
        AfterReserve excluded family budget (x :: rest) s t := by
      intro t h hx
      refine { h with
        eligible := fun y hy => (h.eligible y hy).imp_right fun hrest =>
          ⟨mem_cons_of_mem _ hrest.1, hrest.2⟩
        complete := fun families hsub hcard hmem y hy hnot => ?_ }
      rcases mem_cons.mp hy with rfl | hrest
      · exact h.represented_subset hs (hx families hsub hcard (hmem y hy hnot) hnot)
      · exact h.complete families hsub hcard
          (fun z hz => hmem z (mem_cons_of_mem _ hz)) y hrest hnot
    rw [reserve]
    split_ifs with hpass hseen
    · refine hskip (ih hs hle) fun families hsub hcard hx hnot => ?_
      rcases hpass with hexcl | hfull
      · exact absurd hexcl hnot
      · have hall := eq_of_subset_of_card_le hsub (hcard.trans (hs.card ▸ hfull))
        rwa [hall]
    · exact hskip (ih hs hle) fun _ _ _ _ _ => hseen
    · obtain ⟨hnot, hroom⟩ := not_or.mp hpass
      have hnext := hs.insert hseen
      have hcard : (insert x s.chosen).card ≤ budget := (card_insert_le _ _).trans (by omega)
      have h := ih hnext hcard
      refine ⟨h.represents, (Finset.subset_insert _ _).trans h.grows, fun y hy =>
        eligible_cons hnot (h.eligible y hy), h.card_le,
        fun families hsub hfamil hmem y hy hynot => ?_⟩
      rcases mem_cons.mp hy with rfl | hrest
      · exact h.represented_subset hnext (Finset.mem_insert_self _ _)
      · refine h.complete families ?_ hfamil
          (fun z hz => hmem z (mem_cons_of_mem _ hz)) y hrest hynot
        exact insert_subset (hmem x (mem_cons_self ..) hnot) hsub

lemma reserve_empty_spec (excluded : Finset T) (family : T → F) (budget : ℕ) (xs : List T) :
    AfterReserve excluded family budget xs ⟨∅, ∅⟩ (reserve excluded family budget xs ⟨∅, ∅⟩) :=
  reserve_spec ⟨rfl, rfl⟩ (Nat.zero_le budget)

/-- What the second pass leaves. -/
structure AfterFill (excluded : Finset T) (budget : ℕ) (xs : List T) (chosen next : Finset T) :
    Prop where
  grows : chosen ⊆ next
  eligible : ∀ x ∈ next, x ∈ chosen ∨ x ∈ xs ∧ x ∉ excluded
  card_le : next.card ≤ budget
  complete : next.card < budget → ∀ x ∈ xs, x ∉ excluded → x ∈ next

/-- **The second pass** uses the budget up, unless there is nothing left to choose. -/
lemma fill_spec (hle : chosen.card ≤ budget) :
    AfterFill excluded budget xs chosen (fill excluded budget xs chosen) := by
  induction xs generalizing chosen with
  | nil => exact ⟨subset_rfl, fun x hx => .inl hx, hle, fun _ _ => nofun⟩
  | cons x rest ih =>
    rw [fill]
    split_ifs with hexcl hfull
    · have h := ih hle
      refine { h with
        eligible := fun y hy => (h.eligible y hy).imp_right fun hrest =>
          ⟨mem_cons_of_mem _ hrest.1, hrest.2⟩
        complete := fun hless y hy hnot => ?_ }
      rcases mem_cons.mp hy with rfl | hrest
      · exact absurd hexcl hnot
      · exact h.complete hless y hrest hnot
    · exact ⟨subset_rfl, fun y hy => .inl hy, hle, fun hless => absurd hless (not_lt.mpr hfull)⟩
    · have h := ih ((card_insert_le x chosen).trans (by omega))
      refine ⟨(Finset.subset_insert _ _).trans h.grows, fun y hy =>
        eligible_cons hexcl (h.eligible y hy), h.card_le, fun hless y hy hnot => ?_⟩
      rcases mem_cons.mp hy with rfl | hrest
      · exact h.grows (Finset.mem_insert_self _ _)
      · exact h.complete hless y hrest hnot

lemma AfterFill.card_eq {next : Finset T} (h : AfterFill excluded budget xs chosen next)
    (hchos : ∀ x ∈ chosen, x ∈ xs ∧ x ∉ excluded) :
    next.card = min budget (xs.toFinset \ excluded).card := by
  have hsubs : next ⊆ xs.toFinset \ excluded := by
    intro x hx
    obtain ⟨hmem, hnot⟩ := (h.eligible x hx).elim (hchos x) id
    exact mem_sdiff.mpr ⟨mem_toFinset.mpr hmem, hnot⟩
  rcases h.card_le.lt_or_eq with hless | hfull
  · have hall : xs.toFinset \ excluded ⊆ next := by
      intro x hx
      obtain ⟨hmem, hnot⟩ := mem_sdiff.mp hx
      exact h.complete hless x (mem_toFinset.mp hmem) hnot
    rw [← hsubs.antisymm hall]
    exact (min_eq_right h.card_le).symm
  · rw [hfull]
    exact (min_eq_left (hfull ▸ card_le_card hsubs)).symm

end BudgetedChoice
