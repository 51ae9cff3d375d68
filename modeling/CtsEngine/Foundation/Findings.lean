import CtsEngine.Foundation.MapIterator

/-!
# Findings and their places

An audit goes through its checks and logs what each of them finds.  A check may be about a place:
then the place is noted when something was found there, and the findings are counted as
attributed.  When all findings are attributed, the checks without a place have found nothing, and
the checks of a place that is not noted have found nothing either.
-/

namespace Findings

open List

variable {V P : Type*} [DecidableEq P]

/-- The findings in their order, the places where something was found, and how many findings are
attributed to a place. -/
structure Log (V P : Type*) where
  violations : List V := []
  places : List P := []
  attributed : ℕ := 0

/-- What a check found, and the place it is about. -/
abbrev Report (V P : Type*) := List V × Option P

namespace Log

/-- Note the places of one finding, which counts as attributed. -/
def bar (log : Log V P) (violation : V) (places : List P) : Log V P :=
  if places = [] then log
  else
    { violations := log.violations ++ [violation]
      places := places.foldl MapIterator.insert log.places
      attributed := log.attributed + 1 }

/-- Log what a check found. -/
def report (log : Log V P) (found : Report V P) : Log V P :=
  match found.2 with
  | none => { log with violations := log.violations ++ found.1 }
  | some place =>
    { violations := log.violations ++ found.1
      places := if found.1 = [] then log.places else MapIterator.insert log.places place
      attributed := log.attributed + found.1.length }

/-- Log what several checks found. -/
def reportAll (log : Log V P) (reports : List (Report V P)) : Log V P := reports.foldl report log

/-- All findings are attributed to places. -/
def IsAttributed (log : Log V P) : Prop := log.violations.length = log.attributed

variable {log : Log V P} {reports : List (Report V P)} {place : P}

variable {violation : V} {places : List P}

lemma mem_foldl_insert {noted : List P} :
    place ∈ places.foldl MapIterator.insert noted ↔ place ∈ noted ∨ place ∈ places := by
  induction places generalizing noted with
  | nil => simp
  | cons first rest ih =>
    rw [foldl_cons, ih, MapIterator.mem_insert, mem_cons]
    tauto

lemma mem_places_bar :
    place ∈ (log.bar violation places).places ↔ place ∈ log.places ∨ place ∈ places := by
  rw [bar]
  split
  · rename_i hnil
    rw [hnil]
    simp
  · exact mem_foldl_insert

lemma isAttributed_bar : (log.bar violation places).IsAttributed ↔ log.IsAttributed := by
  rw [bar]
  split
  · exact Iff.rfl
  · rw [IsAttributed, IsAttributed, length_append, length_singleton, Nat.add_left_inj]

lemma violations_bar_eq_nil :
    (log.bar violation places).violations = [] ↔ log.violations = [] ∧ places = [] := by
  rw [bar]
  split
  · rename_i hnil
    exact ⟨fun h => ⟨h, hnil⟩, And.left⟩
  · rename_i hne
    exact ⟨fun h => absurd (append_eq_nil_iff.mp h).2 (cons_ne_nil _ _), fun h => absurd h.2 hne⟩

lemma violations_report (log : Log V P) (found : Report V P) :
    (log.report found).violations = log.violations ++ found.1 := by
  rw [report]
  split <;> rfl

/-- The findings are those before and those of the reports. -/
theorem violations_reportAll (log : Log V P) (reports : List (Report V P)) :
    (log.reportAll reports).violations = log.violations ++ reports.flatMap Prod.fst := by
  induction reports generalizing log with
  | nil => rw [flatMap_nil, append_nil]; rfl
  | cons found rest ih =>
    change ((log.report found).reportAll rest).violations = _
    rw [ih, violations_report, flatMap_cons, append_assoc]

/-- A place is noted where it was before, or where a report about it has a finding. -/
theorem mem_places_reportAll : place ∈ (log.reportAll reports).places ↔
      place ∈ log.places ∨ ∃ found ∈ reports, found.2 = some place ∧ found.1 ≠ [] := by
  induction reports generalizing log with
  | nil => simp [reportAll]
  | cons found rest ih =>
    change place ∈ ((log.report found).reportAll rest).places ↔ _
    have hstep : place ∈ (log.report found).places ↔
        place ∈ log.places ∨ found.2 = some place ∧ found.1 ≠ [] := by
      rw [report]
      split
      · rename_i hnone
        simp [hnone]
      · rename_i noted hsome
        rw [hsome, Option.some.injEq]
        by_cases hnil : found.1 = []
        · simp [hnil]
        · simp only [if_neg hnil, MapIterator.mem_insert]
          tauto
    rw [ih, hstep, exists_mem_cons_iff, or_assoc]

lemma length_violations_reportAll (log : Log V P) (reports : List (Report V P)) :
    (log.reportAll reports).violations.length + log.attributed =
      (log.reportAll reports).attributed + log.violations.length +
        ((reports.filter fun found => found.2.isNone).flatMap Prod.fst).length := by
  induction reports generalizing log with
  | nil => exact Nat.add_comm ..
  | cons found rest ih =>
    have hrest := ih (log.report found)
    change ((log.report found).reportAll rest).violations.length + _ =
      ((log.report found).reportAll rest).attributed + _ + _
    rw [violations_report, length_append] at hrest
    rw [report] at hrest ⊢
    cases hplace : found.2 with
    | none =>
      rw [filter_cons_of_pos (by rw [hplace]; rfl), flatMap_cons, length_append]
      simp only [hplace] at hrest ⊢
      omega
    | some noted =>
      rw [filter_cons_of_neg (by rw [hplace]; exact Bool.false_ne_true)]
      simp only [hplace] at hrest ⊢
      omega

/-- The findings are attributed when they were before and the reports without a place are empty. -/
theorem isAttributed_reportAll (h : log.IsAttributed) :
    (log.reportAll reports).IsAttributed ↔ ∀ found ∈ reports, found.2 = none → found.1 = [] := by
  have hlen := length_violations_reportAll log reports
  have hiff : (log.reportAll reports).IsAttributed ↔
      (reports.filter fun found => found.2.isNone).flatMap Prod.fst = [] := by
    rw [IsAttributed] at h ⊢
    rw [← length_eq_zero_iff]
    omega
  rw [hiff, flatMap_eq_nil_iff]
  refine forall_congr' fun found => ?_
  rw [mem_filter, Option.isNone_iff_eq_none, and_imp]

end Log
end Findings
