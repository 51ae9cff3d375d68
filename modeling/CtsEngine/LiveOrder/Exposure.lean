import CtsEngine.LiveOrder.ReductionLedger
import CtsEngine.Transition.Runs
import Mathlib.Data.Fintype.BigOperators

/-!
# Several reduce orders on one position

The venue fills any number of reduce orders of one position, and the local quantity follows by
observations: each of them reads the cumulative fill of one order, the quantity applied for that
order so far and, possibly, the venue's position quantity.
-/

namespace CtsEngine

open Finset Transition Function Option

/-- A position on the venue with its reduce orders, and the local view of it. -/
structure ReducedPosition (O : Type*) where
  /-- Open quantity on the venue. -/
  venueQuantity : ℚ
  /-- Cumulative fill of each order on the venue. -/
  filled : O → ℚ
  localQuantity : ℚ
  /-- The last `cumulativeApplied` of each order. -/
  applied : O → ℚ
  /-- History variable: the order was observed and has not filled since. -/
  observed : O → Bool

/-- Events of a position with several reduce orders. -/
inductive ReduceEvent (O : Type*)
  /-- The venue fills `quantity` more of an order. -/
  | fill (order : O) (quantity : ℚ)
  /-- One order is observed, with or without the venue's position quantity. -/
  | observe (order : O) (withVenueQuantity : Bool)

variable {O : Type*} [DecidableEq O]

/-- A position of `quantity` before any fill. -/
def ReducedPosition.start (quantity : ℚ) : ReducedPosition O where
  venueQuantity := quantity
  filled := fun _ => 0
  localQuantity := quantity
  applied := fun _ => 0
  observed := fun _ => false

/-- The result of observing `order` in the state `s`. -/
def ReducedPosition.observation (s : ReducedPosition O) (order : O) (withVenueQuantity : Bool) :
    CumulativeReductionResult :=
  reconcileCumulativeReduction s.localQuantity (s.filled order) (s.applied order)
    (if withVenueQuantity then some s.venueQuantity else none)

/-- One event.  A reduce order never fills more than what is open. -/
def reduceStep (s : ReducedPosition O) : ReduceEvent O → Option (ReducedPosition O)
  | .fill order quantity =>
    if 0 < quantity ∧ quantity ≤ s.venueQuantity then
      some { s with
        venueQuantity := s.venueQuantity - quantity
        filled := update s.filled order (s.filled order + quantity)
        observed := update s.observed order false }
    else none
  | .observe order withVenueQuantity =>
    let result := s.observation order withVenueQuantity
    some { s with
      localQuantity := result.nextQuantity
      applied := update s.applied order result.cumulativeApplied
      observed := update s.observed order true }

/-- The local quantity is at least the venue's, and equal to it once every order with a fill was
observed at its final fill. -/
def ExposureTracked (s : ReducedPosition O) : Prop :=
  s.venueQuantity ≤ s.localQuantity ∧
    ((∀ o, s.filled o = 0 ∨ s.observed o = true) → s.localQuantity = s.venueQuantity)

/-- The condition on one event: fills are on the rounding grid, and an observation that carries the
venue quantity of an open position is made when no other order has an unapplied fill. -/
def UnsharedEvidence (s : ReducedPosition O) : ReduceEvent O → Prop
  | .fill _ quantity => OnGrid quantity
  | .observe order withVenueQuantity =>
    withVenueQuantity = true → s.venueQuantity = 0 ∨ ∀ o ≠ order, s.filled o ≤ s.applied o

instance [Fintype O] (s : ReducedPosition O) : ∀ e : ReduceEvent O, Decidable (UnsharedEvidence s e)
  | .fill _ quantity => inferInstanceAs (Decidable (OnGrid quantity))
  | .observe order withVenueQuantity =>
    inferInstanceAs (Decidable (withVenueQuantity = true →
      s.venueQuantity = 0 ∨ ∀ o ≠ order, s.filled o ≤ s.applied o))

/-- Order `true` fills `3` of `10`; order `false`, which has no fill, is observed together with the
venue quantity `7`; then order `true` is observed at its fill. -/
def sharedEvidence : List (ReduceEvent Bool) :=
  [.fill true 3, .observe false true, .observe true false]

/-- What the venue has filled of an order beyond what is applied for it. -/
def ReducedPosition.unapplied (s : ReducedPosition O) (o : O) : ℚ := s.filled o - s.applied o

/-- All quantities of the state are non-negative and on the rounding grid. -/
structure QuantitiesOk (s : ReducedPosition O) : Prop where
  venue_grid : OnGrid s.venueQuantity
  venue_nonneg : 0 ≤ s.venueQuantity
  local_grid : OnGrid s.localQuantity
  local_nonneg : 0 ≤ s.localQuantity
  filled_grid : ∀ o, OnGrid (s.filled o)
  filled_nonneg : ∀ o, 0 ≤ s.filled o
  applied_grid : ∀ o, OnGrid (s.applied o)
  applied_nonneg : ∀ o, 0 ≤ s.applied o

/-- Nothing is applied beyond its fill, and the local quantity exceeds the venue's by exactly what
is still unapplied. -/
structure LedgerExact [Fintype O] (s : ReducedPosition O) : Prop where
  applied_le : ∀ o, s.applied o ≤ s.filled o
  local_eq : s.localQuantity = s.venueQuantity + ∑ o, s.unapplied o
  applied_of_observed : ∀ o, s.observed o = true → s.applied o = s.filled o

/-- The position is closed on the venue and locally. -/
def FullyClosed (s : ReducedPosition O) : Prop := s.venueQuantity = 0 ∧ s.localQuantity = 0

/-- The invariant of the runs without shared evidence. -/
structure ExposureInvariant [Fintype O] (s : ReducedPosition O) : Prop where
  quantities : QuantitiesOk s
  ledger : LedgerExact s ∨ FullyClosed s

lemma sum_update_eq [Fintype O] (f : O → ℚ) (o : O) (x : ℚ) :
    ∑ i, update f o x i = ∑ i, f i + (x - f o) := by
  rw [sum_update_of_mem (mem_univ o), ← add_sum_erase _ f (mem_univ o), sdiff_singleton_eq_erase]
  ring

/-- The reduction that an observation finds evidence for. -/
def ReducedPosition.evidence (s : ReducedPosition O) (o : O) (withVenue : Bool) : ℚ :=
  evidencedReduction s.localQuantity (s.filled o) (s.applied o)
    (if withVenue then some s.venueQuantity else none)

/-- The state after a reduction of `d` is credited to the order `o`. -/
def ReducedPosition.credit (s : ReducedPosition O) (o : O) (d : ℚ) : ReducedPosition O :=
  { s with
    localQuantity := s.localQuantity - d
    applied := update s.applied o (s.applied o + d)
    observed := update s.observed o true }

variable {s : ReducedPosition O}

lemma QuantitiesOk.observe_eq (hs : QuantitiesOk s) (o : O) (withVenue : Bool) :
    reduceStep s (.observe o withVenue) = some (s.credit o (s.evidence o withVenue)) := by
  have hobs : s.observation o withVenue =
      { deltaApplied := s.evidence o withVenue
        cumulativeApplied := s.applied o + s.evidence o withVenue
        nextQuantity := s.localQuantity - s.evidence o withVenue } := by
    refine reconcileCumulativeReduction_of_onGrid hs.local_grid (hs.filled_grid o)
      (hs.applied_grid o) ?_ hs.local_nonneg (hs.filled_nonneg o) (hs.applied_nonneg o) ?_
    all_goals
      intro v hv
      cases withVenue
      · simp at hv
      · obtain rfl : s.venueQuantity = v := by simpa using hv
        first
          | exact hs.venue_grid
          | exact hs.venue_nonneg
  simp [reduceStep, hobs, ReducedPosition.credit]

omit [DecidableEq O] in
lemma QuantitiesOk.evidence_bounds (hs : QuantitiesOk s) (o : O) (withVenue : Bool) :
    OnGrid (s.evidence o withVenue) ∧ 0 ≤ s.evidence o withVenue ∧
      s.evidence o withVenue ≤ s.localQuantity := by
  refine ⟨onGrid_evidencedReduction hs.local_grid (hs.filled_grid o) (hs.applied_grid o) ?_,
    evidencedReduction_nonneg hs.local_nonneg _ _ _, evidencedReduction_le _ _ _ _⟩
  intro v hv
  cases withVenue
  · simp at hv
  · obtain rfl : s.venueQuantity = v := by simpa using hv
    exact hs.venue_grid

lemma QuantitiesOk.credit (hs : QuantitiesOk s) (o : O) (withVenue : Bool) :
    QuantitiesOk (s.credit o (s.evidence o withVenue)) := by
  obtain ⟨hgrid, hnn, hle⟩ := hs.evidence_bounds o withVenue
  refine ⟨hs.venue_grid, hs.venue_nonneg, hs.local_grid.sub hgrid, sub_nonneg.mpr hle,
    hs.filled_grid, hs.filled_nonneg, fun o' => ?_, fun o' => ?_⟩
  · by_cases ho : o' = o
    · simpa [ReducedPosition.credit, ho] using (hs.applied_grid o).add hgrid
    · simpa [ReducedPosition.credit, update_of_ne ho] using hs.applied_grid o'
  · by_cases ho : o' = o
    · simpa [ReducedPosition.credit, ho] using add_nonneg (hs.applied_nonneg o) hnn
    · simpa [ReducedPosition.credit, update_of_ne ho] using hs.applied_nonneg o'

lemma QuantitiesOk.step {t : ReducedPosition O} {e : ReduceEvent O} (hs : QuantitiesOk s)
    (he : UnsharedEvidence s e) (h : reduceStep s e = some t) : QuantitiesOk t := by
  cases e with
  | fill o q =>
    have hq : OnGrid q := he
    simp only [reduceStep] at h
    split at h
    · rename_i hguard
      obtain ⟨hpos, hle⟩ := hguard
      cases h
      refine ⟨hs.venue_grid.sub hq, sub_nonneg.mpr hle, hs.local_grid, hs.local_nonneg,
        fun o' => ?_, fun o' => ?_, hs.applied_grid, hs.applied_nonneg⟩
      · by_cases ho : o' = o
        · simpa [ho] using (hs.filled_grid o).add hq
        · simpa [update_of_ne ho] using hs.filled_grid o'
      · by_cases ho : o' = o
        · simpa [ho] using add_nonneg (hs.filled_nonneg o) hpos.le
        · simpa [update_of_ne ho] using hs.filled_nonneg o'
    · cases h
  | observe o withVenue =>
    rw [hs.observe_eq] at h
    cases h
    exact hs.credit o withVenue

section Ledger

variable [Fintype O] {s t : ReducedPosition O}

section

variable (hl : LedgerExact s)

include hl

omit [DecidableEq O] in
lemma LedgerExact.unapplied_nonneg (o : O) : 0 ≤ s.unapplied o :=
  sub_nonneg.mpr (hl.applied_le o)

omit [DecidableEq O] in
lemma LedgerExact.venue_add_unapplied_le (o : O) :
    s.venueQuantity + s.unapplied o ≤ s.localQuantity := by
  rw [hl.local_eq]
  exact add_le_add_right (Finset.single_le_sum (fun i _ => hl.unapplied_nonneg i) (mem_univ o)) _

omit [DecidableEq O] in
lemma LedgerExact.evidence_of_order (hs : QuantitiesOk s) (o : O) :
    s.evidence o false = s.unapplied o := by
  have hle := hl.venue_add_unapplied_le o
  have hv := hs.venue_nonneg
  have hu := hl.unapplied_nonneg o
  simp only [ReducedPosition.evidence, evidencedReduction, ReducedPosition.unapplied] at *
  simp only [Bool.false_eq_true, if_false, elim_none, max_eq_right hu, max_eq_left hu]
  exact min_eq_right (by linarith)

omit [DecidableEq O] in
lemma LedgerExact.evidence_of_venue (hs : QuantitiesOk s) (o : O) :
    s.evidence o true = s.localQuantity - s.venueQuantity := by
  have hle := hl.venue_add_unapplied_le o
  have hv := hs.venue_nonneg
  have hu := hl.unapplied_nonneg o
  have hmin : min s.localQuantity s.venueQuantity = s.venueQuantity := min_eq_right (by linarith)
  simp only [ReducedPosition.evidence, evidencedReduction, ReducedPosition.unapplied] at *
  simp only [if_true, elim_some, hmin, max_eq_right hu,
    max_eq_right (show 0 ≤ s.localQuantity - s.venueQuantity by linarith),
    max_eq_right (show s.filled o - s.applied o ≤ s.localQuantity - s.venueQuantity by linarith)]
  exact min_eq_right (by linarith)

lemma LedgerExact.credit (o : O) : LedgerExact (s.credit o (s.unapplied o)) := by
  have happl : s.applied o + s.unapplied o = s.filled o := by
    unfold ReducedPosition.unapplied
    ring
  have hunapp : (s.credit o (s.unapplied o)).unapplied = update s.unapplied o 0 := by
    funext o'
    by_cases ho : o' = o
    · simp [ReducedPosition.credit, ReducedPosition.unapplied, ho]
    · simp [ReducedPosition.credit, ReducedPosition.unapplied, update_of_ne ho]
  refine ⟨fun o' => ?_, ?_, fun o' ho' => ?_⟩
  · by_cases ho : o' = o
    · simp [ReducedPosition.credit, ho, happl]
    · simpa [ReducedPosition.credit, update_of_ne ho] using hl.applied_le o'
  · rw [hunapp, sum_update_eq]
    simp only [ReducedPosition.credit, hl.local_eq]
    ring
  · by_cases ho : o' = o
    · simp [ReducedPosition.credit, ho, happl]
    · have := hl.applied_of_observed o' (by
        simpa [ReducedPosition.credit, update_of_ne ho] using ho')
      simpa [ReducedPosition.credit, update_of_ne ho] using this

lemma LedgerExact.fill {o : O} {q : ℚ}
    (h : reduceStep s (.fill o q) = some t) : LedgerExact t := by
  simp only [reduceStep] at h
  split at h
  · cases h
    refine ⟨fun o' => ?_, ?_, fun o' ho' => ?_⟩
    · by_cases ho : o' = o
      · have := hl.applied_le o
        simp only [ho, update_self]
        linarith
      · simpa [update_of_ne ho] using hl.applied_le o'
    · have hunapp : ReducedPosition.unapplied { s with
          venueQuantity := s.venueQuantity - q
          filled := update s.filled o (s.filled o + q)
          observed := update s.observed o false } =
          update s.unapplied o (s.unapplied o + q) := by
        funext o'
        by_cases ho : o' = o
        · simp only [ReducedPosition.unapplied, ho, update_self]
          ring
        · simp [ReducedPosition.unapplied, update_of_ne ho]
      rw [hunapp, sum_update_eq]
      simp only [hl.local_eq]
      ring
    · by_cases ho : o' = o
      · simp [ho] at ho'
      · have := hl.applied_of_observed o' (by simpa [update_of_ne ho] using ho')
        simpa [update_of_ne ho] using this
  · cases h

end

variable {e : ReduceEvent O}

omit [Fintype O] in
/-- A closed position stays closed: there is nothing to fill and nothing to reduce. -/
lemma FullyClosed.step (hc : FullyClosed s) (hs : QuantitiesOk s) (h : reduceStep s e = some t) :
    FullyClosed t := by
  obtain ⟨hvenue, hlocal⟩ := hc
  cases e with
  | fill o q =>
    simp only [reduceStep] at h
    split at h
    · rename_i hguard
      exact absurd (hguard.1.trans_le hguard.2) (by rw [hvenue]; exact lt_irrefl 0)
    · cases h
  | observe o withVenue =>
    rw [hs.observe_eq] at h
    cases h
    obtain ⟨-, hnn, hle⟩ := hs.evidence_bounds o withVenue
    rw [hlocal] at hle
    exact ⟨hvenue, by simp [ReducedPosition.credit, hlocal, le_antisymm hle hnn]⟩

lemma LedgerExact.step (hl : LedgerExact s) (hs : QuantitiesOk s) (he : UnsharedEvidence s e)
    (h : reduceStep s e = some t) : LedgerExact t ∨ FullyClosed t := by
  cases e with
  | fill o q => exact .inl (hl.fill h)
  | observe o withVenue =>
    rw [hs.observe_eq] at h
    cases h
    cases withVenue with
    | false =>
      rw [hl.evidence_of_order hs o]
      exact .inl (hl.credit o)
    | true =>
      rw [hl.evidence_of_venue hs o]
      rcases he rfl with hvenue | hoths
      · exact .inr ⟨hvenue, by simp [ReducedPosition.credit, hvenue]⟩
      · -- only the observed order has an unapplied fill, so the venue's evidence is its own
        have hsum : ∑ o', s.unapplied o' = s.unapplied o := by
          refine sum_eq_single_of_mem o (mem_univ o) fun o' _ ho' => ?_
          exact le_antisymm (sub_nonpos.mpr (hoths o' ho')) (hl.unapplied_nonneg o')
        have hevid : s.localQuantity - s.venueQuantity = s.unapplied o := by
          rw [hl.local_eq, hsum]
          ring
        rw [hevid]
        exact .inl (hl.credit o)

omit [DecidableEq O] in
lemma exposureInvariant_start {quantity : ℚ} (hgrid : OnGrid quantity) (h0 : 0 ≤ quantity) :
    ExposureInvariant (.start quantity : ReducedPosition O) where
  quantities := ⟨hgrid, h0, hgrid, h0, fun _ => onGrid_zero, fun _ => le_rfl,
    fun _ => onGrid_zero, fun _ => le_rfl⟩
  ledger := .inl ⟨fun _ => le_rfl, by simp [ReducedPosition.start, ReducedPosition.unapplied],
    fun _ _ => rfl⟩

lemma exposureInvariant_step (hI : ExposureInvariant s) (he : UnsharedEvidence s e)
    (h : reduceStep s e = some t) : ExposureInvariant t := by
  refine ⟨hI.quantities.step he h, ?_⟩
  rcases hI.ledger with hl | hc
  · exact hl.step hI.quantities he h
  · exact .inr (hc.step hI.quantities h)

omit [DecidableEq O] in
lemma ExposureInvariant.tracked (hI : ExposureInvariant s) : ExposureTracked s := by
  rcases hI.ledger with hl | ⟨hvenue, hlocal⟩
  · refine ⟨?_, fun hseen => ?_⟩
    · rw [hl.local_eq]
      exact le_add_of_nonneg_right (Finset.sum_nonneg fun o _ => hl.unapplied_nonneg o)
    · have hzero : ∀ o ∈ univ, s.unapplied o = 0 := by
        intro o _
        rcases hseen o with h0 | hobs
        · have hle := hl.applied_le o
          have hnn := hI.quantities.applied_nonneg o
          rw [h0] at hle
          simp [ReducedPosition.unapplied, h0, le_antisymm hle hnn]
        · simp [ReducedPosition.unapplied, hl.applied_of_observed o hobs]
      rw [hl.local_eq, Finset.sum_eq_zero hzero, add_zero]
  · exact ⟨by rw [hvenue, hlocal], fun _ => by rw [hvenue, hlocal]⟩

lemma ExposureInvariant.underTracked_of_shared (hI : ExposureInvariant s) {o : O}
    (hshar : ¬ UnsharedEvidence s (.observe o true)) :
    ∃ o' u, run reduceStep s [.observe o true, .observe o' false] = some u ∧
      u.localQuantity < u.venueQuantity := by
  simp only [UnsharedEvidence, true_imp_iff, not_or, not_forall] at hshar
  obtain ⟨hvenue, o', hne, hlt⟩ := hshar
  have hs := hI.quantities
  have hpos : 0 < s.venueQuantity := lt_of_le_of_ne hs.venue_nonneg (Ne.symm hvenue)
  have hl : LedgerExact s := hI.ledger.resolve_right fun hc => hvenue hc.1
  let r := s.credit o (s.evidence o true)
  have hr : QuantitiesOk r := hs.credit o true
  have hlocal : r.localQuantity = s.venueQuantity := by
    simp [r, ReducedPosition.credit, hl.evidence_of_venue hs o]
  have hunapp : 0 < r.filled o' - r.applied o' := by
    simpa [r, ReducedPosition.credit, update_of_ne hne] using hlt
  refine ⟨o', r.credit o' (r.evidence o' false), ?_, ?_⟩
  · rw [run_cons, hs.observe_eq]
    exact hr.observe_eq o' false
  · -- the fill of `o'` was already taken with the venue quantity, and is taken again
    have hevid : 0 < r.evidence o' false :=
      lt_min (hlocal ▸ hpos) (lt_max_of_lt_left (lt_max_of_lt_right hunapp))
    have hcred : (r.credit o' (r.evidence o' false)).localQuantity =
        s.venueQuantity - r.evidence o' false := by
      simp [ReducedPosition.credit, hlocal]
    rw [hcred]
    exact sub_lt_self _ hevid

end Ledger

/-- Two orders fill in turns, each observed before the venue quantity is used for the other. -/
def alternatingOrders : List (ReduceEvent Bool) :=
  [.fill true 3, .observe true true, .fill false 2, .observe true false, .observe false true]

end CtsEngine
