import CtsEngine.Dca.Profile
import CtsEngine.Transition.Runs
import Mathlib.Data.List.Sort

/-!
# The steps of a DCA run

`lib/dca-strategy.ts`: `resolveNextDcaStep` offers the first step that no leg has completed once the
price has moved far enough against the position, `calculateDcaAddQuantity` sizes it under the
position ceiling, and `upsertDcaLeg` records what was filled.  The list of legs is the only memory
of the completed steps.  It holds at most four legs, the ones of the highest steps, while a step can
have several legs, one for every Set key under which it was tried.
-/

namespace CtsEngine

open Option List Transition

/-! ## The functions of the strategy -/

/-- A recorded leg, as far as the strategy reads it. -/
structure DcaLegState where
  setKey : String
  step : ℕ
  quantity : ℚ
  targetSatisfied : Option Bool
  filledAt : Option ℚ

/-- A leg that completes its step. -/
def DcaLegState.completes (leg : DcaLegState) : Bool :=
  0 < leg.quantity && leg.targetSatisfied ≠ some false

def adverseMovePct (direction : Direction) (referencePrice currentPrice : ℚ) : ℚ :=
  if referencePrice ≤ 0 then 0
  else if currentPrice ≤ 0 then 0
  else
    let move := if direction = .short then (currentPrice - referencePrice) / referencePrice
      else (referencePrice - currentPrice) / referencePrice
    max 0 (move * 100)

/-- What `resolveNextDcaStep` offers. -/
structure DcaOffer where
  step : ℕ
  volumeMultiplier : ℚ
  triggerDistancePct : ℚ
  adverseMovePct : ℚ

/-- `new Set` of the completed steps. -/
def completedSteps (legs : List DcaLegState) : List ℕ :=
  (legs.filter DcaLegState.completes).map DcaLegState.step

/-- The time of the last fill. -/
def lastFilledAt (legs : List DcaLegState) : ℚ :=
  legs.foldl (fun latest leg => max latest (leg.filledAt.getD 0)) 0

def resolveNextDcaStep (direction : Direction) (referencePrice currentPrice : ℚ)
    (profile : DcaProfile) (legs : List DcaLegState) (pendingStep : Option ℚ) (now : ℚ) :
    Option DcaOffer :=
  if 0 < pendingStep.getD 0 then none
  else if 0 < lastFilledAt legs ∧ now - lastFilledAt legs < profile.cooldownSeconds * 1000 then none
  else
    let adverse := adverseMovePct direction referencePrice currentPrice
    match (range' 1 profile.maxSteps).find? fun step =>
        !(completedSteps legs).contains step with
    | none => none
    | some step =>
      let triggerDistancePct := profile.stepDistancesPct.getD (step - 1) 0
      if adverse + 1 / 10 ^ 12 < triggerDistancePct then none
      else some ⟨step, profile.stepVolumeMultipliers.getD (step - 1) 0, triggerDistancePct, adverse⟩

def calculateDcaAddQuantity (baseQuantity volumeMultiplier currentPositionQuantity
    maxPositionVolumeRatio : ℚ) : ℚ :=
  if baseQuantity ≤ 0 then 0
  else if volumeMultiplier ≤ 0 then 0
  else
    let requested := baseQuantity * volumeMultiplier
    let boundedMaxRatio := finiteInRange (.number (.finite maxPositionVolumeRatio))
      maxDcaPositionVolumeRatio minDcaPositionVolumeRatio maxDcaPositionVolumeRatio
    let current := if 0 < currentPositionQuantity then currentPositionQuantity else baseQuantity
    let remaining := max 0 (baseQuantity * boundedMaxRatio - current)
    max 0 (min requested remaining)

/-- `{ ...leg, ...next }`: the properties that `next` has replace those of `leg`. -/
def DcaLegState.spread (leg next : DcaLegState) : DcaLegState :=
  { next with
    targetSatisfied := next.targetSatisfied <|> leg.targetSatisfied
    filledAt := next.filledAt <|> leg.filledAt }

/-- Replace the first leg of the same step and Set key, or append. -/
def putDcaLeg : List DcaLegState → DcaLegState → List DcaLegState
  | [], next => [next]
  | leg :: legs, next =>
    if leg.step = next.step ∧ leg.setKey = next.setKey then leg.spread next :: legs
    else leg :: putDcaLeg legs next

/-- The legs with the new one in the order of their steps, before the list is cut. -/
def sortedDcaLegs (legs : List DcaLegState) (next : DcaLegState) : List DcaLegState :=
  (putDcaLeg legs next).insertionSort fun a b => a.step ≤ b.step

/-- `upsertDcaLeg`: the last four legs are kept. -/
def upsertDcaLeg (legs : List DcaLegState) (next : DcaLegState) : List DcaLegState :=
  let out := sortedDcaLegs legs next
  out.drop (out.length - 4)

/-! ## Runs -/

/-- A position under DCA. -/
structure DcaRun where
  legs : List DcaLegState
  quantity : ℚ
  /-- History variable: the steps that were once completed. -/
  completed : List ℕ

/-- One look at the price, and what comes of the step that it may offer. -/
structure DcaObservation where
  price : ℚ
  now : ℚ
  setKey : String
  multiplier : ℚ
  fill : ℚ
  reached : Bool

section Run

variable (direction : Direction) (referencePrice baseQuantity : ℚ) (profile : DcaProfile)

def DcaRun.offer (s : DcaRun) (price now : ℚ) : Option DcaOffer :=
  resolveNextDcaStep direction referencePrice price profile s.legs none now

/-- The leg that is recorded for an offered step: the fill on top of what the step already has. -/
def DcaRun.leg (s : DcaRun) (step : ℕ) (o : DcaObservation) : DcaLegState where
  setKey := o.setKey
  step := step
  quantity := ((s.legs.find? fun leg => leg.step = step).map DcaLegState.quantity).getD 0 + o.fill
  targetSatisfied := some o.reached
  filledAt := some o.now

/-- The position after an observation; a fill beyond the request is not possible. -/
def dcaObserve (s : DcaRun) (o : DcaObservation) : Option DcaRun :=
  match s.offer direction referencePrice profile o.price o.now with
  | none => some s
  | some offer =>
    let requested := calculateDcaAddQuantity baseQuantity o.multiplier s.quantity
      profile.maxPositionVolumeRatio
    let leg := s.leg offer.step o
    if 0 ≤ o.fill ∧ o.fill ≤ requested then
      some { legs := upsertDcaLeg s.legs leg
             quantity := s.quantity + o.fill
             completed := if leg.completes then offer.step :: s.completed else s.completed }
    else none

/-- The first fill, without DCA legs. -/
def DcaRun.start : DcaRun := ⟨[], baseQuantity, []⟩

/-- The record of an offered step cuts off no leg that is the last record of a completed step. -/
def CutsNoRecord (s : DcaRun) (o : DcaObservation) : Prop :=
  ∀ offer ∈ s.offer direction referencePrice profile o.price o.now,
    let requested := calculateDcaAddQuantity baseQuantity o.multiplier s.quantity
      profile.maxPositionVolumeRatio
    let out := sortedDcaLegs s.legs (s.leg offer.step o)
    0 ≤ o.fill → o.fill ≤ requested → ∀ leg ∈ out.take (out.length - 4), leg.completes = true →
        ∃ kept ∈ out.drop (out.length - 4), kept.step = leg.step ∧ kept.completes = true

end Run

variable {legs : List DcaLegState}

lemma mem_completedSteps {step : ℕ} :
    step ∈ completedSteps legs ↔ ∃ leg ∈ legs, leg.completes = true ∧ leg.step = step := by
  simp [completedSteps, and_assoc]

lemma resolveNextDcaStep_eq_some {direction : Direction} {referencePrice price now : ℚ}
    {profile : DcaProfile} {pendingStep : Option ℚ} {offer : DcaOffer}
    (h : resolveNextDcaStep direction referencePrice price profile legs pendingStep now =
      some offer) :
    offer.step ∉ completedSteps legs ∧ 1 ≤ offer.step ∧ offer.step ≤ profile.maxSteps ∧
      (∀ step, 1 ≤ step → step < offer.step → step ∈ completedSteps legs) ∧
      profile.stepDistancesPct.getD (offer.step - 1) 0 ≤
        adverseMovePct direction referencePrice price + 1 / 10 ^ 12 := by
  unfold resolveNextDcaStep at h
  split at h
  · cases h
  · split at h
    · cases h
    · dsimp only at h
      split at h
      · cases h
      · rename_i step hfind
        split at h
        · cases h
        · rename_i hreach
          obtain rfl := (some.inj h)
          obtain ⟨hfree, hrange, hbef⟩ := find?_range'_eq_some.mp hfind
          rw [mem_range'_1] at hrange
          have hmax : step ≤ profile.maxSteps := by omega
          refine ⟨by simpa using hfree, hrange.1, hmax, fun k hk hlt => ?_, not_lt.mp hreach⟩
          simpa using hbef k hk hlt

/-- While a step is free, some price is offered one. -/
lemma exists_offer (direction : Direction) {referencePrice : ℚ} (href : 0 < referencePrice)
    {profile : DcaProfile} (hdist : ∀ index < profile.maxSteps,
      profile.stepDistancesPct.getD index 0 ≤ 20) {step : ℕ} (hone : 1 ≤ step)
    (hmax : step ≤ profile.maxSteps) (hfree : step ∉ completedSteps legs) :
    ∃ price now offer, resolveNextDcaStep direction referencePrice price profile legs none now =
      some offer ∧ offer.step ≤ step := by
  obtain ⟨price, hpr⟩ : ∃ price, adverseMovePct direction referencePrice price = 20 := by
    cases direction with
    | long =>
      refine ⟨referencePrice * (4 / 5), ?_⟩
      have hpos : 0 < referencePrice * (4 / 5) := by linarith
      have hmove : (referencePrice - referencePrice * (4 / 5)) / referencePrice * 100 = 20 := by
        field_simp
        norm_num
      simp [adverseMovePct, href.not_ge, hpos.not_ge, hmove]
    | short =>
      refine ⟨referencePrice * (6 / 5), ?_⟩
      have hpos : 0 < referencePrice * (6 / 5) := by linarith
      have hmove : (referencePrice * (6 / 5) - referencePrice) / referencePrice * 100 = 20 := by
        field_simp
        norm_num
      simp [adverseMovePct, href.not_ge, hpos.not_ge, hmove]
  obtain ⟨first, hfind, hle⟩ : ∃ first, (range' 1 profile.maxSteps).find?
      (fun step => !(completedSteps legs).contains step) = some first ∧ first ≤ step := by
    rcases hfind : (range' 1 profile.maxSteps).find?
        (fun step => !(completedSteps legs).contains step) with _ | first
    · have hnone := find?_range'_eq_none.mp hfind step hone (by omega)
      simp [hfree] at hnone
    · refine ⟨first, rfl, ?_⟩
      by_contra hlt
      have hbef := (find?_range'_eq_some.mp hfind).2.2 step hone (by omega)
      simp [hfree] at hbef
  have htrig := hdist (first - 1) (by omega)
  refine ⟨price, lastFilledAt legs + profile.cooldownSeconds * 1000,
    ⟨first, profile.stepVolumeMultipliers.getD (first - 1) 0,
      profile.stepDistancesPct.getD (first - 1) 0, 20⟩, ?_, hle⟩
  have hcool : ¬ (0 < lastFilledAt legs ∧
      lastFilledAt legs + profile.cooldownSeconds * 1000 - lastFilledAt legs <
        profile.cooldownSeconds * 1000) := by
    rintro ⟨-, hlt⟩
    linarith
  have hreach : ¬ 20 + 1 / 10 ^ 12 < profile.stepDistancesPct.getD (first - 1) 0 := by
    linarith
  unfold resolveNextDcaStep
  rw [if_neg (by simp), if_neg hcool]
  rw [hfind, hpr]
  dsimp only
  rw [if_neg hreach]

lemma DcaLegState.spread_eq {leg next : DcaLegState} (htgt : next.targetSatisfied.isSome)
    (hfill : next.filledAt.isSome) : leg.spread next = next := by
  obtain ⟨satisfied, hsatis⟩ := isSome_iff_exists.mp htgt
  obtain ⟨time, htime⟩ := isSome_iff_exists.mp hfill
  cases next
  simp_all [DcaLegState.spread]

section Put

variable {legs : List DcaLegState} {next : DcaLegState}

variable (legs) in
lemma mem_putDcaLeg (hsprea : ∀ leg : DcaLegState, leg.spread next = next) :
    next ∈ putDcaLeg legs next ∧ (∀ leg ∈ putDcaLeg legs next, leg = next ∨ leg ∈ legs) ∧
      ∀ leg ∈ legs, leg.step ≠ next.step → leg ∈ putDcaLeg legs next := by
  induction legs with
  | nil => simp [putDcaLeg]
  | cons first legs ih =>
    obtain ⟨hnext, hold, hkept⟩ := ih
    unfold putDcaLeg
    split
    · rename_i hsame
      rw [hsprea first]
      refine ⟨mem_cons_self .., fun leg hleg => ?_, fun leg hleg hne => ?_⟩
      · rcases mem_cons.mp hleg with rfl | hmem
        · exact .inl rfl
        · exact .inr (mem_cons_of_mem _ hmem)
      · rcases mem_cons.mp hleg with rfl | hmem
        · exact absurd hsame.1 hne
        · exact mem_cons_of_mem _ hmem
    · refine ⟨mem_cons_of_mem _ hnext, fun leg hleg => ?_, fun leg hleg hne => ?_⟩
      · rcases mem_cons.mp hleg with rfl | hmem
        · exact .inr (mem_cons_self ..)
        · exact (hold leg hmem).imp_right (mem_cons_of_mem _)
      · rcases mem_cons.mp hleg with rfl | hmem
        · exact mem_cons_self ..
        · exact mem_cons_of_mem _ (hkept leg hmem hne)

lemma mem_completedSteps_sorted (hsprea : ∀ leg : DcaLegState, leg.spread next = next)
    (hfree : next.step ∉ completedSteps legs) {step : ℕ} :
    step ∈ completedSteps (sortedDcaLegs legs next) ↔
      (next.completes = true ∧ step = next.step) ∨ step ∈ completedSteps legs := by
  obtain ⟨hnext, hold, hkept⟩ := mem_putDcaLeg legs hsprea
  simp only [mem_completedSteps, sortedDcaLegs, mem_insertionSort]
  constructor
  · rintro ⟨leg, hleg, hcomp, rfl⟩
    rcases hold leg hleg with rfl | hmem
    · exact .inl ⟨hcomp, rfl⟩
    · exact .inr ⟨leg, hmem, hcomp, rfl⟩
  · rintro (⟨hcomp, rfl⟩ | ⟨leg, hleg, hcomp, rfl⟩)
    · exact ⟨next, hnext, hcomp, rfl⟩
    · have hne : leg.step ≠ next.step := by
        intro heq
        exact hfree (mem_completedSteps.mpr ⟨leg, hleg, hcomp, heq⟩)
      exact ⟨leg, hkept leg hleg hne, hcomp, rfl⟩

/-- Cutting a list keeps a step if and only if a kept leg completes it. -/
lemma completedSteps_drop_subset (out : List DcaLegState) (n : ℕ) {step : ℕ}
    (h : step ∈ completedSteps (out.drop n)) : step ∈ completedSteps out := by
  rw [mem_completedSteps] at h ⊢
  obtain ⟨leg, hleg, hcomp⟩ := h
  exact ⟨leg, mem_of_mem_drop hleg, hcomp⟩

/-- A cut loses no completed step if and only if it cuts off no leg that is the last record of
one. -/
lemma completedSteps_subset_drop_iff (out : List DcaLegState) (n : ℕ) :
    (∀ step ∈ completedSteps out, step ∈ completedSteps (out.drop n)) ↔
      ∀ leg ∈ out.take n, leg.completes = true →
        ∃ kept ∈ out.drop n, kept.step = leg.step ∧ kept.completes = true := by
  constructor
  · intro h leg hleg hcomp
    obtain ⟨kept, hkept, hdone, hstep⟩ := mem_completedSteps.mp
      (h leg.step (mem_completedSteps.mpr ⟨leg, mem_of_mem_take hleg, hcomp, rfl⟩))
    exact ⟨kept, hkept, hstep, hdone⟩
  · intro h step hstep
    obtain ⟨leg, hleg, hcomp, rfl⟩ := mem_completedSteps.mp hstep
    rw [← take_append_drop n out, mem_append] at hleg
    rcases hleg with htake | hdrop
    · obtain ⟨kept, hkept, hsame, hdone⟩ := h leg htake hcomp
      exact mem_completedSteps.mpr ⟨kept, hkept, hdone, hsame⟩
    · exact mem_completedSteps.mpr ⟨leg, hdrop, hcomp, rfl⟩

end Put

/-! ## The invariant of a run -/

section Invariant

variable {direction : Direction} {referencePrice baseQuantity : ℚ} {profile : DcaProfile}

/-- What every run keeps: the legs complete only steps that were once completed, these are the first
ones up to some step, and the position is under its ceiling. -/
structure DcaInvariant (referencePrice baseQuantity : ℚ) (profile : DcaProfile) (s : DcaRun) :
    Prop where
  recorded : ∀ step ∈ completedSteps s.legs, step ∈ s.completed
  downward : ∀ step ∈ s.completed, ∀ k, 1 ≤ k → k < step → k ∈ s.completed
  range : ∀ step ∈ s.completed, 1 ≤ step ∧ step ≤ profile.maxSteps
  reference_pos : s.completed ≠ [] → 0 < referencePrice
  base_le : baseQuantity ≤ s.quantity
  le_ceiling : s.quantity ≤ baseQuantity * profile.maxPositionVolumeRatio

/-- Every step that was once completed is completed by a leg. -/
def DcaRun.Remembers (s : DcaRun) : Prop := ∀ step ∈ s.completed, step ∈ completedSteps s.legs

/-- No step that was once completed is offered, at whatever price and time. -/
def DcaRun.NeverReoffers (direction : Direction) (referencePrice : ℚ) (profile : DcaProfile)
    (s : DcaRun) : Prop :=
  ∀ price now, ∀ offer ∈ s.offer direction referencePrice profile price now,
    offer.step ∉ s.completed

variable {o : DcaObservation} {s t : DcaRun}

lemma dcaObserve_cases (h : dcaObserve direction referencePrice baseQuantity profile s o = some t) :
    (s.offer direction referencePrice profile o.price o.now = none ∧ t = s) ∨
      ∃ offer, s.offer direction referencePrice profile o.price o.now = some offer ∧
        0 ≤ o.fill ∧ o.fill ≤ calculateDcaAddQuantity baseQuantity o.multiplier s.quantity
          profile.maxPositionVolumeRatio ∧
        t = { legs := upsertDcaLeg s.legs (s.leg offer.step o)
              quantity := s.quantity + o.fill
              completed := if (s.leg offer.step o).completes then offer.step :: s.completed
                else s.completed } := by
  unfold dcaObserve at h
  split at h
  · rename_i hnone
    exact .inl ⟨hnone, (some.inj h).symm⟩
  · rename_i offer hoffer
    obtain ⟨hfill, ht⟩ := ite_none_right_eq_some.mp h
    exact .inr ⟨offer, hoffer, hfill.1, hfill.2, (some.inj ht).symm⟩

lemma DcaRun.leg_spread (s : DcaRun) (step : ℕ) (o : DcaObservation) (leg : DcaLegState) :
    leg.spread (s.leg step o) = s.leg step o :=
  DcaLegState.spread_eq rfl rfl

lemma mem_completedSteps_record {offer : DcaOffer}
    (hoffer : s.offer direction referencePrice profile o.price o.now = some offer) {step : ℕ} :
    step ∈ completedSteps (sortedDcaLegs s.legs (s.leg offer.step o)) ↔
      ((s.leg offer.step o).completes = true ∧ step = offer.step) ∨ step ∈ completedSteps s.legs :=
  mem_completedSteps_sorted (s.leg_spread offer.step o) (resolveNextDcaStep_eq_some hoffer).1

section

variable (hprof : profile.InRange) (hbase : 0 < baseQuantity)

include hprof hbase

lemma add_fill_le_ceiling {quantity multiplier fill : ℚ} (hqty : baseQuantity ≤ quantity)
    (hceil : quantity ≤ baseQuantity * profile.maxPositionVolumeRatio)
    (hfill : fill ≤ calculateDcaAddQuantity baseQuantity multiplier quantity
      profile.maxPositionVolumeRatio) :
    quantity + fill ≤ baseQuantity * profile.maxPositionVolumeRatio := by
  have hadd : calculateDcaAddQuantity baseQuantity multiplier quantity
      profile.maxPositionVolumeRatio ≤
        baseQuantity * profile.maxPositionVolumeRatio - quantity := by
    have hroom : 0 ≤ baseQuantity * profile.maxPositionVolumeRatio - quantity := by linarith
    unfold calculateDcaAddQuantity
    rw [if_neg hbase.not_ge]
    split
    · exact hroom
    · dsimp only
      rw [finiteInRange_of_mem hprof.ratio.1 hprof.ratio.2,
        if_pos (lt_of_lt_of_le hbase hqty), max_eq_right hroom]
      exact max_le hroom (min_le_right ..)
  linarith

lemma dcaInvariant_step (hs : DcaInvariant referencePrice baseQuantity profile s)
    (h : dcaObserve direction referencePrice baseQuantity profile s o = some t) :
    DcaInvariant referencePrice baseQuantity profile t := by
  rcases dcaObserve_cases h with ⟨-, rfl⟩ | ⟨offer, hoffer, hnn, hfill, rfl⟩
  · exact hs
  obtain ⟨hfree, hone, hmax, hbef, htrig⟩ := resolveNextDcaStep_eq_some hoffer
  have hmem : ∀ step, step ∈ (if (s.leg offer.step o).completes then offer.step :: s.completed
      else s.completed) ↔ ((s.leg offer.step o).completes = true ∧ step = offer.step) ∨
        step ∈ s.completed := by
    split <;> simp_all
  refine ⟨?_, ?_, ?_, fun _ => ?_, by linarith [hs.base_le], ?_⟩
  · intro step hstep
    rw [hmem]
    exact ((mem_completedSteps_record hoffer).mp (completedSteps_drop_subset _ _ hstep)).imp_right
      (hs.recorded step)
  · intro step hstep k hk hlt
    rw [hmem] at hstep ⊢
    right
    rcases hstep with ⟨-, rfl⟩ | hold
    · exact hs.recorded k (hbef k hk hlt)
    · exact hs.downward step hold k hk hlt
  · intro step hstep
    rcases (hmem step).mp hstep with ⟨-, rfl⟩ | hold
    · exact ⟨hone, hmax⟩
    · exact hs.range step hold
  · -- without a reference price no step is reached
    by_contra href
    have hzero : adverseMovePct direction referencePrice o.price = 0 := by
      rw [adverseMovePct, if_pos (not_lt.mp href)]
    have hlow := (hprof.distance (offer.step - 1) (by have := hprof.maxSteps_le; omega)).1
    linarith
  · exact add_fill_le_ceiling hprof hbase hs.base_le hs.le_ceiling hfill

lemma dcaInvariant_start :
    DcaInvariant referencePrice baseQuantity profile (DcaRun.start baseQuantity) where
  recorded := by simp [DcaRun.start, completedSteps]
  downward := by simp [DcaRun.start]
  range := by simp [DcaRun.start]
  reference_pos := fun h => absurd rfl h
  base_le := le_rfl
  le_ceiling := by
    have hratio : 1 ≤ profile.maxPositionVolumeRatio := le_trans (by decide +kernel) hprof.ratio.1
    exact le_mul_of_one_le_right hbase.le hratio

end

/-- **Memory.** The steps once completed are never offered again if and only if the legs remember
them. -/
lemma DcaInvariant.remembers_iff (hprof : profile.InRange)
    (hs : DcaInvariant referencePrice baseQuantity profile s) :
    s.NeverReoffers direction referencePrice profile ↔ s.Remembers := by
  constructor
  · intro hnever step hstep
    by_contra hfree
    obtain ⟨hone, hmax⟩ := hs.range step hstep
    have href := hs.reference_pos (ne_nil_of_mem hstep)
    have hdist : ∀ index < profile.maxSteps,
        profile.stepDistancesPct.getD index 0 ≤ 20 := fun index hidx =>
      (hprof.distance index (lt_of_lt_of_le hidx hprof.maxSteps_le)).2
    obtain ⟨price, now, offer, hoffer, hle⟩ := exists_offer direction href hdist hone hmax hfree
    have hfst := (resolveNextDcaStep_eq_some hoffer).2.1
    apply hnever price now offer hoffer
    rcases hle.lt_or_eq with hlt | heq
    · exact hs.downward step hstep offer.step hfst hlt
    · rwa [heq]
  · intro hremem price now offer hoffer hstep
    exact (resolveNextDcaStep_eq_some hoffer).1 (hremem offer.step hstep)

/-- **One step.** An observation of a position that remembers keeps it so if and only if it cuts
off no last record. -/
lemma cutsNoRecord_iff (hs : s.Remembers)
    (hrecd : ∀ step ∈ completedSteps s.legs, step ∈ s.completed) :
    CutsNoRecord direction referencePrice baseQuantity profile s o ↔
      ∀ t, dcaObserve direction referencePrice baseQuantity profile s o = some t →
        t.Remembers := by
  constructor
  · intro hcut t h
    rcases dcaObserve_cases h with ⟨-, rfl⟩ | ⟨offer, hoffer, hnn, hfill, rfl⟩
    · exact hs
    · have hkept := (completedSteps_subset_drop_iff _ _).mpr (hcut offer hoffer hnn hfill)
      intro step hstep
      apply hkept
      rw [mem_completedSteps_record hoffer]
      split at hstep
      · rename_i hcomp
        rcases mem_cons.mp hstep with rfl | hold
        · exact .inl ⟨hcomp, rfl⟩
        · exact .inr (hs step hold)
      · exact .inr (hs step hstep)
  · intro hall offer hoffer requested out hnn hfill
    have hobser : dcaObserve direction referencePrice baseQuantity profile s o = some
        { legs := upsertDcaLeg s.legs (s.leg offer.step o)
          quantity := s.quantity + o.fill
          completed := if (s.leg offer.step o).completes then offer.step :: s.completed
            else s.completed } := by
      unfold dcaObserve
      rw [mem_def.mp hoffer]
      exact if_pos ⟨hnn, hfill⟩
    have hremem := hall _ hobser
    apply (completedSteps_subset_drop_iff _ _).mp
    intro step hstep
    apply hremem
    rcases (mem_completedSteps_record hoffer).mp hstep with ⟨hcomp, rfl⟩ | hold
    · rw [if_pos hcomp]
      exact mem_cons_self ..
    · have hmem := hrecd step hold
      split
      · exact mem_cons_of_mem _ hmem
      · exact hmem

end Invariant

/-- **A DCA run.**  No step that was once completed is offered again, and the position stays under
its ceiling, in every state of a run, if and only if no record of the run cuts off the last record
of a completed step. -/
theorem dcaRun_stepsOnce_iff (parseJson : JsonArrays) (raw : Option SettingsObject)
    (direction : Direction) (referencePrice baseQuantity : ℚ) (hbase : 0 < baseQuantity)
    (observations : List DcaObservation) :
    let profile := normalizeDcaProfile parseJson raw
    (∀ seen t, seen <+: observations →
      run (dcaObserve direction referencePrice baseQuantity profile)
        (DcaRun.start baseQuantity) seen = some t →
      t.NeverReoffers direction referencePrice profile ∧
        t.quantity ≤ baseQuantity * profile.maxPositionVolumeRatio) ↔
    Meets (dcaObserve direction referencePrice baseQuantity profile)
      (CutsNoRecord direction referencePrice baseQuantity profile)
      (DcaRun.start baseQuantity) observations := by
  intro profile
  have hprofile : profile.InRange := normalizeDcaProfile_inRange parseJson raw
  have hstart : DcaInvariant referencePrice baseQuantity profile (DcaRun.start baseQuantity) :=
    dcaInvariant_start hprofile hbase
  have hinvariant : ∀ seen t, run (dcaObserve direction referencePrice baseQuantity profile)
      (DcaRun.start baseQuantity) seen = some t →
        DcaInvariant referencePrice baseQuantity profile t := by
    intro seen t ht
    exact invariant_of_step (fun _ _ _ hs h => dcaInvariant_step hprofile hbase hs h) hstart ht
  have hexact : Meets (dcaObserve direction referencePrice baseQuantity profile)
      (CutsNoRecord direction referencePrice baseQuantity profile) (DcaRun.start baseQuantity)
      observations ↔ ∀ seen t, seen <+: observations →
        run (dcaObserve direction referencePrice baseQuantity profile) (DcaRun.start baseQuantity)
          seen = some t → DcaInvariant referencePrice baseQuantity profile t ∧ t.Remembers :=
    meets_iff_invariant (by
      rintro s o ⟨hs, hremembers⟩
      rw [cutsNoRecord_iff hremembers hs.recorded]
      refine forall_congr' fun t => ⟨fun h hstep => ⟨?_, h hstep⟩, fun h hstep => (h hstep).2⟩
      exact dcaInvariant_step hprofile hbase hs hstep)
    observations ⟨hstart, by simp [DcaRun.Remembers, DcaRun.start]⟩
  rw [hexact]
  refine forall_congr' fun seen => forall_congr' fun t => forall_congr' fun _ =>
    forall_congr' fun ht => ?_
  have ht' := hinvariant seen t ht
  rw [ht'.remembers_iff hprofile]
  exact ⟨fun h => ⟨ht', h.1⟩, fun h => ⟨h.2, ht'.le_ceiling⟩⟩

instance (direction : Direction) (referencePrice baseQuantity : ℚ) (profile : DcaProfile)
    (s : DcaRun) (o : DcaObservation) :
    Decidable (CutsNoRecord direction referencePrice baseQuantity profile s o) :=
  inferInstanceAs (Decidable (∀ offer ∈ s.offer direction referencePrice profile o.price o.now,
    0 ≤ o.fill → o.fill ≤ calculateDcaAddQuantity baseQuantity o.multiplier s.quantity
      profile.maxPositionVolumeRatio →
    ∀ leg ∈ (sortedDcaLegs s.legs (s.leg offer.step o)).take
        ((sortedDcaLegs s.legs (s.leg offer.step o)).length - 4), leg.completes = true →
      ∃ kept ∈ (sortedDcaLegs s.legs (s.leg offer.step o)).drop
        ((sortedDcaLegs s.legs (s.leg offer.step o)).length - 4),
        kept.step = leg.step ∧ kept.completes = true))

/-- The first two steps of a long position from 100, filled as requested under one Set key. -/
def twoSteps : List DcaObservation :=
  [⟨995 / 10, 100000, "s", 1, 1, true⟩, ⟨99, 200000, "s", 1, 1, true⟩]

theorem dcaRun_stepsOnce_iff_twoSteps :
    ∃ t, run (dcaObserve .long 100 1 (normalizeDcaProfile (fun _ => none) none))
        (DcaRun.start 1) twoSteps = some t ∧
      t.NeverReoffers .long 100 (normalizeDcaProfile (fun _ => none) none) ∧
      t.quantity ≤ 1 * (normalizeDcaProfile (fun _ => none) none).maxPositionVolumeRatio := by
  have hdefined : (run (dcaObserve .long 100 1 (normalizeDcaProfile (fun _ => none) none))
      (DcaRun.start 1) twoSteps).isSome = true := by decide +kernel
  obtain ⟨t, ht⟩ := isSome_iff_exists.mp hdefined
  have hall := (dcaRun_stepsOnce_iff (fun _ => none) none .long 100 1 (by norm_num) twoSteps).mpr
    (by decide +kernel)
  exact ⟨t, ht, hall twoSteps t prefix_rfl ht⟩

/-- The first step is filled, the second one in quarters, each of them under another Set key. -/
def quarteredStep : List DcaObservation :=
  [⟨995 / 10, 100000, "s", 1, 1, true⟩, ⟨99, 200000, "a", 1, 1 / 4, false⟩,
    ⟨99, 300000, "b", 1, 1 / 4, false⟩, ⟨99, 400000, "c", 1, 1 / 4, false⟩,
    ⟨99, 500000, "d", 1, 1 / 4, false⟩]

/-- The fourth quarter cuts off the leg of the first step, which is then offered again. -/
theorem dcaRun_reoffers :
    ∃ t offer, run (dcaObserve .long 100 1 (normalizeDcaProfile (fun _ => none) none))
        (DcaRun.start 1) quarteredStep = some t ∧
      t.offer .long 100 (normalizeDcaProfile (fun _ => none) none) 99 600000 = some offer ∧
      offer.step ∈ t.completed := by
  obtain ⟨t, ht, hoffer⟩ : ∃ t, run (dcaObserve .long 100 1
      (normalizeDcaProfile (fun _ => none) none)) (DcaRun.start 1) quarteredStep = some t ∧
      ((t.offer .long 100 (normalizeDcaProfile (fun _ => none) none) 99 600000).map DcaOffer.step,
        t.completed) = (some 1, [1]) := by
    decide +kernel
  obtain ⟨hstep, hcompleted⟩ := Prod.mk.inj hoffer
  obtain ⟨offer, hoffer, hone⟩ := map_eq_some_iff.mp hstep
  refine ⟨t, offer, ht, hoffer, ?_⟩
  rw [hone, hcompleted]
  exact mem_singleton.mpr rfl

end CtsEngine
