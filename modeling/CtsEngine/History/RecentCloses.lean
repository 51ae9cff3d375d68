import CtsEngine.Foundation.DecimalPlaces
import CtsEngine.Foundation.PositionNotional
import CtsEngine.History.PosHistory
import CtsEngine.TradeHistory.StoredPosition

/-!
# The last closed positions

`aggregateLastXClosedPositions` of `lib/trade-engine/closed-position-aggregation.ts`.  It takes the
first closed positions of a list, adds up their results in multiples of the position cost, and
writes each result, rounded to six decimals, into the position, where the next aggregation finds it.
 The positions are objects: `Facts` says what each of them holds, and a list may name one twice.
-/

namespace CtsEngine.RecentCloses

open Option List Function

/-! ## Closed positions -/

/-- `ClosedPositionLike`, as far as it is read, with the market of the position. -/
structure ClosedPositionLike where
  direction : Option String := none
  side : Option String := none
  entryPrice : StoredValue := .missing
  entry_price : StoredValue := .missing
  averageExecutionPrice : StoredValue := .missing
  closePrice : StoredValue := .missing
  exitPrice : StoredValue := .missing
  lastPrice : StoredValue := .missing
  markPrice : StoredValue := .missing
  current_price : StoredValue := .missing
  realizedPnL : StoredValue := .missing
  realized_pnl : StoredValue := .missing
  pnl : StoredValue := .missing
  executedQuantity : StoredValue := .missing
  quantity : StoredValue := .missing
  volumeUsd : StoredValue := .missing
  signedPricePct : StoredValue := .missing
  signedResultR : StoredValue := .missing
  market : PositionMarket := .crypto

/-- `round` of a finite number. -/
def round (value : ℚ) (decimals : ℕ := 6) : ℚ := DecimalPlaces.nearest (10 ^ decimals) value

def finiteNumber (values : List StoredValue) : ℚ := (values.findSome? StoredValue.toNumber).getD 0

/-- A number as it is stored.  `NaN` is as good as a missing value to every reader. -/
def stored : Option ℚ → StoredValue
  | some value => .number value
  | none => .missing

section Position

variable (position : ClosedPositionLike)

/-- `calculateClosedPositionSignedPricePct`, `none` for `NaN`. -/
def calculateClosedPositionSignedPricePct : Option ℚ :=
  match position.signedPricePct.toNumber with
  | some provided => some provided
  | none =>
    let entryPrice := finiteNumber
      [position.averageExecutionPrice, position.entryPrice, position.entry_price]
    let exitPrice := finiteNumber [position.closePrice, position.exitPrice, position.lastPrice,
      position.markPrice, position.current_price]
    let direction := normalizeTradeDirection position.direction <|>
      normalizeTradeDirection position.side
    match (if 0 < entryPrice ∧ 0 < exitPrice then direction else none) with
    | some direction =>
      let rawPct := (exitPrice - entryPrice) / entryPrice * 100
      some (if direction = .short then -rawPct else rawPct)
    | none =>
      let pnl := finiteNumber [position.realizedPnL, position.realized_pnl, position.pnl]
      let quantity := |finiteNumber [position.executedQuantity, position.quantity]|
      let volumeUsd := finiteNumber [position.volumeUsd]
      let notional := if volumeUsd ≠ 0 then volumeUsd
        else resolvePositionNotionalUsd position.market quantity entryPrice
      if 0 < notional then some (pnl / notional * 100) else none

/-- `calculateClosedPositionSignedResultR` at a cost, which is `none` when it is no finite number.
-/
def calculateClosedPositionSignedResultR (positionCostPct : Option ℚ) : Option ℚ :=
  match position.signedResultR.toNumber with
  | some provided => some provided
  | none =>
    let denominator := |positionCostPct.getD 0|
    if denominator ≤ 0 then some 0
    else (calculateClosedPositionSignedPricePct position).map (· / denominator)

/-- The result of a position in an aggregation, whose price change has been calculated before. -/
def signedResultR (positionCostPct : Option ℚ) : Option ℚ :=
  calculateClosedPositionSignedResultR { position with
    signedPricePct := stored (calculateClosedPositionSignedPricePct position) } positionCostPct

end Position

/-! ## Aggregation -/

/-- The sums of an aggregation. -/
structure Sums where
  wins : ℕ := 0
  losses : ℕ := 0
  grossPositiveR : ℚ := 0
  grossNegativeR : ℚ := 0
  netR : ℚ := 0

def Sums.add (sums : Sums) (signedResultR : ℚ) : Sums :=
  let netR := sums.netR + signedResultR
  if 0 < signedResultR then
    { sums with
      netR
      wins := sums.wins + 1
      grossPositiveR := sums.grossPositiveR + signedResultR }
  else if signedResultR < 0 then
    { sums with
      netR
      losses := sums.losses + 1
      grossNegativeR := sums.grossNegativeR + |signedResultR| }
  else { sums with netR }

structure LastXClosedPositionAggregation where
  count : ℕ
  wins : ℕ
  losses : ℕ
  grossPositiveR : ℚ
  grossNegativeR : ℚ
  profitFactor : ℚ
  avgSignedR : ℚ
  avgPositiveR : ℚ
  avgNegativeR : ℚ
  netR : ℚ
  winRate : ℚ

/-- What is returned for a number of sampled positions. -/
def Sums.aggregation (sums : Sums) (count : ℕ) : LastXClosedPositionAggregation where
  count
  wins := sums.wins
  losses := sums.losses
  grossPositiveR := round sums.grossPositiveR
  grossNegativeR := round sums.grossNegativeR
  profitFactor := if 0 < sums.grossNegativeR then round
    (sums.grossPositiveR / sums.grossNegativeR) 3
    else if 0 < sums.grossPositiveR then 999 else 0
  avgSignedR := if 0 < count then round (sums.netR / count) else 0
  avgPositiveR := if 0 < sums.wins then round (sums.grossPositiveR / sums.wins) else 0
  avgNegativeR := if 0 < sums.losses then round (-(sums.grossNegativeR / sums.losses)) else 0
  netR := round sums.netR
  winRate := if 0 < count then round (sums.wins / count * 100) 1 else 0

/-- The arguments of a call.  The positions are named by their identity. -/
structure AggregateCall (Ref : Type) where
  positions : List Ref
  x : StoredValue
  positionCostPct : StoredValue := .missing

/-- What each position holds. -/
abbrev Facts (Ref : Type) := Ref → ClosedPositionLike

variable {Ref : Type}

namespace AggregateCall

variable (call : AggregateCall Ref)

/-- The cost, which is a tenth of a percent when the call gives none. -/
def cost : Option ℚ :=
  if call.positionCostPct = .missing then some (1 / 10) else call.positionCostPct.toNumber

/-- `sampled`.  A window that is no positive number takes every position. -/
def sampled : List Ref :=
  let limit := ⌊call.x.finite⌋.toNat
  if limit = 0 then call.positions else call.positions.take limit

end AggregateCall

variable [DecidableEq Ref]

/-- What a position holds after its result. -/
def ClosedPositionLike.enrich (position : ClosedPositionLike) (result : ℚ) : ClosedPositionLike :=
  { position with
    signedPricePct := .number (((calculateClosedPositionSignedPricePct position).map round).getD 0)
    signedResultR := .number (round result) }

/-- The loop for one position. -/
def aggregateOne (cost : Option ℚ) (state : Facts Ref × Sums) (ref : Ref) : Facts Ref × Sums :=
  let position := state.1 ref
  match signedResultR position cost with
  | none => state
  | some result => (update state.1 ref (position.enrich result), state.2.add result)

variable (facts : Facts Ref)

/-- `aggregateLastXClosedPositions`, with what the positions hold after it. -/
def aggregateLastXClosedPositions (call : AggregateCall Ref) :
    Facts Ref × LastXClosedPositionAggregation :=
  let state := call.sampled.foldl (aggregateOne call.cost) (facts, {})
  (state.1, state.2.aggregation call.sampled.length)

/-- Other aggregations on the same positions. -/
def aggregateAll (calls : List (AggregateCall Ref)) : Facts Ref :=
  calls.foldl (fun facts call => (aggregateLastXClosedPositions facts call).1) facts

/-! ## What an aggregation leaves behind -/

/-- The results of the sampled positions, rounded to six decimals, as the sums of an aggregation. -/
def roundedSums (call : AggregateCall Ref) : Sums :=
  ((call.sampled.filterMap fun ref => signedResultR (facts ref) call.cost).map round).foldl
    Sums.add {}

/-- What a first aggregation is remembered by: all later ones with its arguments, whatever happens
before them, are made of its rounded results, and agree with it when there was nothing to round. -/
structure RemembersRounded (facts : Facts Ref) (call : AggregateCall Ref) : Prop where
  again : ∀ between, (aggregateLastXClosedPositions
    (aggregateAll (aggregateLastXClosedPositions facts call).1 between) call).2 =
      (roundedSums facts call).aggregation call.sampled.length
  same : (∀ ref ∈ call.sampled, ∀ result, signedResultR (facts ref) call.cost = some result →
    round result = result) → ∀ between, (aggregateLastXClosedPositions
      (aggregateAll (aggregateLastXClosedPositions facts call).1 between) call).2 =
        (aggregateLastXClosedPositions facts call).2

lemma round_round (value : ℚ) : round (round value) = round value :=
  DecimalPlaces.nearest_nearest (by norm_num) value

section Results

variable {position : ClosedPositionLike} {cost : Option ℚ}

lemma signedResultR_of_number {result : ℚ} (h : position.signedResultR = .number result)
    (cost : Option ℚ) : signedResultR position cost = some result := by
  simp [signedResultR, calculateClosedPositionSignedResultR, h, StoredValue.toNumber]

lemma signedResultR_of_none (h : signedResultR position cost = none) (cost' : Option ℚ) :
    signedResultR position cost' = none ∨ signedResultR position cost' = some 0 := by
  unfold signedResultR calculateClosedPositionSignedResultR at h ⊢
  cases hres : position.signedResultR.toNumber with
  | some provided => simp [hres] at h
  | none =>
    simp only [hres] at h ⊢
    split at h
    · cases h
    · rw [map_eq_none_iff] at h
      split
      · exact .inr rfl
      · rw [h]
        exact .inl rfl

lemma enrich_signedResultR (position : ClosedPositionLike) (result : ℚ) :
    (position.enrich result).signedResultR = .number (round result) := rfl

end Results

/-- What a position holds, `now`, after a result at the cost was found in it, and whatever came
later: the rounded result, or, where there was none, possibly a zero of a cost that is no cost. -/
def IsPinned (cost : Option ℚ) (before now : ClosedPositionLike) : Prop :=
  match signedResultR before cost with
  | some result => now.signedResultR = .number (round result)
  | none => now = before ∨ now.signedResultR = .number 0

lemma IsPinned.signedResultR {cost : Option ℚ} {before now : ClosedPositionLike}
    (h : IsPinned cost before now) (cost' : Option ℚ) :
    signedResultR now cost' = (signedResultR before cost).map round ∨
      signedResultR before cost = none ∧ signedResultR now cost' = some 0 := by
  unfold IsPinned at h
  cases hbef : RecentCloses.signedResultR before cost with
  | some result =>
    rw [hbef] at h
    exact .inl (signedResultR_of_number h cost')
  | none =>
    rw [hbef] at h
    rcases h with rfl | h
    · exact (signedResultR_of_none hbef cost').imp id fun h => ⟨rfl, h⟩
    · exact .inr ⟨rfl, signedResultR_of_number h cost'⟩

lemma round_zero : round 0 = 0 := DecimalPlaces.nearest_zero (by norm_num)

/-! ### One position after another -/

section Loop

variable {cost cost' : Option ℚ} {before : ClosedPositionLike} {state : Facts Ref × Sums}
  {ref ref' : Ref}

lemma aggregateOne_of_none (h : signedResultR (state.1 ref) cost = none) :
    aggregateOne cost state ref = state := by
  simp only [aggregateOne, h]

lemma aggregateOne_of_some {result : ℚ} (h : signedResultR (state.1 ref) cost = some result) :
    aggregateOne cost state ref =
      (update state.1 ref ((state.1 ref).enrich result), state.2.add result) := by
  simp only [aggregateOne, h]

lemma aggregateOne_of_ne (h : ref ≠ ref') : (aggregateOne cost state ref').1 ref = state.1 ref := by
  cases hres : signedResultR (state.1 ref') cost with
  | none => rw [aggregateOne_of_none hres]
  | some result =>
    rw [aggregateOne_of_some hres]
    exact update_of_ne h ..

lemma isPinned_aggregateOne :
    IsPinned cost (state.1 ref) ((aggregateOne cost state ref).1 ref) := by
  unfold IsPinned
  cases hres : signedResultR (state.1 ref) cost with
  | none => exact .inl (by rw [aggregateOne_of_none hres])
  | some result =>
    rw [aggregateOne_of_some hres]
    change (update state.1 ref ((state.1 ref).enrich result) ref).signedResultR = _
    rw [update_self, enrich_signedResultR]

lemma IsPinned.aggregateOne (h : IsPinned cost before (state.1 ref)) :
    IsPinned cost before ((aggregateOne cost' state ref').1 ref) := by
  by_cases href : ref = ref'
  · subst href
    cases hnow : RecentCloses.signedResultR (state.1 ref) cost' with
    | none =>
      rw [aggregateOne_of_none hnow]
      exact h
    | some now =>
      rw [aggregateOne_of_some hnow]
      change IsPinned cost before (update state.1 ref ((state.1 ref).enrich now) ref)
      rw [update_self]
      unfold IsPinned
      rcases h.signedResultR cost' with heq | ⟨hnone, hzero⟩
      · rw [hnow] at heq
        obtain ⟨result, hres, hrnd⟩ := map_eq_some_iff.mp heq.symm
        rw [hres, enrich_signedResultR, ← hrnd, round_round]
      · rw [hnow] at hzero
        obtain rfl := some.inj hzero
        rw [hnone]
        exact .inr (by rw [enrich_signedResultR, round_zero])
  · rw [aggregateOne_of_ne href]
    exact h

/-- A position that was not touched yet, or pinned. -/
def Followed (cost : Option ℚ) (before now : ClosedPositionLike) : Prop :=
  now = before ∨ IsPinned cost before now

lemma Followed.pinned (h : Followed cost before (state.1 ref)) :
    IsPinned cost before ((aggregateOne cost state ref).1 ref) := by
  rcases h with rfl | h
  · exact isPinned_aggregateOne
  · exact h.aggregateOne

lemma Followed.aggregateOne (h : Followed cost before (state.1 ref)) :
    Followed cost before ((aggregateOne cost state ref').1 ref) := by
  by_cases href : ref = ref'
  · subst href
    exact .inr h.pinned
  · rw [aggregateOne_of_ne href]
    exact h

lemma IsPinned.foldl (h : IsPinned cost before (state.1 ref)) (refs : List Ref) :
    IsPinned cost before ((refs.foldl (RecentCloses.aggregateOne cost') state).1 ref) := by
  induction refs generalizing state with
  | nil => exact h
  | cons head refs ih => exact ih h.aggregateOne

lemma Followed.foldl (h : Followed cost before (state.1 ref)) {refs : List Ref}
    (href : ref ∈ refs) :
    IsPinned cost before ((refs.foldl (RecentCloses.aggregateOne cost) state).1 ref) := by
  induction refs generalizing state with
  | nil => cases href
  | cons head refs ih =>
    rcases mem_cons.mp href with rfl | href
    · exact h.pinned.foldl refs
    · exact ih h.aggregateOne href

lemma Sums.add_zero (sums : Sums) : sums.add 0 = sums := by
  simp [Sums.add]

lemma foldl_aggregateOne_sums {facts : Facts Ref} {refs : List Ref}
    (hfoll : ∀ ref ∈ refs, Followed cost (facts ref) (state.1 ref))
    (hroun : ∀ ref ∈ refs, IsPinned cost (facts ref) (state.1 ref) ∨
      (signedResultR (facts ref) cost).map round = signedResultR (facts ref) cost) :
    (refs.foldl (aggregateOne cost) state).2 =
      ((refs.filterMap fun ref => signedResultR (facts ref) cost).map round).foldl Sums.add
        state.2 := by
  induction refs generalizing state with
  | nil => rfl
  | cons ref refs ih =>
    have hgives : signedResultR (state.1 ref) cost = (signedResultR (facts ref) cost).map round ∨
        signedResultR (facts ref) cost = none ∧ signedResultR (state.1 ref) cost = some 0 := by
      rcases hfoll ref (mem_cons_self ..) with heq | hpinn
      · rcases hroun ref (mem_cons_self ..) with hpinn | hrnd
        · exact hpinn.signedResultR cost
        · exact .inl (by rw [heq, hrnd])
      · exact hpinn.signedResultR cost
    have hsums : (aggregateOne cost state ref).2 =
        (((signedResultR (facts ref) cost).map round).toList).foldl Sums.add state.2 := by
      rcases hgives with heq | ⟨hnone, hzero⟩
      · rw [← heq]
        cases hres : signedResultR (state.1 ref) cost with
        | none => rw [aggregateOne_of_none hres]; rfl
        | some result => rw [aggregateOne_of_some hres]; rfl
      · rw [aggregateOne_of_some hzero, hnone]
        exact Sums.add_zero state.2
    rw [foldl_cons, ih (fun ref' h => (hfoll ref' (mem_cons_of_mem _ h)).aggregateOne)
      fun ref' h => (hroun ref' (mem_cons_of_mem _ h)).imp_left IsPinned.aggregateOne, hsums]
    cases hres : signedResultR (facts ref) cost <;> simp [hres]

end Loop

lemma IsPinned.aggregateAll {cost : Option ℚ} {before : ClosedPositionLike} {facts : Facts Ref}
    {ref : Ref} (h : IsPinned cost before (facts ref)) (calls : List (AggregateCall Ref)) :
    IsPinned cost before (aggregateAll facts calls ref) := by
  induction calls generalizing facts with
  | nil => exact h
  | cons call calls ih =>
    have hst : IsPinned cost before ((facts, ({} : Sums)).1 ref) := h
    exact ih (hst.foldl call.sampled)

/-- **An aggregation is remembered by its rounded results**, whatever other aggregations ran between
it and the next one with its arguments. -/
theorem aggregateLastXClosedPositions_again (facts : Facts Ref) (call : AggregateCall Ref) :
    RemembersRounded facts call := by
  have hpinned : ∀ between, ∀ ref ∈ call.sampled, IsPinned call.cost (facts ref)
      (aggregateAll (aggregateLastXClosedPositions facts call).1 between ref) := by
    intro between ref href
    have hstart : Followed call.cost (facts ref) ((facts, ({} : Sums)).1 ref) := .inl rfl
    exact (hstart.foldl href).aggregateAll between
  have hagain : ∀ between, (aggregateLastXClosedPositions
      (aggregateAll (aggregateLastXClosedPositions facts call).1 between) call).2 =
        (roundedSums facts call).aggregation call.sampled.length := by
    intro between
    unfold aggregateLastXClosedPositions roundedSums
    dsimp only
    rw [foldl_aggregateOne_sums (fun ref href => .inr (hpinned between ref href))
      fun ref href => .inl (hpinned between ref href)]
  refine ⟨hagain, fun hround between => ?_⟩
  rw [hagain between]
  unfold aggregateLastXClosedPositions roundedSums
  dsimp only
  rw [foldl_aggregateOne_sums (fun ref _ => .inl rfl) fun ref href => .inr ?_]
  cases hresult : signedResultR (facts ref) call.cost with
  | none => rfl
  | some result => rw [map_some, hround ref href result hresult]

/-- A long position that gained a thirtieth of a percent, a third of the position cost. -/
def thirdOfCost : ClosedPositionLike where
  direction := some "long"
  entryPrice := .number 3000
  exitPrice := .number 3001

/-- Three such positions have a net result of one, and of 0.999999 when they are added up again. -/
theorem not_aggregatesSame_thirdOfCost : ¬ ∀ (facts : Facts (Fin 3)) (call : AggregateCall (Fin 3))
      (between : List (AggregateCall (Fin 3))), (aggregateLastXClosedPositions
        (aggregateAll (aggregateLastXClosedPositions facts call).1 between) call).2 =
          (aggregateLastXClosedPositions facts call).2 := by
  intro h
  have hsame := h (fun _ => thirdOfCost) ⟨[0, 1, 2], .number 3, .missing⟩ []
  exact absurd (congrArg LastXClosedPositionAggregation.netR hsame) (by decide +kernel)

end CtsEngine.RecentCloses
