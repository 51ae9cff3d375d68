import CtsEngine.Foundation.Keyed
import CtsEngine.Foundation.Rounding

/-!
# Cumulative reductions

`reconcileCumulativeReduction` of `lib/live-order-coordination.ts`: an order snapshot reports the
cumulative fill of one reduce order, and the part of it that is not yet applied is taken from the
local quantity.  A venue position quantity, when one is given, is a second piece of evidence; the
larger of the two reductions is applied and credited to the order.

`applyReductionObservation` of `live-stage.ts` for a crypto row.  Every reduce order has one entry
in `reductionAccounting`; an observation of the order replaces the entry and moves the amounts of
the position by the difference.

Amounts are exact rationals, a missing number is `0` as in `Number(x || 0)`, and `fix` stands for
`Number(x.toFixed(12))`: the code rounds with `toFixed12`, exact arithmetic is `fix = id`.  The
audit rows of the position (`partialOrderExecutions`, the quantities of each Set, `progression`,
`updatedAt`) are left out: no amount is computed from them.
-/

namespace CtsEngine

/-- Result of one observation of a reduce order. -/
structure CumulativeReductionResult where
  deltaApplied : ℚ
  cumulativeApplied : ℚ
  nextQuantity : ℚ

/-- Apply one cumulative reduce-order observation, rounding with `fix`. -/
def reconcileCumulativeReductionWith (fix : ℚ → ℚ) (currentQuantity reportedFilledQuantity
    previouslyAppliedQuantity : ℚ) (authoritativeQuantity : Option ℚ) :
    CumulativeReductionResult :=
  let roundQuantity := fun value => fix (max 0 value)
  let current := finiteNonNegative currentQuantity
  let reported := finiteNonNegative reportedFilledQuantity
  let appliedBefore := finiteNonNegative previouslyAppliedQuantity
  let fromCumulative := max 0 (reported - appliedBefore)
  let fromAuthoritative := match authoritativeQuantity.map finiteNonNegative with
    | none => 0
    | some authoritative => max 0 (current - min current authoritative)
  let deltaApplied := roundQuantity (min current (max fromCumulative fromAuthoritative))
  { deltaApplied := deltaApplied
    cumulativeApplied := roundQuantity (appliedBefore + deltaApplied)
    nextQuantity := roundQuantity (current - deltaApplied) }

/-- Apply one cumulative reduce-order observation, rounding to twelve decimals. -/
def reconcileCumulativeReduction (currentQuantity reportedFilledQuantity
    previouslyAppliedQuantity : ℚ) (authoritativeQuantity : Option ℚ) :
    CumulativeReductionResult :=
  reconcileCumulativeReductionWith toFixedNonneg currentQuantity reportedFilledQuantity
    previouslyAppliedQuantity authoritativeQuantity

/-- The reduction that the evidence asks for, before any rounding. -/
def evidencedReduction (current reported applied : ℚ) (authoritative : Option ℚ) : ℚ :=
  min current (max (max 0 (reported - applied))
    (authoritative.elim 0 fun venue => max 0 (current - min current venue)))

variable {x y current reported applied : ℚ} {authoritative : Option ℚ}

lemma OnGrid.max (hx : OnGrid x) (hy : OnGrid y) : OnGrid (max x y) := by
  rcases max_choice x y with h | h <;> rw [h] <;> assumption

lemma OnGrid.min (hx : OnGrid x) (hy : OnGrid y) : OnGrid (min x y) := by
  rcases min_choice x y with h | h <;> rw [h] <;> assumption

lemma evidencedReduction_nonneg (hc : 0 ≤ current) (reported applied : ℚ)
    (authoritative : Option ℚ) :
    0 ≤ evidencedReduction current reported applied authoritative :=
  le_min hc (le_max_of_le_left (le_max_left 0 _))

lemma evidencedReduction_le (current reported applied : ℚ) (authoritative : Option ℚ) :
    evidencedReduction current reported applied authoritative ≤ current :=
  min_le_left _ _

lemma onGrid_evidencedReduction (hc : OnGrid current) (hr : OnGrid reported) (ha : OnGrid applied)
    (hv : ∀ v ∈ authoritative, OnGrid v) :
    OnGrid (evidencedReduction current reported applied authoritative) := by
  refine hc.min ((onGrid_zero.max (hr.sub ha)).max ?_)
  cases authoritative with
  | none => exact onGrid_zero
  | some v => exact onGrid_zero.max (hc.sub (hc.min (hv v rfl)))

/-- **Specification.** Where `fix` keeps the quantities involved, the evidenced reduction moves from
the local quantity to the order's applied quantity. -/
lemma reconcileCumulativeReductionWith_eq {fix : ℚ → ℚ} (hc0 : 0 ≤ current) (hr0 : 0 ≤ reported)
    (ha0 : 0 ≤ applied) (hv0 : ∀ v ∈ authoritative, 0 ≤ v)
    (hdelta : fix (evidencedReduction current reported applied authoritative) =
      evidencedReduction current reported applied authoritative)
    (hcum : fix (applied + evidencedReduction current reported applied authoritative) =
      applied + evidencedReduction current reported applied authoritative)
    (hnext : fix (current - evidencedReduction current reported applied authoritative) =
      current - evidencedReduction current reported applied authoritative) :
    reconcileCumulativeReductionWith fix current reported applied authoritative =
      { deltaApplied := evidencedReduction current reported applied authoritative
        cumulativeApplied := applied + evidencedReduction current reported applied authoritative
        nextQuantity := current - evidencedReduction current reported applied authoritative } := by
  have hnn := evidencedReduction_nonneg hc0 reported applied authoritative
  have hle := evidencedReduction_le current reported applied authoritative
  have hevid : min current (max (max 0 (reported - applied))
      (match authoritative.map finiteNonNegative with
        | none => 0
        | some venue => max 0 (current - min current venue))) =
      evidencedReduction current reported applied authoritative := by
    cases authoritative with
    | none => rfl
    | some v => rw [Option.map_some, finiteNonNegative_of_nonneg (hv0 v rfl)]; rfl
  simp only [reconcileCumulativeReductionWith, finiteNonNegative_of_nonneg hc0,
    finiteNonNegative_of_nonneg hr0, finiteNonNegative_of_nonneg ha0, hevid,
    max_eq_right hnn, hdelta]
  rw [max_eq_right (add_nonneg ha0 hnn), max_eq_right (sub_nonneg.mpr hle), hcum, hnext]

lemma reconcileCumulativeReduction_of_onGrid (hc : OnGrid current) (hr : OnGrid reported)
    (ha : OnGrid applied) (hv : ∀ v ∈ authoritative, OnGrid v) (hc0 : 0 ≤ current)
    (hr0 : 0 ≤ reported) (ha0 : 0 ≤ applied) (hv0 : ∀ v ∈ authoritative, 0 ≤ v) :
    reconcileCumulativeReduction current reported applied authoritative =
      { deltaApplied := evidencedReduction current reported applied authoritative
        cumulativeApplied := applied + evidencedReduction current reported applied authoritative
        nextQuantity := current - evidencedReduction current reported applied authoritative } := by
  have hgrid := onGrid_evidencedReduction hc hr ha hv
  exact reconcileCumulativeReductionWith_eq hc0 hr0 ha0 hv0 (toFixedNonneg_of_onGrid hgrid)
    (toFixedNonneg_of_onGrid (ha.add hgrid)) (toFixedNonneg_of_onGrid (hc.sub hgrid))

end CtsEngine

/-! ## The reduction ledger of a live position -/

namespace CtsEngine

/-- `a || b` on numbers. -/
def orElseZero (a b : ℚ) : ℚ := if a = 0 then b else a

/-- One entry of `reductionAccounting`. -/
structure ReductionContribution where
  /-- Cumulative quantity applied for the order. -/
  quantity : ℚ
  /-- Quantity applied before the entry was opened. -/
  baseQuantity : ℚ
  gross : ℚ
  net : ℚ
  fees : ℚ
  /-- Share of the entry fee. -/
  entryFee : ℚ
  entryFeeComplete : Bool
  complete : Bool

/-- What the venue reports as the settlement of one order. -/
structure OrderSettlement where
  orderId : String
  filledQuantity : ℚ
  averageFillPrice : ℚ
  grossRealizedPnl : ℚ
  netRealizedPnl : ℚ
  tradingFee : ℚ
  netIncludesEntryFee : Bool
deriving DecidableEq

inductive RealizedPnlSource
  | exchangeSettlement
  | exchangeFillsIncompleteFees
  | exchangeUnresolved
  | simulationModel

/-- The fields of a crypto position that a reduction reads and writes. -/
structure LedgerPosition where
  isShort : Bool
  /-- `status === "simulated" || executionMode === "simulation"`. -/
  isSimulation : Bool
  averageExecutionPrice : ℚ
  entryPrice : ℚ
  initialExecutedQuantity : ℚ
  totalExecutedQuantity : ℚ
  executedQuantity : ℚ
  quantity : ℚ
  remainingQuantity : ℚ
  closedQuantity : ℚ
  volumeUsd : ℚ
  entryTradingFee : ℚ
  entryTradingFeeAllocated : ℚ
  entryAccountingComplete : Bool
  realizedPnlGross : ℚ
  realizedPnL : ℚ
  tradingFees : ℚ
  realizedPnlComplete : Bool
  realizedPnlSource : Option RealizedPnlSource
  settledOrderIds : List String
  reductionAccounting : List (String × ReductionContribution)

/-- The input of one observation. -/
structure ReductionInput where
  executionId : String
  reportedFilledQuantity : ℚ
  previouslyAppliedQuantity : ℚ
  authoritativeQuantity : Option ℚ
  price : ℚ
  settlement : Option OrderSettlement
  /-- `""` when the input has no order id. -/
  orderId : String

variable (p : LedgerPosition)

/-- `averageExecutionPrice || entryPrice || 0`. -/
def LedgerPosition.basisPrice : ℚ := orElseZero p.averageExecutionPrice p.entryPrice

/-- `positionNotionalUsd` of a crypto row. -/
def cryptoNotionalUsd (quantity price : ℚ) : ℚ := max 0 quantity * max 0 price

variable (input : ReductionInput)

/-- The settlement of the input, if it is the one of the observed order. -/
def ReductionInput.ownSettlement : Option OrderSettlement :=
  input.settlement.filter fun s =>
    s.orderId = (if input.orderId = "" then s.orderId else input.orderId)

/-- `settlement?.averageFillPrice || input.price || 0`. -/
def ReductionInput.executionPrice : ℚ :=
  orElseZero ((input.ownSettlement.map (·.averageFillPrice)).getD 0) input.price

/-- The entry-fee share of the order and the allocated total after the observation. -/
def shareEntryFee (fix : ℚ → ℚ) (p : LedgerPosition) (settlement : Option OrderSettlement)
    (entryFee before deltaApplied : ℚ) : ℚ × ℚ :=
  if settlement.any (·.netIncludesEntryFee) then
    (0, max 0 (p.entryTradingFeeAllocated - entryFee))
  else if 0 < deltaApplied then
    let remainingEntryFee := max 0 (p.entryTradingFee - p.entryTradingFeeAllocated)
    let additionalEntryFee :=
      if 0 < before then remainingEntryFee * min 1 (deltaApplied / before) else 0
    (entryFee + additionalEntryFee, fix (p.entryTradingFeeAllocated + additionalEntryFee))
  else (entryFee, p.entryTradingFeeAllocated)

/-- Where the amounts of a contribution come from. -/
inductive ContributionBasis
  | settled (settlement : OrderSettlement)
  | estimated (executionPrice : ℚ)
  | kept
deriving DecidableEq

/-- The branch that computes the amounts. -/
def ReductionInput.basis : ContributionBasis :=
  match input.ownSettlement.filter (0 < ·.filledQuantity) with
  | some settlement => .settled settlement
  | none =>
    if 0 < input.executionPrice ∧ 0 < p.basisPrice then .estimated input.executionPrice else .kept

/-- The entry of the order after the observation, given its entry-fee share. -/
def contributionAfter (previous : Option ReductionContribution) (basis : ContributionBasis)
    (cumulativeApplied baseQuantity entryFee : ℚ) (entryFeeComplete : Bool) :
    ReductionContribution :=
  let representedQuantity := max 0 (cumulativeApplied - baseQuantity)
  match basis with
  | .settled settlement =>
    let ratio := min 1 (representedQuantity / settlement.filledQuantity)
    { quantity := cumulativeApplied
      baseQuantity := baseQuantity
      gross := settlement.grossRealizedPnl * ratio
      net := settlement.netRealizedPnl * ratio - entryFee
      fees := max 0 settlement.tradingFee * ratio + entryFee
      entryFee := entryFee
      entryFeeComplete := entryFeeComplete
      complete := decide (baseQuantity = 0) && entryFeeComplete }
  | .estimated executionPrice =>
    let gross := representedQuantity *
      (if p.isShort then p.basisPrice - executionPrice else executionPrice - p.basisPrice)
    { quantity := cumulativeApplied
      baseQuantity := baseQuantity
      gross := gross
      net := gross - entryFee
      fees := entryFee
      entryFee := entryFee
      entryFeeComplete := entryFeeComplete
      complete := p.isSimulation && decide (baseQuantity = 0) }
  | .kept =>
    { quantity := cumulativeApplied
      baseQuantity := baseQuantity
      gross := (previous.map (·.gross)).getD 0
      net := (previous.map (·.net)).getD 0
      fees := (previous.map (·.fees)).getD 0
      entryFee := entryFee
      entryFeeComplete := entryFeeComplete
      complete := false }

/-- `Array.from(new Set([...ids, id])).slice(-64)`. -/
def addSettledOrderId (ids : List String) (id : String) : List String :=
  let all := (ids ++ [id]).eraseDups
  all.drop (all.length - 64)

/-- The quantities that an observation finds. -/
def reductionResult (fix : ℚ → ℚ) (p : LedgerPosition) (input : ReductionInput) :
    CumulativeReductionResult :=
  reconcileCumulativeReductionWith fix (max 0 p.executedQuantity) input.reportedFilledQuantity
    input.previouslyAppliedQuantity input.authoritativeQuantity

/-- The entry of the observed order. -/
def ReductionInput.previous : Option ReductionContribution :=
  Keyed.get? p.reductionAccounting input.executionId

/-- The observation returns early unless it applies a quantity or corrects an entry. -/
def ReductionInput.IsEffective (fix : ℚ → ℚ) (p : LedgerPosition) (input : ReductionInput) : Prop :=
  0 < (reductionResult fix p input).deltaApplied ∨
    input.settlement.isSome ∧ (input.previous p).isSome

instance (fix : ℚ → ℚ) (p : LedgerPosition) (input : ReductionInput) :
    Decidable (input.IsEffective fix p) :=
  inferInstanceAs (Decidable (_ ∨ _))

/-- Quantity applied for the order before its entry was opened. -/
def ReductionInput.baseQuantity : ℚ :=
  ((input.previous p).map (·.baseQuantity)).getD (max 0 input.previouslyAppliedQuantity)

/-- The entry-fee share of the order and the allocated total after the observation. -/
def ReductionInput.entryFee (fix : ℚ → ℚ) (p : LedgerPosition) (input : ReductionInput) : ℚ × ℚ :=
  shareEntryFee fix p input.ownSettlement (((input.previous p).map (·.entryFee)).getD 0)
    (max 0 p.executedQuantity) (reductionResult fix p input).deltaApplied

/-- The entry of the order after the observation. -/
def ReductionInput.next (fix : ℚ → ℚ) (p : LedgerPosition) (input : ReductionInput) :
    ReductionContribution :=
  contributionAfter p (input.previous p) (input.basis p)
    (reductionResult fix p input).cumulativeApplied (input.baseQuantity p) (input.entryFee fix p).1
    (input.ownSettlement.any (·.netIncludesEntryFee) ||
      p.entryAccountingComplete && ((input.previous p).map (·.entryFeeComplete)).getD true)

/-- `realizedPnlComplete` after the observation: no closed quantity is missing from the entries
before the observation, and all entries after it are complete. -/
def ReductionInput.complete (fix : ℚ → ℚ) (p : LedgerPosition) (input : ReductionInput) : Bool :=
  let priorAccountedQuantity := Keyed.total (·.quantity) p.reductionAccounting
  let untrackedClosedQuantity := max 0 (max 0 p.closedQuantity - priorAccountedQuantity)
  decide (untrackedClosedQuantity ≤ max (1 / 10 ^ 10) (max 0 p.executedQuantity * (1 / 10 ^ 10))) &&
    (Keyed.put p.reductionAccounting input.executionId (input.next fix p)).all
      fun entry => entry.2.complete

def applyReductionObservation (fix : ℚ → ℚ) (p : LedgerPosition) (input : ReductionInput) :
    LedgerPosition :=
  if input.IsEffective fix p then
    let before := max 0 p.executedQuantity
    let closedBefore := max 0 p.closedQuantity
    let result := reductionResult fix p input
    let previous := input.previous p
    let next := input.next fix p
    { p with
      totalExecutedQuantity :=
        max (max p.totalExecutedQuantity (before + closedBefore)) p.initialExecutedQuantity
      closedQuantity := fix (closedBefore + result.deltaApplied)
      executedQuantity := result.nextQuantity
      quantity := result.nextQuantity
      remainingQuantity := 0
      volumeUsd := cryptoNotionalUsd result.nextQuantity p.basisPrice
      entryTradingFeeAllocated := (input.entryFee fix p).2
      settledOrderIds := match input.basis p with
        | .settled settlement => addSettledOrderId p.settledOrderIds settlement.orderId
        | _ => p.settledOrderIds
      realizedPnlGross := fix (p.realizedPnlGross + next.gross - (previous.map (·.gross)).getD 0)
      realizedPnL := fix (p.realizedPnL + next.net - (previous.map (·.net)).getD 0)
      tradingFees := fix (p.tradingFees + next.fees - (previous.map (·.fees)).getD 0)
      reductionAccounting := Keyed.put p.reductionAccounting input.executionId next
      realizedPnlComplete := input.complete fix p
      realizedPnlSource :=
        if p.isSimulation then some .simulationModel
        else if input.complete fix p then some .exchangeSettlement
        else if 0 < input.executionPrice then some .exchangeFillsIncompleteFees
        else some .exchangeUnresolved }
  else p

end CtsEngine
