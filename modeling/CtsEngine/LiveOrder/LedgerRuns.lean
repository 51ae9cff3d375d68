import CtsEngine.LiveOrder.ReductionLedger
import CtsEngine.Transition.Runs

/-!
# Runs of the reduction ledger

Observations of any number of reduce orders of one crypto row, in exact arithmetic.  An event is
one call of `applyReductionObservation`: the order's cumulative fill, a venue quantity or none, a
price or none, and the exact settlement of that fill or none; the previously applied quantity is
the last one of the order.
-/

namespace CtsEngine

open Option Transition Keyed Function ReductionInput LedgerPosition

structure SettledAmounts where
  averageFillPrice : ℚ
  grossRealizedPnl : ℚ
  netRealizedPnl : ℚ
  tradingFee : ℚ
  netIncludesEntryFee : Bool

/-- One observation of a reduce order. -/
structure ReductionEvent where
  /-- The execution id, own to the order. -/
  order : String
  orderId : String
  cumulativeFill : ℚ
  authoritativeQuantity : Option ℚ
  price : ℚ
  /-- The settlement of exactly `cumulativeFill`. -/
  settlement : Option SettledAmounts
  fill_nonneg : 0 ≤ cumulativeFill
  authoritative_nonneg : ∀ v ∈ authoritativeQuantity, 0 ≤ v

open ReductionEvent

variable (p : LedgerPosition)

/-- The last applied quantity of an order. -/
def LedgerPosition.lastApplied (order : String) : ℚ :=
  ((get? p.reductionAccounting order).map (·.quantity)).getD 0

/-- The settlement that the event carries. -/
def ReductionEvent.orderSettlement (e : ReductionEvent) : Option OrderSettlement :=
  e.settlement.map fun amounts =>
    { orderId := e.orderId
      filledQuantity := e.cumulativeFill
      averageFillPrice := amounts.averageFillPrice
      grossRealizedPnl := amounts.grossRealizedPnl
      netRealizedPnl := amounts.netRealizedPnl
      tradingFee := amounts.tradingFee
      netIncludesEntryFee := amounts.netIncludesEntryFee }

/-- The input of the call. -/
def ReductionEvent.input (e : ReductionEvent) (p : LedgerPosition) : ReductionInput where
  executionId := e.order
  reportedFilledQuantity := e.cumulativeFill
  previouslyAppliedQuantity := p.lastApplied e.order
  authoritativeQuantity := e.authoritativeQuantity
  price := e.price
  settlement := e.orderSettlement
  orderId := e.orderId

/-- A position and, as a history variable, where the amounts of each order come from. -/
structure LedgerSystem where
  position : LedgerPosition
  basis : String → ContributionBasis

/-- No observation was made yet. -/
def LedgerSystem.start : LedgerSystem where
  position := p
  basis := fun _ => .kept

/-- Where the amounts of the order come from after an effective call. -/
def ContributionBasis.followedBy (before after : ContributionBasis) : ContributionBasis :=
  match after with
  | .kept => before
  | _ => after

/-- One call, in exact arithmetic. -/
def LedgerSystem.observe (s : LedgerSystem) (e : ReductionEvent) : LedgerSystem where
  position := applyReductionObservation id s.position (e.input s.position)
  basis :=
    if (e.input s.position).IsEffective id s.position then
      update s.basis e.order ((s.basis e.order).followedBy ((e.input s.position).basis s.position))
    else s.basis

def ledgerStep (s : LedgerSystem) (e : ReductionEvent) : Option LedgerSystem := some (s.observe e)

/-- The amounts and quantities of a position. -/
structure SameAmounts (p q : LedgerPosition) : Prop where
  realizedPnlGross : p.realizedPnlGross = q.realizedPnlGross
  realizedPnL : p.realizedPnL = q.realizedPnL
  tradingFees : p.tradingFees = q.tradingFees
  entryTradingFeeAllocated : p.entryTradingFeeAllocated = q.entryTradingFeeAllocated
  totalExecutedQuantity : p.totalExecutedQuantity = q.totalExecutedQuantity
  executedQuantity : p.executedQuantity = q.executedQuantity
  closedQuantity : p.closedQuantity = q.closedQuantity
  reductionAccounting : p.reductionAccounting = q.reductionAccounting

/-- The amounts of the state `s` are those of the position `p₀` before any call, with what the
contributions add. -/
structure LedgerSums (p₀ : LedgerPosition) (s : LedgerSystem) : Prop where
  gross : s.position.realizedPnlGross =
    p₀.realizedPnlGross + total (·.gross) s.position.reductionAccounting
  net : s.position.realizedPnL = p₀.realizedPnL + total (·.net) s.position.reductionAccounting
  fees : s.position.tradingFees = p₀.tradingFees + total (·.fees) s.position.reductionAccounting
  fee_shares : s.position.entryTradingFeeAllocated =
    total (·.entryFee) s.position.reductionAccounting
  fee_bound : s.position.entryTradingFeeAllocated ≤ s.position.entryTradingFee
  quantity : s.position.executedQuantity + s.position.closedQuantity =
    s.position.totalExecutedQuantity

/-- The ledger law between a position `p₀` before any call and the state `s` after some calls. -/
structure LedgerLaw (p₀ : LedgerPosition) (s : LedgerSystem) : Prop extends LedgerSums p₀ s where
  /-- Repeating a call changes no amount. -/
  repeated : ∀ e, SameAmounts ((s.observe e).observe e).position (s.observe e).position
  /-- A complete ledger represents every closed unit by a settled contribution. -/
  complete : s.position.realizedPnlComplete = true →
    s.position.closedQuantity = total (·.quantity) s.position.reductionAccounting ∧
    ∀ entry ∈ s.position.reductionAccounting, ∃ settlement,
      s.basis entry.1 = .settled settlement ∧ entry.2.quantity = settlement.filledQuantity ∧
      entry.2.net = settlement.netRealizedPnl - entry.2.entryFee

/-- Settled contributions of the state `s` are settled in the state `t`. -/
def SettledKept (s t : LedgerSystem) : Prop :=
  ∀ order x, s.basis order = .settled x → ∃ y, t.basis order = .settled y

/-- A row before its first reduction. -/
structure UnreducedRow (p : LedgerPosition) : Prop where
  isSimulation : p.isSimulation = false
  executed_nonneg : 0 ≤ p.executedQuantity
  closed_nonneg : 0 ≤ p.closedQuantity
  quantity : p.executedQuantity + p.closedQuantity = p.totalExecutedQuantity
  initial_le : p.initialExecutedQuantity ≤ p.totalExecutedQuantity
  fee_nonneg : 0 ≤ p.entryTradingFee
  unallocated : p.entryTradingFeeAllocated = 0
  accounting : p.reductionAccounting = []
  complete : p.realizedPnlComplete = true → p.closedQuantity = 0

/-- A call that applies nothing: the order has no new fill and the venue no smaller quantity. -/
def ReductionEvent.AppliesNothing (e : ReductionEvent) (p : LedgerPosition) : Prop :=
  p.executedQuantity = 0 ∨
    e.cumulativeFill ≤ p.lastApplied e.order ∧ ∀ v ∈ e.authoritativeQuantity, p.executedQuantity ≤ v

/-- The condition on one call.  Without a settlement it may give a price for an order with a
settled contribution only if it applies nothing.  With a settlement the order's new fill fits into
the open quantity and the venue quantity shows no reduction beyond it. -/
def SettlementCovers (s : LedgerSystem) (e : ReductionEvent) : Prop :=
  match e.settlement with
  | none =>
    (∃ x, s.basis e.order = .settled x) →
      e.price ≤ 0 ∨ s.position.basisPrice ≤ 0 ∨ e.AppliesNothing s.position
  | some _ =>
    s.position.lastApplied e.order ≤ e.cumulativeFill ∧
      e.cumulativeFill - s.position.lastApplied e.order ≤ s.position.executedQuantity ∧
      ∀ v ∈ e.authoritativeQuantity,
        s.position.executedQuantity - v ≤ e.cumulativeFill - s.position.lastApplied e.order

instance (basis : ContributionBasis) : Decidable (∃ x, basis = .settled x) :=
  match basis with
  | .settled x => isTrue ⟨x, rfl⟩
  | .estimated _ => isFalse nofun
  | .kept => isFalse nofun

instance (e : ReductionEvent) (p : LedgerPosition) : Decidable (e.AppliesNothing p) :=
  inferInstanceAs (Decidable (_ ∨ _))

instance (s : LedgerSystem) (e : ReductionEvent) : Decidable (SettlementCovers s e) :=
  match h : e.settlement with
  | none => decidable_of_iff ((∃ x, s.basis e.order = .settled x) →
      e.price ≤ 0 ∨ s.position.basisPrice ≤ 0 ∨ e.AppliesNothing s.position)
      (by simp [SettlementCovers, h])
  | some _ => decidable_of_iff (s.position.lastApplied e.order ≤ e.cumulativeFill ∧
      e.cumulativeFill - s.position.lastApplied e.order ≤ s.position.executedQuantity ∧
      ∀ v ∈ e.authoritativeQuantity,
        s.position.executedQuantity - v ≤ e.cumulativeFill - s.position.lastApplied e.order)
      (by simp [SettlementCovers, h])

/-- A long row of `10` bought at `100`, before any reduction. -/
def unreducedLong : LedgerPosition where
  isShort := false
  isSimulation := false
  averageExecutionPrice := 100
  entryPrice := 100
  initialExecutedQuantity := 10
  totalExecutedQuantity := 10
  executedQuantity := 10
  quantity := 10
  remainingQuantity := 0
  closedQuantity := 0
  volumeUsd := 1000
  entryTradingFee := 1
  entryTradingFeeAllocated := 0
  entryAccountingComplete := true
  realizedPnlGross := 0
  realizedPnL := 0
  tradingFees := 0
  realizedPnlComplete := false
  realizedPnlSource := none
  settledOrderIds := []
  reductionAccounting := []

/-- A closing order has filled `2`, and its settlement is known. -/
def settledFill : ReductionEvent where
  order := "close"
  orderId := "close-order"
  cumulativeFill := 2
  authoritativeQuantity := none
  price := 110
  settlement := some ⟨110, 20, 19, 1, false⟩
  fill_nonneg := by norm_num
  authoritative_nonneg := nofun

/-- The same order has filled `5`, and only the price is known. -/
def unsettledFill : ReductionEvent where
  order := "close"
  orderId := "close-order"
  cumulativeFill := 5
  authoritativeQuantity := none
  price := 110
  settlement := none
  fill_nonneg := by norm_num
  authoritative_nonneg := nofun

lemma unreducedRow_unreducedLong : UnreducedRow unreducedLong :=
  ⟨rfl, by decide +kernel, by decide +kernel, by decide +kernel, by decide +kernel,
    by decide +kernel, rfl, rfl, by decide⟩

/-- A contribution taken from a settlement is replaced by a price estimate. -/
theorem settledContribution_replaced :
    ¬ ∀ (p₀ : LedgerPosition) (events events' : List ReductionEvent) (s t : LedgerSystem),
      UnreducedRow p₀ → run ledgerStep (.start p₀) events = some s →
        run ledgerStep s events' = some t → LedgerLaw p₀ t ∧ SettledKept s t := by
  intro h
  let s := (LedgerSystem.start unreducedLong).observe settledFill
  have hs : s.basis "close" = .settled ⟨"close-order", 2, 110, 20, 19, 1, false⟩ := by
    decide +kernel
  have ht : (s.observe unsettledFill).basis "close" = .estimated 110 := by
    decide +kernel
  obtain ⟨y, hy⟩ := (h unreducedLong [settledFill] [unsettledFill] s (s.observe unsettledFill)
    unreducedRow_unreducedLong rfl rfl).2 "close" _ hs
  rw [ht] at hy
  cases hy

/-! ### One call -/

/-- The quantity that a call applies. -/
def ReductionEvent.delta (e : ReductionEvent) (p : LedgerPosition) : ℚ :=
  evidencedReduction p.executedQuantity e.cumulativeFill (p.lastApplied e.order)
    e.authoritativeQuantity

/-- The entry of the order before the call. -/
def ReductionEvent.previous (e : ReductionEvent) (p : LedgerPosition) :
    Option ReductionContribution :=
  get? p.reductionAccounting e.order

lemma ReductionEvent.ownSettlement (e : ReductionEvent) (p : LedgerPosition) :
    (e.input p).ownSettlement = e.orderSettlement := by
  unfold ReductionInput.ownSettlement input orderSettlement
  cases e.settlement with
  | none => rfl
  | some amounts =>
    by_cases hid : e.orderId = ""
    · simp
    · simp

/-- What every call preserves without a condition. -/
structure LedgerInvariant (p₀ : LedgerPosition) (s : LedgerSystem) : Prop extends
    LedgerSums p₀ s where
  isSimulation : s.position.isSimulation = false
  executed_nonneg : 0 ≤ s.position.executedQuantity
  executed_le : s.position.executedQuantity ≤ p₀.executedQuantity
  closed_nonneg : 0 ≤ s.position.closedQuantity
  initial_le : s.position.initialExecutedQuantity ≤ s.position.totalExecutedQuantity
  tracked : s.position.closedQuantity =
    p₀.closedQuantity + total (·.quantity) s.position.reductionAccounting
  keys : KeysUnique s.position.reductionAccounting
  entries : ∀ entry ∈ s.position.reductionAccounting,
    0 < entry.2.quantity ∧ entry.2.baseQuantity = 0 ∧ 0 ≤ entry.2.entryFee
  settled_entry : ∀ order x, s.basis order = .settled x →
    (get? s.position.reductionAccounting order).isSome

section OneCall

variable {p₀ : LedgerPosition} {s : LedgerSystem}

lemma LedgerInvariant.lastApplied_nonneg (hI : LedgerInvariant p₀ s) (order : String) :
    0 ≤ s.position.lastApplied order := by
  unfold lastApplied
  cases hget : get? s.position.reductionAccounting order with
  | none => exact le_rfl
  | some c => exact (hI.entries _ (mem_of_get? hget)).1.le

lemma LedgerInvariant.delta_nonneg (hI : LedgerInvariant p₀ s) (e : ReductionEvent) :
    0 ≤ e.delta s.position :=
  evidencedReduction_nonneg hI.executed_nonneg _ _ _

lemma delta_le (e : ReductionEvent) (p : LedgerPosition) : e.delta p ≤ p.executedQuantity :=
  evidencedReduction_le _ _ _ _

section

variable (hI : LedgerInvariant p₀ s) (e : ReductionEvent)

include hI e

lemma LedgerInvariant.result_eq : reductionResult id s.position (e.input s.position) =
      { deltaApplied := e.delta s.position
        cumulativeApplied := s.position.lastApplied e.order + e.delta s.position
        nextQuantity := s.position.executedQuantity - e.delta s.position } := by
  unfold reductionResult
  rw [max_eq_right hI.executed_nonneg]
  exact reconcileCumulativeReductionWith_eq hI.executed_nonneg e.fill_nonneg
    (hI.lastApplied_nonneg e.order) e.authoritative_nonneg rfl rfl rfl

lemma LedgerInvariant.baseQuantity_eq : (e.input s.position).baseQuantity s.position = 0 := by
  unfold ReductionInput.baseQuantity ReductionInput.previous input lastApplied
  cases hget : get? s.position.reductionAccounting e.order with
  | none => exact max_eq_right le_rfl
  | some c => exact (hI.entries _ (mem_of_get? hget)).2.1

lemma LedgerInvariant.isEffective_iff : (e.input s.position).IsEffective id s.position ↔
      0 < e.delta s.position ∨ e.settlement.isSome ∧ (e.previous s.position).isSome := by
  unfold ReductionInput.IsEffective
  rw [hI.result_eq e]
  have hsett : (e.input s.position).settlement.isSome = e.settlement.isSome := by
    simp [input, orderSettlement]
  rw [hsett]
  rfl

end

end OneCall

variable (previous : Option ReductionContribution) (basis : ContributionBasis)

@[simp] lemma contributionAfter_quantity (q b f : ℚ) (c : Bool) :
    (contributionAfter p previous basis q b f c).quantity = q := by
  cases basis <;> rfl

@[simp] lemma contributionAfter_baseQuantity (q b f : ℚ) (c : Bool) :
    (contributionAfter p previous basis q b f c).baseQuantity = b := by
  cases basis <;> rfl

@[simp] lemma contributionAfter_entryFee (q b f : ℚ) (c : Bool) :
    (contributionAfter p previous basis q b f c).entryFee = f := by
  cases basis <;> rfl

@[simp] lemma contributionAfter_entryFeeComplete (q b f : ℚ) (c : Bool) :
    (contributionAfter p previous basis q b f c).entryFeeComplete = c := by
  cases basis <;> rfl

/-- **Entry-fee shares.** A new share is not negative, the allocated total changes by the
difference of the shares and stays within the entry fee. -/
lemma shareEntryFee_spec {p : LedgerPosition} {settlement : Option OrderSettlement}
    {entryFee before delta : ℚ} (h0 : 0 ≤ entryFee) (hle : entryFee ≤ p.entryTradingFeeAllocated)
    (hbd : p.entryTradingFeeAllocated ≤ p.entryTradingFee) (hdelta : 0 ≤ delta) :
    let fee := shareEntryFee id p settlement entryFee before delta
    0 ≤ fee.1 ∧ fee.2 = p.entryTradingFeeAllocated + fee.1 - entryFee ∧
      fee.2 ≤ p.entryTradingFee := by
  unfold shareEntryFee
  split
  · refine ⟨le_rfl, ?_, ?_⟩
    · simp only [max_eq_right (sub_nonneg.mpr hle)]
      ring
    · exact max_le (h0.trans (hle.trans hbd)) (by linarith)
  split
  · have hrem : max 0 (p.entryTradingFee - p.entryTradingFeeAllocated) =
        p.entryTradingFee - p.entryTradingFeeAllocated := max_eq_right (by linarith)
    rw [hrem]
    have haddit : 0 ≤ (if 0 < before then
        (p.entryTradingFee - p.entryTradingFeeAllocated) * min 1 (delta / before) else 0) ∧
        (if 0 < before then
          (p.entryTradingFee - p.entryTradingFeeAllocated) * min 1 (delta / before) else 0) ≤
        p.entryTradingFee - p.entryTradingFeeAllocated := by
      split
      · rename_i hbef
        have hmin0 : 0 ≤ min 1 (delta / before) := le_min zero_le_one (div_nonneg hdelta hbef.le)
        have hrem0 : 0 ≤ p.entryTradingFee - p.entryTradingFeeAllocated := by linarith
        exact ⟨mul_nonneg hrem0 hmin0, mul_le_of_le_one_right hrem0 (min_le_left _ _)⟩
      · exact ⟨le_rfl, by linarith⟩
    refine ⟨by linarith, ?_, ?_⟩ <;> simp only [id] <;> linarith
  · exact ⟨h0, by ring, hbd⟩

/-- What an effective call does to a position: the order gets the entry `c`. -/
structure Applies (p q : LedgerPosition) (e : ReductionEvent) (c : ReductionContribution) :
    Prop where
  isSimulation : q.isSimulation = p.isSimulation
  isShort : q.isShort = p.isShort
  basisPrice : q.basisPrice = p.basisPrice
  initial : q.initialExecutedQuantity = p.initialExecutedQuantity
  entryTradingFee : q.entryTradingFee = p.entryTradingFee
  accountingComplete : q.entryAccountingComplete = p.entryAccountingComplete
  executed : q.executedQuantity = p.executedQuantity - e.delta p
  closed : q.closedQuantity = p.closedQuantity + e.delta p
  total : q.totalExecutedQuantity = p.totalExecutedQuantity
  allocated : q.entryTradingFeeAllocated = ((e.input p).entryFee id p).2
  gross : q.realizedPnlGross = p.realizedPnlGross + c.gross - ((e.previous p).map (·.gross)).getD 0
  net : q.realizedPnL = p.realizedPnL + c.net - ((e.previous p).map (·.net)).getD 0
  fees : q.tradingFees = p.tradingFees + c.fees - ((e.previous p).map (·.fees)).getD 0
  accounting : q.reductionAccounting = put p.reductionAccounting e.order c
  complete : q.realizedPnlComplete = (e.input p).complete id p

/-- The entry that an effective call writes. -/
def ReductionEvent.entry (e : ReductionEvent) (p : LedgerPosition) : ReductionContribution :=
  contributionAfter p (e.previous p) ((e.input p).basis p) (p.lastApplied e.order + e.delta p) 0
    ((e.input p).entryFee id p).1
    (e.orderSettlement.any (·.netIncludesEntryFee) ||
      p.entryAccountingComplete && ((e.previous p).map (·.entryFeeComplete)).getD true)

section OneCall

variable {p₀ : LedgerPosition} {s : LedgerSystem}

lemma LedgerInvariant.next_eq (hI : LedgerInvariant p₀ s) (e : ReductionEvent) :
    (e.input s.position).next id s.position = e.entry s.position := by
  unfold next ReductionEvent.entry
  rw [hI.result_eq e, hI.baseQuantity_eq e, e.ownSettlement]
  rfl

variable {e : ReductionEvent}

lemma observe_of_not_effective (h : ¬ (e.input s.position).IsEffective id s.position) :
    s.observe e = s := by
  unfold LedgerSystem.observe applyReductionObservation
  rw [if_neg h, if_neg h]

lemma LedgerInvariant.applies (hI : LedgerInvariant p₀ s)
    (h : (e.input s.position).IsEffective id s.position) :
    Applies s.position (s.observe e).position e (e.entry s.position) := by
  have hexec := max_eq_right hI.executed_nonneg
  have hclos := max_eq_right hI.closed_nonneg
  have htot : max (max s.position.totalExecutedQuantity
      (s.position.executedQuantity + s.position.closedQuantity))
      s.position.initialExecutedQuantity = s.position.totalExecutedQuantity := by
    rw [hI.quantity, max_self, max_eq_left hI.initial_le]
  unfold LedgerSystem.observe applyReductionObservation
  simp only [if_pos h, hI.next_eq e, hI.result_eq e, hexec, hclos, htot]
  constructor <;> rfl

lemma observe_basis_self (h : (e.input s.position).IsEffective id s.position) :
    (s.observe e).basis e.order =
      (s.basis e.order).followedBy ((e.input s.position).basis s.position) := by
  simp only [LedgerSystem.observe, if_pos h, update_self]

variable (e)

lemma observe_basis_of_ne {order : String} (h : order ≠ e.order) :
    (s.observe e).basis order = s.basis order := by
  simp only [LedgerSystem.observe]
  split
  · exact update_of_ne h _ _
  · rfl

lemma previous_quantity (p : LedgerPosition) :
    ((e.previous p).map (·.quantity)).getD 0 = p.lastApplied e.order := rfl

variable {e}

lemma LedgerInvariant.entry_quantity_pos (hI : LedgerInvariant p₀ s)
    (h : (e.input s.position).IsEffective id s.position) :
    0 < s.position.lastApplied e.order + e.delta s.position := by
  have hnn := hI.lastApplied_nonneg e.order
  rcases (hI.isEffective_iff e).mp h with hdelta | ⟨-, hprev⟩
  · exact add_pos_of_nonneg_of_pos hnn hdelta
  · obtain ⟨c, hc⟩ := isSome_iff_exists.mp hprev
    have hpos := (hI.entries _ (mem_of_get? hc)).1
    have hlast : s.position.lastApplied e.order = c.quantity := by
      rw [← previous_quantity, hc]
      rfl
    rw [hlast]
    exact add_pos_of_pos_of_nonneg hpos (hI.delta_nonneg e)

variable (e)

lemma LedgerInvariant.previous_fee (hI : LedgerInvariant p₀ s) :
    0 ≤ ((e.previous s.position).map (·.entryFee)).getD 0 ∧
      ((e.previous s.position).map (·.entryFee)).getD 0 ≤ s.position.entryTradingFeeAllocated := by
  have hshar : ∀ entry ∈ s.position.reductionAccounting, 0 ≤ entry.2.entryFee :=
    fun entry hent => (hI.entries entry hent).2.2
  rw [hI.fee_shares]
  cases hc : e.previous s.position with
  | none =>
    refine ⟨le_rfl, ?_⟩
    exact List.sum_nonneg fun x hx => by
      obtain ⟨entry, hent, rfl⟩ := List.mem_map.mp hx
      exact hshar entry hent
  | some c =>
    exact ⟨hshar _ (mem_of_get? hc), le_total_of_get? hshar hc⟩

lemma LedgerInvariant.entryFee_spec (hI : LedgerInvariant p₀ s) :
    let fee := (e.input s.position).entryFee id s.position
    0 ≤ fee.1 ∧ fee.2 = s.position.entryTradingFeeAllocated + fee.1 -
        ((e.previous s.position).map (·.entryFee)).getD 0 ∧
      fee.2 ≤ s.position.entryTradingFee := by
  obtain ⟨h0, hle⟩ := hI.previous_fee e
  refine shareEntryFee_spec h0 hle hI.fee_bound ?_
  rw [hI.result_eq e]
  exact hI.delta_nonneg e

/-- An observation keeps the ledger exact. -/
lemma LedgerInvariant.observe (hI : LedgerInvariant p₀ s) :
    LedgerInvariant p₀ (s.observe e) := by
  by_cases h : (e.input s.position).IsEffective id s.position
  swap
  · rw [observe_of_not_effective h]
    exact hI
  have ha := hI.applies h
  have hdelta := hI.delta_nonneg e
  have hle := delta_le e s.position
  obtain ⟨hfee0, hfee, hfeeBd⟩ := hI.entryFee_spec e
  have htot : ∀ f : ReductionContribution → ℚ,
      total f (s.observe e).position.reductionAccounting =
        total f s.position.reductionAccounting + f (e.entry s.position) -
          ((e.previous s.position).map f).getD 0 := by
    intro f
    rw [ha.accounting, total_put]
    rfl
  have hqty : (e.entry s.position).quantity =
      s.position.lastApplied e.order + e.delta s.position := contributionAfter_quantity ..
  have hentFee : (e.entry s.position).entryFee = ((e.input s.position).entryFee id s.position).1 :=
    contributionAfter_entryFee ..
  refine
    { isSimulation := ha.isSimulation.trans hI.isSimulation
      executed_nonneg := by rw [ha.executed]; linarith
      executed_le := by rw [ha.executed]; linarith [hI.executed_le]
      closed_nonneg := by rw [ha.closed]; linarith [hI.closed_nonneg]
      quantity := by rw [ha.executed, ha.closed, ha.total]; linarith [hI.quantity]
      initial_le := by rw [ha.initial, ha.total]; exact hI.initial_le
      tracked := ?_
      keys := by rw [ha.accounting]; exact hI.keys.put _ _
      entries := fun entry hent => ?_
      gross := by rw [ha.gross, htot, hI.gross]; ring
      net := by rw [ha.net, htot, hI.net]; ring
      fees := by rw [ha.fees, htot, hI.fees]; ring
      fee_shares := by rw [ha.allocated, htot, hfee, hentFee, hI.fee_shares]
      fee_bound := by rw [ha.allocated, ha.entryTradingFee]; exact hfeeBd
      settled_entry := fun order x hx => ?_ }
  · rw [ha.closed, htot, hqty, previous_quantity, hI.tracked]
    ring
  · rw [ha.accounting] at hent
    rcases mem_put hent with rfl | hold
    · exact ⟨hqty ▸ hI.entry_quantity_pos h, contributionAfter_baseQuantity .., hentFee ▸ hfee0⟩
    · exact hI.entries entry hold
  · rw [ha.accounting]
    by_cases ho : order = e.order
    · rw [ho, get?_put_self]
      rfl
    · rw [get?_put_of_ne _ _ ho]
      exact hI.settled_entry order x (observe_basis_of_ne e ho ▸ hx)

variable {e}

end OneCall

section Repeated

variable {p₀ : LedgerPosition} {s : LedgerSystem}

variable {e : ReductionEvent}

lemma Applies.lastApplied {p q : LedgerPosition} {c : ReductionContribution}
    (ha : Applies p q e c) :
    q.lastApplied e.order = c.quantity := by
  unfold LedgerPosition.lastApplied
  rw [ha.accounting, get?_put_self]
  rfl

lemma LedgerInvariant.delta_repeated (hI : LedgerInvariant p₀ s)
    (h : (e.input s.position).IsEffective id s.position) : e.delta (s.observe e).position = 0 := by
  have ha := hI.applies h
  have hnn := (hI.observe e).executed_nonneg
  have hlast : (s.observe e).position.lastApplied e.order =
      s.position.lastApplied e.order + e.delta s.position :=
    ha.lastApplied.trans (contributionAfter_quantity ..)
  rw [ha.executed] at hnn
  -- either nothing is open, or the evidence was applied completely
  rcases min_choice s.position.executedQuantity
    (max (max 0 (e.cumulativeFill - s.position.lastApplied e.order))
      (e.authoritativeQuantity.elim 0 fun v =>
        max 0 (s.position.executedQuantity - min s.position.executedQuantity v))) with hmin | hmin
  · have hall : e.delta s.position = s.position.executedQuantity := hmin
    refine le_antisymm ?_ ((hI.observe e).delta_nonneg e)
    calc e.delta (s.observe e).position ≤ (s.observe e).position.executedQuantity := delta_le ..
      _ = 0 := by rw [ha.executed, hall, sub_self]
  · have heq : e.delta s.position = max (max 0 (e.cumulativeFill - s.position.lastApplied e.order))
          (e.authoritativeQuantity.elim 0 fun v =>
            max 0 (s.position.executedQuantity - min s.position.executedQuantity v)) := hmin
    have hfill : e.cumulativeFill - s.position.lastApplied e.order ≤ e.delta s.position := by
      rw [heq]
      exact le_max_of_le_left (le_max_right _ _)
    unfold ReductionEvent.delta evidencedReduction
    rw [hlast, ha.executed, max_eq_left (by linarith : e.cumulativeFill -
      (s.position.lastApplied e.order + e.delta s.position) ≤ 0)]
    cases hauth : e.authoritativeQuantity with
    | none => exact min_eq_right hnn
    | some v =>
      have hvenue : s.position.executedQuantity - min s.position.executedQuantity v ≤
          e.delta s.position := by
        rw [heq, hauth]
        exact le_max_of_le_right (le_max_right _ _)
      have hle : s.position.executedQuantity - e.delta s.position ≤ v := by
        rcases min_choice s.position.executedQuantity v with hv | hv
        · have := min_eq_left_iff.mp hv
          linarith
        · linarith
      simp only [elim_some, min_eq_left hle, sub_self]
      exact min_eq_right hnn

/-- An entry fill seen again books nothing new. -/
lemma LedgerInvariant.entry_repeated (hI : LedgerInvariant p₀ s)
    (h : (e.input s.position).IsEffective id s.position) :
    e.entry (s.observe e).position = e.entry s.position ∧
      ((e.input (s.observe e).position).entryFee id (s.observe e).position).2 =
        (s.observe e).position.entryTradingFeeAllocated := by
  have ha := hI.applies h
  have hI' := hI.observe e
  have hprev : e.previous (s.observe e).position = some (e.entry s.position) := by
    unfold ReductionEvent.previous
    rw [ha.accounting, get?_put_self]
  have hdelta := hI.delta_repeated h
  have hlast : (s.observe e).position.lastApplied e.order =
      s.position.lastApplied e.order + e.delta s.position :=
    ha.lastApplied.trans (contributionAfter_quantity ..)
  have hbas : (e.input (s.observe e).position).basis (s.observe e).position =
      (e.input s.position).basis s.position := by
    unfold basis executionPrice
    rw [e.ownSettlement, e.ownSettlement, ha.basisPrice]
    rfl
  -- the share of the entry fee is not changed by a call that applies nothing
  have halloc0 : 0 ≤ (s.observe e).position.entryTradingFeeAllocated := by
    obtain ⟨h0, hle⟩ := hI'.previous_fee e
    exact h0.trans hle
  have hfee : (e.input (s.observe e).position).entryFee id (s.observe e).position =
      (((e.input s.position).entryFee id s.position).1,
        (s.observe e).position.entryTradingFeeAllocated) := by
    have hshare : ((e.previous (s.observe e).position).map (·.entryFee)).getD 0 =
        ((e.input s.position).entryFee id s.position).1 := by
      rw [hprev]
      exact contributionAfter_entryFee ..
    have hrep : (e.input (s.observe e).position).entryFee id (s.observe e).position =
        shareEntryFee id (s.observe e).position e.orderSettlement
          ((e.input s.position).entryFee id s.position).1
          (max 0 (s.observe e).position.executedQuantity) 0 := by
      have hunfol : (e.input (s.observe e).position).entryFee id (s.observe e).position =
          shareEntryFee id (s.observe e).position (e.input (s.observe e).position).ownSettlement
            (((e.previous (s.observe e).position).map (·.entryFee)).getD 0)
            (max 0 (s.observe e).position.executedQuantity)
            (reductionResult id (s.observe e).position
              (e.input (s.observe e).position)).deltaApplied := rfl
      rw [hunfol, e.ownSettlement, hshare, hI'.result_eq e, hdelta]
    rw [hrep]
    unfold shareEntryFee
    by_cases hincl : e.orderSettlement.any (·.netIncludesEntryFee)
    · have hzero : ((e.input s.position).entryFee id s.position).1 = 0 := by
        unfold entryFee shareEntryFee
        rw [e.ownSettlement, if_pos hincl]
      rw [if_pos hincl, hzero, sub_zero, max_eq_right halloc0]
    · rw [if_neg hincl, if_neg (lt_irrefl 0)]
  refine ⟨?_, by rw [hfee]⟩
  have hcomp : (e.orderSettlement.any (·.netIncludesEntryFee) ||
      (s.observe e).position.entryAccountingComplete &&
        ((e.previous (s.observe e).position).map (·.entryFeeComplete)).getD true) =
      (e.orderSettlement.any (·.netIncludesEntryFee) || s.position.entryAccountingComplete &&
        ((e.previous s.position).map (·.entryFeeComplete)).getD true) := by
    rw [hprev, ha.accountingComplete]
    simp only [ReductionEvent.entry]
    cases e.orderSettlement.any (·.netIncludesEntryFee) <;>
      cases s.position.entryAccountingComplete <;> simp
  conv_lhs => unfold ReductionEvent.entry
  rw [hcomp, hfee, hbas, hdelta, add_zero, hlast, hprev]
  conv_rhs => unfold ReductionEvent.entry
  unfold contributionAfter
  cases hb : (e.input s.position).basis s.position with
  | settled settlement => rfl
  | estimated price => simp only [ha.isShort, ha.basisPrice, ha.isSimulation]
  | kept => simp only [ReductionEvent.entry, hb, contributionAfter, map_some,
      getD_some]

lemma LedgerInvariant.repeated (hI : LedgerInvariant p₀ s) (e : ReductionEvent) :
    SameAmounts ((s.observe e).observe e).position (s.observe e).position := by
  by_cases h : (e.input s.position).IsEffective id s.position
  swap
  · rw [observe_of_not_effective h, observe_of_not_effective h]
    exact ⟨rfl, rfl, rfl, rfl, rfl, rfl, rfl, rfl⟩
  by_cases h' : (e.input (s.observe e).position).IsEffective id (s.observe e).position
  swap
  · rw [observe_of_not_effective h']
    exact ⟨rfl, rfl, rfl, rfl, rfl, rfl, rfl, rfl⟩
  have ha := hI.applies h
  have ha' := (hI.observe e).applies h'
  have hdelta := hI.delta_repeated h
  obtain ⟨hent, hfee⟩ := hI.entry_repeated h
  rw [hent] at ha'
  have hget : get? (s.observe e).position.reductionAccounting e.order =
      some (e.entry s.position) := by
    rw [ha.accounting, get?_put_self]
  have hprev : ∀ f : ReductionContribution → ℚ,
      ((e.previous (s.observe e).position).map f).getD 0 = f (e.entry s.position) := by
    intro f
    unfold ReductionEvent.previous
    rw [hget]
    rfl
  refine ⟨?_, ?_, ?_, ?_, ha'.total, ?_, ?_, ?_⟩
  · rw [ha'.gross, hprev, add_sub_cancel_right]
  · rw [ha'.net, hprev, add_sub_cancel_right]
  · rw [ha'.fees, hprev, add_sub_cancel_right]
  · rw [ha'.allocated, hfee]
  · rw [ha'.executed, hdelta, sub_zero]
  · rw [ha'.closed, hdelta, add_zero]
  · rw [ha'.accounting]
    exact put_of_get? hget

end Repeated

/-! ### Settled contributions -/

/-- The tolerance below which untracked closed quantity is ignored. -/
def untrackedTolerance (executedQuantity : ℚ) : ℚ :=
  max (1 / 10 ^ 10) (executedQuantity * (1 / 10 ^ 10))

/-- The row starts with no closed quantity, or with more than the tolerance ignores. -/
def TracksClosures : Prop :=
  p.closedQuantity = 0 ∨ untrackedTolerance p.executedQuantity < p.closedQuantity

/-- The entry represents a settled order by the settlement's own quantity and amounts. -/
def RepresentsSettlement (c : ReductionContribution) : Prop :=
  ∃ settlement, basis = .settled settlement ∧ c.quantity = settlement.filledQuantity ∧
    c.net = settlement.netRealizedPnl - c.entryFee

/-- What calls that meet the condition preserve. -/
structure CompletenessInvariant (p₀ : LedgerPosition) (s : LedgerSystem) : Prop where
  flag : s.position.realizedPnlComplete = true → p₀.closedQuantity = 0 ∧
    ∀ entry ∈ s.position.reductionAccounting, entry.2.complete = true
  represents : ∀ entry ∈ s.position.reductionAccounting, entry.2.complete = true →
    RepresentsSettlement (s.basis entry.1) entry.2

section Settled

variable {p₀ : LedgerPosition} {s : LedgerSystem}

variable {e : ReductionEvent}

lemma basis_of_settlement {amounts : SettledAmounts} (h : e.settlement = some amounts)
    (hpos : 0 < e.cumulativeFill) (p : LedgerPosition) :
    ∃ settlement, (e.input p).basis p = .settled settlement ∧
      settlement.filledQuantity = e.cumulativeFill := by
  obtain ⟨settlement, hown, hfill⟩ : ∃ settlement, e.orderSettlement = some settlement ∧
      settlement.filledQuantity = e.cumulativeFill := by
    simp [orderSettlement, h]
  refine ⟨settlement, ?_, hfill⟩
  unfold basis
  rw [e.ownSettlement p, hown, filter_some_pos (by simpa [hfill] using hpos)]

lemma basis_of_no_settlement (h : e.settlement = none) (p : LedgerPosition) : (e.input p).basis p =
      if 0 < e.price ∧ 0 < p.basisPrice then .estimated e.price else .kept := by
  have hown : (e.input p).ownSettlement = none := by
    rw [e.ownSettlement p, orderSettlement, h]
    rfl
  unfold basis executionPrice
  rw [hown]
  simp [input, orElseZero]

lemma LedgerInvariant.delta_eq_zero (hI : LedgerInvariant p₀ s) (h : e.AppliesNothing s.position) :
    e.delta s.position = 0 := by
  rcases h with hopen | ⟨hfill, hvenue⟩
  · exact le_antisymm (hopen ▸ delta_le e s.position) (hI.delta_nonneg e)
  · have hrepor : max 0 (e.cumulativeFill - s.position.lastApplied e.order) = 0 :=
      max_eq_left (by linarith)
    unfold ReductionEvent.delta evidencedReduction
    rw [hrepor]
    cases hauth : e.authoritativeQuantity with
    | none => exact min_eq_right hI.executed_nonneg
    | some v =>
      simp only [elim_some, min_eq_left (hvenue v hauth), sub_self]
      exact min_eq_right hI.executed_nonneg

lemma applied_eq_fill (hlast : s.position.lastApplied e.order ≤ e.cumulativeFill)
    (hfits : e.cumulativeFill - s.position.lastApplied e.order ≤ s.position.executedQuantity)
    (hvenue : ∀ v ∈ e.authoritativeQuantity,
      s.position.executedQuantity - v ≤ e.cumulativeFill - s.position.lastApplied e.order) :
    s.position.lastApplied e.order + e.delta s.position = e.cumulativeFill := by
  have hrepor : max 0 (e.cumulativeFill - s.position.lastApplied e.order) =
      e.cumulativeFill - s.position.lastApplied e.order := max_eq_right (by linarith)
  have hauth : (e.authoritativeQuantity.elim 0 fun v =>
      max 0 (s.position.executedQuantity - min s.position.executedQuantity v)) ≤
        e.cumulativeFill - s.position.lastApplied e.order := by
    cases hauth : e.authoritativeQuantity with
    | none => exact sub_nonneg.mpr hlast
    | some v =>
      refine max_le (sub_nonneg.mpr hlast) ?_
      rcases min_choice s.position.executedQuantity v with hmin | hmin <;> rw [hmin]
      · linarith
      · exact hvenue v hauth
  have hdelta : e.delta s.position = e.cumulativeFill - s.position.lastApplied e.order := by
    unfold ReductionEvent.delta evidencedReduction
    rw [hrepor, max_eq_left hauth, min_eq_right hfits]
  rw [hdelta]
  ring

lemma LedgerInvariant.lastApplied_pos (hI : LedgerInvariant p₀ s) {order : String}
    {x : OrderSettlement} (h : s.basis order = .settled x) : 0 < s.position.lastApplied order := by
  obtain ⟨c, hc⟩ := isSome_iff_exists.mp (hI.settled_entry order x h)
  have hpos := (hI.entries _ (mem_of_get? hc)).1
  simpa [lastApplied, hc] using hpos

lemma LedgerInvariant.settledKept_observe (hI : LedgerInvariant p₀ s)
    (hcond : SettlementCovers s e) :
    SettledKept s (s.observe e) := by
  intro order x hx
  by_cases h : (e.input s.position).IsEffective id s.position
  swap
  · rw [observe_of_not_effective h]
    exact ⟨x, hx⟩
  by_cases ho : order = e.order
  swap
  · exact ⟨x, (observe_basis_of_ne e ho).trans hx⟩
  subst ho
  rw [observe_basis_self h]
  unfold SettlementCovers at hcond
  cases hs : e.settlement with
  | some amounts =>
    simp only [hs] at hcond
    have hpos : 0 < e.cumulativeFill := (hI.lastApplied_pos hx).trans_le hcond.1
    obtain ⟨y, hy, -⟩ := basis_of_settlement hs hpos s.position
    exact ⟨y, by rw [hy]; rfl⟩
  | none =>
    simp only [hs] at hcond
    have hdelta : 0 < e.delta s.position := by
      rcases (hI.isEffective_iff e).mp h with hdelta | ⟨hsome, -⟩
      · exact hdelta
      · rw [hs] at hsome
        cases hsome
    have hkept : (e.input s.position).basis s.position = .kept := by
      rw [basis_of_no_settlement hs, if_neg]
      rintro ⟨hpr, hbas⟩
      rcases hcond ⟨x, hx⟩ with hle | hle | hnone
      · exact absurd hpr (not_lt.mpr hle)
      · exact absurd hbas (not_lt.mpr hle)
      · exact absurd hdelta (by rw [hI.delta_eq_zero hnone]; exact lt_irrefl 0)
    exact ⟨x, by rw [hkept]; exact hx⟩

lemma LedgerInvariant.entry_represents (hI : LedgerInvariant p₀ s) (hcond : SettlementCovers s e)
    (h : (e.input s.position).IsEffective id s.position)
    (hcomp : (e.entry s.position).complete = true) :
    RepresentsSettlement ((s.observe e).basis e.order) (e.entry s.position) := by
  have hpos := hI.entry_quantity_pos h
  rw [observe_basis_self h]
  cases hs : e.settlement with
  | none =>
    -- without a settlement the entry is an estimate or incomplete
    have hb := basis_of_no_settlement hs s.position
    unfold ReductionEvent.entry at hcomp
    rw [hb] at hcomp
    split at hcomp
    · simp [contributionAfter, hI.isSimulation] at hcomp
    · simp [contributionAfter] at hcomp
  | some amounts =>
    unfold SettlementCovers at hcond
    simp only [hs] at hcond
    have hfill := applied_eq_fill hcond.1 hcond.2.1 hcond.2.2
    obtain ⟨settlement, hb, hfille⟩ := basis_of_settlement hs (hfill ▸ hpos) s.position
    refine ⟨settlement, by rw [hb]; rfl, ?_, ?_⟩
    · rw [hfille, ← hfill]
      exact contributionAfter_quantity ..
    · have hne : settlement.filledQuantity ≠ 0 := by
        rw [hfille, ← hfill]
        exact hpos.ne'
      unfold ReductionEvent.entry
      rw [hb, hfill, ← hfille]
      simp only [contributionAfter, sub_zero,
        max_eq_right (show 0 ≤ settlement.filledQuantity by rw [hfille]; exact e.fill_nonneg),
        div_self hne, min_self, mul_one]

lemma CompletenessInvariant.observe (hc : CompletenessInvariant p₀ s) (hI : LedgerInvariant p₀ s)
    (hst : TracksClosures p₀) (hcond : SettlementCovers s e) :
    CompletenessInvariant p₀ (s.observe e) := by
  by_cases h : (e.input s.position).IsEffective id s.position
  swap
  · rw [observe_of_not_effective h]
    exact hc
  have ha := hI.applies h
  refine ⟨fun hflag => ?_, fun entry hent hcomp => ?_⟩
  · rw [ha.complete, complete, hI.next_eq e, Bool.and_eq_true,
      decide_eq_true_eq] at hflag
    obtain ⟨huntr, hall⟩ := hflag
    refine ⟨?_, fun entry hent => ?_⟩
    · -- the untracked quantity is what the row had closed before any call
      rcases hst with hzero | htoler
      · exact hzero
      · rw [max_eq_right hI.closed_nonneg, max_eq_right hI.executed_nonneg, hI.tracked,
          add_sub_cancel_right] at huntr
        have hmono : untrackedTolerance s.position.executedQuantity ≤
            untrackedTolerance p₀.executedQuantity :=
          max_le_max le_rfl (mul_le_mul_of_nonneg_right hI.executed_le (by norm_num))
        have := (le_max_right 0 p₀.closedQuantity).trans huntr
        exact absurd (this.trans hmono) (not_le.mpr htoler)
    · rw [ha.accounting] at hent
      exact List.all_eq_true.mp hall entry hent
  · rw [ha.accounting] at hent
    rcases hI.keys.mem_put hent with rfl | ⟨hold, hne⟩
    · exact hI.entry_represents hcond h hcomp
    · rw [observe_basis_of_ne e hne]
      exact hc.represents entry hold hcomp

end Settled

variable {p₀ : LedgerPosition} {s t : LedgerSystem}

lemma ledgerInvariant_start (h : UnreducedRow p₀) : LedgerInvariant p₀ (.start p₀) := by
  have hzero : ∀ f : ReductionContribution → ℚ, total f p₀.reductionAccounting = 0 := by
    intro f
    rw [h.accounting]
    rfl
  exact
    { isSimulation := h.isSimulation
      executed_nonneg := h.executed_nonneg
      executed_le := le_rfl
      closed_nonneg := h.closed_nonneg
      quantity := h.quantity
      initial_le := h.initial_le
      tracked := by simp [LedgerSystem.start, hzero]
      keys := by simp [LedgerSystem.start, h.accounting, KeysUnique]
      entries := by simp [LedgerSystem.start, h.accounting]
      gross := by simp [LedgerSystem.start, hzero]
      net := by simp [LedgerSystem.start, hzero]
      fees := by simp [LedgerSystem.start, hzero]
      fee_shares := by simp [LedgerSystem.start, hzero, h.unallocated]
      fee_bound := by simpa [LedgerSystem.start, h.unallocated] using h.fee_nonneg
      settled_entry := nofun }

lemma completenessInvariant_start (h : UnreducedRow p₀) : CompletenessInvariant p₀ (.start p₀) where
  flag hflag := ⟨h.complete hflag, by simp [LedgerSystem.start, h.accounting]⟩
  represents := by simp [LedgerSystem.start, h.accounting]

lemma LedgerInvariant.law (hI : LedgerInvariant p₀ s) (hc : CompletenessInvariant p₀ s) :
    LedgerLaw p₀ s where
  toLedgerSums := hI.toLedgerSums
  repeated := hI.repeated
  complete hflag := by
    obtain ⟨hzero, hall⟩ := hc.flag hflag
    refine ⟨by rw [hI.tracked, hzero, zero_add], fun entry hent => ?_⟩
    exact hc.represents entry hent (hall entry hent)

lemma ledgerInvariant_run (hst : TracksClosures p₀) {events : List ReductionEvent}
    (hs : LedgerInvariant p₀ s ∧ CompletenessInvariant p₀ s)
    (hcond : Meets ledgerStep SettlementCovers s events) (h : run ledgerStep s events = some t) :
    LedgerInvariant p₀ t ∧ CompletenessInvariant p₀ t := by
  refine invariant_of_meets (I := fun r => LedgerInvariant p₀ r ∧ CompletenessInvariant p₀ r)
    (fun r e r' hr he hstep => ?_) hs hcond h
  cases hstep
  exact ⟨hr.1.observe e, hr.2.observe hr.1 hst he⟩

lemma settledKept_run {events : List ReductionEvent} (hI : LedgerInvariant p₀ s)
    (hcond : Meets ledgerStep SettlementCovers s events) (h : run ledgerStep s events = some t) :
    SettledKept s t := by
  induction events generalizing s with
  | nil =>
    obtain rfl : s = t := by simpa using h
    exact fun _ x hx => ⟨x, hx⟩
  | cons e events ih =>
    obtain ⟨r, hr, hrun⟩ := run_cons_eq_some.mp h
    cases hr
    intro order x hx
    obtain ⟨y, hy⟩ := hI.settledKept_observe hcond.1 order x hx
    exact ih (hI.observe e) (hcond.2 _ rfl) hrun order y hy

/-- **The reduction ledger is exact when settlements are kept.**  After calls that meet the
condition, for any number of orders, the law holds, and settled contributions stay settled. -/
theorem reductionLedger_exact (p₀ : LedgerPosition) (hrow : UnreducedRow p₀)
    (hstart : TracksClosures p₀) (events events' : List ReductionEvent) (s t : LedgerSystem)
    (hcond : Meets ledgerStep SettlementCovers (.start p₀) (events ++ events'))
    (hs : run ledgerStep (.start p₀) events = some s) (ht : run ledgerStep s events' = some t) :
    LedgerLaw p₀ t ∧ SettledKept s t := by
  have hI : LedgerInvariant p₀ s ∧ CompletenessInvariant p₀ s :=
    ledgerInvariant_run hstart ⟨ledgerInvariant_start hrow, completenessInvariant_start hrow⟩
      hcond.left hs
  have hcond' : Meets ledgerStep SettlementCovers s events' := hcond.right hs
  obtain ⟨hIt, hct⟩ := ledgerInvariant_run hstart hI hcond' ht
  exact ⟨hIt.law hct, settledKept_run hI.1 hcond' ht⟩

/-- The closing order has filled `5`, with its settlement. -/
def settledRest : ReductionEvent where
  order := "close"
  orderId := "close-order"
  cumulativeFill := 5
  authoritativeQuantity := some 5
  price := 110
  settlement := some ⟨110, 50, 48, 2, false⟩
  fill_nonneg := by norm_num
  authoritative_nonneg := by
    rintro v ⟨⟩
    norm_num

theorem reductionLedger_exact_settledRest :
    ∃ s t : LedgerSystem, s.basis "close" = .settled ⟨"close-order", 2, 110, 20, 19, 1, false⟩ ∧
      t.position.realizedPnlComplete = true ∧ LedgerLaw unreducedLong t ∧ SettledKept s t := by
  let s := (LedgerSystem.start unreducedLong).observe settledFill
  let t := s.observe settledRest
  exact ⟨s, t, by decide +kernel, by decide +kernel,
    reductionLedger_exact unreducedLong unreducedRow_unreducedLong (.inl rfl) [settledFill]
      [settledRest] s t (by decide +kernel) rfl rfl⟩

/-- **The ledger balances without a condition.**  After every sequence of calls for any number of
orders the amounts, the fee shares and the quantities of the row are those of its contributions, and
repeating a call changes no amount. -/
theorem ledger_balances (p₀ : LedgerPosition) (hrow : UnreducedRow p₀)
    (events : List ReductionEvent) :
    LedgerInvariant p₀ (events.foldl LedgerSystem.observe (.start p₀)) ∧ ∀ e, SameAmounts
        (((events.foldl LedgerSystem.observe (.start p₀)).observe e).observe e).position
        ((events.foldl LedgerSystem.observe (.start p₀)).observe e).position := by
  have hI : LedgerInvariant p₀ (events.foldl LedgerSystem.observe (.start p₀)) :=
    List.foldlRecOn events _ (ledgerInvariant_start hrow) fun s hI e _ => hI.observe e
  exact ⟨hI, hI.repeated⟩

/-- Also where a settled contribution is replaced by an estimate. -/
theorem ledger_balances_unsettledFill : LedgerInvariant unreducedLong
    (((LedgerSystem.start unreducedLong).observe settledFill).observe unsettledFill) :=
  (ledger_balances unreducedLong unreducedRow_unreducedLong [settledFill, unsettledFill]).1

end CtsEngine
