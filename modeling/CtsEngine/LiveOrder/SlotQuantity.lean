import CtsEngine.Foundation.JsValue
import CtsEngine.LiveOrder.ReductionLedger
import CtsEngine.LivePosition.Save

/-!
# The quantity of a row on a shared slot

The venue reports one quantity for each slot, a symbol with a direction.
`reconcileAuthoritativeExchangeQuantity` of `live-stage.ts` takes what the other own rows hold off
it and moves the row to the rest, but up only as far as the open orders of the row explain it: the
unfilled rest of the entry and of a pending accumulation.

Quantities are exact rationals.  Prices, the notional, the ledger of exchange adjustments, the
signal risk and the records of progress and of the Block and DCA legs are left out: no quantity of
the row is computed from them.
-/

namespace CtsEngine

/-! ## The row -/

/-- `pendingAccumulation`, an accumulation order whose fill is not complete. -/
structure PendingAccumulation where
  clientOrderId : String
  /-- `""` until the venue has answered with an order id. -/
  orderId : String := ""
  requestedQuantity : ℚ
  positionQuantityBefore : ℚ
  /-- Cumulative quantity of this order that is already applied. -/
  appliedFilledQuantity : ℚ := 0
  absenceConfirmations : ℕ := 0

/-- The quantities of a live position and its pending accumulation. -/
structure SlotRow where
  status : LiveStatus
  quantity : ℚ
  executedQuantity : ℚ
  remainingQuantity : ℚ
  closedQuantity : ℚ
  totalExecutedQuantity : ℚ
  initialExecutedQuantity : Option ℚ
  blockBaseQuantity : Option ℚ
  pendingAccumulation : Option PendingAccumulation

/-- The tolerance of a quantity: `Math.max(1e-12, quantity * 1e-8)`. -/
def quantityTolerance (quantity : ℚ) : ℚ := max (1 / 10 ^ 12) (quantity * (1 / 10 ^ 8))

/-- The orders fill a requested quantity, within its tolerance. -/
def PendingAccumulation.isComplete (pending : PendingAccumulation) (filled : ℚ) : Bool :=
  decide (pending.requestedQuantity - quantityTolerance pending.requestedQuantity ≤ filled)

/-- What `applyReductionObservation` does to the quantities.  It does nothing unless a quantity is
applied or `corrects`: a settlement came for an order that has an entry already. -/
def SlotRow.applyReduction (row : SlotRow) (reportedFilledQuantity previouslyAppliedQuantity : ℚ)
    (authoritativeQuantity : Option ℚ) (corrects : Bool) : SlotRow :=
  let before := max 0 row.executedQuantity
  let closedBefore := max 0 row.closedQuantity
  let result := reconcileCumulativeReductionWith id before reportedFilledQuantity
    previouslyAppliedQuantity authoritativeQuantity
  if 0 < result.deltaApplied ∨ corrects then
    { row with
      totalExecutedQuantity := max (max row.totalExecutedQuantity (before + closedBefore))
        (row.initialExecutedQuantity.getD 0)
      closedQuantity := closedBefore + result.deltaApplied
      executedQuantity := result.nextQuantity
      quantity := result.nextQuantity
      remainingQuantity := 0 }
  else row

/-! ## The venue quantity -/

/-- The statuses of a row that `ownSiblingSlotQuantity` counts. -/
def LiveStatus.isCountedSibling : LiveStatus → Bool
  | .opened | .filled | .partiallyFilled | .closingPartial => true
  | _ => false

/-- `ENTRY_ORDER_WORKING_STATUSES`, as far as the statuses of a live position go. -/
def LiveStatus.isEntryWorking : LiveStatus → Bool
  | .pending | .placed | .partiallyFilled => true
  | _ => false

/-- What a row adds to `ownSiblingSlotQuantity` of another row. -/
def SlotRow.siblingQuantity (row : SlotRow) : ℚ :=
  if row.status.isCountedSibling then max 0 row.executedQuantity else 0

/-- `pendingAccumulationUnfilledQuantity`. -/
def SlotRow.pendingUnfilledQuantity (row : SlotRow) : ℚ :=
  match row.pendingAccumulation with
  | none => 0
  | some pending =>
    if trim pending.orderId = "" then 0
    else
      let filledAboveBaseline := max 0 (row.executedQuantity - pending.positionQuantityBefore)
      let applied := max 0 pending.appliedFilledQuantity
      max 0 (max 0 pending.requestedQuantity - max filledAboveBaseline applied)

/-- The quantity up to which the orders of a row explain it. -/
def SlotRow.attributableCeiling (row : SlotRow) : ℚ :=
  row.executedQuantity + ((if row.status.isEntryWorking then max 0 row.remainingQuantity else 0) +
      row.pendingUnfilledQuantity)

/-- `reconcileInitialEntryBaseQuantity`. -/
def SlotRow.reconcileInitialEntryBase (row : SlotRow) (observed : ℚ) : SlotRow :=
  if 0 < observed then
    let nextInitial := max (max 0 (row.initialExecutedQuantity.getD 0)) observed
    { row with
      initialExecutedQuantity := some nextInitial
      blockBaseQuantity := some (max (max 0 (row.blockBaseQuantity.getD 0)) nextInitial) }
  else row

/-- The pending accumulation after a cumulative fill of its order. -/
def PendingAccumulation.afterFill (pending : PendingAccumulation) (filled : ℚ) :
    Option PendingAccumulation :=
  if pending.isComplete filled then none else some { pending with appliedFilledQuantity := filled }

def SlotRow.raiseQuantities (row : SlotRow) (exchangeQuantity : ℚ) : SlotRow :=
  let quantity := max row.quantity exchangeQuantity
  { row with
    executedQuantity := exchangeQuantity
    quantity := quantity
    remainingQuantity := max 0 (quantity - exchangeQuantity)
    totalExecutedQuantity := max row.totalExecutedQuantity (exchangeQuantity + row.closedQuantity) }

/-- The initial quantity and the Block base of a row that is raised from `before`. -/
def SlotRow.raiseBasis (row before : SlotRow) : SlotRow :=
  let based :=
    if before.pendingAccumulation.isNone ∧ 0 < max 0 before.remainingQuantity then
      row.reconcileInitialEntryBase
        (if 0 < row.quantity then min row.executedQuantity row.quantity else row.executedQuantity)
    else row
  let initial := based.initialExecutedQuantity <|>
    some (if 0 < before.executedQuantity then before.executedQuantity else row.executedQuantity)
  { based with
    initialExecutedQuantity := initial
    blockBaseQuantity := based.blockBaseQuantity <|> initial }

/-- The upward branch of `reconcileAuthoritativeExchangeQuantity`. -/
def SlotRow.raiseTo (row : SlotRow) (exchangeQuantity : ℚ) : SlotRow :=
  let raised := (row.raiseQuantities exchangeQuantity).raiseBasis row
  match row.pendingAccumulation with
  | none => raised
  | some pending =>
    let exactAdded := max 0 (exchangeQuantity - pending.positionQuantityBefore)
    if 0 < exactAdded then { raised with pendingAccumulation := pending.afterFill exactAdded }
    else raised

/-- The part of the slot quantity that the other own rows leave to a row. -/
def slotShare (slotExchangeQuantity ownSiblingSlotQuantity : ℚ) : ℚ :=
  max 0 (slotExchangeQuantity - ownSiblingSlotQuantity)

/-- The quantity that a row is moved to. -/
def SlotRow.exchangeQuantity (row : SlotRow) (share : ℚ) : ℚ :=
  min share (row.attributableCeiling + quantityTolerance row.attributableCeiling)

/-- `reconcileAuthoritativeExchangeQuantity` of a row with a share of the slot. -/
def SlotRow.reconcileAuthoritative (row : SlotRow) (share : ℚ) : SlotRow :=
  let before := row.executedQuantity
  let exchangeQuantity := row.exchangeQuantity share
  if |before - exchangeQuantity| ≤ quantityTolerance (max before exchangeQuantity) then row
  else if exchangeQuantity < before then
    row.applyReduction (before - exchangeQuantity) 0 (some exchangeQuantity) false
  else row.raiseTo exchangeQuantity

/-- What `resolveAccumulationPlan` decides of an accumulation order. -/
structure AccumulationPlan where
  clientOrderId : String
  addQty : ℚ

/-- The pending accumulation that is stored before the order of a plan is placed. -/
def SlotRow.pendingOf (row : SlotRow) (plan : AccumulationPlan) : PendingAccumulation where
  clientOrderId := plan.clientOrderId
  requestedQuantity := plan.addQty
  positionQuantityBefore := row.executedQuantity

/-- `accumulateIntoLivePosition`: the fill that the reply to an accumulation order reports. -/
def SlotRow.applyAccumulationFill (row : SlotRow) (pending : PendingAccumulation) (filledQty : ℚ)
    (terminalFillStatus : Bool) : SlotRow :=
  let prevExec := row.executedQuantity
  let newExec := prevExec + filledQty
  let quantity := max row.quantity prevExec + filledQty
  let retainPartialPending := !pending.isComplete filledQty && !terminalFillStatus
  { row with
    executedQuantity := newExec
    quantity := quantity
    remainingQuantity := max 0 (quantity - newExec)
    totalExecutedQuantity := max row.totalExecutedQuantity (newExec + row.closedQuantity)
    pendingAccumulation :=
      if retainPartialPending then some { pending with appliedFilledQuantity := filledQty }
      else none }

/-! ## What the steps do to the quantities -/

lemma quantityTolerance_pos (quantity : ℚ) : 0 < quantityTolerance quantity :=
  lt_max_of_lt_left (by norm_num)

lemma quantityTolerance_mono {a b : ℚ} (h : a ≤ b) : quantityTolerance a ≤ quantityTolerance b :=
  max_le_max_left _ (mul_le_mul_of_nonneg_right h (by norm_num))

namespace SlotRow

variable (row : SlotRow)

lemma raiseBasis_eq (before : SlotRow) : ∃ initial base, row.raiseBasis before =
    { row with initialExecutedQuantity := initial, blockBaseQuantity := base } := by
  have hbased : ∀ observed, ∃ initial base, row.reconcileInitialEntryBase observed =
      { row with initialExecutedQuantity := initial, blockBaseQuantity := base } := by
    intro observed
    unfold reconcileInitialEntryBase
    split
    · exact ⟨_, _, rfl⟩
    · exact ⟨row.initialExecutedQuantity, row.blockBaseQuantity, rfl⟩
  unfold raiseBasis
  split
  · obtain ⟨initial, base, heq⟩ := hbased
      (if 0 < row.quantity then min row.executedQuantity row.quantity else row.executedQuantity)
    rw [heq]
    exact ⟨_, _, rfl⟩
  · exact ⟨_, _, rfl⟩

/-- The pending accumulation after the row was raised. -/
def pendingAfter (exchangeQuantity : ℚ) : Option PendingAccumulation :=
  match row.pendingAccumulation with
  | none => none
  | some pending =>
    let exactAdded := max 0 (exchangeQuantity - pending.positionQuantityBefore)
    if 0 < exactAdded then pending.afterFill exactAdded else some pending

lemma raiseTo_eq (exchangeQuantity : ℚ) : ∃ total initial base, row.raiseTo exchangeQuantity =
      { row with
        executedQuantity := exchangeQuantity
        quantity := max row.quantity exchangeQuantity
        remainingQuantity := max 0 (max row.quantity exchangeQuantity - exchangeQuantity)
        totalExecutedQuantity := total
        initialExecutedQuantity := initial
        blockBaseQuantity := base
        pendingAccumulation := row.pendingAfter exchangeQuantity } := by
  obtain ⟨initial, base, hbas⟩ := (row.raiseQuantities exchangeQuantity).raiseBasis_eq row
  unfold raiseTo pendingAfter
  rw [hbas]
  unfold raiseQuantities
  cases hpend : row.pendingAccumulation with
  | none => exact ⟨_, initial, base, rfl⟩
  | some pending =>
    dsimp only
    split
    · exact ⟨_, initial, base, rfl⟩
    · exact ⟨_, initial, base, rfl⟩

lemma applyReduction_cases (hexec : 0 ≤ row.executedQuantity)
    (hclos : 0 ≤ row.closedQuantity) (reported applied : ℚ) (authoritative : Option ℚ)
    (corrects : Bool) :
    row.applyReduction reported applied authoritative corrects = row ∨
      ∃ delta total, 0 ≤ delta ∧ delta ≤ row.executedQuantity ∧
        row.applyReduction reported applied authoritative corrects = { row with
            totalExecutedQuantity := total
            closedQuantity := row.closedQuantity + delta
            executedQuantity := row.executedQuantity - delta
            quantity := row.executedQuantity - delta
            remainingQuantity := 0 } := by
  unfold applyReduction
  dsimp only
  split
  · rw [max_eq_right hexec, max_eq_right hclos]
    set result := reconcileCumulativeReductionWith id row.executedQuantity reported applied
      authoritative with hres
    have hdelta : 0 ≤ result.deltaApplied := le_max_left _ _
    have hle : result.deltaApplied ≤ row.executedQuantity := by
      refine max_le hexec (le_trans (min_le_left _ _) ?_)
      rw [finiteNonNegative_of_nonneg hexec]
    have hnext : result.nextQuantity = row.executedQuantity - result.deltaApplied := by
      have hrnd : result.nextQuantity =
          max 0 (finiteNonNegative row.executedQuantity - result.deltaApplied) := rfl
      rw [hrnd, finiteNonNegative_of_nonneg hexec, max_eq_right (sub_nonneg.mpr hle)]
    rw [hnext]
    exact .inr ⟨_, _, hdelta, hle, rfl⟩
  · exact .inl rfl

lemma pendingUnfilledQuantity_nonneg : 0 ≤ row.pendingUnfilledQuantity := by
  unfold pendingUnfilledQuantity
  split
  · exact le_rfl
  · split
    · exact le_rfl
    · exact le_max_left _ _

lemma executedQuantity_le_ceiling : row.executedQuantity ≤ row.attributableCeiling := by
  refine le_add_of_nonneg_right (add_nonneg ?_ row.pendingUnfilledQuantity_nonneg)
  split
  · exact le_max_left _ _
  · exact le_rfl

lemma exchangeQuantity_nonneg (hexec : 0 ≤ row.executedQuantity) {share : ℚ}
    (hshare : 0 ≤ share) : 0 ≤ row.exchangeQuantity share := by
  refine le_min hshare (add_nonneg ?_ (quantityTolerance_pos _).le)
  exact hexec.trans row.executedQuantity_le_ceiling

/-- The row is kept, lowered to its share or raised to it. -/
lemma reconcileAuthoritative_cases (hexec : 0 ≤ row.executedQuantity)
    (hclos : 0 ≤ row.closedQuantity) {share : ℚ} (hshare : 0 ≤ share) :
    let exchangeQuantity := row.exchangeQuantity share
    (row.reconcileAuthoritative share = row ∧ |row.executedQuantity - exchangeQuantity| ≤
        quantityTolerance (max row.executedQuantity exchangeQuantity)) ∨
      (exchangeQuantity < row.executedQuantity ∧ ∃ total, row.reconcileAuthoritative share =
        { row with
          totalExecutedQuantity := total
          closedQuantity := row.closedQuantity + (row.executedQuantity - exchangeQuantity)
          executedQuantity := exchangeQuantity
          quantity := exchangeQuantity
          remainingQuantity := 0 }) ∨
      (row.executedQuantity + quantityTolerance exchangeQuantity < exchangeQuantity ∧
        row.reconcileAuthoritative share = row.raiseTo exchangeQuantity) := by
  unfold reconcileAuthoritative
  dsimp only
  have hqty := row.exchangeQuantity_nonneg hexec hshare
  set exchangeQuantity := row.exchangeQuantity share
  split
  · rename_i hwithi
    exact .inl ⟨rfl, hwithi⟩
  · rename_i hbeyon
    split
    · rename_i hlow
      have hreduc : evidencedReduction row.executedQuantity
          (row.executedQuantity - exchangeQuantity) 0 (some exchangeQuantity) =
            row.executedQuantity - exchangeQuantity := by
        have hpos : 0 ≤ row.executedQuantity - exchangeQuantity := (sub_pos.mpr hlow).le
        unfold evidencedReduction
        dsimp only [Option.elim]
        rw [sub_zero, min_eq_right hlow.le, max_eq_right hpos, max_self,
          min_eq_right (sub_le_self _ hqty)]
      have hres := reconcileCumulativeReductionWith_eq hexec (sub_pos.mpr hlow).le
        le_rfl (fun venue hvenue => by obtain rfl := Option.some.inj hvenue; exact hqty)
        (id_eq (evidencedReduction row.executedQuantity
          (row.executedQuantity - exchangeQuantity) 0 (some exchangeQuantity)))
        rfl rfl
      have happl : row.applyReduction (row.executedQuantity - exchangeQuantity) 0
          (some exchangeQuantity) false = { row with
              totalExecutedQuantity := max (max row.totalExecutedQuantity
                (row.executedQuantity + row.closedQuantity)) (row.initialExecutedQuantity.getD 0)
              closedQuantity := row.closedQuantity + (row.executedQuantity - exchangeQuantity)
              executedQuantity := exchangeQuantity
              quantity := exchangeQuantity
              remainingQuantity := 0 } := by
        unfold applyReduction
        dsimp only
        rw [max_eq_right hexec, max_eq_right hclos, hres, hreduc, sub_sub_cancel,
          if_pos (.inl (sub_pos.mpr hlow))]
      exact .inr (.inl ⟨hlow, _, happl⟩)
    · rename_i hnot
      have hle : row.executedQuantity ≤ exchangeQuantity := not_lt.mp hnot
      rw [max_eq_right hle, abs_sub_comm, abs_of_nonneg (sub_nonneg.mpr hle)] at hbeyon
      exact .inr (.inr ⟨by linarith, rfl⟩)

lemma reconcileAuthoritative_nonneg {row : SlotRow} (hexec : 0 ≤ row.executedQuantity)
    (hclos : 0 ≤ row.closedQuantity) {share : ℚ} (hshare : 0 ≤ share) :
    0 ≤ (row.reconcileAuthoritative share).executedQuantity ∧
      0 ≤ (row.reconcileAuthoritative share).closedQuantity := by
  have hqty := row.exchangeQuantity_nonneg hexec hshare
  rcases row.reconcileAuthoritative_cases hexec hclos hshare with
    ⟨hsame, -⟩ | ⟨hlow, total, heq⟩ | ⟨-, heq⟩
  · rw [hsame]
    exact ⟨hexec, hclos⟩
  · rw [heq]
    exact ⟨hqty, add_nonneg hclos (sub_nonneg.mpr hlow.le)⟩
  · obtain ⟨total, initial, base, hrais⟩ := row.raiseTo_eq (row.exchangeQuantity share)
    rw [heq, hrais]
    exact ⟨hqty, hclos⟩

end SlotRow

end CtsEngine
