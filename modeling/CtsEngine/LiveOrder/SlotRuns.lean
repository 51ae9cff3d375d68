import CtsEngine.LiveOrder.SlotQuantity
import CtsEngine.Transition.Runs
import Mathlib.Data.Fintype.BigOperators

/-!
# Own and foreign quantity on one slot

The own rows of a slot place entries and accumulations, the venue fills them, others trade on the
same slot, and now and then a row is reconciled with the quantity of the slot.
-/

namespace CtsEngine

open Option Finset Function List Transition SlotRow

/-! ## The system -/

/-- The rows of a slot and the venue. -/
structure SlotSystem (I : Type*) where
  row : I → SlotRow
  /-- The quantity of the slot on the venue. -/
  venueQuantity : ℚ
  /-- History variable: the quantities of the accepted orders of a row, the last one first. -/
  accepted : I → List ℚ
  /-- Cumulative fill of the orders of a row. -/
  filled : I → ℚ

inductive SlotAction (I : Type*)
  /-- A row is stored before its entry order is placed. -/
  | prepare (row : I) (status : LiveStatus) (requested : ℚ)
  /-- The entry order of a row is accepted, with the fill of the reply. -/
  | acceptEntry (row : I) (filledQty : ℚ)
  /-- An accumulation order is accepted, with the order id and the fill of the reply. -/
  | accumulate (row : I) (plan : AccumulationPlan) (orderId : String) (filledQty : ℚ)
    (terminalFillStatus : Bool)
  /-- The order id of the pending accumulation is recovered. -/
  | recover (row : I) (orderId : String)
  /-- The pending accumulation is given up. -/
  | clear (row : I)
  | setStatus (row : I) (status : LiveStatus)
  /-- The venue fills an order of a row. -/
  | fill (row : I) (quantity : ℚ)
  /-- Others trade on the slot. -/
  | foreign (quantity : ℚ)
  /-- An own reduction fills and is observed. -/
  | reduce (row : I) (executed reportedFilledQuantity previouslyAppliedQuantity : ℚ)
    (authoritativeQuantity : Option ℚ) (corrects : Bool)
  | reconcile (row : I)

variable {I : Type*} [DecidableEq I]

/-- A row that was never filled. -/
def emptyRow (status : LiveStatus) (requested : ℚ) : SlotRow where
  status := status
  quantity := requested
  executedQuantity := 0
  remainingQuantity := requested
  closedQuantity := 0
  totalExecutedQuantity := 0
  initialExecutedQuantity := none
  blockBaseQuantity := none
  pendingAccumulation := none

namespace SlotSystem

/-- A slot without quantity; the rows have no orders yet. -/
def start : SlotSystem I where
  row := fun _ => emptyRow .pending 0
  venueQuantity := 0
  accepted := fun _ => []
  filled := fun _ => 0

/-- A change of one row. -/
def setRow (s : SlotSystem I) (r : I) (row : SlotRow) : SlotSystem I :=
  { s with row := Function.update s.row r row }

/-- An order of a row is accepted and filled by a part. -/
def accept (s : SlotSystem I) (r : I) (requested filledQty : ℚ) : SlotSystem I :=
  { s with
    accepted := Function.update s.accepted r (requested :: s.accepted r)
    filled := Function.update s.filled r (s.filled r + filledQty)
    venueQuantity := s.venueQuantity + filledQty }

variable [Fintype I]

def ownSiblingSlotQuantity (s : SlotSystem I) (r : I) : ℚ :=
  ∑ other ∈ univ.erase r, (s.row other).siblingQuantity

/-- The part of the slot that is left to a row. -/
def share (s : SlotSystem I) (r : I) : ℚ := slotShare s.venueQuantity (s.ownSiblingSlotQuantity r)

end SlotSystem

/-- The statuses in which a direct fill is booked. -/
def LiveStatus.takesFill : LiveStatus → Bool
  | .opened | .filled | .partiallyFilled => true
  | _ => false

def slotStep [Fintype I] (s : SlotSystem I) : SlotAction I → Option (SlotSystem I)
  | .prepare r status requested =>
    if s.accepted r = [] ∧ 0 < requested then some (s.setRow r (emptyRow status requested))
    else none
  | .acceptEntry r filledQty =>
    let row := s.row r
    if s.accepted r = [] ∧ 0 ≤ filledQty ∧ filledQty ≤ row.quantity then
      some ((s.accept r row.quantity filledQty).setRow r (if 0 < filledQty then
          { row with
            executedQuantity := filledQty
            remainingQuantity := row.quantity - filledQty }
        else row))
    else none
  | .accumulate r plan orderId filledQty terminalFillStatus =>
    let row := s.row r
    let pending := { row.pendingOf plan with orderId := orderId }
    if 0 < row.executedQuantity ∧ row.pendingAccumulation = none ∧ 0 < plan.addQty ∧
        0 ≤ filledQty ∧ filledQty ≤ plan.addQty ∧ (0 < filledQty → row.status.takesFill) then
      some ((s.accept r plan.addQty filledQty).setRow r
        (if 0 < filledQty then row.applyAccumulationFill pending filledQty terminalFillStatus
        else { row with pendingAccumulation := some pending }))
    else none
  | .recover r orderId =>
    some (s.setRow r { s.row r with
      pendingAccumulation :=
        (s.row r).pendingAccumulation.map fun pending => { pending with orderId := orderId } })
  | .clear r => some (s.setRow r { s.row r with pendingAccumulation := none })
  | .setStatus r status => some (s.setRow r { s.row r with status := status })
  | .fill r quantity =>
    if 0 < quantity ∧ s.filled r + quantity ≤ (s.accepted r).sum then
      some { s with
        filled := Function.update s.filled r (s.filled r + quantity)
        venueQuantity := s.venueQuantity + quantity }
    else none
  | .foreign quantity =>
    if 0 ≤ s.venueQuantity + quantity then
      some { s with venueQuantity := s.venueQuantity + quantity }
    else none
  | .reduce r executed reported applied authoritative corrects =>
    if 0 ≤ executed ∧ executed ≤ s.venueQuantity then
      some (SlotSystem.setRow { s with venueQuantity := s.venueQuantity - executed } r
        ((s.row r).applyReduction reported applied authoritative corrects))
    else none
  | .reconcile r => some (s.setRow r ((s.row r).reconcileAuthoritative (s.share r)))

/-! ## The laws -/

/-- What a row may hold by its accepted orders: their quantities and, once for each order, the
tolerance of the total. -/
def orderAllowance : List ℚ → ℚ
  | [] => 0
  | requested :: earlier =>
    let total := orderAllowance earlier + requested
    total + quantityTolerance total

/-- Executed and closed quantity stay within the accepted orders. -/
def WithinOrders (s : SlotSystem I) : Prop :=
  ∀ r, (s.row r).executedQuantity + (s.row r).closedQuantity ≤ orderAllowance (s.accepted r)

/-- The rows hold no more than the slot, each within its tolerance. -/
def WithinSlot [Fintype I] (s : SlotSystem I) : Prop :=
  ∑ r, (s.row r).executedQuantity ≤
    s.venueQuantity + ∑ r, quantityTolerance (s.row r).executedQuantity

/-- A row is raised only when its entry order was accepted, and only from the baseline of its
pending accumulation and what is applied of it. -/
def RaisedFromBaseline [Fintype I] (s : SlotSystem I) : SlotAction I → Prop
  | .reconcile r => s.share r ≤ (s.row r).executedQuantity ∨
      (s.accepted r = [] → (s.row r).status.isEntryWorking = false) ∧
      ∀ pending ∈ (s.row r).pendingAccumulation,
        pending.positionQuantityBefore + pending.appliedFilledQuantity ≤ (s.row r).executedQuantity
  | _ => True

/-- When a row is reconciled, every other row that holds quantity has a status that is counted. -/
def SiblingsCounted (s : SlotSystem I) : SlotAction I → Prop
  | .reconcile r => ∀ other ≠ r,
      (s.row other).executedQuantity = 0 ∨ (s.row other).status.isCountedSibling = true
  | _ => True

instance [Fintype I] (s : SlotSystem I) : ∀ a, Decidable (RaisedFromBaseline s a)
  | .reconcile r => inferInstanceAs (Decidable (_ ∨ (s.accepted r = [] → _) ∧
      ∀ pending ∈ (s.row r).pendingAccumulation, _))
  | .prepare .. | .acceptEntry .. | .accumulate .. | .recover .. | .clear .. | .setStatus .. |
    .fill .. | .foreign .. | .reduce .. => inferInstanceAs (Decidable True)

instance [Fintype I] (s : SlotSystem I) : ∀ a, Decidable (SiblingsCounted s a)
  | .reconcile _ => inferInstanceAs (Decidable (∀ _, _))
  | .prepare .. | .acceptEntry .. | .accumulate .. | .recover .. | .clear .. | .setStatus .. |
    .fill .. | .foreign .. | .reduce .. => inferInstanceAs (Decidable True)

section Samples

instance [Fintype I] (s : SlotSystem I) : Decidable (WithinOrders s) :=
  inferInstanceAs (Decidable (∀ _, _))

instance [Fintype I] (s : SlotSystem I) : Decidable (WithinSlot s) :=
  inferInstanceAs (Decidable (_ ≤ _))

/-- An accumulation of 10 is pending on a row of 5, of which 4 are reduced.  After its fill it still
explains the 4 that others add. -/
def reducedWhilePending : List (SlotAction Bool) :=
  [.prepare false .pending 5, .acceptEntry false 5, .setStatus false .opened,
    .accumulate false { clientOrderId := "add", addQty := 10 } "7" 0 false,
    .reduce false 4 4 0 none false, .fill false 10, .reconcile false, .foreign 4,
    .reconcile false]

/-- Two placed rows, one of them filled. -/
def placedRows : List (SlotAction Bool) :=
  [.prepare false .placed 5, .acceptEntry false 0, .prepare true .placed 5, .acceptEntry true 0,
    .fill false 5]

/-- Own orders explain foreign quantity after a reduction under a pending accumulation, and two
placed rows both take the fill of one. -/
theorem slotQuantity_absorbed : (¬ ∀ (as : List (SlotAction Bool)) (t : SlotSystem Bool),
      run slotStep .start as = some t → WithinOrders t) ∧
    ¬ ∀ (before : List (SlotAction Bool)) (order : List Bool) (t : SlotSystem Bool),
      order.Nodup → (∀ r, r ∈ order) →
        run slotStep .start (before ++ order.map .reconcile) = some t → WithinSlot t := by
  constructor
  · intro h
    have hbroken : (run slotStep .start reducedWhilePending).map
        (fun t : SlotSystem Bool => decide (WithinOrders t)) = some false := by
      decide +kernel
    obtain ⟨t, hrun, hnot⟩ := map_eq_some_iff.mp hbroken
    exact of_decide_eq_false hnot (h reducedWhilePending t hrun)
  · intro h
    have hbroken : (run slotStep .start (placedRows ++ [false, true].map SlotAction.reconcile)).map
        (fun t : SlotSystem Bool => decide (WithinSlot t)) = some false := by
      decide +kernel
    obtain ⟨t, hrun, hnot⟩ := map_eq_some_iff.mp hbroken
    exact of_decide_eq_false hnot (h placedRows [false, true] t (by decide) (by decide) hrun)

end Samples

/-! ## The allowance of a row -/

/-- The allowance before the tolerance of the last order is used. -/
def unusedAllowance : List ℚ → ℚ
  | [] => 0
  | requested :: earlier => orderAllowance earlier + requested

lemma unusedAllowance_le (accepted : List ℚ) :
    unusedAllowance accepted ≤ orderAllowance accepted := by
  cases accepted with
  | nil => exact le_rfl
  | cons requested earlier => exact le_add_of_nonneg_right (quantityTolerance_pos _).le

/-- The part of an accumulation that is not applied. -/
def PendingAccumulation.unapplied (pending : PendingAccumulation) : ℚ :=
  max 0 (pending.requestedQuantity - pending.appliedFilledQuantity)

/-- The part of the pending accumulation that is not applied. -/
def SlotRow.unapplied (row : SlotRow) : ℚ :=
  (row.pendingAccumulation.map PendingAccumulation.unapplied).getD 0

/-- The orders of a row cover what it holds and what may still explain a raise.  When the tolerance
of the last order is used, nothing explains a raise any more. -/
structure RowOk (row : SlotRow) (accepted : List ℚ) : Prop where
  executed_nonneg : 0 ≤ row.executedQuantity
  closed_nonneg : 0 ≤ row.closedQuantity
  executed_le : row.executedQuantity ≤ row.quantity
  remaining_le : row.remainingQuantity ≤ row.quantity - row.executedQuantity
  baseline : ∀ pending ∈ row.pendingAccumulation, 0 ≤ pending.appliedFilledQuantity ∧
    row.executedQuantity ≤ pending.positionQuantityBefore + pending.appliedFilledQuantity
  unaccepted : accepted = [] → row.executedQuantity = 0 ∧ row.closedQuantity = 0 ∧
    row.pendingAccumulation = none
  covered : accepted ≠ [] →
    row.quantity + row.closedQuantity + row.unapplied ≤ unusedAllowance accepted ∨
      row.quantity ≤ row.executedQuantity ∧ row.unapplied = 0 ∧
        row.quantity + row.closedQuantity ≤ orderAllowance accepted

namespace RowOk

variable {row : SlotRow} {accepted : List ℚ}

lemma unapplied_nonneg (row : SlotRow) : 0 ≤ row.unapplied := by
  unfold unapplied
  cases row.pendingAccumulation with
  | none => exact le_rfl
  | some pending => exact le_max_left _ _

lemma within (h : RowOk row accepted) :
    row.executedQuantity + row.closedQuantity ≤ orderAllowance accepted := by
  have hle := h.executed_le
  have hunapp := unapplied_nonneg row
  by_cases hnone : accepted = []
  · obtain ⟨hexec, hclos, -⟩ := h.unaccepted hnone
    rw [hexec, hclos, hnone]
    exact (add_zero (0 : ℚ)).le
  · rcases h.covered hnone with hunuse | ⟨-, -, hused⟩
    · have := unusedAllowance_le accepted
      linarith
    · linarith

lemma lowered (h : RowOk row accepted) {delta : ℚ} (hdelta : 0 ≤ delta)
    (hle : delta ≤ row.executedQuantity) (total : ℚ) :
    RowOk { row with
      totalExecutedQuantity := total
      closedQuantity := row.closedQuantity + delta
      executedQuantity := row.executedQuantity - delta
      quantity := row.executedQuantity - delta
      remainingQuantity := 0 } accepted where
  executed_nonneg := sub_nonneg.mpr hle
  closed_nonneg := add_nonneg h.closed_nonneg hdelta
  executed_le := le_rfl
  remaining_le := (sub_self _).ge
  baseline := fun pending hpend =>
    ⟨(h.baseline pending hpend).1, (sub_le_self _ hdelta).trans (h.baseline pending hpend).2⟩
  unaccepted := by
    intro hnone
    obtain ⟨hexec, hclos, hpend⟩ := h.unaccepted hnone
    have hzero : delta = 0 := le_antisymm (hle.trans hexec.le) hdelta
    exact ⟨by rw [hexec, hzero, sub_zero], by rw [hclos, hzero, add_zero], hpend⟩
  covered := by
    intro hsome
    have hexec := h.executed_le
    rcases h.covered hsome with hunuse | ⟨-, hunapp, hused⟩
    · refine .inl ?_
      change row.executedQuantity - delta + (row.closedQuantity + delta) + row.unapplied ≤ _
      linarith
    · refine .inr ⟨le_rfl, hunapp, ?_⟩
      linarith

lemma applyReduction (h : RowOk row accepted) (reported applied : ℚ) (authoritative : Option ℚ)
    (corrects : Bool) :
    RowOk (row.applyReduction reported applied authoritative corrects) accepted := by
  rcases row.applyReduction_cases h.executed_nonneg h.closed_nonneg reported applied authoritative
    corrects with hsame | ⟨delta, total, hdelta, hle, heq⟩
  · rw [hsame]
    exact h
  · rw [heq]
    exact h.lowered hdelta hle total

/-- The open orders of a row explain at most its quantity and what is not applied. -/
lemma ceiling_le (h : RowOk row accepted) :
    row.attributableCeiling ≤ row.quantity + row.unapplied := by
  have hent : (if row.status.isEntryWorking then max 0 row.remainingQuantity else 0) ≤
      row.quantity - row.executedQuantity := by
    have hnn := sub_nonneg.mpr h.executed_le
    split
    · exact max_le hnn h.remaining_le
    · exact hnn
  have hpend : row.pendingUnfilledQuantity ≤ row.unapplied := by
    unfold pendingUnfilledQuantity unapplied
    cases row.pendingAccumulation with
    | none => exact le_rfl
    | some pending =>
      dsimp only
      split
      · exact le_max_left _ _
      · have happl : pending.appliedFilledQuantity ≤ max
            (max 0 (row.executedQuantity - pending.positionQuantityBefore))
            (max 0 pending.appliedFilledQuantity) := le_max_of_le_right (le_max_right _ _)
        have hfill : 0 ≤ max (max 0 (row.executedQuantity - pending.positionQuantityBefore))
            (max 0 pending.appliedFilledQuantity) := le_max_of_le_left (le_max_left _ _)
        refine max_le (le_max_left _ _) ?_
        rcases le_total 0 pending.requestedQuantity with hpos | hneg
        · rw [max_eq_right hpos]
          exact le_max_of_le_right (by linarith)
        · rw [max_eq_left hneg]
          exact le_max_of_le_left (by linarith)
  unfold attributableCeiling
  linarith

variable {share filledQty : ℚ}

lemma lt_ceiling (hraise : row.executedQuantity +
      quantityTolerance (row.exchangeQuantity share) < row.exchangeQuantity share) :
    row.executedQuantity < row.attributableCeiling := by
  by_contra hnot
  have hceil := not_lt.mp hnot
  have htoler := quantityTolerance_mono hceil
  have hqty : row.exchangeQuantity share ≤
      row.attributableCeiling + quantityTolerance row.attributableCeiling := min_le_right _ _
  have hpos := quantityTolerance_pos (row.exchangeQuantity share)
  have hle : row.executedQuantity ≤ row.exchangeQuantity share := by linarith
  have hmono := quantityTolerance_mono hle
  linarith

section

variable (h : RowOk row accepted)

include h

lemma raised_le (hent : accepted = [] → row.status.isEntryWorking = false)
    (hraise : row.executedQuantity + quantityTolerance (row.exchangeQuantity share) <
      row.exchangeQuantity share) :
    accepted ≠ [] ∧ row.quantity + row.closedQuantity + row.unapplied ≤ unusedAllowance accepted ∧
      row.exchangeQuantity share + row.closedQuantity ≤ orderAllowance accepted := by
  have hlt := lt_ceiling hraise
  have hceil := h.ceiling_le
  have hsome : accepted ≠ [] := by
    intro hnone
    obtain ⟨-, -, hpend⟩ := h.unaccepted hnone
    unfold attributableCeiling pendingUnfilledQuantity at hlt
    rw [hent hnone, hpend] at hlt
    simp at hlt
  rcases h.covered hsome with hunuse | ⟨hexh, hunapp, -⟩
  · refine ⟨hsome, hunuse, ?_⟩
    have hqty : row.exchangeQuantity share ≤
        row.attributableCeiling + quantityTolerance row.attributableCeiling := min_le_right _ _
    have hclos := h.closed_nonneg
    have htot : row.attributableCeiling ≤ unusedAllowance accepted := by linarith
    have htoler := quantityTolerance_mono htot
    cases accepted with
    | nil => exact absurd rfl hsome
    | cons requested earlier =>
      unfold orderAllowance
      unfold unusedAllowance at hunuse htoler
      linarith
  · exact absurd hlt (not_lt.mpr (by linarith))

/-- Raising a row to its share of the venue keeps it sound. -/
lemma raised (hent : accepted = [] → row.status.isEntryWorking = false)
    (hbase : ∀ pending ∈ row.pendingAccumulation, pending.positionQuantityBefore +
      pending.appliedFilledQuantity ≤ row.executedQuantity)
    (hraise : row.executedQuantity + quantityTolerance (row.exchangeQuantity share) <
      row.exchangeQuantity share) : RowOk (row.raiseTo (row.exchangeQuantity share)) accepted := by
  obtain ⟨hsome, hunuse, hwithi⟩ := h.raised_le hent hraise
  set exchangeQuantity := row.exchangeQuantity share
  have hpos := quantityTolerance_pos exchangeQuantity
  have hgt : row.executedQuantity < exchangeQuantity := by linarith
  have hafter : ∀ pending ∈ row.pendingAccumulation, row.pendingAfter exchangeQuantity =
      pending.afterFill (exchangeQuantity - pending.positionQuantityBefore) := by
    intro pending hpend
    have happl := (h.baseline pending hpend).1
    have hbelow := hbase pending hpend
    have hadded : 0 < exchangeQuantity - pending.positionQuantityBefore := by linarith
    unfold pendingAfter
    rw [mem_def.mp hpend]
    dsimp only
    rw [max_eq_right hadded.le, if_pos hadded]
  have hnone : row.pendingAccumulation = none → row.pendingAfter exchangeQuantity = none := by
    intro hpend
    unfold pendingAfter
    rw [hpend]
  have hrest : ((row.pendingAfter exchangeQuantity).map PendingAccumulation.unapplied).getD 0 = 0 ∨
      exchangeQuantity + ((row.pendingAfter exchangeQuantity).map
        PendingAccumulation.unapplied).getD 0 ≤ row.executedQuantity + row.unapplied := by
    cases hpend : row.pendingAccumulation with
    | none => exact .inl (by rw [hnone hpend]; rfl)
    | some pending =>
      rw [hafter pending hpend]
      unfold PendingAccumulation.afterFill
      split
      · exact .inl rfl
      · have hbelow := hbase pending hpend
        have hunapp : pending.requestedQuantity - pending.appliedFilledQuantity ≤
            row.unapplied := by
          unfold unapplied
          rw [hpend]
          exact le_max_right _ _
        dsimp only [map_some, getD_some]
        unfold PendingAccumulation.unapplied
        rcases le_total (pending.requestedQuantity -
          (exchangeQuantity - pending.positionQuantityBefore)) 0 with hdone | hopen
        · exact .inl (max_eq_left hdone)
        · rw [max_eq_right hopen]
          exact .inr (by linarith)
  have hunapp := unapplied_nonneg row
  obtain ⟨total, initial, base, heq⟩ := row.raiseTo_eq exchangeQuantity
  rw [heq]
  constructor
  · exact h.executed_nonneg.trans hgt.le
  · exact h.closed_nonneg
  · exact le_max_right _ _
  · exact max_le (sub_nonneg.mpr (le_max_right _ _)) le_rfl
  · intro next hnext
    cases hpend : row.pendingAccumulation with
    | none =>
      rw [hnone hpend] at hnext
      cases hnext
    | some pending =>
      have happl := (h.baseline pending hpend).1
      have hbelow := hbase pending hpend
      rw [hafter pending hpend] at hnext
      unfold PendingAccumulation.afterFill at hnext
      split at hnext
      · cases hnext
      · cases hnext
        exact ⟨by linarith, by linarith⟩
  · exact fun hnone => absurd hnone hsome
  · intro _
    unfold unapplied
    rcases le_total exchangeQuantity row.quantity with hle | hge
    · rw [max_eq_left hle]
      refine .inl (le_trans ?_ hunuse)
      rcases hrest with hzero | hless
      · linarith
      · linarith
    · rw [max_eq_right hge]
      have hexec := h.executed_le
      rcases hrest with hzero | hless
      · exact .inr ⟨le_rfl, hzero, hwithi⟩
      · exact .inl (by linarith)

lemma reconcileAuthoritative (hshare : 0 ≤ share)
    (hcond : share ≤ row.executedQuantity ∨ (accepted = [] → row.status.isEntryWorking = false) ∧
      ∀ pending ∈ row.pendingAccumulation, pending.positionQuantityBefore +
        pending.appliedFilledQuantity ≤ row.executedQuantity) :
    RowOk (row.reconcileAuthoritative share) accepted := by
  rcases row.reconcileAuthoritative_cases h.executed_nonneg h.closed_nonneg hshare with
    ⟨hsame, -⟩ | ⟨hlow, total, heq⟩ | ⟨hraise, heq⟩
  · rw [hsame]
    exact h
  · rw [heq]
    have hqty := row.exchangeQuantity_nonneg h.executed_nonneg hshare
    have hlowered := h.lowered (sub_nonneg.mpr hlow.le) (sub_le_self _ hqty) total
    rwa [sub_sub_cancel] at hlowered
  · rw [heq]
    rcases hcond with hle | ⟨hent, hbase⟩
    · have hqty : row.exchangeQuantity share ≤ share := min_le_left _ _
      have hpos := quantityTolerance_pos (row.exchangeQuantity share)
      linarith
    · exact h.raised hent hbase hraise

lemma quantity_le (hsome : accepted ≠ []) :
    row.quantity + row.closedQuantity ≤ orderAllowance accepted := by
  have hunapp := unapplied_nonneg row
  rcases h.covered hsome with hunuse | ⟨-, -, hused⟩
  · have := unusedAllowance_le accepted
    linarith
  · exact hused

lemma accumulate (hexec : 0 < row.executedQuantity)
    (plan : AccumulationPlan) (orderId : String) (hplan : 0 < plan.addQty) :
    RowOk { row with pendingAccumulation := some { row.pendingOf plan with orderId := orderId } }
      (plan.addQty :: accepted) where
  executed_nonneg := h.executed_nonneg
  closed_nonneg := h.closed_nonneg
  executed_le := h.executed_le
  remaining_le := h.remaining_le
  baseline := by
    intro pending hnext
    cases hnext
    exact ⟨le_rfl, (add_zero _).ge⟩
  unaccepted := fun hnone => absurd hnone (cons_ne_nil _ _)
  covered := by
    intro _
    have htot := h.quantity_le fun hnone => hexec.ne' (h.unaccepted hnone).1
    refine .inl ?_
    change row.quantity + row.closedQuantity + max 0 (plan.addQty - 0) ≤
      orderAllowance accepted + plan.addQty
    rw [sub_zero, max_eq_right hplan.le]
    linarith

lemma accumulateFilled (hexec : 0 < row.executedQuantity)
    (plan : AccumulationPlan) (orderId : String) (hfill : 0 < filledQty)
    (hle : filledQty ≤ plan.addQty) (terminal : Bool) :
    RowOk (row.applyAccumulationFill { row.pendingOf plan with orderId := orderId } filledQty
      terminal) (plan.addQty :: accepted) := by
  have htot := h.quantity_le fun hnone => hexec.ne' (h.unaccepted hnone).1
  have hqty := h.executed_le
  unfold applyAccumulationFill
  dsimp only
  rw [max_eq_left hqty]
  constructor
  · exact add_nonneg h.executed_nonneg hfill.le
  · exact h.closed_nonneg
  · exact add_le_add_left hqty filledQty
  · exact max_le (sub_nonneg.mpr (add_le_add_left hqty filledQty)) le_rfl
  · intro next hnext
    split at hnext
    · cases hnext
      exact ⟨hfill.le, le_rfl⟩
    · cases hnext
  · exact fun hnone => absurd hnone (cons_ne_nil _ _)
  · intro _
    refine .inl ?_
    unfold unapplied unusedAllowance
    split
    · change row.quantity + filledQty + row.closedQuantity + max 0 (plan.addQty - filledQty) ≤ _
      rw [max_eq_right (sub_nonneg.mpr hle)]
      linarith
    · change row.quantity + filledQty + row.closedQuantity + 0 ≤ _
      linarith

end

lemma acceptEntry (h : RowOk row []) (hfill : 0 ≤ filledQty) (hle : filledQty ≤ row.quantity) :
    RowOk (if 0 < filledQty then
        { row with
          executedQuantity := filledQty
          remainingQuantity := row.quantity - filledQty }
      else row) [row.quantity] := by
  obtain ⟨hexec, hclos, hpend⟩ := h.unaccepted rfl
  have hcovd : row.quantity + row.closedQuantity + row.unapplied ≤
      unusedAllowance [row.quantity] := by
    unfold unapplied unusedAllowance orderAllowance
    rw [hpend, hclos]
    simp
  split
  · constructor
    · exact hfill
    · exact h.closed_nonneg
    · exact hle
    · exact le_rfl
    · intro pending hmem
      cases hpend.symm.trans hmem
    · exact fun hnone => absurd hnone (cons_ne_nil _ _)
    · exact fun _ => .inl hcovd
  · exact { h with
      unaccepted := fun hnone => absurd hnone (cons_ne_nil _ _)
      covered := fun _ => .inl hcovd }

/-- Soundness reads the quantities of the row only. -/
lemma congr (h : RowOk row accepted) {next : SlotRow}
    (hexec : next.executedQuantity = row.executedQuantity)
    (hclos : next.closedQuantity = row.closedQuantity) (hqty : next.quantity = row.quantity)
    (hrem : next.remainingQuantity = row.remainingQuantity)
    (hpend : ∀ later ∈ next.pendingAccumulation, ∃ pending ∈ row.pendingAccumulation,
      later.requestedQuantity = pending.requestedQuantity ∧
      later.positionQuantityBefore = pending.positionQuantityBefore ∧
      later.appliedFilledQuantity = pending.appliedFilledQuantity) :
    RowOk next accepted := by
  have hunapp : next.unapplied ≤ row.unapplied := by
    cases hnext : next.pendingAccumulation with
    | none =>
      have hzero : next.unapplied = 0 := by
        unfold unapplied
        rw [hnext]
        rfl
      rw [hzero]
      exact unapplied_nonneg row
    | some later =>
      obtain ⟨pending, hmem, hreqd, -, happl⟩ := hpend later hnext
      unfold unapplied
      rw [hnext, mem_def.mp hmem]
      dsimp only [map_some]
      unfold PendingAccumulation.unapplied
      rw [hreqd, happl]
  constructor
  · rw [hexec]
    exact h.executed_nonneg
  · rw [hclos]
    exact h.closed_nonneg
  · rw [hexec, hqty]
    exact h.executed_le
  · rw [hrem, hexec, hqty]
    exact h.remaining_le
  · intro later hlate
    obtain ⟨pending, hmem, -, hbef, happl⟩ := hpend later hlate
    rw [hexec, hbef, happl]
    exact h.baseline pending hmem
  · intro hnone
    obtain ⟨hzero, hclosZero, hpendNone⟩ := h.unaccepted hnone
    refine ⟨hexec.trans hzero, hclos.trans hclosZero, ?_⟩
    rw [eq_none_iff_forall_not_mem]
    intro later hlate
    obtain ⟨pending, hmem, -⟩ := hpend later hlate
    rw [hpendNone] at hmem
    cases hmem
  · intro hsome
    rw [hexec, hclos, hqty]
    rcases h.covered hsome with hunuse | ⟨hexh, hzero, hused⟩
    · exact .inl (by linarith)
    · exact .inr ⟨hexh, le_antisymm (hunapp.trans hzero.le) (unapplied_nonneg next), hused⟩

end RowOk

/-! ## Runs -/

/-- Every row is covered by its orders. -/
def RowsOk (s : SlotSystem I) : Prop := ∀ r, RowOk (s.row r) (s.accepted r)

lemma slotShare_nonneg (slotQuantity siblings : ℚ) : 0 ≤ slotShare slotQuantity siblings :=
  le_max_left _ _

lemma rowOk_emptyRow (status : LiveStatus) {requested : ℚ} (hreqd : 0 ≤ requested) :
    RowOk (emptyRow status requested) [] where
  executed_nonneg := le_rfl
  closed_nonneg := le_rfl
  executed_le := hreqd
  remaining_le := (sub_zero _).ge
  baseline := fun _ hpend => by cases hpend
  unaccepted := fun _ => ⟨rfl, rfl, rfl⟩
  covered := fun hsome => absurd rfl hsome

omit [DecidableEq I] in
lemma rowsOk_start : RowsOk (SlotSystem.start : SlotSystem I) :=
  fun _ => rowOk_emptyRow .pending le_rfl

variable {s t : SlotSystem I} {r : I}

omit [DecidableEq I] in
lemma RowsOk.update (h : RowsOk s) (r : I) (hrow : ∀ other ≠ r, t.row other = s.row other)
    (hacc : ∀ other ≠ r, t.accepted other = s.accepted other)
    (hchan : RowOk (t.row r) (t.accepted r)) : RowsOk t := by
  intro other
  by_cases hoth : other = r
  · rw [hoth]
    exact hchan
  · rw [hrow other hoth, hacc other hoth]
    exact h other

lemma RowsOk.setRow (h : RowsOk s) {row : SlotRow} (hrow : RowOk row (s.accepted r)) :
    RowsOk (s.setRow r row) := by
  refine h.update r (fun other hoth => update_of_ne hoth _ _) (fun _ _ => rfl) ?_
  change RowOk (Function.update s.row r row r) (s.accepted r)
  rw [update_self]
  exact hrow

lemma RowsOk.acceptRow (h : RowsOk s) {row : SlotRow} {requested filledQty : ℚ}
    (hrow : RowOk row (requested :: s.accepted r)) :
    RowsOk ((s.accept r requested filledQty).setRow r row) := by
  refine h.update r (fun other hoth => update_of_ne hoth _ _)
    (fun other hoth => update_of_ne hoth _ _) ?_
  change RowOk (Function.update s.row r row r)
    (Function.update s.accepted r (requested :: s.accepted r) r)
  rw [update_self, update_self]
  exact hrow

variable [Fintype I]

variable {a : SlotAction I} {as : List (SlotAction I)} {done : Finset I}

/-- A step that raises from the baseline keeps every row sound. -/
lemma rowsOk_step (h : RowsOk s) (hcond : RaisedFromBaseline s a)
    (hstep : slotStep s a = some t) : RowsOk t := by
  cases a with
  | prepare r status requested =>
    obtain ⟨⟨hnone, hreqd⟩, heq⟩ := ite_none_right_eq_some.mp hstep
    cases heq
    refine h.setRow ?_
    rw [hnone]
    exact rowOk_emptyRow status hreqd.le
  | acceptEntry r filledQty =>
    obtain ⟨⟨hnone, hfill, hle⟩, heq⟩ := ite_none_right_eq_some.mp hstep
    cases heq
    refine h.acceptRow ?_
    have hrow := h r
    rw [hnone] at hrow ⊢
    exact hrow.acceptEntry hfill hle
  | accumulate r plan orderId filledQty terminal =>
    obtain ⟨⟨hexec, -, hplan, -, hle, -⟩, heq⟩ := ite_none_right_eq_some.mp hstep
    cases heq
    refine h.acceptRow ?_
    split
    · rename_i hfill
      exact (h r).accumulateFilled hexec plan orderId hfill hle terminal
    · exact (h r).accumulate hexec plan orderId hplan
  | recover r orderId =>
    cases hstep
    refine h.setRow ((h r).congr rfl rfl rfl rfl fun later hlate => ?_)
    obtain ⟨pending, hpend, rfl⟩ := map_eq_some_iff.mp hlate
    exact ⟨pending, hpend, rfl, rfl, rfl⟩
  | clear r =>
    cases hstep
    exact h.setRow ((h r).congr rfl rfl rfl rfl nofun)
  | setStatus r status =>
    cases hstep
    exact h.setRow ((h r).congr rfl rfl rfl rfl fun later hlate =>
      ⟨later, hlate, rfl, rfl, rfl⟩)
  | fill r quantity =>
    obtain ⟨-, heq⟩ := ite_none_right_eq_some.mp hstep
    cases heq
    exact h
  | foreign quantity =>
    obtain ⟨-, heq⟩ := ite_none_right_eq_some.mp hstep
    cases heq
    exact h
  | reduce r executed reported applied authoritative corrects =>
    obtain ⟨-, heq⟩ := ite_none_right_eq_some.mp hstep
    cases heq
    have hvenue : RowsOk { s with venueQuantity := s.venueQuantity - executed } := h
    exact hvenue.setRow ((h r).applyReduction reported applied authoritative corrects)
  | reconcile r =>
    cases hstep
    exact h.setRow ((h r).reconcileAuthoritative (slotShare_nonneg _ _) hcond)

lemma withinOrders_run
    (hmeets : Meets slotStep RaisedFromBaseline (SlotSystem.start : SlotSystem I) as)
    (hrun : run slotStep (SlotSystem.start : SlotSystem I) as = some t) : WithinOrders t := by
  have hinvar : RowsOk t := invariant_of_meets (fun _ _ _ => rowsOk_step) rowsOk_start hmeets hrun
  exact fun r => (hinvar r).within

/-! ## A round over the rows -/

/-- No quantity is negative. -/
structure SlotSound (s : SlotSystem I) : Prop where
  venue : 0 ≤ s.venueQuantity
  rows : ∀ r, 0 ≤ (s.row r).executedQuantity ∧ 0 ≤ (s.row r).closedQuantity

omit [Fintype I] in
lemma SlotSound.setRow (h : SlotSound s) {row : SlotRow}
    (hrow : 0 ≤ row.executedQuantity ∧ 0 ≤ row.closedQuantity) : SlotSound (s.setRow r row) := by
  refine ⟨h.venue, fun other => ?_⟩
  change 0 ≤ (Function.update s.row r row other).executedQuantity ∧
    0 ≤ (Function.update s.row r row other).closedQuantity
  by_cases hoth : other = r
  · rw [hoth, update_self]
    exact hrow
  · rw [update_of_ne hoth]
    exact h.rows other

/-- Every step keeps the slot sound. -/
lemma SlotSound.step (h : SlotSound s) (hstep : slotStep s a = some t) :
    SlotSound t := by
  cases a with
  | prepare r status requested =>
    obtain ⟨-, heq⟩ := ite_none_right_eq_some.mp hstep
    cases heq
    exact h.setRow ⟨le_rfl, le_rfl⟩
  | acceptEntry r filledQty =>
    obtain ⟨⟨-, hfill, -⟩, heq⟩ := ite_none_right_eq_some.mp hstep
    cases heq
    have hacc : SlotSound (s.accept r (s.row r).quantity filledQty) :=
      ⟨add_nonneg h.venue hfill, h.rows⟩
    refine hacc.setRow ?_
    split
    · exact ⟨hfill, (h.rows r).2⟩
    · exact h.rows r
  | accumulate r plan orderId filledQty terminal =>
    obtain ⟨⟨-, -, -, hfill, -, -⟩, heq⟩ := ite_none_right_eq_some.mp hstep
    cases heq
    have hacc : SlotSound (s.accept r plan.addQty filledQty) := ⟨add_nonneg h.venue hfill, h.rows⟩
    refine hacc.setRow ?_
    split
    · exact ⟨add_nonneg (h.rows r).1 hfill, (h.rows r).2⟩
    · exact h.rows r
  | recover r orderId =>
    cases hstep
    exact h.setRow (h.rows r)
  | clear r =>
    cases hstep
    exact h.setRow (h.rows r)
  | setStatus r status =>
    cases hstep
    exact h.setRow (h.rows r)
  | fill r quantity =>
    obtain ⟨⟨hpos, -⟩, heq⟩ := ite_none_right_eq_some.mp hstep
    cases heq
    exact ⟨add_nonneg h.venue hpos.le, h.rows⟩
  | foreign quantity =>
    obtain ⟨hvenue, heq⟩ := ite_none_right_eq_some.mp hstep
    cases heq
    exact ⟨hvenue, h.rows⟩
  | reduce r executed reported applied authoritative corrects =>
    obtain ⟨⟨-, hle⟩, heq⟩ := ite_none_right_eq_some.mp hstep
    cases heq
    have hvenue : SlotSound { s with venueQuantity := s.venueQuantity - executed } :=
      ⟨sub_nonneg.mpr hle, h.rows⟩
    refine hvenue.setRow ?_
    obtain ⟨hexec, hclos⟩ := h.rows r
    rcases (s.row r).applyReduction_cases hexec hclos reported applied authoritative
      corrects with hsame | ⟨delta, total, hdelta, hdeltaLe, hreduc⟩
    · rw [hsame]
      exact ⟨hexec, hclos⟩
    · rw [hreduc]
      exact ⟨sub_nonneg.mpr hdeltaLe, add_nonneg hclos hdelta⟩
  | reconcile r =>
    cases hstep
    obtain ⟨hexec, hclos⟩ := h.rows r
    exact h.setRow (reconcileAuthoritative_nonneg hexec hclos (slotShare_nonneg _ _))

/-- What the rows of a round hold: no more than the slot, or else next to nothing. -/
def RoundOk (s : SlotSystem I) (done : Finset I) : Prop :=
  ∑ r, (s.row r).executedQuantity ≤
      s.venueQuantity + ∑ r ∈ done, quantityTolerance (s.row r).executedQuantity ∨
    ∀ r ∈ done, (s.row r).executedQuantity ≤ quantityTolerance (s.row r).executedQuantity

lemma ownSiblingSlotQuantity_eq (hsound : SlotSound s) (hcond : SiblingsCounted s (.reconcile r)) :
    s.ownSiblingSlotQuantity r = ∑ other ∈ univ.erase r, (s.row other).executedQuantity := by
  refine sum_congr rfl fun other hoth => ?_
  unfold siblingQuantity
  rcases hcond other (ne_of_mem_erase hoth) with hzero | hcntd
  · rw [hzero, max_self, ite_self]
  · rw [if_pos hcntd, max_eq_right (hsound.rows other).1]

/-- The row that was reconciled fits in the slot beside the others, or it holds next to nothing. -/
lemma reconcile_fits (hsound : SlotSound s) (hcond : SiblingsCounted s (.reconcile r)) :
    let others := ∑ other ∈ univ.erase r, (s.row other).executedQuantity
    let executed := ((s.row r).reconcileAuthoritative (s.share r)).executedQuantity
    executed + others ≤ s.venueQuantity + quantityTolerance executed ∨
      executed ≤ quantityTolerance executed ∧ executed ≤ (s.row r).executedQuantity := by
  intro others executed
  obtain ⟨hexec, hclos⟩ := hsound.rows r
  have hshare : s.share r = max 0 (s.venueQuantity - others) := by
    unfold SlotSystem.share slotShare
    rw [ownSiblingSlotQuantity_eq hsound hcond]
  have hsharNn : 0 ≤ s.share r := slotShare_nonneg _ _
  have hqty := (s.row r).exchangeQuantity_nonneg hexec hsharNn
  have hle : (s.row r).exchangeQuantity (s.share r) ≤ s.share r := min_le_left _ _
  set exchangeQuantity := (s.row r).exchangeQuantity (s.share r)
  have hmoved : executed = exchangeQuantity ∨ executed = (s.row r).executedQuantity ∧
      |(s.row r).executedQuantity - exchangeQuantity| ≤
        quantityTolerance (max (s.row r).executedQuantity exchangeQuantity) := by
    rcases (s.row r).reconcileAuthoritative_cases hexec hclos hsharNn with
      ⟨hsame, hwithi⟩ | ⟨-, total, heq⟩ | ⟨-, heq⟩
    · exact .inr ⟨congrArg executedQuantity hsame, hwithi⟩
    · exact .inl (congrArg executedQuantity heq)
    · obtain ⟨total, initial, base, hrais⟩ := (s.row r).raiseTo_eq exchangeQuantity
      exact .inl (congrArg executedQuantity (heq.trans hrais))
  have htoler := quantityTolerance_pos executed
  rcases le_or_gt others s.venueQuantity with hroom | hfull
  · rw [hshare, max_eq_right (sub_nonneg.mpr hroom)] at hle
    refine .inl ?_
    rcases hmoved with hmoved | ⟨hstays, hwithi⟩
    · linarith
    · rcases le_total (s.row r).executedQuantity exchangeQuantity with hbelow | habove
      · linarith
      · rw [max_eq_left habove, abs_of_nonneg (sub_nonneg.mpr habove), ← hstays] at hwithi
        linarith
  · rw [hshare, max_eq_left (sub_nonpos.mpr hfull.le)] at hle
    have hzero : exchangeQuantity = 0 := le_antisymm hle hqty
    refine .inr ?_
    rcases hmoved with hmoved | ⟨hstays, hwithi⟩
    · rw [hmoved, hzero] at htoler ⊢
      exact ⟨htoler.le, hexec⟩
    · rw [hzero, sub_zero, max_eq_left hexec, abs_of_nonneg hexec, ← hstays] at hwithi
      exact ⟨hwithi, hstays.le⟩

lemma RoundOk.reconcile (h : RoundOk s done) (hsound : SlotSound s)
    (hr : r ∉ done) (hcond : SiblingsCounted s (.reconcile r)) :
    RoundOk (s.setRow r ((s.row r).reconcileAuthoritative (s.share r))) (insert r done) := by
  have hfits := reconcile_fits hsound hcond
  set row := (s.row r).reconcileAuthoritative (s.share r) with hrow
  set others := ∑ other ∈ univ.erase r, (s.row other).executedQuantity with hoths
  have hself : ((s.setRow r row).row r) = row := update_self ..
  have hoth : ∀ other ≠ r, (s.setRow r row).row other = s.row other := fun other hne =>
    update_of_ne hne ..
  have hbef : ∑ q, (s.row q).executedQuantity = (s.row r).executedQuantity + others :=
    (add_sum_erase _ _ (mem_univ r)).symm
  have hafter : ∑ q, ((s.setRow r row).row q).executedQuantity = row.executedQuantity + others := by
    rw [← add_sum_erase _ _ (mem_univ r), hself]
    refine congrArg _ (sum_congr rfl fun other hmem => ?_)
    rw [hoth other (ne_of_mem_erase hmem)]
  have hdone : ∑ q ∈ done, quantityTolerance ((s.setRow r row).row q).executedQuantity =
      ∑ q ∈ done, quantityTolerance (s.row q).executedQuantity :=
    sum_congr rfl fun q hq => by rw [hoth q (ne_of_mem_of_not_mem hq hr)]
  have hnn : 0 ≤ ∑ q ∈ done, quantityTolerance (s.row q).executedQuantity :=
    Finset.sum_nonneg fun q _ => (quantityTolerance_pos _).le
  have htoler := quantityTolerance_pos row.executedQuantity
  unfold RoundOk
  rw [sum_insert hr, hself]
  have hvenue : (s.setRow r row).venueQuantity = s.venueQuantity := rfl
  rcases hfits with hfits | ⟨hsmall, hless⟩
  · exact .inl (by linarith)
  · rcases h with hwithi | hnone
    · exact .inl (by linarith)
    · refine .inr fun q hq => ?_
      rcases Finset.mem_insert.mp hq with rfl | hmem
      · rw [hself]
        exact hsmall
      · rw [hoth q (ne_of_mem_of_not_mem hmem hr)]
        exact hnone q hmem

lemma roundOk_run {order : List I} (hnodup : order.Nodup)
    (hnew : ∀ r ∈ order, r ∉ done) (h : RoundOk s done) (hsound : SlotSound s)
    (hmeets : Meets slotStep SiblingsCounted s (order.map .reconcile))
    (hrun : run slotStep s (order.map .reconcile) = some t) :
    RoundOk t (done ∪ order.toFinset) ∧ SlotSound t := by
  induction order generalizing s done with
  | nil =>
    cases hrun
    rw [toFinset_nil, union_empty]
    exact ⟨h, hsound⟩
  | cons r order ih =>
    obtain ⟨next, hstep, hrest⟩ := run_cons_eq_some.mp hrun
    obtain ⟨hcond, hmeets⟩ := hmeets
    obtain ⟨hr, hnodup⟩ := nodup_cons.mp hnodup
    obtain ⟨hrDone, hnew⟩ := forall_mem_cons.mp hnew
    have hsoundNext := hsound.step hstep
    have hrnd : RoundOk next (insert r done) := by
      cases hstep
      exact h.reconcile hsound hrDone hcond
    rw [toFinset_cons, ← insert_union_comm]
    refine ih hnodup (fun q hq hmem => ?_) hrnd hsoundNext (hmeets next hstep) hrest
    rcases Finset.mem_insert.mp hmem with rfl | hold
    · exact hr hq
    · exact hnew q hq hold

lemma withinSlot_round {before : List (SlotAction I)} {order : List I} (hnodup : order.Nodup)
    (hall : ∀ r, r ∈ order)
    (hmeets : Meets slotStep SiblingsCounted (SlotSystem.start : SlotSystem I)
      (before ++ order.map .reconcile))
    (hrun : run slotStep (SlotSystem.start : SlotSystem I) (before ++ order.map .reconcile) =
      some t) : WithinSlot t := by
  obtain ⟨s, hbef, hrnd⟩ := run_append_eq_some.mp hrun
  have hst : SlotSound (SlotSystem.start : SlotSystem I) := ⟨le_rfl, fun _ => ⟨le_rfl, le_rfl⟩⟩
  have hsound : SlotSound s := invariant_of_step (fun _ _ _ => SlotSound.step) hst hbef
  obtain ⟨hok, hsound⟩ := roundOk_run hnodup (fun r _ => notMem_empty r)
    (.inr fun r hr => absurd hr (notMem_empty r)) hsound (hmeets.right hbef) hrnd
  have huniv : (∅ : Finset I) ∪ order.toFinset = univ := by
    rw [eq_univ_iff_forall]
    exact fun r => mem_toFinset.mpr (hall r)
  rw [huniv] at hok
  unfold WithinSlot
  rcases hok with hwithi | hnone
  · exact hwithi
  · have hsum : ∑ r, (t.row r).executedQuantity ≤
        ∑ r, quantityTolerance (t.row r).executedQuantity :=
      Finset.sum_le_sum fun r hr => hnone r hr
    have hvenue := hsound.venue
    linarith

/-- **Foreign quantity is not absorbed.** The rows stay within their orders in every run in which a
row is raised only with an accepted entry and from the baseline of its pending accumulation; and
they hold no more than the slot after every round in which the siblings with quantity are
counted. -/
theorem slotQuantity_notAbsorbed {t : SlotSystem I}
    (hrun : run slotStep (SlotSystem.start : SlotSystem I) as = some t) :
    (Meets slotStep RaisedFromBaseline (SlotSystem.start : SlotSystem I) as → WithinOrders t) ∧
    ∀ (before : List (SlotAction I)) (order : List I),
      as = before ++ order.map SlotAction.reconcile → order.Nodup → (∀ r, r ∈ order) →
        Meets slotStep SiblingsCounted (SlotSystem.start : SlotSystem I) as → WithinSlot t := by
  refine ⟨fun hmeets => withinOrders_run hmeets hrun, ?_⟩
  rintro before order rfl hnodup hall hmeets
  exact withinSlot_round hnodup hall hmeets hrun

/-- Two rows of one slot, one with an accumulation; others trade beside them and take their quantity
back before the rows are reconciled. -/
def sharedSlotRun : List (SlotAction Bool) :=
  [.prepare false .pending 5, .acceptEntry false 5, .setStatus false .opened,
    .prepare true .placed 3, .acceptEntry true 0, .fill true 2, .setStatus true .partiallyFilled,
    .reconcile true, .accumulate false { clientOrderId := "add", addQty := 10 } "7" 4 false,
    .foreign 6, .fill false 3, .foreign (-5)]

theorem slotQuantity_notAbsorbed_sharedSlot : ∃ t : SlotSystem Bool, run slotStep .start
        (sharedSlotRun ++ [false, true].map SlotAction.reconcile) = some t ∧
      WithinOrders t ∧ WithinSlot t ∧ (t.row false).executedQuantity = 13 := by
  obtain ⟨t, hrun, hexecuted⟩ : ∃ t : SlotSystem Bool, run slotStep .start
      (sharedSlotRun ++ [false, true].map SlotAction.reconcile) = some t ∧
        (t.row false).executedQuantity = 13 := by
    have hsome : (run slotStep .start (sharedSlotRun ++ [false, true].map SlotAction.reconcile)).map
          (fun t : SlotSystem Bool => decide ((t.row false).executedQuantity = 13)) =
        some true := by
      decide +kernel
    obtain ⟨t, ht, hexecuted⟩ := map_eq_some_iff.mp hsome
    exact ⟨t, ht, of_decide_eq_true hexecuted⟩
  obtain ⟨horders, hslot⟩ := slotQuantity_notAbsorbed hrun
  exact ⟨t, hrun, horders (by decide +kernel), hslot sharedSlotRun [false, true] rfl (by decide)
    (by decide) (by decide +kernel), hexecuted⟩

end CtsEngine
