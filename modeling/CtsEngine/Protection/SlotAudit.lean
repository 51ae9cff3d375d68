import CtsEngine.Protection.Book
import CtsEngine.Venue.OrderIds
import Mathlib.Data.Finset.Card

/-!
# The audit of a protection slot

`auditProtectionSlotOrders` compares the controls that the rows of one slot expect with the open
orders of the venue.  The expected controls are validated one after the other; each one names an
order by an id, and an order may be named by its venue id or by its client id.
-/

namespace CtsEngine

open List

/-- `ProtectionSlotMemberSnapshot`: what the audit reads of a row. -/
structure ProtectionSlotMember where
  controlOrderScope : Option String := none
  aggregateProtectionOwner : Bool := false
  symbol : Option String := none
  direction : Option String := none
  side : Option String := none
  executedQuantity : Option OrderScalar := none
  quantity : Option OrderScalar := none
  priceTick : Option ℚ := none
  stopLossOrderId : Option String := none
  takeProfitOrderId : Option String := none
  securityStopOrderId : Option String := none
  stopLossPrice : Option ℚ := none
  takeProfitPrice : Option ℚ := none
  stopLossArmedQuantity : Option ℚ := none
  takeProfitArmedQuantity : Option ℚ := none
  securityStopArmedQuantity : Option ℚ := none
  executionIntent : Option String := none

/-- `AggregateProtectionPlan`: what the audit reads of the plan of the slot. -/
structure AggregateProtectionPlan where
  venueQuantity : Option ℚ := none
  quantityTolerance : Option ℚ := none
  securityStopPrice : Option ℚ := none
  desiredStopLoss : Option ℚ := none
  desiredTakeProfit : Option ℚ := none

structure SlotAuditInput where
  connectionId : String
  symbol : Option String
  direction : Direction
  members : List ProtectionSlotMember
  plan : AggregateProtectionPlan
  openOrders : List ControlOrder

/-- What one expected control has to look like. -/
structure ExpectedControl where
  identifier : Option String
  kind : ProtectionKind
  expectedQuantity : ℚ
  armedQuantity : ℚ
  expectedTrigger : ℚ
  priceTick : ℚ
  violationPrefix : String

/-- What the audit has collected so far. -/
structure SlotAuditState where
  violations : List String := []
  expectedOrderIds : Finset String := ∅
  matchedOrderIndexes : Finset ℕ := ∅
  exactStopLossOrders : ℕ := 0
  exactTakeProfitOrders : ℕ := 0
  exactSecurityOrders : ℕ := 0

structure ProtectionSlotOrphanOrder where
  orderId : String
  clientOrderId : String
  order : ControlOrder

structure ProtectionSlotOrderAudit where
  expectedComplete : Bool
  complete : Bool
  rowCount : ℕ
  expectedControlOrderCount : ℕ
  observedExpectedControlOrderCount : ℕ
  exactStopLossOrders : ℕ
  exactTakeProfitOrders : ℕ
  exactSecurityOrders : ℕ
  connectionOwnedSlotControlOrders : ℕ
  externalOrUnknownSlotControlOrdersPreserved : ℕ
  orphanOrders : List ProtectionSlotOrphanOrder
  expectedOrderIds : Finset String
  violations : List String

variable (env : SystemEnvironment) (input : SlotAuditInput)

/-! ## Members -/

variable (member : ProtectionSlotMember)

def memberDirection : Option Direction :=
  let value := toLowerCase (text (member.direction <|> member.side))
  if value = "long" ∨ value = "buy" then some .long
  else if value = "short" ∨ value = "sell" then some .short
  else none

def memberQuantity : ℚ :=
  |finite ((member.executedQuantity <|> member.quantity).bind (·.number))|

/-- The normalised symbol of the slot. -/
def SlotAuditInput.slotSymbol : String := normalizeProtectionSlotSymbol input.symbol

/-- The tolerance of quantities. -/
def SlotAuditInput.tolerance : ℚ := max (1 / 10 ^ 12) (finite input.plan.quantityTolerance)

/-- The row belongs to the slot and has a quantity. -/
def SlotAuditInput.inSlot : Bool :=
  decide (normalizeProtectionSlotSymbol member.symbol = input.slotSymbol ∧
    memberDirection member = some input.direction ∧ 0 < memberQuantity member)

/-- Some row has controls for the whole slot. -/
def SlotAuditInput.shared : Bool :=
  input.members.any (·.controlOrderScope = some "symbol_direction")

/-- The rows that own the shared controls, with their positions: the objects are distinct. -/
def SlotAuditInput.sharedOwners : List (ProtectionSlotMember × ℕ) :=
  input.members.zipIdx.filter (·.1.aggregateProtectionOwner)

/-- A row whose controls are those of the owner of the shared controls. -/
def SlotAuditInput.isSharedChild (index : ℕ) : Bool :=
  input.shared && decide (input.sharedOwners.head?.map (·.2) ≠ some index)

/-- The stop loss that a row expects. -/
def SlotAuditInput.stopLossControl : ExpectedControl where
  identifier := member.stopLossOrderId
  kind := .stopLoss
  expectedQuantity := if input.shared then finite input.plan.venueQuantity else memberQuantity
    member
  armedQuantity := |finite member.stopLossArmedQuantity|
  expectedTrigger :=
    finite (if input.shared then input.plan.desiredStopLoss else member.stopLossPrice)
  priceTick := finite member.priceTick
  violationPrefix := "row_stop_loss"

/-- The take profit that a row expects. -/
def SlotAuditInput.takeProfitControl : ExpectedControl where
  identifier := member.takeProfitOrderId
  kind := .takeProfit
  expectedQuantity := if input.shared then finite input.plan.venueQuantity else memberQuantity
    member
  armedQuantity := |finite member.takeProfitArmedQuantity|
  expectedTrigger :=
    finite (if input.shared then input.plan.desiredTakeProfit else member.takeProfitPrice)
  priceTick := finite member.priceTick
  violationPrefix := "row_take_profit"

/-- The security stop of the slot, held by one of its rows. -/
def SlotAuditInput.securityControl (owner : ProtectionSlotMember) : ExpectedControl where
  identifier := owner.securityStopOrderId
  kind := .stopLoss
  expectedQuantity := finite input.plan.venueQuantity
  armedQuantity := |finite owner.securityStopArmedQuantity|
  expectedTrigger := finite input.plan.securityStopPrice
  priceTick := finite owner.priceTick
  violationPrefix := "security_stop"

/-- The rows that name a security stop. -/
def SlotAuditInput.securityOwners : List ProtectionSlotMember :=
  input.members.filter (text ·.securityStopOrderId ≠ "")

/-! ## Validating the expected controls -/

def SlotAuditState.addViolation (state : SlotAuditState) (code : String) : SlotAuditState :=
  if code ∈ state.violations then state
  else { state with violations := state.violations ++ [code] }

/-- `findExpectedOrder`: the order that an id names, when it is the only one. -/
def findExpectedOrder (identifier : String) : Option (ControlOrder × ℕ) :=
  match input.openOrders.zipIdx.filter (identifier ∈ protectionOrderIdentifiers ·.1) with
  | [found] => some found
  | _ => none

/-- The checks on the order that was found, with the violations they report. -/
def controlChecks (expected : ExpectedControl) (order : ControlOrder) : List (Bool × String) :=
  [(orderMatchesSlot order input.slotSymbol input.direction false, "_slot_mismatch"),
    (isConnectionOwnedProtectionOrderForSlot env order input.connectionId input.slotSymbol
      input.direction, "_connection_owner_mismatch"),
    (decide (protectionOrderKind order (some input.direction) = some expected.kind),
      "_kind_mismatch"),
    (quantitiesMatch (protectionOrderQuantity order) expected.expectedQuantity input.tolerance,
      "_venue_quantity_mismatch"),
    (quantitiesMatch expected.armedQuantity expected.expectedQuantity input.tolerance,
      "_local_quantity_mismatch"),
    (pricesMatch (protectionOrderTrigger order) expected.expectedTrigger expected.priceTick,
      "_trigger_mismatch")]

def validateExpected (state : SlotAuditState) (expected : ExpectedControl) :
    SlotAuditState × Bool :=
  let identifier := text expected.identifier
  if identifier = "" then (state.addViolation (expected.violationPrefix ++ "_id_missing"), false)
  else if identifier ∈ state.expectedOrderIds then
    (state.addViolation "expected_order_id_reused", false)
  else
    let state := { state with expectedOrderIds := insert identifier state.expectedOrderIds }
    match findExpectedOrder input identifier with
    | none =>
      (state.addViolation (expected.violationPrefix ++ "_not_authoritatively_open"), false)
    | some (order, index) =>
      let state := { state with matchedOrderIndexes := insert index state.matchedOrderIndexes }
      let failed := (controlChecks env input expected order).filter (!·.1)
      (failed.foldl (fun state check => state.addViolation (expected.violationPrefix ++ check.2))
        state, failed.isEmpty)

/-- The pair of controls of one row. -/
def validateRow (state : SlotAuditState) (member : ProtectionSlotMember) : SlotAuditState :=
  let stop := validateExpected env input state (input.stopLossControl member)
  let state := if stop.2 then
    { stop.1 with exactStopLossOrders := stop.1.exactStopLossOrders + 1 } else stop.1
  let take := validateExpected env input state (input.takeProfitControl member)
  if take.2 then
    { take.1 with exactTakeProfitOrders := take.1.exactTakeProfitOrders + 1 } else take.1

/-- The body of the loop over the members. -/
def auditMember (state : SlotAuditState) (entry : ProtectionSlotMember × ℕ) : SlotAuditState :=
  if !input.inSlot entry.1 then state.addViolation "member_slot_mismatch"
  else if input.isSharedChild entry.2 then
    if entry.1.stopLossOrderId.getD "" ≠ "" ∨ entry.1.takeProfitOrderId.getD "" ≠ "" then
      state.addViolation "shared_child_control_present"
    else state
  else validateRow env input state entry.1

/-- The security stop. -/
def auditSecurity (state : SlotAuditState) : SlotAuditState :=
  match input.securityOwners with
  | [owner] =>
    let security := validateExpected env input state (input.securityControl owner)
    if security.2 then
      { security.1 with exactSecurityOrders := security.1.exactSecurityOrders + 1 }
    else security.1
  | _ => state.addViolation "security_owner_count_mismatch"

/-- The check of the shared owner, the members, and the security stop. -/
def auditExpected : SlotAuditState :=
  let state : SlotAuditState := {}
  let state := if input.shared && (decide (input.sharedOwners.length ≠ 1) ||
      input.members.any (·.controlOrderScope ≠ some "symbol_direction")) then
    state.addViolation "shared_control_owner_mismatch" else state
  auditSecurity env input (input.members.zipIdx.foldl (auditMember env input) state)

/-! ## Orphans and the verdict -/

variable (order : ControlOrder)

def ownedByMemberType : Bool :=
  match clientOrderTypeOf env (some (protectionOrderClientId order)) input.connectionId with
  | none => true
  | some .legacy => true
  | some (.typed type) => input.members.isEmpty || input.members.any fun member =>
      decide (toLowerCase ((strOr member.executionIntent none).getD "main") = type.name)

/-- The controls of the slot that are the connection's and of a type of the rows. -/
def isOwnMemberControl : Bool :=
  orderMatchesSlot order input.slotSymbol input.direction false &&
    (isConnectionOwnedProtectionOrderForSlot env order input.connectionId input.slotSymbol
      input.direction && ownedByMemberType env input order)

/-- The own controls that no expected control names. -/
def unmappedControls (expectedOrderIds : Finset String) : List ControlOrder :=
  (input.openOrders.filter (isOwnMemberControl env input)).filter fun order =>
    !(protectionOrderIdentifiers order).any (· ∈ expectedOrderIds)

/-- Whether the order has both ids that a cancellation needs. -/
def hasBothIds : Bool :=
  decide (protectionOrderVenueId order ≠ "" ∧ protectionOrderClientId order ≠ "")

def auditProtectionSlotOrders : ProtectionSlotOrderAudit :=
  let state := auditExpected env input
  let unmapped := unmappedControls env input state.expectedOrderIds
  let orphanOrders := (unmapped.filter hasBothIds).map fun order =>
    ⟨protectionOrderVenueId order, protectionOrderClientId order, order⟩
  let state := if unmapped.all hasBothIds then state
    else state.addViolation "owned_orphan_identifier_missing"
  let slotControls := input.openOrders.filter fun order =>
    orderMatchesSlot order input.slotSymbol input.direction false
  let owned := input.openOrders.filter (isOwnMemberControl env input)
  let expectedPairs := if input.shared then 1 else input.members.length
  let expectedControlOrderCount := expectedPairs * 2 + 1
  let expectedComplete := decide (state.violations = [] ∧
    state.exactStopLossOrders = expectedPairs ∧ state.exactTakeProfitOrders = expectedPairs ∧
    state.exactSecurityOrders = 1 ∧ state.matchedOrderIndexes.card = expectedControlOrderCount)
  { expectedComplete := expectedComplete
    complete := expectedComplete && orphanOrders.isEmpty
    rowCount := input.members.length
    expectedControlOrderCount := expectedControlOrderCount
    observedExpectedControlOrderCount := state.matchedOrderIndexes.card
    exactStopLossOrders := state.exactStopLossOrders
    exactTakeProfitOrders := state.exactTakeProfitOrders
    exactSecurityOrders := state.exactSecurityOrders
    connectionOwnedSlotControlOrders := owned.length
    externalOrUnknownSlotControlOrdersPreserved := slotControls.length - owned.length
    orphanOrders := orphanOrders
    expectedOrderIds := state.expectedOrderIds
    violations := state.violations }

namespace SlotAuditState

variable (state : SlotAuditState)

@[simp] lemma addViolation_expectedOrderIds (code : String) :
    (state.addViolation code).expectedOrderIds = state.expectedOrderIds := by
  unfold addViolation
  split <;> rfl

lemma addViolation_violations (code : String) :
    (state.addViolation code).violations ≠ [] := by
  unfold addViolation
  split
  · rename_i hmem
    exact ne_nil_of_mem hmem
  · simp

variable {α : Type*} (f : α → String) (l : List α)

lemma foldl_addViolation_expectedOrderIds :
    (l.foldl (fun state x => state.addViolation (f x)) state).expectedOrderIds =
      state.expectedOrderIds := by
  induction l generalizing state with
  | nil => rfl
  | cons x l ih =>
    rw [foldl_cons, ih, addViolation_expectedOrderIds]

lemma foldl_addViolation_violations {state : SlotAuditState} (h : state.violations ≠ []) :
    (l.foldl (fun state x => state.addViolation (f x)) state).violations ≠ [] := by
  induction l generalizing state with
  | nil => exact h
  | cons x l ih => exact ih (addViolation_violations state (f x))

end SlotAuditState

/-- The order at this position is the only open one with the id of the control, it is the
connection's, and it has the kind, the quantity and the trigger that the control asks for. -/
def ControlMet (expected : ExpectedControl) (index : ℕ) : Prop :=
  ∃ order, input.openOrders[index]? = some order ∧
    (∀ position other, input.openOrders[position]? = some other →
      (text expected.identifier ∈ protectionOrderIdentifiers other ↔ position = index)) ∧
    isConnectionOwnedProtectionOrderForSlot env order input.connectionId input.slotSymbol
      input.direction = true ∧
    protectionOrderKind order (some input.direction) = some expected.kind ∧
    quantitiesMatch (protectionOrderQuantity order) expected.expectedQuantity input.tolerance =
      true ∧
    pricesMatch (protectionOrderTrigger order) expected.expectedTrigger expected.priceTick = true

lemma findExpectedOrder_eq_some {identifier : String} {order : ControlOrder} {index : ℕ}
    (h : findExpectedOrder input identifier = some (order, index)) :
    input.openOrders[index]? = some order ∧
      ∀ position other, input.openOrders[position]? = some other →
        (identifier ∈ protectionOrderIdentifiers other ↔ position = index) := by
  have hfilt : input.openOrders.zipIdx.filter (identifier ∈ protectionOrderIdentifiers ·.1) =
      [(order, index)] := by
    unfold findExpectedOrder at h
    split at h
    · rename_i found hfnd
      rw [hfnd, Option.some_inj.mp h]
    · cases h
  have hmem : ∀ position other, input.openOrders[position]? = some other →
      identifier ∈ protectionOrderIdentifiers other → (other, position) = (order, index) := by
    intro position other hoth hid
    have hin : (other, position) ∈
        input.openOrders.zipIdx.filter (identifier ∈ protectionOrderIdentifiers ·.1) :=
      mem_filter.mpr ⟨mk_mem_zipIdx_iff_getElem?.mpr hoth, by simpa using hid⟩
    rw [hfilt] at hin
    exact mem_singleton.mp hin
  have hfnd : (order, index) ∈
      input.openOrders.zipIdx.filter (identifier ∈ protectionOrderIdentifiers ·.1) := by
    rw [hfilt]
    exact mem_singleton_self _
  obtain ⟨hzip, hid⟩ := mem_filter.mp hfnd
  have hord : input.openOrders[index]? = some order := mk_mem_zipIdx_iff_getElem?.mp hzip
  refine ⟨hord, fun position other hoth => ⟨fun hin => ?_, fun heq => ?_⟩⟩
  · exact congrArg Prod.snd (hmem position other hoth hin)
  · rw [heq, hord] at hoth
    rw [← Option.some_inj.mp hoth]
    simpa using hid

variable {state : SlotAuditState}

lemma validateExpected_clean {expected : ExpectedControl}
    (h : (validateExpected env input state expected).1.violations = []) :
    state.violations = [] ∧ ∃ index, ControlMet env input expected index ∧
      validateExpected env input state expected = ({ state with
          expectedOrderIds := insert (text expected.identifier) state.expectedOrderIds
          matchedOrderIndexes := insert index state.matchedOrderIndexes }, true) := by
  unfold validateExpected at h ⊢
  dsimp only at h ⊢
  split at h
  · exact absurd h (SlotAuditState.addViolation_violations _ _)
  · rename_i hne
    rw [if_neg hne]
    split at h
    · exact absurd h (SlotAuditState.addViolation_violations _ _)
    · rename_i hnew
      rw [if_neg hnew]
      split at h
      · exact absurd h (SlotAuditState.addViolation_violations _ _)
      · rename_i order index hfnd
        cases hfail : (controlChecks env input expected order).filter (!·.1) with
        | cons check rest =>
          rw [hfail, foldl_cons] at h
          exact absurd h (SlotAuditState.foldl_addViolation_violations _ _
            (SlotAuditState.addViolation_violations _ _))
        | nil =>
          rw [hfail] at h
          refine ⟨h, index, ?_, rfl⟩
          have hall := filter_eq_nil_iff.mp hfail
          simp only [controlChecks, forall_mem_cons, Bool.not_eq_true, Bool.not_eq_false',
            decide_eq_true_eq] at hall
          obtain ⟨hord, huniq⟩ := findExpectedOrder_eq_some input hfnd
          exact ⟨order, hord, huniq, hall.2.1, hall.2.2.1, hall.2.2.2.1, hall.2.2.2.2.2.1⟩

lemma validateExpected_expectedOrderIds (state : SlotAuditState) (expected : ExpectedControl) :
    state.expectedOrderIds ⊆ (validateExpected env input state expected).1.expectedOrderIds ∧
      (text expected.identifier ≠ "" → text expected.identifier ∈
        (validateExpected env input state expected).1.expectedOrderIds) := by
  unfold validateExpected
  dsimp only
  split
  · rename_i hemp
    exact ⟨by rw [SlotAuditState.addViolation_expectedOrderIds], fun hne => absurd hemp hne⟩
  · split
    · rename_i hmem
      rw [SlotAuditState.addViolation_expectedOrderIds]
      exact ⟨Finset.Subset.refl _, fun _ => hmem⟩
    · split
      · rw [SlotAuditState.addViolation_expectedOrderIds]
        exact ⟨Finset.subset_insert _ _, fun _ => Finset.mem_insert_self _ _⟩
      · rw [SlotAuditState.foldl_addViolation_expectedOrderIds]
        exact ⟨Finset.subset_insert _ _, fun _ => Finset.mem_insert_self _ _⟩

/-! ## The controls of the rows -/

/-- The controls that the audit expects of one row: none of a shared child. -/
def SlotAuditInput.rowControlsOf (entry : ProtectionSlotMember × ℕ) : List ExpectedControl :=
  if input.isSharedChild entry.2 then []
  else [input.stopLossControl entry.1, input.takeProfitControl entry.1]

/-- The controls that the audit expects of the rows. -/
def SlotAuditInput.rowControls : List ExpectedControl :=
  input.members.zipIdx.flatMap input.rowControlsOf

/-- The orders that a list of expected controls has been matched with. -/
structure SlotAuditState.Tracks (state : SlotAuditState) (controls : List ExpectedControl) :
    Prop where
  met : ∃ indexes, List.Forall₂ (ControlMet env input) controls indexes ∧
    state.matchedOrderIndexes = indexes.toFinset
  expected : state.expectedOrderIds = (controls.map (text ·.identifier)).toFinset

variable {env input}

namespace SlotAuditState.Tracks

lemma nil : ({} : SlotAuditState).Tracks env input [] := ⟨⟨[], .nil, rfl⟩, rfl⟩

lemma congr {state state' : SlotAuditState} {controls : List ExpectedControl}
    (h : state.Tracks env input controls)
    (hmatc : state'.matchedOrderIndexes = state.matchedOrderIndexes)
    (hexpec : state'.expectedOrderIds = state.expectedOrderIds) :
    state'.Tracks env input controls := by
  obtain ⟨indexes, hmet, heq⟩ := h.met
  exact ⟨⟨indexes, hmet, hmatc.trans heq⟩, hexpec.trans h.expected⟩

lemma validate {state : SlotAuditState} {controls : List ExpectedControl}
    (h : state.Tracks env input controls) (expected : ExpectedControl)
    (hclean : (validateExpected env input state expected).1.violations = []) :
    (validateExpected env input state expected).1.Tracks env input (controls ++ [expected]) := by
  obtain ⟨indexes, hmet, heq⟩ := h.met
  obtain ⟨-, index, hidx, hres⟩ := validateExpected_clean env input hclean
  rw [hres]
  refine ⟨⟨indexes ++ [index], rel_append hmet (.cons hidx .nil), ?_⟩, ?_⟩
  · rw [heq, toFinset_append, Finset.union_comm]
    rfl
  · rw [h.expected, map_append, toFinset_append, Finset.union_comm]
    rfl

end SlotAuditState.Tracks

lemma validateRow_clean {member : ProtectionSlotMember}
    (h : (validateRow env input state member).violations = []) :
    state.violations = [] ∧
      (validateRow env input state member).exactStopLossOrders = state.exactStopLossOrders + 1 ∧
      (∀ controls, state.Tracks env input controls →
        (validateRow env input state member).Tracks env input
          (controls ++ [input.stopLossControl member, input.takeProfitControl member])) := by
  obtain ⟨stop, hstop⟩ : ∃ stop, validateExpected env input state (input.stopLossControl member) =
      stop := ⟨_, rfl⟩
  obtain ⟨counted, hcntd⟩ : ∃ counted, (if stop.2 = true then
      { stop.1 with exactStopLossOrders := stop.1.exactStopLossOrders + 1 } else stop.1) =
      counted := ⟨_, rfl⟩
  obtain ⟨take, htake⟩ : ∃ take,
      validateExpected env input counted (input.takeProfitControl member) = take := ⟨_, rfl⟩
  have hrow : validateRow env input state member = if take.2 = true then
      { take.1 with exactTakeProfitOrders := take.1.exactTakeProfitOrders + 1 } else take.1 := by
    unfold validateRow
    dsimp only
    rw [hstop, hcntd, htake]
  have htakeClean : take.1.violations = [] := by
    rw [hrow] at h
    split at h <;> exact h
  have hafter := validateExpected_clean env input (htake.symm ▸ htakeClean)
  have hstopClean : stop.1.violations = [] := by
    have hbef := hafter.1
    rw [← hcntd] at hbef
    split at hbef <;> exact hbef
  have hfst := validateExpected_clean env input (hstop.symm ▸ hstopClean)
  obtain ⟨hstate, index, -, hres⟩ := hfst
  obtain ⟨-, index', -, hres'⟩ := hafter
  have hcntdEq : counted.exactStopLossOrders = state.exactStopLossOrders + 1 := by
    rw [← hcntd, ← hstop, hres]
    rfl
  refine ⟨hstate, ?_, fun controls htrac => ?_⟩
  · rw [hrow, ← htake, hres']
    exact hcntdEq
  · have hone := htrac.validate (input.stopLossControl member) (hstop.symm ▸ hstopClean)
    have hcnt : counted.Tracks env input (controls ++ [input.stopLossControl member]) :=
      hone.congr (by rw [← hcntd, hstop]; split <;> rfl) (by rw [← hcntd, hstop]; split <;> rfl)
    have htwo := hcnt.validate (input.takeProfitControl member) (htake.symm ▸ htakeClean)
    rw [append_assoc, htake] at htwo
    exact htwo.congr (by rw [hrow]; split <;> rfl) (by rw [hrow]; split <;> rfl)

lemma auditMember_clean {entry : ProtectionSlotMember × ℕ}
    (h : (auditMember env input state entry).violations = []) :
    state.violations = [] ∧ input.inSlot entry.1 = true ∧ (input.isSharedChild entry.2 = true →
        text entry.1.stopLossOrderId = "" ∧ text entry.1.takeProfitOrderId = "") ∧
      (∀ controls, state.Tracks env input controls →
        state.exactStopLossOrders * 2 = controls.length →
        (auditMember env input state entry).Tracks env input
            (controls ++ input.rowControlsOf entry) ∧
          (auditMember env input state entry).exactStopLossOrders * 2 =
            (controls ++ input.rowControlsOf entry).length) := by
  unfold auditMember at h ⊢
  unfold SlotAuditInput.rowControlsOf
  split at h
  · exact absurd h (SlotAuditState.addViolation_violations _ _)
  · rename_i hslot
    have hslot : input.inSlot entry.1 = true := by simpa using hslot
    simp only [hslot, Bool.not_true, Bool.false_eq_true, if_false]
    split at h
    · rename_i hchild
      split at h
      · exact absurd h (SlotAuditState.addViolation_violations _ _)
      · rename_i hids
        rw [not_or, not_not, not_not] at hids
        rw [if_pos hchild, if_neg (by simp [hids]), if_pos hchild]
        refine ⟨h, trivial, fun _ => ?_, fun controls htrac hcnt => ?_⟩
        · unfold text
          rw [hids.1, hids.2]
          exact ⟨rfl, rfl⟩
        · rw [append_nil]
          exact ⟨htrac, hcnt⟩
    · rename_i hchild
      obtain ⟨hstate, hcntr, htrack⟩ := validateRow_clean h
      rw [if_neg hchild, if_neg hchild]
      refine ⟨hstate, trivial, fun hch => absurd hch hchild, fun controls htrac hcnt => ?_⟩
      refine ⟨htrack controls htrac, ?_⟩
      rw [length_append, length_cons, length_singleton]
      omega

lemma auditMembers_clean {entries : List (ProtectionSlotMember × ℕ)}
    (h : (entries.foldl (auditMember env input) state).violations = []) :
    state.violations = [] ∧
      (∀ entry ∈ entries, input.inSlot entry.1 = true ∧ (input.isSharedChild entry.2 = true →
        text entry.1.stopLossOrderId = "" ∧ text entry.1.takeProfitOrderId = "")) ∧
      (∀ controls, state.Tracks env input controls →
        state.exactStopLossOrders * 2 = controls.length →
        (entries.foldl (auditMember env input) state).Tracks env input
            (controls ++ entries.flatMap input.rowControlsOf) ∧
          (entries.foldl (auditMember env input) state).exactStopLossOrders * 2 =
            (controls ++ entries.flatMap input.rowControlsOf).length) := by
  induction entries generalizing state with
  | nil =>
    refine ⟨h, ?_, fun controls htrac hcnt => ?_⟩
    · intro entry hent
      cases hent
    · rw [flatMap_nil, append_nil]
      exact ⟨htrac, hcnt⟩
  | cons entry entries ih =>
    rw [foldl_cons] at h ⊢
    obtain ⟨hnext, hrest, hrun⟩ := ih h
    obtain ⟨hstate, hslot, hchild, hstep⟩ := auditMember_clean hnext
    refine ⟨hstate, fun other hoth => ?_, fun controls htrac hcnt => ?_⟩
    · rcases mem_cons.mp hoth with rfl | hoth
      · exact ⟨hslot, hchild⟩
      · exact hrest other hoth
    · obtain ⟨htrac', hcnt'⟩ := hstep controls htrac hcnt
      have hfinal := hrun _ htrac' hcnt'
      rw [append_assoc] at hfinal
      exact hfinal

/-- Without violations one row owns the stop, and all is tracked. -/
lemma auditExpected_clean (h : (auditExpected env input).violations = []) :
    ∃ owner, input.securityOwners = [owner] ∧
      (∀ entry ∈ input.members.zipIdx, input.inSlot entry.1 = true ∧
        (input.isSharedChild entry.2 = true →
          text entry.1.stopLossOrderId = "" ∧ text entry.1.takeProfitOrderId = "")) ∧
      (auditExpected env input).Tracks env input
        (input.rowControls ++ [input.securityControl owner]) ∧
      (auditExpected env input).exactStopLossOrders * 2 = input.rowControls.length := by
  obtain ⟨start, hst⟩ : ∃ start, (if input.shared && (decide (input.sharedOwners.length ≠ 1) ||
      input.members.any (·.controlOrderScope ≠ some "symbol_direction")) then
      ({} : SlotAuditState).addViolation "shared_control_owner_mismatch" else {}) = start :=
    ⟨_, rfl⟩
  obtain ⟨rows, hrows⟩ : ∃ rows, input.members.zipIdx.foldl (auditMember env input) start = rows :=
    ⟨_, rfl⟩
  have hexpec : auditExpected env input = auditSecurity env input rows := by
    unfold auditExpected
    dsimp only
    rw [hst, hrows]
  rw [hexpec] at h ⊢
  unfold auditSecurity at h ⊢
  split at h
  · rename_i owner howner
    obtain ⟨security, hsec⟩ : ∃ security,
        validateExpected env input rows (input.securityControl owner) = security := ⟨_, rfl⟩
    dsimp only at h ⊢
    rw [hsec] at h ⊢
    have hclean : security.1.violations = [] := by
      split at h <;> exact h
    obtain ⟨hrowsClean, index, -, hres⟩ := validateExpected_clean env input (hsec.symm ▸ hclean)
    obtain ⟨hstClean, hmems, hrun⟩ := auditMembers_clean (hrows.symm ▸ hrowsClean)
    -- nothing was tracked before the first member
    have hemp : start = {} := by
      rw [← hst] at hstClean ⊢
      split at hstClean
      · exact absurd hstClean (SlotAuditState.addViolation_violations _ _)
      · rename_i hshar
        rw [if_neg hshar]
    obtain ⟨htrac, hcnt⟩ := hrun [] (hemp ▸ SlotAuditState.Tracks.nil) (by rw [hemp]; rfl)
    rw [hrows] at htrac hcnt
    have hfinal := htrac.validate (input.securityControl owner) (hsec.symm ▸ hclean)
    rw [hsec] at hfinal
    refine ⟨owner, howner, hmems, hfinal.congr ?_ ?_, ?_⟩
    · split <;> rfl
    · split <;> rfl
    · have hcntr : security.1.exactStopLossOrders = rows.exactStopLossOrders := by
        rw [← hsec, hres]
      split
      · rw [hcntr]
        exact hcnt
      · rw [hcntr]
        exact hcnt
  · exact absurd h (SlotAuditState.addViolation_violations _ _)

variable (env input)

lemma validateRow_expectedOrderIds (state : SlotAuditState) (member : ProtectionSlotMember) :
    state.expectedOrderIds ⊆ (validateRow env input state member).expectedOrderIds ∧
      ∀ control ∈ [input.stopLossControl member, input.takeProfitControl member],
        text control.identifier ≠ "" →
          text control.identifier ∈ (validateRow env input state member).expectedOrderIds := by
  obtain ⟨stop, hstop⟩ : ∃ stop, validateExpected env input state (input.stopLossControl member) =
      stop := ⟨_, rfl⟩
  obtain ⟨counted, hcntd⟩ : ∃ counted, (if stop.2 = true then
      { stop.1 with exactStopLossOrders := stop.1.exactStopLossOrders + 1 } else stop.1) =
      counted := ⟨_, rfl⟩
  have hkeeps : counted.expectedOrderIds = stop.1.expectedOrderIds := by
    rw [← hcntd]
    split <;> rfl
  have hrow : (validateRow env input state member).expectedOrderIds =
      (validateExpected env input counted (input.takeProfitControl member)).1.expectedOrderIds := by
    unfold validateRow
    dsimp only
    rw [hstop, hcntd]
    split <;> rfl
  obtain ⟨hfst, hstopId⟩ :=
    validateExpected_expectedOrderIds env input state (input.stopLossControl member)
  obtain ⟨hsec, htakeId⟩ :=
    validateExpected_expectedOrderIds env input counted (input.takeProfitControl member)
  rw [hstop] at hfst hstopId
  rw [hkeeps, ← hrow] at hsec
  rw [← hrow] at htakeId
  refine ⟨hfst.trans hsec, fun control hctrl hne => ?_⟩
  rcases mem_pair.mp hctrl with rfl | rfl
  · exact hsec (hstopId hne)
  · exact htakeId hne

lemma auditMember_expectedOrderIds (state : SlotAuditState) (entry : ProtectionSlotMember × ℕ) :
    state.expectedOrderIds ⊆ (auditMember env input state entry).expectedOrderIds ∧
      (input.inSlot entry.1 = true → ∀ control ∈ input.rowControlsOf entry,
        text control.identifier ≠ "" →
          text control.identifier ∈ (auditMember env input state entry).expectedOrderIds) := by
  unfold auditMember SlotAuditInput.rowControlsOf
  split
  · rename_i hslot
    rw [SlotAuditState.addViolation_expectedOrderIds]
    exact ⟨Finset.Subset.refl _, fun hin => by simp [hin] at hslot⟩
  · split
    · refine ⟨?_, fun _ control hctrl => by cases hctrl⟩
      split
      · rw [SlotAuditState.addViolation_expectedOrderIds]
      · exact Finset.Subset.refl _
    · obtain ⟨hmono, hids⟩ := validateRow_expectedOrderIds env input state entry.1
      exact ⟨hmono, fun _ => hids⟩

lemma auditMembers_expectedOrderIds (entries : List (ProtectionSlotMember × ℕ))
    (state : SlotAuditState) :
    state.expectedOrderIds ⊆ (entries.foldl (auditMember env input) state).expectedOrderIds ∧
      ∀ entry ∈ entries, input.inSlot entry.1 = true → ∀ control ∈ input.rowControlsOf entry,
        text control.identifier ≠ "" → text control.identifier ∈
          (entries.foldl (auditMember env input) state).expectedOrderIds := by
  induction entries generalizing state with
  | nil =>
    refine ⟨Finset.Subset.refl _, ?_⟩
    intro entry hent
    cases hent
  | cons first entries ih =>
    rw [foldl_cons]
    obtain ⟨next, hnext⟩ : ∃ next, auditMember env input state first = next := ⟨_, rfl⟩
    have hstep := auditMember_expectedOrderIds env input state first
    rw [hnext] at hstep ⊢
    obtain ⟨hmono, hids⟩ := ih next
    refine ⟨Finset.Subset.trans hstep.1 hmono, ?_⟩
    intro entry hent hslot control hctrl hne
    rcases mem_cons.mp hent with hfst | hent
    · rw [hfst] at hslot hctrl
      exact Finset.mem_of_subset hmono (hstep.2 hslot control hctrl hne)
    · exact hids entry hent hslot control hctrl hne

lemma auditExpected_expectedOrderIds :
    (∀ entry ∈ input.members.zipIdx, input.inSlot entry.1 = true →
      ∀ control ∈ input.rowControlsOf entry, text control.identifier ≠ "" →
        text control.identifier ∈ (auditExpected env input).expectedOrderIds) ∧
      ∀ owner, input.securityOwners = [owner] →
        text owner.securityStopOrderId ∈ (auditExpected env input).expectedOrderIds := by
  obtain ⟨rows, hrows, hids⟩ : ∃ rows, auditExpected env input = auditSecurity env input rows ∧
      ∀ entry ∈ input.members.zipIdx, input.inSlot entry.1 = true →
        ∀ control ∈ input.rowControlsOf entry, text control.identifier ≠ "" →
          text control.identifier ∈ rows.expectedOrderIds :=
    ⟨_, rfl, (auditMembers_expectedOrderIds env input input.members.zipIdx _).2⟩
  rw [hrows]
  unfold auditSecurity
  refine ⟨fun entry hent hslot control hctrl hne => ?_, fun owner howner => ?_⟩
  · have hin := hids entry hent hslot control hctrl hne
    split
    · rename_i owner _
      have hmono := (validateExpected_expectedOrderIds env input rows
        (input.securityControl owner)).1
      dsimp only
      split
      · exact hmono hin
      · exact hmono hin
    · rw [SlotAuditState.addViolation_expectedOrderIds]
      exact hin
  · have hmem : owner ∈ input.securityOwners := by
      rw [howner]
      exact mem_singleton_self owner
    have hne : text owner.securityStopOrderId ≠ "" := by
      simpa using (mem_filter.mp hmem).2
    have hin := (validateExpected_expectedOrderIds env input rows
      (input.securityControl owner)).2 hne
    rw [howner]
    dsimp only
    split
    · exact hin
    · exact hin

/-! ## Soundness of the audit -/

lemma audit_expectedComplete (h : (auditProtectionSlotOrders env input).expectedComplete = true) :
    (auditExpected env input).violations = [] ∧
      (unmappedControls env input (auditExpected env input).expectedOrderIds).all hasBothIds =
        true ∧
      (auditExpected env input).exactStopLossOrders =
        (if input.shared then 1 else input.members.length) ∧
      (auditExpected env input).matchedOrderIndexes.card =
        (if input.shared then 1 else input.members.length) * 2 + 1 := by
  obtain ⟨hviol, hstop, -, -, hcard⟩ := of_decide_eq_true h
  split at hviol
  · rename_i hall
    rw [if_pos hall] at hstop hcard
    exact ⟨hviol, hall, hstop, hcard⟩
  · exact absurd hviol (SlotAuditState.addViolation_violations _ _)

lemma nodup_of_toFinset_card {indexes : List ℕ} (h : indexes.toFinset.card = indexes.length) :
    indexes.Nodup := by
  have hiff := Multiset.toFinset_card_eq_card_iff_nodup (m := (indexes : Multiset ℕ))
  exact Multiset.coe_nodup.mp (hiff.mp h)

lemma exists_index_of_mem {controls : List ExpectedControl} {indexes : List ℕ}
    (h : List.Forall₂ (ControlMet env input) controls indexes) {control : ExpectedControl}
    (hctrl : control ∈ controls) : ∃ index ∈ indexes, ControlMet env input control index := by
  induction h with
  | nil => cases hctrl
  | cons hmet _ ih =>
    rcases mem_cons.mp hctrl with rfl | hrest
    · exact ⟨_, mem_cons_self .., hmet⟩
    · obtain ⟨index, hidx, hmet'⟩ := ih hrest
      exact ⟨index, mem_cons_of_mem _ hidx, hmet'⟩

lemma orphan_spec {orphan : ProtectionSlotOrphanOrder}
    (h : orphan ∈ (auditProtectionSlotOrders env input).orphanOrders) :
    orphan.order ∈ input.openOrders ∧ isOwnMemberControl env input orphan.order = true ∧
      ∀ id ∈ protectionOrderIdentifiers orphan.order,
        id ∉ (auditExpected env input).expectedOrderIds := by
  obtain ⟨order, hord, rfl⟩ := mem_map.mp h
  obtain ⟨hunmap, -⟩ := mem_filter.mp hord
  obtain ⟨hown, hids⟩ := mem_filter.mp hunmap
  obtain ⟨hopen, hctrl⟩ := mem_filter.mp hown
  refine ⟨hopen, hctrl, ?_⟩
  simpa using hids

lemma ne_empty_of_mem_identifiers {order : ControlOrder} {id : String}
    (h : id ∈ protectionOrderIdentifiers order) : id ≠ "" := by
  have hmem := mem_dedup.mp h
  simpa using (mem_filter.mp hmem).2

/-- **Soundness of the slot audit.** When the audit is complete, the rows all belong to the slot and
different open orders meet the controls of the rows and the security stop, and the slot has no
other own control of the types of the rows.  Whatever the verdict, an orphan is an own control of
one of these types, and no control of a row of the slot names it. -/
theorem slotAudit_sound : ((auditProtectionSlotOrders env input).complete = true →
      ∃ owner, input.securityOwners = [owner] ∧
        (∀ member ∈ input.members, input.inSlot member = true) ∧
        input.rowControls.length = (if input.shared then 1 else input.members.length) * 2 ∧
        ∃ indexes : List ℕ, indexes.Nodup ∧ List.Forall₂ (ControlMet env input)
            (input.rowControls ++ [input.securityControl owner]) indexes ∧
          ∀ index order, input.openOrders[index]? = some order →
            isOwnMemberControl env input order = true → index ∈ indexes) ∧
      ∀ orphan ∈ (auditProtectionSlotOrders env input).orphanOrders,
        orphan.order ∈ input.openOrders ∧
          isConnectionOwnedProtectionOrderForSlot env orphan.order input.connectionId
            input.slotSymbol input.direction = true ∧
          ownedByMemberType env input orphan.order = true ∧
          (∀ entry ∈ input.members.zipIdx, input.inSlot entry.1 = true →
            ∀ control ∈ input.rowControlsOf entry,
              text control.identifier ∉ protectionOrderIdentifiers orphan.order) ∧
          (∀ owner, input.securityOwners = [owner] →
            text owner.securityStopOrderId ∉ protectionOrderIdentifiers orphan.order) ∧
          ((auditProtectionSlotOrders env input).expectedComplete = true → ∀ member ∈ input.members,
              ∀ id ∈ [member.stopLossOrderId, member.takeProfitOrderId, member.securityStopOrderId],
                text id ∉ protectionOrderIdentifiers orphan.order) := by
  obtain ⟨hrowIds, hsecurityId⟩ := auditExpected_expectedOrderIds env input
  refine ⟨fun hcomplete => ?_, fun orphan horphan => ?_⟩
  · have hboth : (auditProtectionSlotOrders env input).expectedComplete = true ∧
        (auditProtectionSlotOrders env input).orphanOrders.isEmpty = true := by
      rw [← Bool.and_eq_true]
      exact hcomplete
    obtain ⟨hclean, hall, hstop, hcard⟩ := audit_expectedComplete env input hboth.1
    obtain ⟨owner, howner, hmembers, htracks, hcount⟩ := auditExpected_clean hclean
    obtain ⟨indexes, hmet, hindexes⟩ := htracks.met
    have hlength : input.rowControls.length =
        (if input.shared then 1 else input.members.length) * 2 := by
      rw [← hcount, hstop]
    refine ⟨owner, howner, fun member hmember => ?_, hlength, indexes, ?_, hmet, ?_⟩
    · obtain ⟨index, hindex⟩ := mem_iff_getElem?.mp hmember
      exact (hmembers (member, index) (mk_mem_zipIdx_iff_getElem?.mpr hindex)).1
    · refine nodup_of_toFinset_card ?_
      rw [← hindexes, hcard, ← hlength, ← hmet.length_eq, length_append, length_singleton]
    · intro index order horder hown
      -- an own control is mapped, since there are no orphans
      have hmapped : ¬ order ∈
          unmappedControls env input (auditExpected env input).expectedOrderIds := by
        intro hin
        have hnone : (unmappedControls env input
            (auditExpected env input).expectedOrderIds).filter hasBothIds = [] := by
          simpa [auditProtectionSlotOrders] using hboth.2
        exact filter_eq_nil_iff.mp hnone order hin (all_eq_true.mp hall order hin)
      have hopen : order ∈ input.openOrders := mem_of_getElem? horder
      obtain ⟨id, hid, hidExpected⟩ : ∃ id ∈ protectionOrderIdentifiers order,
          id ∈ (auditExpected env input).expectedOrderIds := by
        by_contra hnone
        refine hmapped (mem_filter.mpr ⟨mem_filter.mpr ⟨hopen, hown⟩, ?_⟩)
        simpa using hnone
      rw [htracks.expected, mem_toFinset] at hidExpected
      obtain ⟨control, hcontrol, rfl⟩ := mem_map.mp hidExpected
      obtain ⟨position, hposition, order', horder', hunique, -⟩ :=
        exists_index_of_mem env input hmet hcontrol
      rw [(hunique index order horder).mp hid]
      exact hposition
  · obtain ⟨hopen, hown, hids⟩ := orphan_spec env input horphan
    unfold isOwnMemberControl at hown
    simp only [Bool.and_eq_true] at hown
    refine ⟨hopen, hown.2.1, hown.2.2, ?_, ?_, ?_⟩
    · intro entry hentry hslot control hcontrol hid
      exact hids _ hid (hrowIds entry hentry hslot control hcontrol
        (ne_empty_of_mem_identifiers hid))
    · intro owner howner hid
      exact hids _ hid (hsecurityId owner howner)
    · intro hexpected member hmember id hid hin
      obtain ⟨hclean, -⟩ := audit_expectedComplete env input hexpected
      obtain ⟨owner, howner, hmembers, -⟩ := auditExpected_clean hclean
      have hne := ne_empty_of_mem_identifiers hin
      obtain ⟨index, hindex⟩ := mem_iff_getElem?.mp hmember
      have hentry : (member, index) ∈ input.members.zipIdx := mk_mem_zipIdx_iff_getElem?.mpr hindex
      obtain ⟨hslot, hchild⟩ := hmembers (member, index) hentry
      have hrow : ∀ control ∈ [input.stopLossControl member, input.takeProfitControl member],
          input.isSharedChild index = false →
            text control.identifier ∉ protectionOrderIdentifiers orphan.order := by
        intro control hcontrol hnot hmem
        refine hids _ hmem (hrowIds (member, index) hentry hslot control ?_
          (ne_empty_of_mem_identifiers hmem))
        unfold SlotAuditInput.rowControlsOf
        rw [if_neg (by simp [hnot])]
        exact hcontrol
      simp only [mem_cons, not_mem_nil, or_false] at hid
      rcases hid with rfl | rfl | rfl
      · cases hshared : input.isSharedChild index with
        | true => exact hne (hchild hshared).1
        | false => exact hrow (input.stopLossControl member) (by simp) hshared hin
      · cases hshared : input.isSharedChild index with
        | true => exact hne (hchild hshared).2
        | false => exact hrow (input.takeProfitControl member) (by simp) hshared hin
      · -- a row with a security stop is the only one
        have hsecurity : member ∈ input.securityOwners :=
          mem_filter.mpr ⟨hmember, by simpa using hne⟩
        rw [howner] at hsecurity
        rw [mem_singleton.mp hsecurity] at hin
        exact hids _ hin (hsecurityId owner howner)

/-- A row of a long position of one unit. -/
def longMember : ProtectionSlotMember where
  symbol := some "BTC-USDT"
  direction := some "long"
  quantity := some ⟨"1", some 1⟩
  priceTick := some (1 / 10)

/-- Two rows that share the controls of the first one. -/
def sharedSlot : SlotAuditInput where
  connectionId := "bingx-x01"
  symbol := some "BTC-USDT"
  direction := .long
  members :=
    [{ longMember with
        controlOrderScope := some "symbol_direction"
        aggregateProtectionOwner := true
        stopLossOrderId := some "ctsbingxx01sl"
        takeProfitOrderId := some "ctsbingxx01tp"
        securityStopOrderId := some "ctsbingxx01sec"
        stopLossArmedQuantity := some 2
        takeProfitArmedQuantity := some 2
        securityStopArmedQuantity := some 2 },
      { longMember with controlOrderScope := some "symbol_direction" }]
  plan :=
    { venueQuantity := some 2
      quantityTolerance := some (1 / 10 ^ 8)
      securityStopPrice := some 90
      desiredStopLoss := some 95
      desiredTakeProfit := some 110 }
  openOrders :=
    [longControl "ctsbingxx01sl" "STOP_MARKET" 95 (2 + 5 / 10 ^ 9),
      longControl "ctsbingxx01tp" "TAKE_PROFIT_MARKET" 110 2,
      longControl "ctsbingxx01sec" "STOP_MARKET" 90 2]

/-- A row whose executed quantity is `0`, with its stop loss still open. -/
def unfilledSlot : SlotAuditInput where
  connectionId := "bingx-x01"
  symbol := some "BTC-USDT"
  direction := .long
  members := [{ longMember with
    executedQuantity := some ⟨"0", some 0⟩
    stopLossOrderId := some "ctsbingxx01sl" }]
  plan := {}
  openOrders := [longControl "ctsbingxx01sl" "STOP_MARKET" 95 1]

/-- A complete audit of rows that share their controls: there are fewer orders than stop losses and
take profits of the rows, and one has not exactly the planned quantity.  An incomplete one has an
orphan that a row names. -/
theorem slotAudit_sharedControls : ((auditProtectionSlotOrders {} sharedSlot).complete = true ∧
      (¬ ∃ indexes : List ℕ, indexes.Nodup ∧ indexes.length = sharedSlot.members.length * 2 + 1 ∧
        ∀ index ∈ indexes, index < sharedSlot.openOrders.length) ∧
      ∃ order ∈ sharedSlot.openOrders, "ctsbingxx01sl" ∈ protectionOrderIdentifiers order ∧
        protectionOrderQuantity order ≠ finite sharedSlot.plan.venueQuantity) ∧
    ∃ orphan ∈ (auditProtectionSlotOrders {} unfilledSlot).orphanOrders,
      ∃ member ∈ unfilledSlot.members,
        text member.stopLossOrderId ∈ protectionOrderIdentifiers orphan.order := by
  refine ⟨⟨by decide +kernel, ?_, by decide +kernel⟩, ?_⟩
  · rintro ⟨indexes, hnodup, hlength, hbound⟩
    have hsub : indexes ⊆ List.range 3 := fun index hindex =>
      mem_range.mpr (hbound index hindex)
    have hle := (hnodup.subperm hsub).length_le
    rw [hlength] at hle
    exact absurd hle (by decide)
  · have horphans : (auditProtectionSlotOrders {} unfilledSlot).orphanOrders ≠ [] := by
      decide +kernel
    obtain ⟨orphan, rest, heq⟩ := exists_cons_of_ne_nil horphans
    have hmem : orphan ∈ (auditProtectionSlotOrders {} unfilledSlot).orphanOrders := by
      rw [heq]
      exact mem_cons_self ..
    refine ⟨orphan, hmem, _, mem_singleton_self _, ?_⟩
    have horder := mem_singleton.mp (orphan_spec {} unfilledSlot hmem).1
    rw [horder]
    decide +kernel

end CtsEngine
