import CtsEngine.Protection.ControlOrders

/-!
# Stale controls

The sweep of `stale-control-sweep.ts` cancels own protection orders that no open row carries.  Which
controls a row carries is read twice: by the sweep, from the properties of the row and its pending
protection orders, and in `own-protection-orders.ts` by the audit, which also reads the coverage of
the Sets of the row.
-/

namespace CtsEngine

open List

/-- A tracked position row, as the sweep and the audit read it. -/
structure TrackedRow where
  status : Option String := none
  symbol : Option String := none
  executedQuantity : Option ℚ := none
  stopLossOrderId : Option String := none
  takeProfitOrderId : Option String := none
  securityStopOrderId : Option String := none
  /-- The other properties, as texts; `none` for `null` and `undefined`. -/
  otherProperties : List (String × Option String) := []
  /-- The `clientOrderId` of each pending order, when the property is an object or the JSON text of
  one. -/
  pendingProtectionOrders : List (Option String) := []
  /-- The `securityStopOrderId` of each entry, when the property is an object. -/
  controlOrderSetCoverage : List (Option String) := []

variable (env : SystemEnvironment) (rows : List TrackedRow)

/-! ## The controls that the sweep leaves alone -/

variable (row : TrackedRow)

/-- `TERMINAL`: the statuses of rows that carry no control for the sweep. -/
def isSweepTerminal : Bool :=
  ["closed", "rejected", "cancelled", "canceled", "expired", "error", "failed"].contains
    (toLowerCase (strOrEmpty row.status))

/-- `/OrderId$/i.test(key)`. -/
def isOrderIdKey (key : String) : Bool := "orderid".toList.isSuffixOf (toLowerCase key).toList

/-- The entries of the row whose values are texts. -/
def TrackedRow.entries : List (String × Option String) :=
  [("stopLossOrderId", row.stopLossOrderId), ("takeProfitOrderId", row.takeProfitOrderId),
    ("securityStopOrderId", row.securityStopOrderId)] ++ row.otherProperties

/-- The ids of `activeControlReferences`. -/
def activeControlIds : List String :=
  (rows.filter (!isSweepTerminal ·)).flatMap fun row =>
    ((row.entries.filter (isOrderIdKey ·.1)).map (text ·.2)).filter (· ≠ "")

/-- The client ids of `activeControlReferences`. -/
def activeControlClientIds : List String :=
  (rows.filter (!isSweepTerminal ·)).flatMap fun row =>
    (row.pendingProtectionOrders.map strOrEmpty).filter (· ≠ "")

variable (order : ControlOrder)

def sweepOrderId : String := strOrEmpty (order.orderId <|> order.id)

def sweepClientOrderId : String := strOrEmpty (order.clientOrderId <|> order.clientOrderID)

/-- `PROTECTION_TYPES`. -/
def hasProtectionType : Bool :=
  ["STOP_MARKET", "TAKE_PROFIT_MARKET", "STOP", "TAKE_PROFIT", "TRAILING_STOP_MARKET"].contains
    (toUpperCase (strOrEmpty (order.type <|> order.orderType)))

/-- When the order was placed. -/
def placedAt : ℚ := finite ((order.time <|> order.createdAt <|> order.updateTime).bind (·.number))

/-- An own protection order with an id that is old enough. -/
def isSweepable (connectionId : String) (now minAgeMs : ℚ) (order : ControlOrder) : Bool :=
  hasProtectionType order &&
    (isConnectionOwnedClientOrderId env (some (sweepClientOrderId order)) connectionId &&
      (decide (sweepOrderId order ≠ "") &&
        (decide (0 < placedAt order) && !decide (now - placedAt order < minAgeMs))))

/-- The order is an active control of some row. -/
def isActiveControl : Bool :=
  decide (sweepOrderId order ∈ activeControlIds rows) ||
    (decide (sweepClientOrderId order ∈ activeControlIds rows) ||
      decide (sweepClientOrderId order ∈ activeControlClientIds rows))

def selectStaleOwnControlOrders (orders : List ControlOrder) (connectionId : String)
    (now minAgeMs : ℚ) : List ControlOrder :=
  orders.filter fun order =>
    isSweepable env connectionId now minAgeMs order && !isActiveControl rows order

/-! ## The controls that the audit reads -/

/-- A control that the audit reads, with the symbol of its row. -/
structure ControlRef where
  symbol : String
  id : String
deriving DecidableEq

/-- `symbol|id`. -/
def ControlRef.key (ref : ControlRef) : String := ref.symbol ++ "|" ++ ref.id

/-- A row that is open for the audit. -/
def isAuditedRow : Bool :=
  !(["closed", "rejected", "cancelled", "canceled", "error"].contains
      (toLowerCase (text row.status))) && decide (0 < finite row.executedQuantity)

/-- The controls with these ids on the symbol of the row; a control without a symbol or an id is
left out. -/
def refsOf (ids : List (Option String)) : List ControlRef :=
  (ids.map fun id => ⟨toUpperCase (text row.symbol), text id⟩).filter fun ref =>
    ref.symbol ≠ "" ∧ ref.id ≠ ""

/-- The controls that the properties of the row name. -/
def propertyRefs : List ControlRef :=
  refsOf row [row.stopLossOrderId, row.takeProfitOrderId, row.securityStopOrderId]

/-- The controls that the coverage of its Sets names. -/
def coverageRefs : List ControlRef := refsOf row row.controlOrderSetCoverage

/-- All controls that are named, in the order in which the audit meets them. -/
def namedRefs : List ControlRef :=
  (rows.filter isAuditedRow).flatMap fun row => propertyRefs row ++ coverageRefs row

/-- `add`: a control is taken once. -/
def addRef (refs : List ControlRef) (ref : ControlRef) : List ControlRef :=
  if refs.any (·.key = ref.key) then refs else refs ++ [ref]

def ownControlOrderRefs : List ControlRef := (namedRefs rows).foldl addRef []

variable {ref : ControlRef}

lemma mem_foldl_addRef {named taken : List ControlRef} : ref ∈ named.foldl addRef taken ↔
      ref ∈ taken ∨ (taken.any (·.key = ref.key) = false ∧
        named.find? (·.key = ref.key) = some ref) := by
  induction named generalizing taken with
  | nil => simp
  | cons first named ih =>
    rw [foldl_cons, ih]
    unfold addRef
    by_cases hkey : first.key = ref.key
    · have hfind : (first :: named).find? (·.key = ref.key) = some first :=
        find?_cons_of_pos (by simp [hkey])
      rw [hfind]
      by_cases hany : taken.any (·.key = ref.key) = true
      · rw [hkey]
        simp [hany]
      · have heq : some first = some ref ↔ ref = first := by
          rw [Option.some_inj, eq_comm]
        rw [heq]
        simp [hany, hkey]
    · have hfind : (first :: named).find? (·.key = ref.key) = named.find? (·.key = ref.key) :=
        find?_cons_of_neg (by simp [hkey])
      rw [hfind]
      split
      · exact Iff.rfl
      · have hne : ref ≠ first := fun heq => hkey (by rw [heq])
        simp [hkey, hne]

lemma mem_ownControlOrderRefs : ref ∈ ownControlOrderRefs rows ↔
    (namedRefs rows).find? (·.key = ref.key) = some ref := by
  unfold ownControlOrderRefs
  rw [mem_foldl_addRef]
  simp

/-! ## What the two readings share -/

lemma mem_refsOf {row : TrackedRow} {ids : List (Option String)} (h : ref ∈ refsOf row ids) :
    ref.id ≠ "" ∧ ∃ id ∈ ids, text id = ref.id := by
  obtain ⟨hmap, hne⟩ := mem_filter.mp h
  obtain ⟨id, hid, rfl⟩ := mem_map.mp hmap
  exact ⟨(of_decide_eq_true hne).2, id, hid, rfl⟩

/-- The ids in the properties of a row are active for the sweep, unless the row is terminal. -/
lemma propertyRef_active {row : TrackedRow} (hrow : row ∈ rows)
    (hopen : isSweepTerminal row = false) (href : ref ∈ propertyRefs row) :
    ref.id ∈ activeControlIds rows := by
  obtain ⟨hne, id, hid, htext⟩ := mem_refsOf href
  refine mem_flatMap.mpr ⟨row, mem_filter.mpr ⟨hrow, by simp [hopen]⟩, ?_⟩
  refine mem_filter.mpr ⟨mem_map.mpr ?_, by simpa using hne⟩
  have hent : ∃ key, (key, id) ∈ row.entries ∧ isOrderIdKey key = true := by
    simp only [mem_cons, not_mem_nil, or_false] at hid
    rcases hid with rfl | rfl | rfl
    · exact ⟨"stopLossOrderId", by simp [TrackedRow.entries], by decide⟩
    · exact ⟨"takeProfitOrderId", by simp [TrackedRow.entries], by decide⟩
    · exact ⟨"securityStopOrderId", by simp [TrackedRow.entries], by decide⟩
  obtain ⟨key, hmem, hkey⟩ := hent
  exact ⟨(key, id), mem_filter.mpr ⟨hmem, hkey⟩, htext⟩

/-- The references that only the audit knows: those of the coverage, and those of rows whose status
is terminal for the sweep only. -/
def auditOnlyRefs : List ControlRef :=
  (rows.filter isAuditedRow).flatMap fun row =>
    (if isSweepTerminal row then propertyRefs row else []) ++ coverageRefs row

lemma namedRef_cases (h : ref ∈ namedRefs rows) :
    ref ∈ auditOnlyRefs rows ∨ ref.id ∈ activeControlIds rows := by
  obtain ⟨row, hrow, href⟩ := mem_flatMap.mp h
  have hmem := (mem_filter.mp hrow).1
  rcases mem_append.mp href with hprop | hcover
  · cases hterm : isSweepTerminal row with
    | true =>
      refine .inl (mem_flatMap.mpr ⟨row, hrow, mem_append_left _ ?_⟩)
      rw [if_pos hterm]
      exact hprop
    | false => exact .inr (propertyRef_active rows hmem hterm hprop)
  · exact .inl (mem_flatMap.mpr ⟨row, hrow, mem_append_right _ hcover⟩)

/-- The order carries the id of the reference. -/
def carriesRef (ref : ControlRef) : Prop :=
  ref.id = sweepOrderId order ∨ ref.id = sweepClientOrderId order

lemma isActiveControl_of_carries {order : ControlOrder} (hcarr : carriesRef order ref)
    (hact : ref.id ∈ activeControlIds rows) : isActiveControl rows order = true := by
  unfold isActiveControl
  rcases hcarr with heq | heq
  · rw [heq] at hact
    simp [hact]
  · rw [heq] at hact
    simp [hact]

/-- **The sweep and the audit.** No selected order carries a reference of the audit, exactly when
every sweepable order that carries one of the references only the audit knows is an active control
for another reason.  A reference whose key was spelled before is not reported. -/
theorem staleControls_spare_iff (orders : List ControlOrder) (connectionId : String)
    (now minAgeMs : ℚ) :
    (∀ order ∈ selectStaleOwnControlOrders env rows orders connectionId now minAgeMs,
        ∀ ref ∈ ownControlOrderRefs rows, ¬ carriesRef order ref) ↔
      ∀ order ∈ orders, isSweepable env connectionId now minAgeMs order = true →
        ∀ ref ∈ auditOnlyRefs rows, (namedRefs rows).find? (·.key = ref.key) = some ref →
          carriesRef order ref → isActiveControl rows order = true := by
  constructor
  · intro hspare order horder hsweepable ref _ hfirst hcarries
    by_contra hinactive
    have hselected : order ∈
        selectStaleOwnControlOrders env rows orders connectionId now minAgeMs :=
      mem_filter.mpr ⟨horder, by simp [hsweepable, hinactive]⟩
    exact hspare order hselected ref ((mem_ownControlOrderRefs rows).mpr hfirst) hcarries
  · intro hcondition order hselected ref href hcarries
    obtain ⟨horder, htests⟩ := mem_filter.mp hselected
    rw [Bool.and_eq_true, Bool.not_eq_true'] at htests
    have hfirst := (mem_ownControlOrderRefs rows).mp href
    have hactive : isActiveControl rows order = true := by
      rcases namedRef_cases rows (mem_of_find?_eq_some hfirst) with honly | hid
      · exact hcondition order horder htests.1 ref honly hfirst hcarries
      · exact isActiveControl_of_carries rows hcarries hid
    rw [htests.2] at hactive
    cases hactive

/-- An own stop on NEAR, placed at the time `1`. -/
def nearStop (orderId : String) : ControlOrder where
  orderId := some orderId
  clientOrderId := some "ctsbingxx02sl"
  symbol := some "NEAR-USDT"
  type := some "STOP_MARKET"
  time := some ⟨"1", some 1⟩

/-- An open row whose own security stop is not the one that the coverage of its Set names. -/
def coveredRow : TrackedRow where
  status := some "open"
  symbol := some "NEARUSDT"
  executedQuantity := some 3
  stopLossOrderId := some "10"
  takeProfitOrderId := some "11"
  controlOrderSetCoverage := [some "12"]

/-- The sweep selects the security stop that the coverage of an open row names. -/
theorem staleControls_coverageSwept :
    ∃ order ∈ selectStaleOwnControlOrders {} [coveredRow] [nearStop "12"] "bingx-x02" 700000 600000,
      ∃ ref ∈ ownControlOrderRefs [coveredRow], carriesRef order ref := by
  have hselected : nearStop "12" ∈
      selectStaleOwnControlOrders {} [coveredRow] [nearStop "12"] "bingx-x02" 700000 600000 :=
    mem_filter.mpr ⟨mem_singleton_self _, by decide +kernel⟩
  exact ⟨nearStop "12", hselected, ⟨"NEARUSDT", "12"⟩, by decide +kernel, .inl rfl⟩

end CtsEngine
