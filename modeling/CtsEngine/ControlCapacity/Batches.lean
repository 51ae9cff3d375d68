import CtsEngine.Block.Lifecycle
import CtsEngine.Foundation.Comparison
import CtsEngine.Foundation.Grouping
import CtsEngine.Foundation.JsonLines
import CtsEngine.Foundation.SignificantDigits

/-!
# The budget for control orders

`ControlOrderCapacityBudget` of `lib/control-order-capacity.ts`: the open control orders that were
observed, the reservations made since, and the orders whose cancellation was noted.  The observed
orders and the reservations never exceed the limit together.

`planProtectionOrderBatches` of `lib/control-order-capacity.ts`: the intents with the same
connection, symbol, direction, leg and trigger price (to 15 significant digits) are one order.  The
orders are sorted, stops before targets and larger groups first, and take the places that the venue
has left in this order.  `toUpperCase` and `localeCompare` take their values from the tables of the
language.
-/

open List Keyed

namespace CtsEngine

namespace ControlCapacity

structure ControlOrderCapacitySnapshot where
  limit : ℕ
  observedOpen : ℕ
  reserved : ℕ
  available : ℕ
  exhausted : Bool

structure ControlOrderCapacityBudget where
  limit : ℕ
  observedOpen : ℕ
  reservations : List String
  releasedOrderIds : List String

namespace ControlOrderCapacityBudget

/-- The constructor: `none` is `NaN`, which counts as zero; an infinite number counts as one beyond
the limit or below zero. -/
def new (observedOpen : Option ℚ) (limit : ℕ) : ControlOrderCapacityBudget where
  limit
  observedOpen := (min (limit : ℤ) ⌊observedOpen.getD 0⌋).toNat
  reservations := []
  releasedOrderIds := []

variable (budget : ControlOrderCapacityBudget)

def reserve (reservationId : String) : ControlOrderCapacityBudget × Bool :=
  let id := trim reservationId
  if id = "" then (budget, false)
  else if id ∈ budget.reservations then (budget, true)
  else if budget.limit ≤ budget.observedOpen + budget.reservations.length then (budget, false)
  else ({ budget with reservations := budget.reservations ++ [id] }, true)

def releaseReservation (reservationId : String) : ControlOrderCapacityBudget :=
  { budget with reservations := budget.reservations.filter (· ≠ trim reservationId) }

def noteCancellation (orderId : Option String) : ControlOrderCapacityBudget :=
  let id := trim (orderId.getD "")
  if id = "" ∨ id ∈ budget.releasedOrderIds then budget
  else { budget with
    releasedOrderIds := budget.releasedOrderIds ++ [id]
    observedOpen := budget.observedOpen - 1 }

def markExhausted : ControlOrderCapacityBudget :=
  { budget with observedOpen := budget.limit, reservations := [] }

def snapshot : ControlOrderCapacitySnapshot :=
  let reserved := budget.reservations.length
  let available := budget.limit - budget.observedOpen - reserved
  { limit := budget.limit, observedOpen := budget.observedOpen, reserved, available,
    exhausted := available = 0 }

end ControlOrderCapacityBudget

inductive BudgetCall
  | reserve (reservationId : String)
  | releaseReservation (reservationId : String)
  | noteCancellation (orderId : Option String)
  | markExhausted

/-- The budget after a call. -/
def BudgetCall.perform (budget : ControlOrderCapacityBudget) :
    BudgetCall → ControlOrderCapacityBudget
  | .reserve reservationId => (budget.reserve reservationId).1
  | .releaseReservation reservationId => budget.releaseReservation reservationId
  | .noteCancellation orderId => budget.noteCancellation orderId
  | .markExhausted => budget.markExhausted

def afterCalls (observedOpen : Option ℚ) (limit : ℕ) (calls : List BudgetCall) :
    ControlOrderCapacityBudget :=
  calls.foldl BudgetCall.perform (.new observedOpen limit)

namespace ControlOrderCapacityBudget

/-- The observed orders and the reservations fit into the limit. -/
def Fits (budget : ControlOrderCapacityBudget) : Prop :=
  budget.observedOpen + budget.reservations.length ≤ budget.limit

lemma fits_new (observedOpen : Option ℚ) (limit : ℕ) : (new observedOpen limit).Fits := by
  rw [Fits, new]
  dsimp only [length_nil]
  omega

lemma fits_reserve {budget : ControlOrderCapacityBudget} (h : budget.Fits)
    (reservationId : String) : (budget.reserve reservationId).1.Fits := by
  unfold reserve
  dsimp only
  split_ifs with hemp hhas hfull
  · exact h
  · exact h
  · exact h
  · rw [Fits]
    dsimp only
    rw [length_append, length_singleton]
    omega

lemma Fits.perform {budget : ControlOrderCapacityBudget} (h : budget.Fits) (call : BudgetCall) :
    (call.perform budget).Fits := by
  cases call with
  | reserve reservationId => exact fits_reserve h reservationId
  | releaseReservation reservationId =>
    exact (Nat.add_le_add_left (length_filter_le _ _) _).trans h
  | noteCancellation orderId =>
    rw [BudgetCall.perform, noteCancellation]
    split_ifs
    · exact h
    · exact (Nat.add_le_add_right (Nat.sub_le _ _) _).trans h
  | markExhausted => exact le_rfl

end ControlOrderCapacityBudget

open ControlOrderCapacityBudget

lemma limit_perform (budget : ControlOrderCapacityBudget) (call : BudgetCall) :
    (call.perform budget).limit = budget.limit := by
  cases call <;> simp only [BudgetCall.perform, reserve, releaseReservation, noteCancellation,
    markExhausted] <;> split_ifs <;> rfl

lemma fits_afterCalls (observedOpen : Option ℚ) (limit : ℕ) (calls : List BudgetCall) :
    (afterCalls observedOpen limit calls).Fits ∧
      (afterCalls observedOpen limit calls).limit = limit := by
  rw [afterCalls]
  induction calls using reverseRecOn with
  | nil => exact ⟨fits_new observedOpen limit, rfl⟩
  | append_singleton calls call ih =>
    rw [foldl_append, foldl_cons, foldl_nil, limit_perform]
    exact ⟨ih.1.perform call, ih.2⟩

end ControlCapacity

end CtsEngine

/-! ## Batches of protection intents -/

namespace CtsEngine

namespace ControlCapacity

open Comparison JsonText

inductive ProtectionOrderLeg
  | stop_loss
  | take_profit
deriving DecidableEq

/-- The text of a leg. -/
def ProtectionOrderLeg.toString : ProtectionOrderLeg → String
  | stop_loss => "stop_loss"
  | take_profit => "take_profit"

/-- Who carries out a batch. -/
inductive Handling
  | venue_control
  | system_close
deriving DecidableEq

/-- `ProtectionOrderIntent`; a number that is missing is `NaN`. -/
structure ProtectionOrderIntent where
  connectionId : String
  symbol : String
  direction : Direction
  leg : ProtectionOrderLeg
  triggerPrice : Option ℚ
  quantity : Option ℚ
  strategyId : String

structure ProtectionOrderBatch where
  batchKey : String
  connectionId : String
  symbol : String
  direction : Direction
  leg : ProtectionOrderLeg
  triggerPrice : ℚ
  quantity : ℚ
  strategyIds : List String
  sourceIntentCount : ℕ
  handling : Handling

/-- The result of `planProtectionOrderBatches`. -/
structure ProtectionOrderPlan where
  batches : List ProtectionOrderBatch
  venueBatches : List ProtectionOrderBatch
  systemBatches : List ProtectionOrderBatch
  sourceIntentCount : ℕ
  combinedOrderCount : ℕ
  avoidedOrderCount : ℕ
  capacity : ControlOrderCapacitySnapshot

/-- `price.toPrecision(15)` of a positive price. -/
def toPrecisionText (price : ℚ) : String :=
  let n := Nat.toDigits 10 (SignificantDigits.digits 15 price).toNat
  let digits := n.take 15
  let point := Int.log 10 price + 1 + (n.length - 15)
  String.ofList <|
    if 15 < point then numeral (digits.take 1) (digits.drop 1) (some (point - 1))
    else decimalText digits point

section Plan

variable (upperCase : String → String) (localeCompare : String → String → ℤ)

def normalizedSymbol (value : String) : String :=
  String.ofList ((upperCase (trim value)).toList.filter fun c => c ∉ ['-', '_', '/', ':'])

namespace ProtectionOrderIntent

variable (intent : ProtectionOrderIntent)

/-- An intent that is not passed over. -/
def isValid : Bool :=
  normalizedSymbol upperCase intent.symbol ≠ "" ∧ 0 < intent.triggerPrice.getD 0 ∧
    0 < intent.quantity.getD 0 ∧ trim intent.strategyId ≠ ""

/-- What follows the connection in the key of an intent. -/
def terms : List Char :=
  ':' :: (normalizedSymbol upperCase intent.symbol).toList ++
    ':' :: intent.direction.toString.toList ++ ':' :: intent.leg.toString.toList ++
    ':' :: (toPrecisionText (intent.triggerPrice.getD 0)).toList

/-- The key of an intent. -/
def batchKey : String :=
  String.ofList (intent.connectionId.toList ++ intent.terms upperCase)

end ProtectionOrderIntent

namespace ProtectionOrderBatch

/-- The batch of an intent that is the first with its key, before it is counted. -/
def create (intent : ProtectionOrderIntent) : ProtectionOrderBatch where
  batchKey := intent.batchKey upperCase
  connectionId := intent.connectionId
  symbol := normalizedSymbol upperCase intent.symbol
  direction := intent.direction
  leg := intent.leg
  triggerPrice := intent.triggerPrice.getD 0
  quantity := 0
  strategyIds := []
  sourceIntentCount := 0
  handling := .system_close

/-- A batch with one more intent. -/
def add (batch : ProtectionOrderBatch) (intent : ProtectionOrderIntent) : ProtectionOrderBatch :=
  let strategyId := trim intent.strategyId
  { batch with
    quantity := batch.quantity + intent.quantity.getD 0
    sourceIntentCount := batch.sourceIntentCount + 1
    strategyIds := if strategyId ∈ batch.strategyIds then batch.strategyIds
      else batch.strategyIds ++ [strategyId] }

/-- The comparison by legs. -/
def legOrder (left right : ProtectionOrderBatch) : ℚ :=
  if left.leg = right.leg then 0 else if left.leg = .stop_loss then -1 else 1

/-- The comparison that batches are sorted by. -/
def order : ProtectionOrderBatch → ProtectionOrderBatch → ℚ :=
  orElse legOrder (orElse (fun left right => (right.sourceIntentCount : ℚ) - left.sourceIntentCount)
      fun left right => localeCompare left.batchKey right.batchKey)

end ProtectionOrderBatch

def grouped (intents : List ProtectionOrderIntent) : List (String × ProtectionOrderBatch) :=
  collect (·.batchKey upperCase) (ProtectionOrderBatch.create upperCase)
    ProtectionOrderBatch.add (intents.filter (·.isValid upperCase))

/-- The loop over the batches that reserves places. -/
def reserveAll (budget : ControlOrderCapacityBudget) :
    List ProtectionOrderBatch → List ProtectionOrderBatch × ControlOrderCapacityBudget
  | [] => ([], budget)
  | batch :: batches =>
    let (budget, reserved) := budget.reserve batch.batchKey
    let (rest, budget) := reserveAll budget batches
    ((if reserved then { batch with handling := .venue_control } else batch) :: rest, budget)

def planProtectionOrderBatches (intents : List ProtectionOrderIntent)
    (observedOpenControlOrders : Option ℚ) (limit : ℕ) : ProtectionOrderPlan :=
  let sorted := sortBy (ProtectionOrderBatch.order localeCompare)
    ((grouped upperCase intents).map Prod.snd)
  let (batches, budget) := reserveAll (.new observedOpenControlOrders limit) sorted
  { batches
    venueBatches := batches.filter (·.handling = .venue_control)
    systemBatches := batches.filter (·.handling = .system_close)
    sourceIntentCount := intents.length
    combinedOrderCount := batches.length
    avoidedOrderCount := intents.length - batches.length
    capacity := budget.snapshot }

end Plan

/-! ## The parts of a key -/

lemma isNumberChar_toPrecisionText (price : ℚ) :
    ∀ c ∈ (toPrecisionText price).toList, isNumberChar c = true := by
  have hdigs : ∀ c ∈ (Nat.toDigits 10 (SignificantDigits.digits 15 price).toNat).take 15,
      c.isDigit = true := fun c hc =>
    Nat.isDigit_of_mem_toDigits (by decide) (by decide) (mem_of_mem_take hc)
  rw [toPrecisionText, String.toList_ofList]
  split_ifs
  · refine isNumberChar_numeral _ fun c hc => ?_
    rw [take_append_drop] at hc
    exact hdigs c hc
  · exact isNumberChar_decimalText _ hdigs

lemma colon_not_mem_toPrecisionText (price : ℚ) : ':' ∉ (toPrecisionText price).toList :=
  fun h => absurd (isNumberChar_toPrecisionText price _ h) (by decide)

variable {upperCase : String → String}

lemma colon_not_mem_normalizedSymbol (value : String) :
    ':' ∉ (normalizedSymbol upperCase value).toList := by
  rw [normalizedSymbol]
  simp

/-- A batch with the connection, the symbol, the side, the leg and the price of a valid intent. -/
def ProtectionOrderBatch.takes (upperCase : String → String) (batch : ProtectionOrderBatch)
    (intent : ProtectionOrderIntent) : Bool :=
  intent.isValid upperCase = true ∧ intent.connectionId = batch.connectionId ∧
    normalizedSymbol upperCase intent.symbol = batch.symbol ∧
    intent.direction = batch.direction ∧ intent.leg = batch.leg ∧
    toPrecisionText (intent.triggerPrice.getD 0) = toPrecisionText batch.triggerPrice

lemma terms_inj {intent intent' : ProtectionOrderIntent} {left right : List Char}
    (h : left ++ intent.terms upperCase = right ++ intent'.terms upperCase) :
    left = right ∧ normalizedSymbol upperCase intent.symbol =
        normalizedSymbol upperCase intent'.symbol ∧
      intent.direction = intent'.direction ∧ intent.leg = intent'.leg ∧
      toPrecisionText (intent.triggerPrice.getD 0) =
        toPrecisionText (intent'.triggerPrice.getD 0) := by
  have hdir : ∀ d : Direction, ':' ∉ d.toString.toList := fun d => by cases d <;> decide
  have hleg : ∀ l : ProtectionOrderLeg, ':' ∉ l.toString.toList := fun l => by cases l <;> decide
  simp only [ProtectionOrderIntent.terms, ← append_assoc] at h
  obtain ⟨h, hpr⟩ := append_cons_inj h (colon_not_mem_toPrecisionText _)
    (colon_not_mem_toPrecisionText _)
  obtain ⟨h, hleg⟩ := append_cons_inj h (hleg _) (hleg _)
  obtain ⟨h, hdir⟩ := append_cons_inj h (hdir _) (hdir _)
  obtain ⟨h, hsym⟩ := append_cons_inj h (colon_not_mem_normalizedSymbol _)
    (colon_not_mem_normalizedSymbol _)
  refine ⟨h, String.toList_injective hsym, ?_, ?_, String.toList_injective hpr⟩
  · cases hd : intent.direction <;> cases hd' : intent'.direction <;> rw [hd, hd'] at hdir <;>
      first | rfl | exact absurd hdir (by decide)
  · cases hd : intent.leg <;> cases hd' : intent'.leg <;> rw [hd, hd'] at hleg <;>
      first | rfl | exact absurd hleg (by decide)

lemma toList_trim_batchKey (intent : ProtectionOrderIntent) :
    (trim (intent.batchKey upperCase)).toList =
      intent.connectionId.toList.dropWhile isJsSpace ++ intent.terms upperCase := by
  have hleft : (intent.connectionId.toList ++ intent.terms upperCase).dropWhile isJsSpace =
      intent.connectionId.toList.dropWhile isJsSpace ++ intent.terms upperCase := by
    rw [dropWhile_append]
    split_ifs with hemp
    · rw [List.isEmpty_iff.mp hemp]
      rfl
    · rfl
  have hright : ∀ left : List Char, (left ++ intent.terms upperCase).reverse.dropWhile isJsSpace =
      (left ++ intent.terms upperCase).reverse := by
    intro left
    refine dropWhile_of_head? fun c hc => ?_
    have hlast : c ∈ (':' :: (toPrecisionText (intent.triggerPrice.getD 0)).toList) := by
      rw [ProtectionOrderIntent.terms, ← append_assoc, reverse_append, head?_append] at hc
      obtain ⟨d, hd⟩ : ∃ d, (':' :: (toPrecisionText
          (intent.triggerPrice.getD 0)).toList).reverse.head? = some d := by
        rw [head?_reverse]
        exact ⟨_, getLast?_eq_some_getLast (cons_ne_nil _ _)⟩
      rw [hd] at hc
      cases hc
      exact mem_reverse.mp (mem_of_mem_head? hd)
    rcases mem_cons.mp hlast with rfl | hc
    · decide
    · exact isJsSpace_of_isNumberChar (isNumberChar_toPrecisionText _ c hc)
  rw [trim, String.toList_ofList, ProtectionOrderIntent.batchKey, String.toList_ofList, hleft,
    hright, reverse_reverse]

namespace ProtectionOrderBatch

lemma foldl_add (intents : List ProtectionOrderIntent) (batch : ProtectionOrderBatch) :
    ∃ strategyIds, intents.foldl add batch = { batch with
        quantity := batch.quantity + (intents.map fun intent => intent.quantity.getD 0).sum
        strategyIds
        sourceIntentCount := batch.sourceIntentCount + intents.length } ∧
      (batch.strategyIds.Nodup → strategyIds.Nodup) ∧
      ∀ id, id ∈ strategyIds ↔
        id ∈ batch.strategyIds ∨ ∃ intent ∈ intents, trim intent.strategyId = id := by
  induction intents generalizing batch with
  | nil => exact ⟨batch.strategyIds, by simp, fun h => h, by simp⟩
  | cons intent intents ih =>
    obtain ⟨strategyIds, hfold, hnodup, hmem⟩ := ih (batch.add intent)
    refine ⟨strategyIds, ?_, fun h => hnodup ?_, fun id => ?_⟩
    · rw [foldl_cons, hfold, add]
      simp only [map_cons, sum_cons, length_cons, add_assoc, Nat.add_comm 1]
    · rw [add]
      split_ifs with hin
      · exact h
      · exact nodup_append.mpr ⟨h, nodup_singleton _, fun a ha b hb heq =>
          hin (mem_singleton.mp hb ▸ heq ▸ ha)⟩
    · have hadd : id ∈ (batch.add intent).strategyIds ↔
          id ∈ batch.strategyIds ∨ trim intent.strategyId = id := by
        rw [add]
        split_ifs with hin
        · exact ⟨.inl, fun h => h.elim (fun h => h) fun h => h ▸ hin⟩
        · rw [mem_append, mem_singleton, eq_comm (a := id)]
      rw [hmem, hadd, exists_mem_cons_iff, or_assoc]

end ProtectionOrderBatch

/-- The valid intents with a key. -/
def intentsWith (upperCase : String → String) (intents : List ProtectionOrderIntent)
    (key : String) : List ProtectionOrderIntent :=
  (intents.filter (·.isValid upperCase)).filter (·.batchKey upperCase = key)

/-- What is known of a batch. -/
structure ProtectionOrderBatch.Collects (upperCase : String → String)
    (intents : List ProtectionOrderIntent) (batch : ProtectionOrderBatch) : Prop where
  first : ∃ intent ∈ intents,
    intent.batchKey upperCase = batch.batchKey ∧ batch.takes upperCase intent = true
  quantity : batch.quantity =
    ((intentsWith upperCase intents batch.batchKey).map fun intent => intent.quantity.getD 0).sum
  sourceIntentCount :
    batch.sourceIntentCount = (intentsWith upperCase intents batch.batchKey).length
  nodup : batch.strategyIds.Nodup
  strategyIds : ∀ id, id ∈ batch.strategyIds ↔
    ∃ intent ∈ intentsWith upperCase intents batch.batchKey, trim intent.strategyId = id

/-- The batches before they are sorted. -/
def groups (upperCase : String → String) (intents : List ProtectionOrderIntent) :
    List ProtectionOrderBatch :=
  (grouped upperCase intents).map Prod.snd

/-- One batch a key, and each batch collects its intents. -/
lemma groups_spec (intents : List ProtectionOrderIntent) :
    ((groups upperCase intents).map (·.batchKey)).Nodup ∧ (∀ batch ∈ groups upperCase intents,
        batch.Collects upperCase intents ∧ batch.handling = .system_close) ∧
      ∀ intent ∈ intents, intent.isValid upperCase = true →
        ∃ batch ∈ groups upperCase intents, batch.batchKey = intent.batchKey upperCase := by
  have hgroup : groups upperCase intents =
      (firsts (·.batchKey upperCase) (intents.filter (·.isValid upperCase))).map
        fun first => (intentsWith upperCase intents (first.batchKey upperCase)).foldl
          ProtectionOrderBatch.add (.create upperCase first) := by
    rw [groups, grouped, collect_eq, map_map]
    rfl
  obtain ⟨hmem, hnodup, hkeys⟩ := firsts_spec
    (ProtectionOrderIntent.batchKey upperCase) (intents.filter (·.isValid upperCase))
  have hkey : ∀ first : ProtectionOrderIntent, ((intentsWith upperCase intents
      (first.batchKey upperCase)).foldl ProtectionOrderBatch.add
        (.create upperCase first)).batchKey = first.batchKey upperCase := by
    intro first
    obtain ⟨strategyIds, hfold, -⟩ := ProtectionOrderBatch.foldl_add
      (intentsWith upperCase intents (first.batchKey upperCase)) (.create upperCase first)
    rw [hfold]
    rfl
  rw [hgroup]
  refine ⟨?_, fun batch hbatch => ?_, fun intent hinten hvalid => ?_⟩
  · rw [map_map]
    have hsame : (fun first : ProtectionOrderIntent => first.batchKey upperCase) =
        (·.batchKey) ∘ fun first => (intentsWith upperCase intents
          (first.batchKey upperCase)).foldl ProtectionOrderBatch.add
            (.create upperCase first) := funext fun first => (hkey first).symm
    rwa [← hsame]
  · obtain ⟨first, hfst, rfl⟩ := mem_map.mp hbatch
    obtain ⟨hin, hvalid⟩ := mem_filter.mp (hmem first hfst)
    obtain ⟨strategyIds, hfold, hids, hidsMem⟩ := ProtectionOrderBatch.foldl_add
      (intentsWith upperCase intents (first.batchKey upperCase)) (.create upperCase first)
    rw [hfold]
    have htakes : (ProtectionOrderBatch.create upperCase first).takes upperCase first = true :=
      decide_eq_true ⟨hvalid, rfl, rfl, rfl, rfl, rfl⟩
    refine ⟨⟨⟨first, hin, rfl, htakes⟩, ?_, ?_, ?_, ?_⟩, rfl⟩
    · exact zero_add _
    · exact Nat.zero_add _
    · exact hids nodup_nil
    · intro id
      rw [hidsMem]
      exact ⟨fun h => h.resolve_left not_mem_nil, .inr⟩
  · obtain ⟨first, hfst, hsame⟩ := hkeys intent (mem_filter.mpr ⟨hinten, hvalid⟩)
    exact ⟨_, mem_map_of_mem hfst, (hkey first).trans hsame⟩

end ControlCapacity

end CtsEngine
