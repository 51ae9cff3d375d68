import CtsEngine.Foundation.DoubleText
import CtsEngine.Foundation.Rounding
import CtsEngine.History.PosHistory
import CtsEngine.TradeHistory.StoredPosition

/-!
# The quantity adjustments of a position

`reconcileExchangeQuantityAdjustments` of `lib/exchange-quantity-ledger.ts`: the gap between the
quantity at the venue and the fills that are proven is booked as an adjustment of a managed source.
Adjustments of other sources stay as they are.  A list that is written anew keeps its last 64
entries, so with many foreign adjustments the oldest of them are lost.
-/

namespace CtsEngine.QuantityLedger

open List

/-! ## Adjustments -/

structure ExchangeQuantityAdjustmentRecord where
  id : String
  source : Option String
  orderId : Option String := none
  quantity : StoredValue
  price : ℚ
  timestamp : ℚ

/-- A source whose adjustments are managed. -/
inductive AdjustmentSource
  | exchangeReconcile
  | legacyReconciliation

/-- The text of a source. -/
def AdjustmentSource.toString : AdjustmentSource → String
  | .exchangeReconcile => "exchange_reconcile"
  | .legacyReconciliation => "legacy_reconciliation"

/-- `MANAGED_SOURCES`. -/
def managedSources : List String := ["exchange_reconcile", "legacy_reconciliation"]

/-- The adjustment belongs to a managed source. -/
def ExchangeQuantityAdjustmentRecord.isManaged (adjustment : ExchangeQuantityAdjustmentRecord) :
    Bool :=
  managedSources.contains (strOrEmpty adjustment.source)

def finitePositive (value : StoredValue) : ℚ :=
  match value.toNumber with
  | some parsed => if 0 < parsed then parsed else 0
  | none => 0

/-- The sum of the quantities of adjustments. -/
def adjustmentQuantity (adjustments : List ExchangeQuantityAdjustmentRecord) : ℚ :=
  adjustments.foldl (fun sum adjustment => sum + finitePositive adjustment.quantity) 0

/-- The input of a reconciliation; `fills` are the quantities of the fills. -/
structure ReconcileInput where
  positionId : String
  orderId : Option String := none
  targetQuantity : StoredValue
  entryPrice : StoredValue
  fills : List StoredValue := []
  adjustments : List ExchangeQuantityAdjustmentRecord := []
  source : Option AdjustmentSource := none
  timestamp : Option ℚ := none
  tolerance : StoredValue := .missing

structure ReconciledExchangeQuantityLedger where
  adjustments : List ExchangeQuantityAdjustmentRecord
  changed : Bool
  fillQuantity : ℚ
  unmanagedAdjustmentQuantity : ℚ
  expectedManagedAdjustmentQuantity : ℚ
  previousManagedAdjustmentQuantity : ℚ

/-- `value.toFixed(12)` of a number that is not negative. -/
def quantityText (value : ℚ) : String :=
  if value < 10 ^ 21 then toFixedText 12 value else String.ofList (doubleText (.finite value))

namespace ReconcileInput

variable (input : ReconcileInput)

/-- `targetQuantity`. -/
def target : ℚ := finitePositive input.targetQuantity

def fillQuantity : ℚ := input.fills.foldl (fun sum fill => sum + finitePositive fill) 0

def managed : List ExchangeQuantityAdjustmentRecord := input.adjustments.filter (·.isManaged)

def unmanaged : List ExchangeQuantityAdjustmentRecord := input.adjustments.filter (!·.isManaged)

/-- `expectedManagedAdjustmentQuantity`. -/
def expectedManaged : ℚ :=
  roundQuantity (input.target - input.fillQuantity - adjustmentQuantity input.unmanaged)

/-- `tolerance`. -/
def toleranceQuantity : ℚ :=
  max (max (1 / 10 ^ 12) |input.tolerance.finite|) (input.target * (1 / 10 ^ 8))

variable (now : ℚ)

def nextManaged : List ExchangeQuantityAdjustmentRecord :=
  if input.toleranceQuantity < input.expectedManaged ∧ 0 < finitePositive input.entryPrice then
    [{ id := input.positionId ++ ":exchange-quantity:" ++ quantityText input.target
       source := some (input.source.getD .exchangeReconcile).toString
       orderId := strOr input.orderId none
       quantity := .number input.expectedManaged
       price := finitePositive input.entryPrice
       timestamp := (numOr input.timestamp none).getD now }]
  else []

/-- `reconcileExchangeQuantityAdjustments`, called at the time `now`. -/
def reconcileExchangeQuantityAdjustments : ReconciledExchangeQuantityLedger :=
  let previousManaged := adjustmentQuantity input.managed
  let unchanged := |previousManaged - input.expectedManaged| ≤ input.toleranceQuantity
  let rewritten := input.unmanaged ++ input.nextManaged now
  { adjustments := if unchanged then input.adjustments else rewritten.drop (rewritten.length - 64)
    changed := !decide unchanged
    fillQuantity := input.fillQuantity
    unmanagedAdjustmentQuantity := adjustmentQuantity input.unmanaged
    expectedManagedAdjustmentQuantity := input.expectedManaged
    previousManagedAdjustmentQuantity := previousManaged }

/-- The input of the next reconciliation, with the adjustments that this one leaves. -/
def next : ReconcileInput :=
  { input with adjustments := (input.reconcileExchangeQuantityAdjustments now).adjustments }

/-- The gap between the quantity at the venue and what is booked without managed adjustments. -/
def gap : ℚ := max 0 (input.target - input.fillQuantity - adjustmentQuantity input.unmanaged)

/-- What a reconciliation should leave: fills and adjustments make up the target, or what is booked
without managed adjustments where that is more; no other adjustment is lost; and the next
reconciliation, at whatever time, leaves the same list. -/
structure Reconciles (now : ℚ) : Prop where
  total : |input.fillQuantity + adjustmentQuantity (input.next now).unmanaged +
      adjustmentQuantity (input.next now).managed -
      max input.target (input.fillQuantity + adjustmentQuantity input.unmanaged)| ≤
    input.toleranceQuantity
  kept : (input.next now).unmanaged = input.unmanaged
  again : ∀ later, ((input.next now).reconcileExchangeQuantityAdjustments later).adjustments =
    (input.next now).adjustments

/-- The condition of a reconciliation: what is managed is within the tolerance of the gap as it is
of the rounded gap, or the list that is written fits into 64 entries and no gap above the tolerance
is rounded to one that is not. -/
def FitsLedger : Prop :=
  if |adjustmentQuantity input.managed - input.expectedManaged| ≤ input.toleranceQuantity then
    |adjustmentQuantity input.managed - input.gap| ≤ input.toleranceQuantity
  else if input.toleranceQuantity < input.expectedManaged then input.unmanaged.length < 64
  else input.unmanaged.length ≤ 64 ∧ input.gap ≤ input.toleranceQuantity

/-! ## Sums -/

lemma finitePositive_number {q : ℚ} (hq : 0 < q) : finitePositive (.number q) = q := if_pos hq

@[simp] lemma adjustmentQuantity_nil : adjustmentQuantity [] = 0 := rfl

@[simp] lemma adjustmentQuantity_singleton (adjustment : ExchangeQuantityAdjustmentRecord) :
    adjustmentQuantity [adjustment] = finitePositive adjustment.quantity := zero_add _

lemma expectedManaged_nonneg : 0 ≤ input.expectedManaged := roundQuantity_nonneg _

lemma toleranceQuantity_ge : 1 / 10 ^ 12 ≤ input.toleranceQuantity :=
  (le_max_left ..).trans (le_max_left ..)

lemma abs_expectedManaged_sub_gap_le :
    |input.expectedManaged - input.gap| ≤ input.toleranceQuantity := by
  refine (abs_toFixedNonneg_sub_le _).trans (le_trans ?_ input.toleranceQuantity_ge)
  unfold gridScale
  norm_num

lemma booked_add_gap : input.fillQuantity + adjustmentQuantity input.unmanaged + input.gap =
    max input.target (input.fillQuantity + adjustmentQuantity input.unmanaged) := by
  unfold gap
  rw [← max_add_add_left, max_comm]
  ring_nf

lemma isManaged_of_mem_nextManaged {now : ℚ} {adjustment : ExchangeQuantityAdjustmentRecord}
    (h : adjustment ∈ input.nextManaged now) : adjustment.isManaged = true := by
  unfold nextManaged at h
  split at h
  · obtain rfl := mem_singleton.mp h
    cases input.source.getD .exchangeReconcile <;>
      simp [ExchangeQuantityAdjustmentRecord.isManaged, strOrEmpty, AdjustmentSource.toString,
        managedSources]
  · cases h

variable {input}

lemma filter_rewritten :
    (input.unmanaged ++ input.nextManaged now).filter (!·.isManaged) = input.unmanaged ∧
      (input.unmanaged ++ input.nextManaged now).filter (·.isManaged) = input.nextManaged now := by
  have hunman : ∀ adjustment ∈ input.unmanaged, adjustment.isManaged = false := by
    intro adjustment hmem
    simpa using (mem_filter.mp hmem).2
  constructor
  · rw [filter_append, filter_eq_self.mpr, filter_eq_nil_iff.mpr, append_nil]
    · intro adjustment hmem
      simp [input.isManaged_of_mem_nextManaged hmem]
    · intro adjustment hmem
      simp [hunman adjustment hmem]
  · have hnone : input.unmanaged.filter (·.isManaged) = [] :=
      filter_eq_nil_iff.mpr fun adjustment hmem => by simp [hunman adjustment hmem]
    rw [filter_append, hnone, nil_append, filter_eq_self.mpr]
    exact fun adjustment hmem => input.isManaged_of_mem_nextManaged hmem

lemma nextManaged_of_lt (hpr : 0 < finitePositive input.entryPrice)
    (h : input.toleranceQuantity < input.expectedManaged) : (input.nextManaged now).length = 1 ∧
      adjustmentQuantity (input.nextManaged now) = input.expectedManaged := by
  have hpos : 0 < input.expectedManaged :=
    lt_of_le_of_lt ((by norm_num : (0 : ℚ) ≤ 1 / 10 ^ 12).trans input.toleranceQuantity_ge) h
  rw [nextManaged, if_pos ⟨h, hpr⟩]
  exact ⟨rfl, (adjustmentQuantity_singleton _).trans (finitePositive_number hpos)⟩

lemma nextManaged_of_le (h : input.expectedManaged ≤ input.toleranceQuantity) :
    input.nextManaged now = [] :=
  if_neg fun hlt => absurd h (not_le.mpr hlt.1)

/-! ## Reconciling -/

lemma reconciles_of_unchanged
    (h : |adjustmentQuantity input.managed - input.expectedManaged| ≤ input.toleranceQuantity) :
    input.Reconciles now ↔
      |adjustmentQuantity input.managed - input.gap| ≤ input.toleranceQuantity := by
  have hnext : input.next now = input := by
    unfold next reconcileExchangeQuantityAdjustments
    simp only [h, if_true]
  have htot : input.fillQuantity + adjustmentQuantity input.unmanaged +
      adjustmentQuantity input.managed -
        max input.target (input.fillQuantity + adjustmentQuantity input.unmanaged) =
      adjustmentQuantity input.managed - input.gap := by
    rw [← booked_add_gap]
    ring
  constructor
  · intro hrecon
    have hle := hrecon.total
    rwa [hnext, htot] at hle
  · intro hle
    refine ⟨by rwa [hnext, htot], by rw [hnext], fun later => ?_⟩
    rw [hnext]
    exact if_pos h

section

variable
  (h : ¬ |adjustmentQuantity input.managed - input.expectedManaged| ≤ input.toleranceQuantity)

include h

/-- A list that is written and fits: what is managed is the rounded gap, or nothing where that is
within the tolerance. -/
lemma reconciles_of_rewritten (hfits : input.unmanaged.length + (input.nextManaged now).length ≤ 64)
    (hmanag : |adjustmentQuantity (input.nextManaged now) - input.expectedManaged| ≤
      input.toleranceQuantity) :
    input.Reconciles now ↔
      |adjustmentQuantity (input.nextManaged now) - input.gap| ≤ input.toleranceQuantity := by
  obtain ⟨hunman, hnextManag⟩ := input.filter_rewritten now
  have hwrote : (input.next now).adjustments = input.unmanaged ++ input.nextManaged now := by
    have hdrop : (input.unmanaged ++ input.nextManaged now).length - 64 = 0 := by
      rw [length_append]
      omega
    simp only [next, reconcileExchangeQuantityAdjustments, if_neg h, hdrop, drop_zero]
  have hkept : (input.next now).unmanaged = input.unmanaged := by
    rw [unmanaged, hwrote, hunman]
  have hbook : (input.next now).managed = input.nextManaged now := by
    rw [managed, hwrote, hnextManag]
  have htot : input.fillQuantity + adjustmentQuantity input.unmanaged +
      adjustmentQuantity (input.nextManaged now) -
        max input.target (input.fillQuantity + adjustmentQuantity input.unmanaged) =
      adjustmentQuantity (input.nextManaged now) - input.gap := by
    rw [← booked_add_gap]
    ring
  constructor
  · intro hrecon
    have hle := hrecon.total
    rwa [hkept, hbook, htot] at hle
  · intro hle
    refine ⟨by rwa [hkept, hbook, htot], hkept, fun later => ?_⟩
    have hexpec : (input.next now).expectedManaged = input.expectedManaged := by
      rw [expectedManaged, hkept]
      rfl
    refine if_pos ?_
    rw [hbook, hexpec]
    exact hmanag

lemma not_reconciles_of_long (hmanag : (input.nextManaged now).length ≤ 1)
    (hlong : 64 < input.unmanaged.length + (input.nextManaged now).length) :
    ¬ input.Reconciles now := by
  intro hrecon
  have hwrote : (input.next now).adjustments =
      input.unmanaged.drop (input.unmanaged.length + (input.nextManaged now).length - 64) ++
        input.nextManaged now := by
    simp only [next, reconcileExchangeQuantityAdjustments, if_neg h, length_append]
    exact drop_append_of_le_length (by omega)
  have hnone : (input.nextManaged now).filter (!·.isManaged) = [] :=
    filter_eq_nil_iff.mpr fun adjustment hmem => by
      simp [input.isManaged_of_mem_nextManaged hmem]
  have hkept := congrArg List.length hrecon.kept
  rw [unmanaged, hwrote, filter_append, hnone, append_nil] at hkept
  have hle := length_filter_le (fun adjustment => !adjustment.isManaged)
    (input.unmanaged.drop (input.unmanaged.length + (input.nextManaged now).length - 64))
  rw [length_drop] at hle
  omega

end

/-- **Reconciliation.** With a positive entry price a reconciliation leaves what it should just if
what is managed is within the tolerance of the gap as it is of the rounded gap, or the list that is
written fits into 64 entries and no gap above the tolerance is rounded to one that is not. -/
theorem reconciles_iff (input : ReconcileInput) (now : ℚ)
    (hprice : 0 < finitePositive input.entryPrice) :
    input.Reconciles now ↔ input.FitsLedger := by
  have hnonneg : 0 ≤ input.toleranceQuantity :=
    (by norm_num : (0 : ℚ) ≤ 1 / 10 ^ 12).trans input.toleranceQuantity_ge
  unfold FitsLedger
  split_ifs with hunchanged hlarge
  · exact reconciles_of_unchanged now hunchanged
  · -- The rounded gap is booked: its distance from the gap is within every tolerance.
    obtain ⟨hlength, hquantity⟩ := nextManaged_of_lt now hprice hlarge
    by_cases hfits : input.unmanaged.length < 64
    · rw [reconciles_of_rewritten now hunchanged (by omega)
        (by rwa [hquantity, sub_self]), hquantity]
      exact iff_of_true input.abs_expectedManaged_sub_gap_le hfits
    · exact iff_of_false (not_reconciles_of_long now hunchanged hlength.le (by omega)) hfits
  · -- Nothing is booked, so the whole gap stays open.
    have hsmall := not_lt.mp hlarge
    have hnone := input.nextManaged_of_le now hsmall
    have hgap : |adjustmentQuantity (input.nextManaged now) - input.gap| = input.gap := by
      rw [hnone, adjustmentQuantity_nil, zero_sub, abs_neg, abs_of_nonneg (le_max_left ..)]
    by_cases hfits : input.unmanaged.length ≤ 64
    · have hmanaged : |adjustmentQuantity (input.nextManaged now) - input.expectedManaged| ≤
          input.toleranceQuantity := by
        rwa [hnone, adjustmentQuantity_nil, zero_sub, abs_neg,
          abs_of_nonneg input.expectedManaged_nonneg]
      rw [reconciles_of_rewritten now hunchanged (by rw [hnone]; simpa using hfits) hmanaged, hgap]
      exact (and_iff_right hfits).symm
    · refine iff_of_false (not_reconciles_of_long now hunchanged ?_ ?_) fun hboth => hfits hboth.1
      · rw [hnone]
        exact Nat.zero_le 1
      · rw [hnone]
        exact not_le.mp hfits

/-- A position with adjustments of another bookkeeping, and a gap of one. -/
def auditedInput (count : ℕ) : ReconcileInput where
  positionId := "live-1"
  targetQuantity := .number (count + 1)
  entryPrice := .number 100
  adjustments := (List.range count).map fun _ =>
    { id := "audit", source := some "external_audit", quantity := .number 1, price := 100,
      timestamp := 1 }
  timestamp := some 2

theorem reconciles_iff_audited : (auditedInput 3).Reconciles 5 ↔ (auditedInput 3).FitsLedger :=
  reconciles_iff (auditedInput 3) 5 (by decide +kernel)

/-- With 64 other adjustments the new gap pushes the oldest of them out of the list. -/
theorem not_reconciles_audited : 0 < finitePositive (auditedInput 64).entryPrice ∧
    ¬ (auditedInput 64).Reconciles 5 := by
  refine ⟨by decide +kernel, fun h => ?_⟩
  have hkept := congrArg List.length h.kept
  revert hkept
  decide +kernel

end ReconcileInput

end CtsEngine.QuantityLedger
