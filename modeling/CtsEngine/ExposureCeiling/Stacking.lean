import CtsEngine.ExposureCeiling.Ceiling
import CtsEngine.Transition.Runs

/-!
# Entries that follow each other

One slot of a venue holds what this system and other systems filled, at one average entry price.
Entry after entry is sized by what the ceiling leaves beside the own share of the slot, and the own
share is valued at that average price.  The own fills stay below the ceiling as long as this does
not value them below what they cost.
-/

namespace CtsEngine.ExposureCeiling

open Option List Transition OrderQuantity

/-- A slot, with what the system itself filled of it. -/
structure Slot where
  ownQuantity : ℚ
  ownNotional : ℚ
  /-- All of the slot on the venue, at its average entry price. -/
  slotQuantity : ℚ
  slotNotional : ℚ
  /-- How many orders were accepted, and the quantities of them with their rules. -/
  accepted : List (NormalizedQuantityRules × ℚ) := []

/-- What happens to a slot. -/
inductive SlotAction
  /-- An entry, and how much of it is filled when it is accepted. -/
  | entry (input : EntryInput) (connector : Connector) (submitted : Submitted) (filled : ℚ)
  /-- Another system adds to the slot. -/
  | foreignFill (quantity price : ℚ)
  /-- Another system takes from the slot, which keeps its average entry price. -/
  | foreignReduction (quantity : ℚ)

/-- The slot before the first entry. -/
def Slot.start (quantity notional : ℚ) : Slot where
  ownQuantity := 0
  ownNotional := 0
  slotQuantity := quantity
  slotNotional := notional

/-- The rows that are read add up to the slot. -/
def Slot.Reports (s : Slot) (read : Except String (List PositionRow)) (marketPrice : ℚ) : Prop :=
  match read with
  | .error _ => True
  | .ok rows => (rows.map orderQuantityFromPosition).sum = s.slotQuantity ∧
      (rows.map fun row =>
        orderQuantityFromPosition row * orderPriceFromPosition row marketPrice).sum = s.slotNotional

instance (s : Slot) (read : Except String (List PositionRow)) (marketPrice : ℚ) :
    Decidable (s.Reports read marketPrice) :=
  match read with
  | .error _ => isTrue trivial
  | .ok _ => inferInstanceAs (Decidable (_ ∧ _))

/-- A quantity that the code accepts for an entry. -/
def acceptedEntry (input : EntryInput) (connector : Connector) (symbol : String)
    (submitted : Submitted) : Except Refusal Submitted :=
  match resolveLiveOrderExposureCeiling input connector symbol submitted.marketPrice with
  | .error refusal => .error refusal
  | .ok ceiling => capSubmittedLiveQuantity submitted ceiling.maxNotionalUsd

/-- The slot after an own fill. -/
def Slot.fill (s : Slot) (order : Submitted) (filled : ℚ) : Slot where
  ownQuantity := s.ownQuantity + filled
  ownNotional := s.ownNotional + filled * order.marketPrice
  slotQuantity := s.slotQuantity + filled
  slotNotional := s.slotNotional + filled * order.marketPrice
  accepted := s.accepted ++ [(order.rules, order.quantity)]

/-- The entry belongs to the slot: it has the same ceiling, knows the own quantity, and the venue's
rows are those of the slot. -/
def Slot.Enters (s : Slot) (total : ℚ) (symbol : String) (direction : LiveOrderDirection)
    (input : EntryInput) (connector : Connector) (marketPrice : ℚ) : Prop :=
  input.reduceOnly = false ∧ input.direction = direction ∧ totalCeiling input = .ok total ∧
    input.ownSlotQuantity = some s.ownQuantity ∧
    s.Reports (readAuthoritativePositionRows connector symbol direction) marketPrice

instance (s : Slot) (total : ℚ) (symbol : String) (direction : LiveOrderDirection)
    (input : EntryInput) (connector : Connector) (marketPrice : ℚ) :
    Decidable (s.Enters total symbol direction input connector marketPrice) :=
  inferInstanceAs (Decidable (_ ∧ _))

/-- One step of a slot with a ceiling. -/
def slotStep (total : ℚ) (symbol : String) (direction : LiveOrderDirection) (s : Slot) :
    SlotAction → Option Slot
  | .entry input connector submitted filled =>
    if s.Enters total symbol direction input connector submitted.marketPrice then
      match acceptedEntry input connector symbol submitted with
      | .error _ => some s
      | .ok order =>
        if 0 ≤ filled ∧ filled ≤ order.quantity then some (s.fill order filled) else none
    else none
  | .foreignFill quantity price =>
    if 0 < quantity ∧ 0 < price then
      some { s with
        slotQuantity := s.slotQuantity + quantity
        slotNotional := s.slotNotional + quantity * price }
    else none
  | .foreignReduction quantity =>
    if 0 < quantity ∧ quantity ≤ s.slotQuantity then
      some { s with
        slotQuantity := s.slotQuantity - quantity
        slotNotional := s.slotNotional * ((s.slotQuantity - quantity) / s.slotQuantity) }
    else none

/-! ### The property and its condition -/

/-- A quantity is positive, on the step, and not below the minimum. -/
structure Executable (rules : NormalizedQuantityRules) (quantity : ℚ) : Prop where
  pos : 0 < quantity
  onStep : OnStep rules quantity
  minimum : rules.minQuantity ≤ quantity

/-- The own fills are within the ceiling, up to the tolerance for each order, and every accepted
quantity can be executed. -/
structure WithinCeiling (total : ℚ) (s : Slot) : Prop where
  notional : s.ownNotional ≤ total + s.accepted.length * (1 / 10 ^ 8)
  executable : ∀ order ∈ s.accepted, Executable order.1 order.2

/-- The average entry price of a slot that others share is not below the average price of the own
fills, and a slot that nobody shares is not worth less than these. -/
def Slot.FairlyValued (s : Slot) : Prop :=
  if s.ownQuantity * (1 + 1 / 10 ^ 6) + 1 / 10 ^ 12 < s.slotQuantity then
    s.ownNotional * s.slotQuantity ≤ s.ownQuantity * s.slotNotional
  else s.ownNotional ≤ s.slotNotional

instance (s : Slot) : Decidable s.FairlyValued := inferInstanceAs (Decidable (ite ..))

/-- No positive multiple of the step is below the minimum by the tolerance of the check only. -/
def MinimumApart (rules : NormalizedQuantityRules) : Prop :=
  ∀ quantity, 0 < quantity → OnStep rules quantity → quantity < rules.minQuantity →
    quantity + 1 / 10 ^ 12 < rules.minQuantity

/-- An entry is sized while the slot is fairly valued, by rules whose minimum can be told. -/
def Accountable (s : Slot) : SlotAction → Prop
  | .entry _ _ submitted _ => s.FairlyValued ∧ MinimumApart submitted.rules
  | _ => True

lemma orderQuantityFromPosition_nonneg (row : PositionRow) : 0 ≤ orderQuantityFromPosition row := by
  unfold orderQuantityFromPosition
  cases firstNumber (· ≠ 0) [row.quantity, row.qty, row.contracts, row.size, row.positionAmt,
    row.positionSize, row.lots, row.volume] with
  | none => exact le_rfl
  | some quantity => exact abs_nonneg quantity

lemma orderNotionalUsd_of_pos {quantity price : ℚ} (h : 0 < orderNotionalUsd quantity price) :
    orderNotionalUsd quantity price = quantity * price ∧ 0 < quantity * price := by
  unfold orderNotionalUsd at h ⊢
  split at h
  · rename_i hpos
    exact ⟨if_pos hpos, hpos⟩
  · exact absurd h (lt_irrefl 0)

lemma sumRows_eq {marketPrice : ℚ} {rows : List PositionRow} {notional total notional' total' : ℚ}
    (h : sumRows marketPrice rows (notional, total) = .ok (notional', total')) :
    notional' = notional + (rows.map fun row =>
        orderQuantityFromPosition row * orderPriceFromPosition row marketPrice).sum ∧
      total' = total + (rows.map orderQuantityFromPosition).sum := by
  induction rows generalizing notional total with
  | nil =>
    obtain ⟨rfl, rfl⟩ := Prod.mk.inj (Except.ok.inj h)
    simp
  | cons row rest ih =>
    rw [map_cons, map_cons, sum_cons, sum_cons]
    unfold sumRows at h
    dsimp only at h
    split at h
    · -- a row without a quantity
      rename_i hzero
      have hqty : orderQuantityFromPosition row = 0 :=
        le_antisymm (not_lt.mp hzero) (orderQuantityFromPosition_nonneg row)
      obtain ⟨hnotl, htot⟩ := ih h
      rw [hqty, zero_mul, zero_add, zero_add]
      exact ⟨hnotl, htot⟩
    · split at h
      · cases h
      · rename_i hval
        obtain ⟨hnotl, htot⟩ := ih h
        rw [(orderNotionalUsd_of_pos (not_not.mp hval)).1] at hnotl
        exact ⟨by rw [hnotl, add_assoc], by rw [htot, add_assoc]⟩

lemma capSubmittedLiveQuantity_ok {submitted order : Submitted} {ceiling : ℚ}
    (h : capSubmittedLiveQuantity submitted ceiling = .ok order) :
    order.rules = submitted.rules ∧ order.marketPrice = submitted.marketPrice ∧
      0 < order.marketPrice ∧ 0 < order.quantity ∧ OnStep order.rules order.quantity ∧
      ¬ BelowMinimum order.rules order.quantity ∧
      order.quantity * order.marketPrice ≤ ceiling + 1 / 10 ^ 8 := by
  unfold capSubmittedLiveQuantity at h
  dsimp only at h
  split at h
  · cases h
  · rename_i hunit
    split at h
    · cases h
    · split at h
      · cases h
      · rename_i haccep
        obtain rfl := Except.ok.inj h
        push Not at haccep
        obtain ⟨hpos, hmin, hnotl, hceil⟩ := haccep
        have hpr := (orderNotionalUsd_of_pos (not_not.mp hunit)).2
        rw [one_mul] at hpr
        rw [(orderNotionalUsd_of_pos hnotl).1] at hceil
        exact ⟨rfl, rfl, hpr, hpos, (roundQuantityDown_spec _ _).1, hmin, hceil⟩

lemma executable_of_not_belowMinimum {rules : NormalizedQuantityRules}
    (happar : MinimumApart rules) {quantity : ℚ} (hpos : 0 < quantity)
    (hstep : OnStep rules quantity) (hmin : ¬ BelowMinimum rules quantity) :
    Executable rules quantity := by
  refine ⟨hpos, hstep, ?_⟩
  by_contra hlow
  have hlow := not_le.mp hlow
  exact hmin ⟨hpos.trans hlow, happar quantity hpos hstep hlow⟩

/-! ### Runs -/

section Runs

variable {total : ℚ} {symbol : String} {direction : LiveOrderDirection} {s t : Slot}

lemma Slot.FairlyValued.le_ownNotionalUsd (h : s.FairlyValued) (hown : 0 ≤ s.ownQuantity) :
    s.ownNotional ≤ ownNotionalUsd (some s.ownQuantity) s.slotNotional s.slotQuantity := by
  unfold Slot.FairlyValued at h
  unfold ownNotionalUsd
  dsimp only
  split at h
  · rename_i hshar
    have hslot : 0 < s.slotQuantity := by
      refine lt_trans ?_ hshar
      positivity
    rw [if_pos ⟨hown, hshar⟩, if_pos hslot, ← mul_div_assoc, le_div_iff₀ hslot]
    rw [mul_comm s.slotNotional]
    exact h
  · rename_i hshar
    rw [if_neg fun hboth => hshar hboth.2]
    exact h

lemma resolveLiveOrderExposureCeiling_ok {input : EntryInput} {connector : Connector}
    {marketPrice : ℚ} {ceiling : Ceiling}
    (henter : s.Enters total symbol direction input connector marketPrice)
    (h : resolveLiveOrderExposureCeiling input connector symbol marketPrice = .ok ceiling) :
    ceiling.maxNotionalUsd =
      total - ownNotionalUsd (some s.ownQuantity) s.slotNotional s.slotQuantity := by
  obtain ⟨hreduc, hdir, htot, hown, hrepor⟩ := henter
  unfold resolveLiveOrderExposureCeiling at h
  rw [hreduc, htot, hdir, hown, if_neg Bool.false_ne_true] at h
  dsimp only at h
  split at h
  · cases h
  · cases hread : readAuthoritativePositionRows connector symbol direction with
    | error reason =>
      rw [hread] at h
      cases h
    | ok rows =>
      rw [hread] at h hrepor
      dsimp only at h
      cases hsums : sumRows marketPrice rows (0, 0) with
      | error refusal =>
        rw [hsums] at h
        cases h
      | ok sums =>
        obtain ⟨notional, quantity⟩ := sums
        obtain ⟨hnotl, hqty⟩ := sumRows_eq hsums
        rw [zero_add, hrepor.2] at hnotl
        rw [zero_add, hrepor.1] at hqty
        rw [hsums, hnotl, hqty] at h
        dsimp only at h
        split at h
        · obtain rfl := Except.ok.inj h
          rfl
        · cases h

/-- The invariant of a slot. -/
structure Tracked (total : ℚ) (s : Slot) : Prop extends WithinCeiling total s where
  own_nonneg : 0 ≤ s.ownQuantity

lemma Tracked.fill (h : Tracked total s) {input : EntryInput} {connector : Connector}
    {submitted order : Submitted} {filled : ℚ}
    (henter : s.Enters total symbol direction input connector submitted.marketPrice)
    (hfair : s.FairlyValued) (happar : MinimumApart submitted.rules)
    (hacc : acceptedEntry input connector symbol submitted = .ok order)
    (hfill : 0 ≤ filled ∧ filled ≤ order.quantity) : Tracked total (s.fill order filled) := by
  unfold acceptedEntry at hacc
  cases hceil : resolveLiveOrderExposureCeiling input connector symbol submitted.marketPrice with
  | error refusal =>
    rw [hceil] at hacc
    cases hacc
  | ok ceiling =>
    rw [hceil] at hacc
    obtain ⟨hrules, hmark, hpr, hpos, hstep, hmin, hfits⟩ := capSubmittedLiveQuantity_ok hacc
    rw [resolveLiveOrderExposureCeiling_ok henter hceil] at hfits
    have hval := hfair.le_ownNotionalUsd h.own_nonneg
    have hcost : filled * order.marketPrice ≤ order.quantity * order.marketPrice :=
      mul_le_mul_of_nonneg_right hfill.2 hpr.le
    refine ⟨⟨?_, fun other hoth => ?_⟩, add_nonneg h.own_nonneg hfill.1⟩
    · change s.ownNotional + filled * order.marketPrice ≤
        total + (s.accepted ++ [(order.rules, order.quantity)]).length * (1 / 10 ^ 8)
      rw [length_append, length_singleton]
      push_cast
      linarith
    · rcases mem_append.mp hoth with hold | hnew
      · exact h.executable other hold
      · rw [mem_singleton.mp hnew]
        exact executable_of_not_belowMinimum (hrules ▸ happar) hpos hstep hmin

lemma Tracked.step (h : Tracked total s) {a : SlotAction} (hcond : Accountable s a)
    (hstep : slotStep total symbol direction s a = some t) : Tracked total t := by
  cases a with
  | entry input connector submitted filled =>
    obtain ⟨henter, hrest⟩ := ite_none_right_eq_some.mp hstep
    cases hacc : acceptedEntry input connector symbol submitted with
    | error refusal =>
      rw [hacc] at hrest
      cases hrest
      exact h
    | ok order =>
      rw [hacc] at hrest
      obtain ⟨hfill, hsome⟩ := ite_none_right_eq_some.mp hrest
      cases hsome
      exact h.fill henter hcond.1 hcond.2 hacc hfill
  | foreignFill quantity price =>
    obtain ⟨-, hsome⟩ := ite_none_right_eq_some.mp hstep
    cases hsome
    exact { h with }
  | foreignReduction quantity =>
    obtain ⟨-, hsome⟩ := ite_none_right_eq_some.mp hstep
    cases hsome
    exact { h with }

/-- **No stacking past the ceiling.** After every run of own entries and foreign fills, in which
each entry is sized while the slot is fairly valued, the own fills are within the ceiling. -/
theorem withinCeiling_of_accountable (htotal : 0 < total) {quantity notional : ℚ}
    {actions : List SlotAction}
    (hmeets : Meets (slotStep total symbol direction) Accountable (.start quantity notional)
      actions)
    (hrun : run (slotStep total symbol direction) (.start quantity notional) actions = some s) :
    WithinCeiling total s := by
  have hstart : Tracked total (.start quantity notional) := by
    refine ⟨⟨?_, forall_mem_nil _⟩, le_rfl⟩
    change (0 : ℚ) ≤ total + ((0 : ℕ) : ℚ) * (1 / 10 ^ 8)
    rw [Nat.cast_zero, zero_mul, add_zero]
    exact htotal.le
  exact (invariant_of_meets (fun _ _ _ h hcond hstep => h.step hcond hstep) hstart hmeets
    hrun).toWithinCeiling

end Runs

lemma Slot.FairlyValued.of_alone {s : Slot} (hown : 0 ≤ s.ownQuantity)
    (hqty : s.slotQuantity = s.ownQuantity) (hnotl : s.slotNotional = s.ownNotional) :
    s.FairlyValued := by
  unfold Slot.FairlyValued
  rw [if_neg, hnotl]
  linarith

/-- The rules of a pair with the step one tenth. -/
def tenths : NormalizedQuantityRules :=
  normalizeExchangeQuantityRules { quantityPrecision := some 1 }

/-- An entry with a ceiling of 100. -/
def entryOfHundred (ownQuantity : ℚ) : EntryInput where
  reduceOnly := false
  direction := .long
  maxExecutionNotionalUsd := none
  isAuthorizedVst := false
  volumeResult := ⟨false, some 100⟩
  ownSlotQuantity := some ownQuantity

/-- A venue with one long row, or with none. -/
def venueWith (rows : List (ℚ × ℚ)) : Connector :=
  .getPositions (.rows (rows.map fun row =>
    { symbol := some "BTC-USDT", positionSide := some "LONG", positionAmt := some row.1,
      entryPrice := some row.2 }))

/-- A unit is bought at a market price, with nothing or something of the slot filled. -/
def unitEntry (ownQuantity marketPrice : ℚ) (rows : List (ℚ × ℚ)) : SlotAction :=
  .entry (entryOfHundred ownQuantity) (venueWith rows) ⟨1, marketPrice, tenths, false⟩ 1

/-- Another system buys dearer, so the own unit counts for more than it cost. -/
def fairEntries : List SlotAction :=
  [unitEntry 0 40 [], .foreignFill 1 60, unitEntry 1 50 [(2, 50)]]

theorem withinCeiling_fairEntries :
    ∃ s, run (slotStep 100 "BTCUSDT" .long) (.start 0 0) fairEntries = some s ∧
      s.ownNotional = 90 ∧ WithinCeiling 100 s := by
  have happart : MinimumApart tenths := fun _ hpos _ hlow => absurd hlow (not_lt.mpr hpos.le)
  have hrun : (run (slotStep 100 "BTCUSDT" .long) (.start 0 0) fairEntries).any
      (·.ownNotional = 90) = true := by decide +kernel
  obtain ⟨s, hs, hown⟩ := (Option.any_eq_true _ _).mp hrun
  have hfair : (run (slotStep 100 "BTCUSDT" .long) (.start 0 0)
      [unitEntry 0 40 [], .foreignFill 1 60]).all (·.FairlyValued) = true := by decide +kernel
  have hmeets : Meets (slotStep 100 "BTCUSDT" .long) Accountable (.start 0 0) fairEntries := by
    refine ⟨⟨.of_alone le_rfl rfl rfl, happart⟩, fun t ht => ⟨trivial, fun u hu =>
      ⟨⟨?_, happart⟩, fun _ _ => trivial⟩⟩⟩
    rw [run_cons_eq_some.mpr ⟨t, ht, (run_singleton ..).trans hu⟩] at hfair
    exact of_decide_eq_true hfair
  exact ⟨s, hs, of_decide_eq_true hown, withinCeiling_of_accountable (by norm_num) hmeets hs⟩

/-- Another system then buys nine units for 10 each.  The slot has an average price of 19. -/
def dilutedEntries : List SlotAction :=
  [unitEntry 0 100 [], .foreignFill 9 10,
    .entry (entryOfHundred 1) (venueWith [(10, 19)]) ⟨10, 10, tenths, false⟩ (81 / 10)]

/-- The own unit counts for 19, so 81 more are spent. -/
theorem not_withinCeiling_dilutedEntries : ¬ ∀ (actions : List SlotAction) (s : Slot),
      run (slotStep 100 "BTCUSDT" .long) (.start 0 0) actions = some s → WithinCeiling 100 s := by
  intro h
  have hrun : (run (slotStep 100 "BTCUSDT" .long) (.start 0 0) dilutedEntries).any (fun s =>
      (100 : ℚ) + s.accepted.length * (1 / 10 ^ 8) < s.ownNotional) = true := by decide +kernel
  obtain ⟨s, hs, hover⟩ := (Option.any_eq_true _ _).mp hrun
  exact (h _ s hs).notional.not_gt (of_decide_eq_true hover)

end CtsEngine.ExposureCeiling
