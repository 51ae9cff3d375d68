import CtsEngine.Foundation.Keyed
import CtsEngine.TradeHistory.StoredPosition

/-!
# The tracked share of the venue's positions

`lib/exchange-live-state-summary.ts`: `buildSystemExchangeTrackingScope` adds up, for each slot (a
symbol and a direction), what the open rows of this system hold, and
`attributeSystemTrackedExchangePositions` gives to each position of the venue the smaller one of its
own quantity and the quantity of its slot.  The bound is taken row by row, so a slot that the venue
lists more than once can be given more than is tracked in it.
-/

namespace CtsEngine.TrackedExposure

open List Keyed

/-! ## Slots -/

section Scope

variable (upperCase : String → String)

def normalizedSymbol (value : Option String) : String :=
  String.ofList ((upperCase (trim (value.getD ""))).toList.filter fun c =>
    !(['-', '/', '_', ':'].contains c) && !isJsSpace c)

/-- `normalizedDirection`, for the first side that is given. -/
def normalizedDirection (side : Option String) (rawQuantity : ℚ) : Option Direction :=
  let rawSide := toLowerCase (text side)
  if includes "short" rawSide || rawSide = "sell" || (rawSide = "both" && decide (rawQuantity < 0))
  then some .short
  else if includes "long" rawSide || rawSide = "buy" || decide (0 < rawQuantity) then some .long
  else none

def slotKey (symbol : String) (direction : Direction) : String :=
  symbol ++ ":" ++ direction.toString

lemma slotKey_inj {symbol other : String} {direction side : Direction}
    (h : slotKey symbol direction = slotKey other side) : symbol = other ∧ direction = side := by
  have hlast := congrArg (fun key : String => key.toList.getLast?) h
  have hside : direction = side := by
    cases direction <;> cases side <;>
      simp [slotKey, Direction.toString] at hlast ⊢
  subst hside
  refine ⟨?_, rfl⟩
  have hchars := congrArg String.toList h
  simp only [slotKey, String.toList_append, append_assoc] at hchars
  exact String.toList_injective (append_cancel_right hchars)

/-- An open row of this system, with the names under which a row can keep its side. -/
structure TrackedRow extends StoredPosition where
  positionSide : Option String := none
  positionSideSnake : Option String := none

/-- `TrackedPositionSlot`: the slot and what is held in it. -/
structure TrackedPositionSlot where
  symbol : String
  direction : Direction
  quantity : ℚ

/-- `SystemExchangeTrackingScope`: the slots by their keys, and how many rows are in them. -/
structure SystemExchangeTrackingScope where
  positionsBySlot : List (String × TrackedPositionSlot) := []
  trackedOpenPositions : ℕ := 0

/-- `LIVE_OPEN_STATUSES`. -/
def liveOpenStatuses : List String :=
  ["open", "filled", "partially_filled", "placed", "pending", "pending_fill", "placed_unconfirmed",
    "simulated", "closing", "closing_partial"]

def isLiveOpenStatus (status : Option String) : Bool :=
  liveOpenStatuses.contains (toLowerCase (text status))

/-- The slot and the quantity of a row that counts: it is a real position, open, with a symbol, a
direction and a quantity. -/
def trackedSlot (position : TrackedRow) : Option TrackedPositionSlot :=
  if position.getLivePositionSource ≠ .real then none
  else if isLiveOpenStatus position.status = false then none
  else
    let symbol := normalizedSymbol upperCase position.symbol
    let side := position.positionSide <|> position.positionSideSnake <|> position.direction <|>
      position.side
    let quantity := |(position.executedQuantity.orElse (position.quantity.orElse
      (position.exchangeRecord.quantity.orElse position.exchangeRecord.positionAmt))).finite|
    match normalizedDirection side 0 with
    | none => none
    | some direction =>
      if symbol = "" ∨ ¬ 0 < quantity then none else some ⟨symbol, direction, quantity⟩

/-- One round of the loop of `buildSystemExchangeTrackingScope`. -/
def trackPosition (scope : SystemExchangeTrackingScope) (position : TrackedRow) :
    SystemExchangeTrackingScope :=
  match trackedSlot upperCase position with
  | none => scope
  | some slot =>
    let key := slotKey slot.symbol slot.direction
    let current := (get? scope.positionsBySlot key).getD ⟨slot.symbol, slot.direction, 0⟩
    { positionsBySlot := put scope.positionsBySlot key
        { current with quantity := current.quantity + slot.quantity }
      trackedOpenPositions := scope.trackedOpenPositions + 1 }

def buildSystemExchangeTrackingScope (positions : List TrackedRow) : SystemExchangeTrackingScope :=
  positions.foldl (trackPosition upperCase) {}

/-- A position of the venue, under the names that venues use. -/
structure VenuePositionRow where
  positionAmt : StoredValue := .missing
  contracts : StoredValue := .missing
  positionSize : StoredValue := .missing
  size : StoredValue := .missing
  quantity : StoredValue := .missing
  qty : StoredValue := .missing
  symbol : Option String := none
  contract : Option String := none
  instrumentId : Option String := none
  instId : Option String := none
  positionSide : Option String := none
  positionSideSnake : Option String := none
  direction : Option String := none
  side : Option String := none

structure SystemAttributedExchangePosition where
  row : VenuePositionRow
  symbol : String
  direction : Direction
  venueQuantity : ℚ
  quantity : ℚ
  attributionRatio : ℚ

/-- The slot of a row of the venue and the quantity that the venue holds in it. -/
def venueSlot (row : VenuePositionRow) : Option TrackedPositionSlot :=
  let rawQuantity := (row.positionAmt.orElse (row.contracts.orElse (row.positionSize.orElse
    (row.size.orElse (row.quantity.orElse row.qty))))).finite
  let venueQuantity := |rawQuantity|
  let symbol := normalizedSymbol upperCase
    (row.symbol <|> row.contract <|> row.instrumentId <|> row.instId)
  if symbol = "" ∨ ¬ 0 < venueQuantity then none
  else
    (normalizedDirection (row.positionSide <|> row.positionSideSnake <|> row.direction <|> row.side)
      rawQuantity).map fun direction => ⟨symbol, direction, venueQuantity⟩

/-- One round of the loop of `attributeSystemTrackedExchangePositions`: what it pushes. -/
def attributeRow (trackingScope : Option SystemExchangeTrackingScope) (row : VenuePositionRow) :
    Option SystemAttributedExchangePosition :=
  match venueSlot upperCase row with
  | none => none
  | some slot =>
    let quantity := trackingScope.elim slot.quantity fun scope =>
      let trackedQuantity := (get? scope.positionsBySlot
        (slotKey slot.symbol slot.direction)).map (·.quantity)
      min slot.quantity (max 0 (trackedQuantity.getD 0))
    if ¬ 0 < quantity then none
    else
      some ⟨row, slot.symbol, slot.direction, slot.quantity, quantity,
        min 1 (quantity / slot.quantity)⟩

def attributeSystemTrackedExchangePositions (rows : List VenuePositionRow)
    (trackingScope : Option SystemExchangeTrackingScope) : List SystemAttributedExchangePosition :=
  rows.filterMap (attributeRow upperCase trackingScope)

/-! ## Quantities of a slot -/

/-- The slot of a symbol and a direction. -/
def TrackedPositionSlot.isIn (slot : TrackedPositionSlot) (symbol : String)
    (direction : Direction) : Bool :=
  decide (slot.symbol = symbol) && decide (slot.direction = direction)

/-- What is tracked in a slot. -/
def trackedQuantity (positions : List TrackedRow) (symbol : String) (direction : Direction) : ℚ :=
  (((positions.filterMap (trackedSlot upperCase)).filter (·.isIn symbol direction)).map
    (·.quantity)).sum

/-- The quantities of the venue in a slot, one for each of its positions there. -/
def venueQuantities (rows : List VenuePositionRow) (symbol : String) (direction : Direction) :
    List ℚ :=
  ((rows.filterMap (venueSlot upperCase)).filter (·.isIn symbol direction)).map (·.quantity)

/-- The slot of an attributed position. -/
def SystemAttributedExchangePosition.isIn (position : SystemAttributedExchangePosition)
    (symbol : String) (direction : Direction) : Bool :=
  decide (position.symbol = symbol) && decide (position.direction = direction)

/-- What is attributed in a slot. -/
def attributedQuantity (attributed : List SystemAttributedExchangePosition) (symbol : String)
    (direction : Direction) : ℚ :=
  ((attributed.filter (·.isIn symbol direction)).map (·.quantity)).sum

/-- What is attributed stays within what is tracked and within what the venue holds, in every
slot. -/
def AttributedWithinTracked (rows : List VenuePositionRow) (positions : List TrackedRow) : Prop :=
  let attributed := attributeSystemTrackedExchangePositions upperCase rows
    (some (buildSystemExchangeTrackingScope upperCase positions))
  ∀ symbol direction, attributedQuantity attributed symbol direction ≤
        trackedQuantity upperCase positions symbol direction ∧
      attributedQuantity attributed symbol direction ≤
        (venueQuantities upperCase rows symbol direction).sum

/-- The quantity that a scope holds under a key. -/
def SystemExchangeTrackingScope.quantityAt (scope : SystemExchangeTrackingScope) (key : String) :
    ℚ :=
  ((get? scope.positionsBySlot key).map (·.quantity)).getD 0

variable {upperCase}

lemma trackedSlot_pos {position : TrackedRow} {slot : TrackedPositionSlot}
    (h : trackedSlot upperCase position = some slot) : 0 < slot.quantity := by
  unfold trackedSlot at h
  split at h
  · cases h
  split at h
  · cases h
  dsimp only at h
  split at h
  · cases h
  · simp only [Option.ite_none_left_eq_some, not_or, not_not] at h
    obtain ⟨⟨-, hpos⟩, hslot⟩ := h
    cases hslot
    exact hpos

lemma venueSlot_pos {row : VenuePositionRow} {slot : TrackedPositionSlot}
    (h : venueSlot upperCase row = some slot) : 0 < slot.quantity := by
  unfold venueSlot at h
  simp only [Option.ite_none_left_eq_some, not_or, not_not] at h
  obtain ⟨⟨-, hpos⟩, hslot⟩ := h
  obtain ⟨direction, -, rfl⟩ := Option.map_eq_some_iff.mp hslot
  exact hpos

lemma quantityAt_trackPosition (scope : SystemExchangeTrackingScope) (position : TrackedRow)
    (symbol : String) (direction : Direction) :
    (trackPosition upperCase scope position).quantityAt (slotKey symbol direction) =
      scope.quantityAt (slotKey symbol direction) +
        trackedQuantity upperCase [position] symbol direction := by
  unfold trackPosition
  cases htrac : trackedSlot upperCase position with
  | none => simp [trackedQuantity, htrac]
  | some slot =>
    have hsing : trackedQuantity upperCase [position] symbol direction =
        if slot.isIn symbol direction then slot.quantity else 0 := by
      cases hin : slot.isIn symbol direction <;> simp [trackedQuantity, htrac, hin]
    rw [hsing]
    by_cases hkey : slotKey slot.symbol slot.direction = slotKey symbol direction
    · obtain ⟨rfl, rfl⟩ := slotKey_inj hkey
      have hin : slot.isIn slot.symbol slot.direction = true := by
        simp [TrackedPositionSlot.isIn]
      rw [if_pos hin]
      simp only [SystemExchangeTrackingScope.quantityAt, get?_put_self]
      cases get? scope.positionsBySlot (slotKey slot.symbol slot.direction) <;> rfl
    · have hout : slot.isIn symbol direction = false := by
        rw [TrackedPositionSlot.isIn, Bool.and_eq_false_iff, decide_eq_false_iff_not,
          decide_eq_false_iff_not, ← not_and_or]
        rintro ⟨rfl, rfl⟩
        exact hkey rfl
      rw [hout]
      simp [SystemExchangeTrackingScope.quantityAt, get?_put_of_ne _ _ (Ne.symm hkey)]

variable (upperCase) in
lemma quantityAt_build (positions : List TrackedRow) (symbol : String) (direction : Direction) :
    (buildSystemExchangeTrackingScope upperCase positions).quantityAt (slotKey symbol direction) =
      trackedQuantity upperCase positions symbol direction := by
  unfold buildSystemExchangeTrackingScope
  induction positions using reverseRecOn with
  | nil => rfl
  | append_singleton positions position ih =>
    rw [foldl_append, foldl_cons, foldl_nil, quantityAt_trackPosition, ih]
    simp [trackedQuantity, filterMap_append]

lemma trackedQuantity_nonneg (positions : List TrackedRow) (symbol : String)
    (direction : Direction) : 0 ≤ trackedQuantity upperCase positions symbol direction := by
  refine sum_nonneg fun quantity hqty => ?_
  obtain ⟨slot, hslot, rfl⟩ := mem_map.mp hqty
  obtain ⟨position, -, hpos⟩ := mem_filterMap.mp (mem_of_mem_filter hslot)
  exact (trackedSlot_pos hpos).le

/-- A venue row counts up to the tracked quantity. -/
lemma attributeRow_quantity (positions : List TrackedRow) (row : VenuePositionRow) (symbol : String)
    (direction : Direction) :
    attributedQuantity (attributeSystemTrackedExchangePositions upperCase [row]
        (some (buildSystemExchangeTrackingScope upperCase positions))) symbol direction =
      ((venueQuantities upperCase [row] symbol direction).map fun quantity =>
        min quantity (trackedQuantity upperCase positions symbol direction)).sum := by
  cases hslot : venueSlot upperCase row with
  | none =>
    simp [attributedQuantity, attributeSystemTrackedExchangePositions, attributeRow,
      venueQuantities, hslot]
  | some slot =>
    have htrac := quantityAt_build upperCase positions slot.symbol slot.direction
    rw [SystemExchangeTrackingScope.quantityAt] at htrac
    have hmax : max 0 (trackedQuantity upperCase positions slot.symbol slot.direction) =
        trackedQuantity upperCase positions slot.symbol slot.direction :=
      max_eq_right (trackedQuantity_nonneg ..)
    have hrow : attributeRow upperCase
        (some (buildSystemExchangeTrackingScope upperCase positions)) row =
        if ¬ 0 < min slot.quantity (trackedQuantity upperCase positions slot.symbol slot.direction)
        then none
        else some ⟨row, slot.symbol, slot.direction, slot.quantity,
          min slot.quantity (trackedQuantity upperCase positions slot.symbol slot.direction),
          min 1 (min slot.quantity
            (trackedQuantity upperCase positions slot.symbol slot.direction) / slot.quantity)⟩ := by
      simp only [attributeRow, hslot, Option.elim_some, htrac, hmax]
    unfold attributedQuantity attributeSystemTrackedExchangePositions venueQuantities
    rw [filterMap_cons, filterMap_cons, hrow, hslot]
    cases hin : slot.isIn symbol direction with
    | false =>
      have hout (quantity ratio : ℚ) : SystemAttributedExchangePosition.isIn
          ⟨row, slot.symbol, slot.direction, slot.quantity, quantity, ratio⟩ symbol direction =
            false := hin
      split_ifs
      · simp [hin, hout]
      · simp [hin]
    | true =>
      obtain ⟨hsym, hdir⟩ := Bool.and_eq_true_iff.mp hin
      obtain rfl := of_decide_eq_true hsym
      obtain rfl := of_decide_eq_true hdir
      have hnn : 0 ≤ min slot.quantity
          (trackedQuantity upperCase positions slot.symbol slot.direction) :=
        le_min (venueSlot_pos hslot).le (trackedQuantity_nonneg ..)
      have hout (quantity ratio : ℚ) : SystemAttributedExchangePosition.isIn
          ⟨row, slot.symbol, slot.direction, slot.quantity, quantity, ratio⟩ slot.symbol
            slot.direction = true := hin
      split_ifs with hzero
      · simp [hin, hout]
      · simpa [hin] using hnn.antisymm (not_lt.mp hzero)

lemma attributedQuantity_append (attributed others : List SystemAttributedExchangePosition)
    (symbol : String) (direction : Direction) :
    attributedQuantity (attributed ++ others) symbol direction =
      attributedQuantity attributed symbol direction +
        attributedQuantity others symbol direction := by
  simp [attributedQuantity]

variable (rows : List VenuePositionRow)

lemma attributedQuantity_eq (positions : List TrackedRow) (symbol : String)
    (direction : Direction) :
    attributedQuantity (attributeSystemTrackedExchangePositions upperCase rows
        (some (buildSystemExchangeTrackingScope upperCase positions))) symbol direction =
      ((venueQuantities upperCase rows symbol direction).map fun quantity =>
        min quantity (trackedQuantity upperCase positions symbol direction)).sum := by
  induction rows with
  | nil => rfl
  | cons row rows ih =>
    have hvenue : venueQuantities upperCase (row :: rows) symbol direction =
        venueQuantities upperCase [row] symbol direction ++
          venueQuantities upperCase rows symbol direction := by
      unfold venueQuantities
      rw [← map_append, ← filter_append, ← filterMap_append, singleton_append]
    rw [hvenue, map_append, sum_append, ← ih, ← attributeRow_quantity, ← attributedQuantity_append]
    unfold attributeSystemTrackedExchangePositions
    rw [← filterMap_append]
    rfl

lemma sum_min_le_iff {quantities : List ℚ} (hpos : ∀ quantity ∈ quantities, 0 < quantity)
    {bound : ℚ} (hbd : 0 < bound) :
    (quantities.map fun quantity => min quantity bound).sum ≤ bound ↔
      quantities.length ≤ 1 ∨ quantities.sum ≤ bound := by
  constructor
  · intro hle
    by_contra hnot
    obtain ⟨hlengt, hsum⟩ := not_or.mp hnot
    by_cases hlarge : ∃ quantity ∈ quantities, bound < quantity
    · -- One quantity fills the bound, and another one comes on top.
      obtain ⟨quantity, hmem, hlt⟩ := hlarge
      have hperm := perm_cons_erase hmem
      have hsplit := ((hperm.map fun quantity => min quantity bound).sum_eq)
      rw [map_cons, sum_cons, min_eq_right hlt.le] at hsplit
      have hrest :
          0 < ((quantities.erase quantity).map fun quantity => min quantity bound).sum := by
        refine sum_pos _ (fun least hleast => ?_) ?_
        · obtain ⟨other, hoth, rfl⟩ := mem_map.mp hleast
          exact lt_min (hpos other (mem_of_mem_erase hoth)) hbd
        · intro hnil
          have hlen := hperm.length_eq
          rw [map_eq_nil_iff.mp hnil] at hlen
          exact hlengt hlen.le
      linarith
    · have hsame : quantities.map (fun quantity => min quantity bound) = quantities := by
        refine (map_congr_left fun quantity hmem => ?_).trans (map_id _)
        exact min_eq_left (not_lt.mp fun hlt => hlarge ⟨quantity, hmem, hlt⟩)
      rw [hsame] at hle
      exact hsum hle
  · rintro (hlengt | hsum)
    · match quantities, hlengt with
      | [], _ => exact hbd.le
      | [quantity], _ => simp
    · refine le_trans (sum_le_sum fun quantity _ => min_le_left _ _) ?_
      simpa using hsum

variable (upperCase) in
lemma venueQuantities_pos (symbol : String) (direction : Direction) :
    ∀ quantity ∈ venueQuantities upperCase rows symbol direction, 0 < quantity := by
  intro quantity hqty
  obtain ⟨slot, hslot, rfl⟩ := mem_map.mp hqty
  obtain ⟨row, -, hrow⟩ := mem_filterMap.mp (mem_of_mem_filter hslot)
  exact venueSlot_pos hrow

lemma attributed_le_venue (positions : List TrackedRow) (symbol : String) (direction : Direction) :
    attributedQuantity (attributeSystemTrackedExchangePositions upperCase rows
        (some (buildSystemExchangeTrackingScope upperCase positions))) symbol direction ≤
      (venueQuantities upperCase rows symbol direction).sum := by
  rw [attributedQuantity_eq]
  refine (sum_le_sum fun quantity _ => min_le_left _ _).trans ?_
  rw [map_id']

lemma attributed_le_tracked_iff (positions : List TrackedRow) (symbol : String)
    (direction : Direction) :
    attributedQuantity (attributeSystemTrackedExchangePositions upperCase rows
        (some (buildSystemExchangeTrackingScope upperCase positions))) symbol direction ≤
        trackedQuantity upperCase positions symbol direction ↔
      trackedQuantity upperCase positions symbol direction = 0 ∨
        (venueQuantities upperCase rows symbol direction).length ≤ 1 ∨
        (venueQuantities upperCase rows symbol direction).sum ≤
          trackedQuantity upperCase positions symbol direction := by
  rw [attributedQuantity_eq]
  rcases (@trackedQuantity_nonneg upperCase positions symbol direction).eq_or_lt
    with hzero | hpos
  · refine iff_of_true ?_ (.inl hzero.symm)
    rw [← hzero]
    refine (sum_le_sum fun quantity _ => min_le_right quantity 0).trans ?_
    simp
  · rw [sum_min_le_iff (venueQuantities_pos upperCase rows symbol direction) hpos]
    exact (or_iff_right hpos.ne').symm

end Scope

variable (upperCase : String → String)

/-- **Attribution.** What is attributed stays within what is tracked and within what the venue
holds, in every slot, just if in every slot nothing is tracked, or the venue lists at most one
position, or all that the venue holds is tracked. -/
theorem attributedWithinTracked_iff (rows : List VenuePositionRow) (positions : List TrackedRow) :
    AttributedWithinTracked upperCase rows positions ↔ ∀ symbol direction,
      trackedQuantity upperCase positions symbol direction = 0 ∨
        (venueQuantities upperCase rows symbol direction).length ≤ 1 ∨
        (venueQuantities upperCase rows symbol direction).sum ≤
          trackedQuantity upperCase positions symbol direction := by
  constructor
  · intro h symbol direction
    exact (attributed_le_tracked_iff rows positions symbol direction).mp (h symbol direction).1
  · intro h symbol direction
    exact ⟨(attributed_le_tracked_iff rows positions symbol direction).mpr (h symbol direction),
      attributed_le_venue rows positions symbol direction⟩

/-- The venue lists a slot twice with one coin each, and one coin is tracked. -/
theorem not_attributedWithinTracked_twice : ¬ AttributedWithinTracked toUpperCase
      [{ symbol := some "BTC-USDT", positionSide := some "LONG", positionAmt := .number 1 },
        { symbol := some "BTC-USDT", positionSide := some "LONG", positionAmt := .number 1 }]
      [{ symbol := some "BTCUSDT", direction := some "long", status := some "open",
         executionMode := some "live", executedQuantity := .number 1 }] := by
  intro h
  have hslot := (h "BTCUSDT" .long).1
  revert hslot
  decide +kernel

end CtsEngine.TrackedExposure
