import CtsEngine.History.PosHistory
import CtsEngine.TradeHistory.StoredPosition

/-!
# What the history takes for a trade

`classifyLocalTradeHistorySnapshot` of `lib/trade-history.ts` decides of one stored position whether
the history lists it as a trade, as a trade whose accounting is not resolved, or not at all.
-/

open List Option

namespace CtsEngine

inductive LocalTradeHistorySnapshotDisposition
  | normalizedTrade
  | excludedNonTrade
  | unresolvedTrade
deriving DecidableEq

/-- The `reason` of a classification. -/
inductive SnapshotReason
  | normalized
  | nonTerminalStatus
  | duplicateBookkeeping
  | noExecutedQuantity
  | missingIdentity
  | missingEntryPrice
  | invalidDirection
  | missingExitAndPnl
  | missingUsdConversion
  | venueAccountingIncomplete
  | venueAccountingRequired
deriving DecidableEq

structure LocalTradeHistorySnapshotClassification where
  disposition : LocalTradeHistorySnapshotDisposition
  reason : SnapshotReason
deriving DecidableEq

/-- The characters that `.` of a regular expression does not match. -/
def isLineTerminator (c : Char) : Bool := [0x0A, 0x0D, 0x2028, 0x2029].contains c.toNat

/-- `first.*second` is found in the characters. -/
def includesInLine (first second cs : List Char) : Bool :=
  cs.tails.any fun tail =>
    first.isPrefixOf tail &&
      decide (second <:+: (tail.drop first.length).takeWhile fun c => !isLineTerminator c)

/-- `/duplicate_slot|duplicate.*prun|bookkeeping/i`. -/
def isBookkeepingReason (reason : String) : Bool :=
  let lower := toLowerCase reason
  includes "duplicate_slot" lower || includesInLine "duplicate".toList "prun".toList lower.toList ||
    includes "bookkeeping" lower

/-- `/paper|simulat|live_trade disabled/i`. -/
def isSimulatedReason (reason : String) : Bool :=
  let lower := toLowerCase reason
  includes "paper" lower || includes "simulat" lower || includes "live_trade disabled" lower

/-- `normalizeSymbol`. -/
def normalizeHistorySymbol (symbol : Option String) : String :=
  String.ofList ((toUpperCase (trim (strOrEmpty symbol))).toList.filter fun c => c ≠ '-' && c ≠ '_')

def normalizeTimestamp (value : StoredValue) : ℚ :=
  if value.finite ≤ 0 then 0
  else if value.finite < 10000000000 then value.finite * 1000
  else value.finite

/-- `requiresVenueAccountingForPricePair` for the environment `exchange`. -/
def requiresVenueAccountingForPricePair (entryPrice exitPrice openedAt closedAt : ℚ) : Bool :=
  let priceRatio := max entryPrice exitPrice / max (min entryPrice exitPrice) (1 / 2 ^ 52)
  decide (0 < entryPrice ∧ 0 < exitPrice ∧ 0 < openedAt ∧ openedAt ≤ closedAt ∧
    3 / 2 ≤ priceRatio ∧ closedAt - openedAt ≤ 24 * 60 * 60 * 1000)

namespace StoredPosition

/-- The status is one that the history lists. -/
def hasHistoryStatus (row : StoredPosition) : Bool :=
  ["closed", "cancelled", "canceled"].contains (toLowerCase (strOrEmpty row.status))

/-- The row was closed to keep the books, not by a trade. -/
def isBookkeeping (row : StoredPosition) : Bool :=
  isBookkeepingReason ((row.closeReason <|> row.statusReason).getD "")

/-- The row has an id and a symbol. -/
def hasIdentity (row : StoredPosition) : Bool :=
  decide (strOrEmpty row.id ≠ "") && decide (normalizeHistorySymbol row.symbol ≠ "")

/-- One fill of `totalFillQuantity`. -/
def fillSize (fill : StoredFill) : ℚ :=
  (([fill.quantity, fill.qty].map StoredValue.positive).find? (· ≠ 0)).getD
    fill.executedQty.positive

def totalFillQuantity (fills : List StoredFill) : ℚ := (fills.map fillSize).sum

/-- `quantity` of the history. -/
def historyQuantity (row : StoredPosition) : ℚ :=
  (([row.executedQuantity, row.filledQuantity, row.quantity, row.size].map
    StoredValue.positive).find? (· ≠ 0)).getD (totalFillQuantity row.fills.parsed)

/-- `entryPrice` of the history. -/
def historyEntryPrice (row : StoredPosition) : ℚ :=
  firstHistoryPositive [row.averageExecutionPrice, row.entryPrice, row.entryPriceSnake,
    (row.fills.parsed.head?.map (·.price)).getD .missing]

/-- The environment of the row is `simulated`. -/
def isSimulatedEnvironment (row : StoredPosition) : Bool :=
  normalized row.environment = "simulated" || normalized row.executionMode = "simulation" ||
    ["simulation", "simulated", "paper"].contains (normalized row.mode) ||
    row.simulated = .flag true ||
    row.simulated = .text "1" ||
    isSimulatedReason ((strOr row.statusReason row.closeReason).getD "")

/-- `accountingPending` of the history. -/
def historyAccountingPending (row : StoredPosition) : Bool :=
  !row.isSimulatedEnvironment && row.accountingPending

/-- `exitPrice` of the history. -/
def historyExitPrice (row : StoredPosition) (direction : Direction) : ℚ :=
  let pnlFields := [row.grossPnl, row.realizedPnL, row.realizedPnl, row.pnl]
  let hasStoredPnl := !row.historyAccountingPending &&
    pnlFields.any fun value => value ≠ .missing && value ≠ .null && value ≠ .text ""
  let pnlPerUnit := firstHistoryFinite pnlFields / row.historyQuantity
  let recoveredExitPrice :=
    if hasStoredPnl then
      match direction with
      | .short => row.historyEntryPrice - pnlPerUnit
      | .long => row.historyEntryPrice + pnlPerUnit
    else 0
  firstHistoryPositive [row.closePrice, row.exitPrice, row.currentPrice, row.currentPriceSnake,
    .number recoveredExitPrice]

/-- The classification of a trade whose quantity, entry price and direction are known. -/
def classifyAccounting (row : StoredPosition) (direction : Direction) :
    LocalTradeHistorySnapshotClassification :=
  let exitPrice := row.historyExitPrice direction
  if exitPrice ≤ 0 ∧ (row.isSimulatedEnvironment ∨ row.closeOrderId = "") then
    ⟨.unresolvedTrade, .missingExitAndPnl⟩
  else if row.historyAccountingPending then ⟨.unresolvedTrade, .venueAccountingIncomplete⟩
  else if exitPrice ≤ 0 then ⟨.unresolvedTrade, .missingExitAndPnl⟩
  else if row.forex ∧ !row.quoteToUsdRate exitPrice then ⟨.unresolvedTrade, .missingUsdConversion⟩
  else if !row.isSimulatedEnvironment ∧
      requiresVenueAccountingForPricePair row.historyEntryPrice exitPrice
        (normalizeTimestamp ((row.createdAt.orElse row.openedAt).orElse row.timestamp))
        (normalizeTimestamp ((row.closedAt.orElse row.closeTimestamp).orElse row.updatedAt)) then
    ⟨.unresolvedTrade, .venueAccountingRequired⟩
  else ⟨.normalizedTrade, .normalized⟩

end StoredPosition

open StoredPosition in
def classifyLocalTradeHistorySnapshot (row : StoredPosition) :
    LocalTradeHistorySnapshotClassification :=
  if !row.hasHistoryStatus then ⟨.excludedNonTrade, .nonTerminalStatus⟩
  else if row.isBookkeeping then ⟨.excludedNonTrade, .duplicateBookkeeping⟩
  else if !row.hasIdentity then ⟨.unresolvedTrade, .missingIdentity⟩
  else if row.historyQuantity ≤ 0 then ⟨.excludedNonTrade, .noExecutedQuantity⟩
  else if row.historyEntryPrice ≤ 0 then ⟨.unresolvedTrade, .missingEntryPrice⟩
  else
    match [row.direction, row.side].findSome? normalizeTradeDirection with
    | none => ⟨.unresolvedTrade, .invalidDirection⟩
    | some direction => row.classifyAccounting direction

end CtsEngine

/-! ## Whether the history and the ledger agree -/

namespace CtsEngine

open StoredValue

namespace StoredPosition

/-- One of the quantities that the history reads is not zero. -/
def HasHistoryQuantity (row : StoredPosition) : Prop :=
  (∃ value ∈ [row.executedQuantity, row.filledQuantity, row.quantity, row.size], value.finite ≠ 0) ∨
  ∃ fill ∈ row.fills.parsed, ∃ value ∈ [fill.quantity, fill.qty, fill.executedQty], value.finite ≠ 0

/-- The history lists the row. -/
def IsListed (row : StoredPosition) : Prop :=
  row.hasHistoryStatus = true ∧ row.isBookkeeping = false ∧
    (row.hasIdentity = false ∨ row.HasHistoryQuantity)

def HasOwnFill (row : StoredPosition) : Prop :=
  0 < row.executedQuantity.finite ∨ 0 < row.filledQuantity.finite

/-- The venue says a quantity, and the row does not. -/
def HasVenueQuantity (row : StoredPosition) : Prop :=
  row.executedQuantity.finiteNumeric = none ∧ row.exchangeQuantity ≠ none

/-- A quantity is requested, and nothing says what was executed of it. -/
def HasLegacyQuantity (row : StoredPosition) : Prop :=
  row.hasExecutionLedger = false ∧
    executionProvingStatuses.contains (normalized row.status) = true ∧ 0 < row.quantity.finite

/-- The venue or the books of the row confirm a quantity. -/
def HasConfirmedFill (row : StoredPosition) : Prop :=
  0 < row.totalExecutedQuantity.finite ∨ 0 < row.closedQuantity.finite ∨
    0 < row.executedQuantity.finite ∨ (∃ fill ∈ row.fills.array, fill.quantity.finite ≠ 0) ∨
    row.HasVenueQuantity ∨ row.HasLegacyQuantity

/-- The executed and the filled quantity are explicitly zero, and there are no fills. -/
def IsUnfilled (row : StoredPosition) : Prop :=
  row.executedQuantity.finiteNumeric = some 0 ∧ row.filledQuantity.finiteNumeric = some 0 ∧
    row.fills.parsed = []

end StoredPosition

open StoredPosition

/-- The history and the ledger agree on a row: what the history takes for a trade, resolved or not,
is a result of the ledger, and a row without any fill is neither. -/
structure AgreesOnTrade (row : StoredPosition) (connectionId : String) : Prop where
  trade : (classifyLocalTradeHistorySnapshot row).disposition ≠ .excludedNonTrade →
    classifyRow row.ledgerRow connectionId = .executed
  nonTrade : row.IsUnfilled →
    (classifyLocalTradeHistorySnapshot row).disposition = .excludedNonTrade ∧
      ∃ reason, classifyRow row.ledgerRow connectionId = .neverTraded reason

/-- When they agree. -/
structure AgreesWhen (row : StoredPosition) : Prop where
  listed : row.IsListed → row.getLivePositionSource = .real ∧
    (normalized row.status = "closed" ∨ row.HasOwnFill) ∧ row.HasConfirmedFill
  requested : row.IsUnfilled → row.hasHistoryStatus = true → row.isBookkeeping = false →
    row.hasIdentity = true ∧ row.quantity.finite = 0 ∧ row.size.finite = 0
  lifetime : row.IsUnfilled → row.getLivePositionSource = .real → normalized row.status = "closed" →
    row.totalExecutedQuantity.finite ≤ 0 ∧ row.closedQuantity.finite ≤ 0

/-! ## Quantities -/

namespace StoredValue

variable {value : StoredValue}

lemma finite_of_finiteNumeric {q : ℚ} (h : value.finiteNumeric = some q) : value.finite = q := by
  unfold finiteNumeric at h
  split at h
  · cases h
  · cases h
  · cases h
  · rw [finite, h, getD_some]

lemma finite_of_finiteNumeric_none (h : value.finiteNumeric = none) : value.finite = 0 := by
  unfold finiteNumeric at h
  split at h
  · rfl
  · rfl
  · rfl
  · rw [finite, h, getD_none]

lemma exists_finiteNumeric_pos :
    (∃ q, value.finiteNumeric = some q ∧ 0 < q) ↔ 0 < value.finite := by
  constructor
  · rintro ⟨q, hq, hpos⟩
    rwa [finite_of_finiteNumeric hq]
  · intro hpos
    cases hnumer : value.finiteNumeric with
    | none =>
      rw [finite_of_finiteNumeric_none hnumer] at hpos
      exact absurd hpos (lt_irrefl 0)
    | some q =>
      rw [finite_of_finiteNumeric hnumer] at hpos
      exact ⟨q, rfl, hpos⟩

lemma absolutePositiveNumeric_getD (value : StoredValue) :
    value.absolutePositiveNumeric.getD 0 = |value.finite| := by
  cases hnumer : value.finiteNumeric with
  | none =>
    rw [absolutePositiveNumeric, hnumer, finite_of_finiteNumeric_none hnumer, abs_zero]
    rfl
  | some q =>
    rw [absolutePositiveNumeric, hnumer, finite_of_finiteNumeric hnumer, filter_some]
    by_cases hpos : 0 < |q|
    · rw [if_pos (decide_eq_true hpos)]
      rfl
    · rw [if_neg (by simpa using hpos)]
      exact le_antisymm (abs_nonneg q) (not_lt.mp hpos)

end StoredValue

lemma firstPositiveNumeric_pos {values : List (Option ℚ)} :
    0 < (firstPositiveNumeric values).getD 0 ↔ ∃ q, some q ∈ values ∧ 0 < q := by
  cases hfst : firstPositiveNumeric values with
  | none =>
    refine iff_of_false (lt_irrefl 0) ?_
    rintro ⟨q, hq, hpos⟩
    have hnone := findSome?_eq_none_iff.mp hfst (some q) hq
    rw [filter_some, if_pos (decide_eq_true hpos)] at hnone
    cases hnone
  | some first =>
    obtain ⟨value, hval, hfilt⟩ := exists_of_findSome?_eq_some hfst
    obtain ⟨hsome, hpos⟩ := filter_eq_some_iff.mp hfilt
    exact iff_of_true (of_decide_eq_true hpos) ⟨first, hsome ▸ hval, of_decide_eq_true hpos⟩

lemma sum_map_pos_iff {α : Type} {f : α → ℚ} (hf : ∀ x, 0 ≤ f x) (l : List α) :
    0 < (l.map f).sum ↔ ∃ x ∈ l, f x ≠ 0 := by
  induction l with
  | nil => simp
  | cons x l ih =>
    have hnn : 0 ≤ (l.map f).sum := sum_nonneg fun y hy => by
      obtain ⟨x, -, rfl⟩ := mem_map.mp hy
      exact hf x
    rw [map_cons, sum_cons, exists_mem_cons_iff, ← ih]
    constructor
    · intro hpos
      by_cases hx : f x = 0
      · rw [hx, zero_add] at hpos
        exact .inr hpos
      · exact .inl hx
    · rintro (hx | hl)
      · exact add_pos_of_pos_of_nonneg (lt_of_le_of_ne (hf x) (Ne.symm hx)) hnn
      · exact add_pos_of_nonneg_of_pos (hf x) hl

variable (row : StoredPosition)

lemma fillQuantity_pos :
    0 < row.fillQuantity ↔ ∃ fill ∈ row.fills.array, fill.quantity.finite ≠ 0 := by
  unfold fillQuantity
  simp only [absolutePositiveNumeric_getD]
  rw [sum_map_pos_iff (f := fun fill : StoredFill => |fill.quantity.finite|)
    fun fill => abs_nonneg fill.quantity.finite]
  simp only [ne_eq, abs_eq_zero]

lemma fillSize_pos (fill : StoredFill) :
    fillSize fill ≠ 0 ↔ ∃ value ∈ [fill.quantity, fill.qty, fill.executedQty],
      value.finite ≠ 0 := by
  simp only [fillSize, map_cons, map_nil, find?_cons, find?_nil,
    StoredValue.positive, mem_cons, not_mem_nil, or_false, exists_eq_or_imp,
    exists_eq_left]
  by_cases hquant : fill.quantity.finite = 0
  · by_cases hqty : fill.qty.finite = 0 <;> simp [hquant, hqty]
  · simp [hquant]

lemma fillSize_nonneg (fill : StoredFill) : 0 ≤ fillSize fill := by
  unfold fillSize
  cases hfind : ([fill.quantity, fill.qty].map StoredValue.positive).find? (· ≠ 0) with
  | none => exact abs_nonneg _
  | some q =>
    obtain ⟨value, -, rfl⟩ := mem_map.mp (mem_of_find?_eq_some hfind)
    exact abs_nonneg _

lemma totalFillQuantity_pos (fills : List StoredFill) :
    0 < totalFillQuantity fills ↔ ∃ fill ∈ fills, ∃ value ∈ [fill.quantity, fill.qty,
      fill.executedQty], value.finite ≠ 0 := by
  rw [totalFillQuantity, sum_map_pos_iff fillSize_nonneg]
  simp only [fillSize_pos]

lemma historyQuantity_pos : 0 < row.historyQuantity ↔ row.HasHistoryQuantity := by
  rw [HasHistoryQuantity, ← totalFillQuantity_pos, historyQuantity]
  cases hfind : ([row.executedQuantity, row.filledQuantity, row.quantity, row.size].map
      StoredValue.positive).find? (· ≠ 0) with
  | none =>
    have hzero : ¬∃ value ∈ [row.executedQuantity, row.filledQuantity, row.quantity, row.size],
        value.finite ≠ 0 := by
      rintro ⟨value, hval, hne⟩
      have := find?_eq_none.mp hfind value.positive (mem_map_of_mem hval)
      simp [StoredValue.positive, hne] at this
    rw [or_iff_right hzero, getD_none]
  | some q =>
    obtain ⟨value, hval, rfl⟩ := mem_map.mp (mem_of_find?_eq_some hfind)
    have hne : value.positive ≠ 0 := by simpa using find?_some hfind
    have hpos : 0 < |value.finite| := lt_of_le_of_ne (abs_nonneg _) (Ne.symm hne)
    exact iff_of_true hpos (.inl ⟨value, hval, abs_pos.mp hpos⟩)

/-! ## What is listed, and what is a result -/

/-- **The history.** A row is listed exactly when the history does not exclude it. -/
lemma isListed_iff :
    (classifyLocalTradeHistorySnapshot row).disposition ≠ .excludedNonTrade ↔ row.IsListed := by
  unfold classifyLocalTradeHistorySnapshot IsListed
  split
  · next hstat => simp_all
  · next hstat =>
    have hstat' : row.hasHistoryStatus = true := by simpa using hstat
    split
    · next hbook => simp [hbook]
    · next hbook =>
      have hbook' : row.isBookkeeping = false := by simpa using hbook
      split
      · next hiden =>
        have hiden' : row.hasIdentity = false := by simpa using hiden
        simp [hstat', hbook', hiden']
      · next hiden =>
        have hiden' : ¬row.hasIdentity = false := by simpa using hiden
        rw [or_iff_right hiden', ← historyQuantity_pos]
        split
        · next hqty => exact iff_of_false (fun h => h rfl) fun h => absurd h.2.2 hqty.not_gt
        · next hqty =>
          refine iff_of_true ?_ ⟨hstat', hbook', not_le.mp hqty⟩
          split
          · simp
          · split
            · simp
            · unfold classifyAccounting
              dsimp only
              split_ifs <;> simp

lemma currentQuantity_pos : (∃ q, row.currentQuantity = some q ∧ 0 < q) ↔
      0 < row.executedQuantity.finite ∨ row.HasVenueQuantity := by
  unfold currentQuantity HasVenueQuantity
  cases hnumer : row.executedQuantity.finiteNumeric with
  | none =>
    rw [finite_of_finiteNumeric_none hnumer, or_iff_right (lt_irrefl 0)]
    constructor
    · rintro ⟨q, hq, -⟩
      exact ⟨rfl, fun hnone => by rw [hnone] at hq; cases hq⟩
    · rintro ⟨-, hne⟩
      obtain ⟨q, hq⟩ := ne_none_iff_exists'.mp hne
      refine ⟨q, hq, ?_⟩
      obtain ⟨r, hr, rfl⟩ := map_eq_some_iff.mp hq
      exact of_decide_eq_true (filter_eq_some_iff.mp hr).2
  | some q =>
    rw [finite_of_finiteNumeric hnumer]
    constructor
    · rintro ⟨r, hr, hpos⟩
      cases hr
      rcases lt_max_iff.mp hpos with h | h
      · exact absurd h (lt_irrefl 0)
      · exact .inl h
    · rintro (hpos | ⟨hnone, -⟩)
      · exact ⟨_, rfl, lt_max_of_lt_right hpos⟩
      · cases hnone

lemma currentQuantity_nonneg : 0 ≤ row.currentQuantity.getD 0 := by
  unfold currentQuantity
  split
  · cases hvenue : row.exchangeQuantity with
    | none => exact le_rfl
    | some q =>
      obtain ⟨r, -, rfl⟩ := map_eq_some_iff.mp hvenue
      exact abs_nonneg r
  · exact le_max_left 0 _

lemma currentQuantity_getD_pos :
    0 < row.currentQuantity.getD 0 ↔ 0 < row.executedQuantity.finite ∨ row.HasVenueQuantity := by
  rw [← currentQuantity_pos]
  cases row.currentQuantity with
  | none => simp
  | some q => simp

lemma firstPositiveNumeric_finiteNumeric (value : StoredValue) :
    firstPositiveNumeric [value.finiteNumeric] =
      if 0 < value.finite then some value.finite else none := by
  cases hnumer : value.finiteNumeric with
  | none =>
    rw [finite_of_finiteNumeric_none hnumer, if_neg (lt_irrefl 0)]
    rfl
  | some q =>
    rw [finite_of_finiteNumeric hnumer, firstPositiveNumeric, findSome?_cons, filter_some]
    by_cases hpos : 0 < q <;> simp [hpos]

lemma pos_of_eq_ite {x q : ℚ} (h : some q = if 0 < x then some x else none) : 0 < x := by
  by_contra hle
  rw [if_neg hle] at h
  cases h

lemma reconstructed_pos {closed : Prop} [Decidable closed] {x y : ℚ} (hx : 0 ≤ x) (hy : 0 ≤ y) :
    0 < (if closed then max x y else x + y) ↔ 0 < x ∨ 0 < y := by
  split
  · exact lt_max_iff
  · constructor
    · intro hpos
      by_contra hneit
      obtain ⟨hx', hy'⟩ := not_or.mp hneit
      linarith
    · rintro (hpos | hpos) <;> linarith

lemma legacyQuantity_pos : (∃ q, row.legacyQuantity = some q ∧ 0 < q) ↔ row.HasLegacyQuantity := by
  unfold legacyQuantity HasLegacyQuantity
  split
  · next hlegac =>
    obtain ⟨hledg, hstat⟩ := Bool.and_eq_true_iff.mp hlegac
    rw [exists_finiteNumeric_pos, and_iff_right ((Bool.not_eq_true' _).mp hledg),
      and_iff_right hstat]
  · next hlegac =>
    refine iff_of_false (by rintro ⟨q, hq, -⟩; cases hq) ?_
    rintro ⟨hledg, hstat, -⟩
    exact hlegac (by rw [hledg, hstat]; rfl)

/-- **The confirmed quantity.** Of the whole lifetime of a row a quantity is confirmed exactly when
its books, its fills or the venue say one, or nothing says what became of the requested one. -/
lemma resolveConfirmedPositionQuantity_pos :
    0 < (row.resolveConfirmedPositionQuantity true).getD 0 ↔ row.HasConfirmedFill := by
  have hcur := currentQuantity_nonneg row
  have hpos := currentQuantity_getD_pos row
  have hsome := currentQuantity_pos row
  unfold resolveConfirmedPositionQuantity HasConfirmedFill
  rw [if_pos rfl, firstPositiveNumeric_pos, firstPositiveNumeric_finiteNumeric,
    firstPositiveNumeric_finiteNumeric, ← fillQuantity_pos, ← legacyQuantity_pos]
  have hclos : (0 : ℚ) ≤ (if 0 < row.closedQuantity.finite then some row.closedQuantity.finite
      else none).getD 0 := by
    split
    · next hpos => exact hpos.le
    · exact le_rfl
  have hclosed_pos : 0 < (if 0 < row.closedQuantity.finite then some row.closedQuantity.finite
      else none).getD 0 → 0 < row.closedQuantity.finite := by
    split
    · exact id
    · exact fun h => absurd h (lt_irrefl 0)
  simp only [mem_cons, not_mem_nil, or_false, some.injEq]
  constructor
  · intro ⟨q, hq, hq_pos⟩
    rcases hq with hq | hq | hq | hq | hq | hq
    · exact .inl (pos_of_eq_ite hq)
    · rw [hq] at hq_pos
      rcases (reconstructed_pos hcur hclos).mp hq_pos with hnow | hthen
      · rcases hpos.mp hnow with hexec | hvenue
        · exact .inr (.inr (.inl hexec))
        · exact .inr (.inr (.inr (.inr (.inl hvenue))))
      · exact .inr (.inl (hclosed_pos hthen))
    · rw [hq] at hq_pos
      exact .inr (.inr (.inr (.inl hq_pos)))
    · exact .inr (.inl (pos_of_eq_ite hq))
    · rcases hsome.mp ⟨q, hq.symm, hq_pos⟩ with hexec | hvenue
      · exact .inr (.inr (.inl hexec))
      · exact .inr (.inr (.inr (.inr (.inl hvenue))))
    · exact .inr (.inr (.inr (.inr (.inr ⟨q, hq.symm, hq_pos⟩))))
  · rintro (htot | hthen | hexec | hfills | hvenue | ⟨q, hq, hq_pos⟩)
    · refine ⟨row.totalExecutedQuantity.finite, .inl ?_, htot⟩
      rw [if_pos htot]
    · refine ⟨row.closedQuantity.finite, .inr (.inr (.inr (.inl ?_))), hthen⟩
      rw [if_pos hthen]
    · obtain ⟨q, hq, hq_pos⟩ := hsome.mpr (.inl hexec)
      exact ⟨q, .inr (.inr (.inr (.inr (.inl hq.symm)))), hq_pos⟩
    · exact ⟨row.fillQuantity, .inr (.inr (.inl rfl)), hfills⟩
    · obtain ⟨q, hq, hq_pos⟩ := hsome.mpr (.inr hvenue)
      exact ⟨q, .inr (.inr (.inr (.inr (.inl hq.symm)))), hq_pos⟩
    · exact ⟨q, .inr (.inr (.inr (.inr (.inr hq.symm)))), hq_pos⟩

/-- **The ledger.** A terminal row that is neither foreign nor simulated is a result exactly when it
was closed or has a fill of its own, and was executed at the venue; else it never traded. -/
lemma classifyRow_terminal {row : LedgerRow} {connectionId : String}
    (hterm : isLedgerTerminal (toLowerCase (text row.status)) = true)
    (hfor : classifyRow row connectionId ≠ .foreign)
    (hsimul : classifyRow row connectionId ≠ .simulated) :
    (classifyRow row connectionId = .executed ↔ (toLowerCase (text row.status) = "closed" ∨
        0 < row.executedQuantity.getD 0 ∨ 0 < row.filledQuantity.getD 0) ∧
      row.executedReal = true) ∧
    (classifyRow row connectionId ≠ .executed →
      ∃ reason, classifyRow row connectionId = .neverTraded reason) := by
  have hcnts : (!(decide (toLowerCase (text row.status) ≠ "closed") &&
      !(decide (0 < row.executedQuantity.getD 0) || decide (0 < row.filledQuantity.getD 0))) &&
      row.executedReal) = true ↔
      (toLowerCase (text row.status) = "closed" ∨
        0 < row.executedQuantity.getD 0 ∨ 0 < row.filledQuantity.getD 0) ∧
      row.executedReal = true := by
    rw [Bool.and_eq_true, Bool.not_and, Bool.not_not, Bool.or_eq_true, Bool.or_eq_true,
      Bool.not_eq_true', decide_eq_false_iff_not, not_not, decide_eq_true_iff, decide_eq_true_iff]
  revert hfor hsimul
  unfold classifyRow
  dsimp only
  rw [hterm]
  split
  · exact fun h => absurd rfl h
  · split
    · exact fun _ h => absurd rfl h
    · intro _ _
      simp only [Bool.not_true, Bool.false_and, Bool.false_eq_true, if_false, Bool.true_and,
        if_true]
      split
      · next h => exact ⟨iff_of_true rfl (hcnts.mp h), fun hne => absurd rfl hne⟩
      · next h => exact ⟨iff_of_false nofun (mt hcnts.mpr h), fun _ => ⟨_, rfl⟩⟩

lemma ledgerRow_executedReal : row.ledgerRow.executedReal = true ↔
      row.getLivePositionSource = .real ∧ row.HasConfirmedFill := by
  simp only [ledgerRow, isExecutedRealExchangePosition, Bool.and_eq_true, decide_eq_true_iff,
    resolveConfirmedPositionQuantity_pos]

lemma isListed_of_isUnfilled {row : StoredPosition} (h : row.IsUnfilled) :
    ¬row.IsListed ↔ (row.hasHistoryStatus = true → row.isBookkeeping = false →
      row.hasIdentity = true ∧ row.quantity.finite = 0 ∧ row.size.finite = 0) := by
  obtain ⟨hexec, hfill, hfills⟩ := h
  have hqty : row.HasHistoryQuantity ↔ row.quantity.finite ≠ 0 ∨ row.size.finite ≠ 0 := by
    rw [HasHistoryQuantity, hfills]
    simp [finite_of_finiteNumeric hexec, finite_of_finiteNumeric hfill]
  rw [IsListed, hqty]
  constructor
  · intro hnot hstat hbook
    have hneit := fun hcase => hnot ⟨hstat, hbook, hcase⟩
    rw [imp_false, not_or, not_or, not_not, not_not, Bool.not_eq_false] at hneit
    exact hneit
  · rintro hnone ⟨hstat, hbook, hcase⟩
    obtain ⟨hiden, hzero, hsize⟩ := hnone hstat hbook
    rcases hcase with hcase | hcase | hcase
    · rw [hiden] at hcase
      cases hcase
    · exact hcase hzero
    · exact hcase hsize

lemma hasConfirmedFill_of_isUnfilled {row : StoredPosition} (h : row.IsUnfilled) :
    row.HasConfirmedFill ↔
      0 < row.totalExecutedQuantity.finite ∨ 0 < row.closedQuantity.finite := by
  obtain ⟨hexec, -, hfills⟩ := h
  have harray : row.fills.array = [] := by
    cases hkind : row.fills with
    | list fills =>
      rw [hkind] at hfills
      exact hfills
    | missing => rfl
    | text parsed => rfl
  have hledg : row.hasExecutionLedger = true := by
    simp [hasExecutionLedger, hexec]
  rw [HasConfirmedFill, harray, finite_of_finiteNumeric hexec]
  simp [HasVenueQuantity, HasLegacyQuantity, hexec, hledg]

/-- **`classifyLocalTradeHistorySnapshot` and `classifyRow`.** On a terminal row that is neither
foreign nor simulated the history and the ledger agree exactly when what the history lists was
executed at the venue, and a row without any fill has neither a requested nor a lifetime quantity.
-/
theorem agreesOnTrade_iff (row : StoredPosition) (connectionId : String)
    (hterminal : isLedgerTerminal (normalized row.status) = true)
    (hforeign : classifyRow row.ledgerRow connectionId ≠ .foreign)
    (hsimulated : classifyRow row.ledgerRow connectionId ≠ .simulated) :
    AgreesOnTrade row connectionId ↔ AgreesWhen row := by
  have hstatus : toLowerCase (text row.ledgerRow.status) = normalized row.status := rfl
  rw [← hstatus] at hterminal
  obtain ⟨hexecuted, hnever⟩ := classifyRow_terminal hterminal hforeign hsimulated
  have hresult : classifyRow row.ledgerRow connectionId = .executed ↔
      row.getLivePositionSource = .real ∧ (normalized row.status = "closed" ∨ row.HasOwnFill) ∧
        row.HasConfirmedFill := by
    rw [hexecuted, ledgerRow_executedReal, hstatus, and_left_comm]
    rfl
  have hnonTrade : (∃ reason, classifyRow row.ledgerRow connectionId = .neverTraded reason) ↔
      classifyRow row.ledgerRow connectionId ≠ .executed :=
    ⟨fun ⟨reason, h⟩ => by rw [h]; exact nofun, hnever⟩
  constructor
  · rintro ⟨htrade, hnone⟩
    refine ⟨fun hlisted => hresult.mp (htrade ((isListed_iff row).mpr hlisted)), ?_, ?_⟩
    · intro hunfilled
      have hexcluded := mt (isListed_iff row).mpr (not_not.mpr (hnone hunfilled).1)
      exact (isListed_of_isUnfilled hunfilled).mp hexcluded
    · intro hunfilled hreal hclosed
      have hnot := mt hresult.mpr (hnonTrade.mp (hnone hunfilled).2)
      rw [hasConfirmedFill_of_isUnfilled hunfilled] at hnot
      by_contra hsome
      refine hnot ⟨hreal, .inl hclosed, ?_⟩
      rcases not_and_or.mp hsome with h | h
      · exact .inl (not_le.mp h)
      · exact .inr (not_le.mp h)
  · intro h
    refine ⟨fun htrade => hresult.mpr (h.listed ((isListed_iff row).mp htrade)), ?_⟩
    intro hunfilled
    have hexcluded := (isListed_of_isUnfilled hunfilled).mpr (h.requested hunfilled)
    refine ⟨not_not.mp (mt (isListed_iff row).mp hexcluded), hnonTrade.mpr fun hcase => ?_⟩
    obtain ⟨hreal, hclosed, hconfirmed⟩ := hresult.mp hcase
    rcases hclosed with hclosed | hown
    · obtain ⟨htotal, hthen⟩ := h.lifetime hunfilled hreal hclosed
      rcases (hasConfirmedFill_of_isUnfilled hunfilled).mp hconfirmed with h' | h'
      · exact absurd h' (not_lt.mpr htotal)
      · exact absurd h' (not_lt.mpr hthen)
    · rcases hown with h' | h'
      · rw [finite_of_finiteNumeric hunfilled.1] at h'
        exact lt_irrefl 0 h'
      · rw [finite_of_finiteNumeric hunfilled.2.1] at h'
        exact lt_irrefl 0 h'

/-- A closed position that asked for one unit, and the quantity that was executed. -/
def requestedPosition (executedQuantity : String) : StoredPosition where
  id := some "p1"
  symbol := some "BTCUSDT"
  direction := some "long"
  status := some "closed"
  executionMode := some "live"
  executedQuantity := .text executedQuantity
  filledQuantity := .text executedQuantity
  quantity := .text "1"
  averageExecutionPrice := .text "100"
  closePrice := .text "101"
  createdAt := .number 1790000000000
  closedAt := .number 1790000600000

theorem agreesOnTrade_requestedPosition : AgreesOnTrade (requestedPosition "1") "c1" :=
  (agreesOnTrade_iff (requestedPosition "1") "c1" (by decide +kernel) (by decide +kernel)
    (by decide +kernel)).mpr
    { listed := fun _ => ⟨by decide +kernel, .inl (by decide +kernel),
        .inr (.inr (.inl (by decide +kernel)))⟩
      requested := fun h => absurd h.1 (by decide +kernel)
      lifetime := fun h => absurd h.1 (by decide +kernel) }

/-- The requested quantity of a position that nothing was executed of makes it a trade of the
history; the ledger has it as one that never traded. -/
theorem classifyLocalTradeHistorySnapshot_requested :
    classifyLocalTradeHistorySnapshot (requestedPosition "0") = ⟨.normalizedTrade, .normalized⟩ ∧
      classifyRow (requestedPosition "0").ledgerRow "c1" = .neverTraded "closed/-" ∧
      (requestedPosition "0").IsUnfilled ∧ ¬AgreesOnTrade (requestedPosition "0") "c1" := by
  have hhistory : classifyLocalTradeHistorySnapshot (requestedPosition "0") =
      ⟨.normalizedTrade, .normalized⟩ := by decide +kernel
  have hledger : classifyRow (requestedPosition "0").ledgerRow "c1" = .neverTraded "closed/-" := by
    decide +kernel
  refine ⟨hhistory, hledger, ⟨by decide +kernel, by decide +kernel, rfl⟩, fun h => ?_⟩
  have hexecuted := h.trade (by rw [hhistory]; decide)
  rw [hledger] at hexecuted
  cases hexecuted

end CtsEngine
