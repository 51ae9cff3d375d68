import CtsEngine.Block.Outcomes
import Mathlib.Algebra.BigOperators.Group.List.Lemmas
import Mathlib.Algebra.BigOperators.Ring.List
import Mathlib.Tactic.LinearCombination

/-!
# The result of one leg of a closed position

Three recorders split the settled result of a row over its legs.  The Block lanes take the leg's
share of the net settlement and correct it by the difference between the average entry of the row
and the leg's own entry (`settledLegPnl`).  The DCA lanes (`exactLegPnl`) and the live-set recorder
(`blockLegOutcome`) take the way from the leg's entry to the close price, which is the price of the
last fill, and charge the leg its share of the trading fees.
-/

namespace CtsEngine

open List Direction

/-- A DCA leg of a position row, as far as its result reads it. -/
structure DcaLeg where
  quantity : Option ℚ
  entryPrice : Option ℚ

/-- A closed row with what the DCA lanes and the live-set recorder read besides the Block lanes. -/
structure SettledRow extends ClosingPosition where
  closePrice : Option ℚ
  tradingFees : Option ℚ

/-- The lifetime quantity of the row, `totalExecutedQuantity || quantity || 0`. -/
def SettledRow.executedTotal (row : SettledRow) : ℚ :=
  numOrConst (numOr row.totalExecutedQuantity row.quantity) 0

/-- The average entry of the row, `averageExecutionPrice || entryPrice || 0`. -/
def SettledRow.averageEntry (row : SettledRow) : ℚ :=
  numOrConst (numOr row.averageExecutionPrice row.entryPrice) 0

/-- `Math.max(0, Number(position.tradingFees || 0))`. -/
def SettledRow.fees (row : SettledRow) : ℚ := max 0 (numOrConst row.tradingFees 0)

/-- The result of a leg from its own entry to the close price, with its share of the fees; the
result of the row where an entry, a close price or a quantity is missing. -/
def exactLegPnl (row : SettledRow) (direction : Direction) (pnl : ℚ) (leg : DcaLeg) : ℚ :=
  let quantity := numOrConst leg.quantity 0
  let entry := numOrConst leg.entryPrice 0
  let close := numOrConst row.closePrice 0
  let total := row.executedTotal
  if 0 < entry ∧ 0 < close ∧ 0 < total then
    (if direction = .long then close - entry else entry - close) * quantity -
      row.fees * quantity / total
  else pnl

/-! ### The live-set recorder -/

/-- `pnl` and `pnlPct` of a leg. -/
structure LegOutcome where
  pnl : ℚ
  pnlPct : ℚ

/-- `text(row.direction).toLowerCase()`, when it is a direction. -/
def SettledRow.recordedDirection (row : SettledRow) : Option Direction :=
  ofString (trim (strOrEmpty row.direction))

/-- The larger of the two quantities of the row. -/
def SettledRow.largestTotal (row : SettledRow) : ℚ :=
  max (numOrConst row.totalExecutedQuantity 0) (numOrConst row.quantity 0)

/-- What `blockLegOutcomes` records for one leg. -/
def blockLegOutcome (row : SettledRow) (leg : BlockLeg) : Option LegOutcome :=
  match row.recordedDirection with
  | none => none
  | some direction =>
    let close := numOrConst row.closePrice 0
    let total := row.largestTotal
    let entry := numOrConst leg.entryPrice 0
    let quantity := numOrConst leg.quantity 0
    if ¬ 0 < close ∨ ¬ 0 < total ∨ ¬ 0 < entry ∨ ¬ 0 < quantity then none
    else
      let pnl := (if direction = .long then close - entry else entry - close) * quantity -
        row.fees * quantity / total
      some ⟨pnl, pnl / (entry * quantity) * 100⟩

variable (market : PositionMarket)

/-- USD value of one unit of the market at a price. -/
def unitValue (price : ℚ) : ℚ := resolvePositionNotionalUsd market 1 price

lemma notional_eq {quantity price : ℚ} (hq : 0 < quantity) (hp : 0 < price) :
    resolvePositionNotionalUsd market quantity price = quantity * unitValue market price := by
  cases market with
  | crypto => simp [resolvePositionNotionalUsd, unitValue, hq]
  | forex pair lotSize rate =>
    have hpos : 0 < quantity * lotSize ↔ 0 < lotSize := by
      rw [mul_pos_iff_of_pos_left hq]
    simp only [resolvePositionNotionalUsd, unitValue, forexNotionalUsd, hq, hpos, one_mul,
      not_true_eq_false, false_or, zero_lt_one]
    split_ifs
    · rw [mul_zero]
    · ring
    · rw [mul_zero]

lemma unitValue_affine :
    ∃ a b : ℚ, ∀ price, 0 < price → unitValue market price = a * price + b := by
  cases market with
  | crypto =>
    refine ⟨1, 0, fun price hp => ?_⟩
    simp [unitValue, resolvePositionNotionalUsd, hp]
  | forex pair lotSize rate =>
    by_cases hlot : 0 < lotSize
    · rcases pair with _ | ⟨base, quote⟩
      · refine ⟨0, 0, fun price hp => ?_⟩
        simp [unitValue, resolvePositionNotionalUsd, forexNotionalUsd]
      · by_cases husd : quote = "USD"
        · refine ⟨lotSize, 0, fun price hp => ?_⟩
          simp [unitValue, resolvePositionNotionalUsd, forexNotionalUsd, forexQuoteToUsdRate, hp,
            hlot, husd]
        · by_cases hrate : 0 < rate.getD 0
          · refine ⟨lotSize * rate.getD 0, 0, fun price hp => ?_⟩
            simp [unitValue, resolvePositionNotionalUsd, forexNotionalUsd, forexQuoteToUsdRate, hp,
              hlot, husd, hrate]
            ring
          · by_cases hbase : base = "USD"
            · refine ⟨0, lotSize, fun price hp => ?_⟩
              simp [unitValue, resolvePositionNotionalUsd, forexNotionalUsd, forexQuoteToUsdRate,
                hp, hlot, husd, hrate, hbase]
              field_simp
            · refine ⟨0, 0, fun price hp => ?_⟩
              simp [unitValue, resolvePositionNotionalUsd, forexNotionalUsd, forexQuoteToUsdRate,
                husd, hrate, hbase]
    · refine ⟨0, 0, fun price hp => ?_⟩
      simp [unitValue, resolvePositionNotionalUsd, forexNotionalUsd, hlot]

/-! ### One leg -/

/-- `1` for a long row and `-1` for a short one. -/
def Direction.sign (direction : Direction) : ℚ := if direction = .long then 1 else -1

/-- A leg with its own entry that both recorders know. -/
structure PricedLeg (leg : BlockLeg) (dca : DcaLeg) (quantity entry : ℚ) : Prop where
  quantity_pos : 0 < quantity
  entry_pos : 0 < entry
  block_quantity : leg.quantity = some quantity
  block_entry : leg.entryPrice = some entry
  dca_quantity : dca.quantity = some quantity
  dca_entry : dca.entryPrice = some entry

/-- A settled close of a row that was executed at some average entry. -/
structure ExecutedClose (row : SettledRow) (direction : Direction) (pnl : ℚ) : Prop where
  settled : row.isSettledClose = true
  direction_eq : row.closeDirection = some direction
  pnl_eq : row.realizedPnL = some pnl
  total_pos : 0 < row.executedTotal
  entry_pos : 0 < row.averageEntry

lemma trim_of_direction {name : String} {direction : Direction}
    (h : ofString name = some direction) : trim name = name := by
  have hspace : ∀ c : Char, isJsSpace c = true → c.toLower ∉ "longshort".toList := by
    intro c hc
    by_cases hascii : c.toNat < 128
    · have hall : ∀ n : Fin 128, isJsSpace (Char.ofNat n) = true →
          (Char.ofNat n).toLower ∉ "longshort".toList := by decide
      exact ascii_of_all (P := fun c => isJsSpace c = true → c.toLower ∉ "longshort".toList) hall
        hascii hc
    · have hlow : c.toLower = c := by
        refine dif_neg ?_
        rintro ⟨-, hle⟩
        have hsmall : c.toNat ≤ 90 := UInt32.le_iff_toNat_le.mp hle
        omega
      rw [hlow]
      intro hmem
      have hall : ("longshort".toList.all fun d => d.toNat < 128) = true := by decide +kernel
      exact hascii (of_decide_eq_true (all_eq_true.mp hall c hmem))
  have hlett : ∀ c ∈ name.toList, c.toLower ∈ "longshort".toList := by
    intro c hc
    have hmem : c.toLower ∈ (toLowerCase name).toList := by
      rw [toLowerCase, String.toList_ofList]
      exact mem_map_of_mem hc
    unfold ofString at h
    split at h
    · rename_i hlong
      rw [hlong] at hmem
      have hall : ("long".toList.all ("longshort".toList.contains ·)) = true := by decide +kernel
      exact contains_iff_mem.mp (all_eq_true.mp hall _ hmem)
    · split at h
      · rename_i hshort
        rw [hshort] at hmem
        have hall : ("short".toList.all ("longshort".toList.contains ·)) = true := by
          decide +kernel
        exact contains_iff_mem.mp (all_eq_true.mp hall _ hmem)
      · cases h
  apply trim_of_forall
  intro c hc
  by_contra hblank
  exact hspace c (by simpa using hblank) (hlett c hc)

section OneLeg

variable {row : SettledRow} {direction : Direction} {pnl quantity entry : ℚ} {leg : BlockLeg}
  {dca : DcaLeg}

lemma numOrConst_of_pos {q : ℚ} (h : 0 < q) (d : ℚ) : numOrConst (some q) d = q := by
  simp [numOrConst, numOr, h.ne']

lemma settledLegPnl_eq (hrow : ExecutedClose row direction pnl)
    (hleg : PricedLeg leg dca quantity entry) :
    settledLegPnl row.toClosingPosition direction pnl leg =
      pnl * quantity / row.executedTotal + direction.sign * (quantity *
        (unitValue row.market row.averageEntry - unitValue row.market entry)) := by
  have htot := hrow.total_pos
  have havg := hrow.entry_pos
  unfold SettledRow.executedTotal at htot ⊢
  unfold SettledRow.averageEntry at havg ⊢
  unfold settledLegPnl sign
  rw [hleg.block_quantity, hleg.block_entry, numOrConst_of_pos hleg.quantity_pos,
    numOrConst_of_pos hleg.entry_pos]
  simp only [hleg.quantity_pos, hleg.entry_pos, havg, htot, and_self, if_true,
    notional_eq _ hleg.quantity_pos hleg.entry_pos, notional_eq _ hleg.quantity_pos havg]
  ring

/-- The way from the entry to the close price, less the leg's share of the fees. -/
def exitResult (row : SettledRow) (direction : Direction) (quantity entry total : ℚ) : ℚ :=
  direction.sign * (numOrConst row.closePrice 0 - entry) * quantity - row.fees * quantity / total

lemma sign_mul_sub (direction : Direction) (close entry : ℚ) :
    (if direction = .long then close - entry else entry - close) =
      direction.sign * (close - entry) := by
  unfold sign
  split
  · rw [one_mul]
  · ring

section

variable (hrow : ExecutedClose row direction pnl)

include hrow

lemma exactLegPnl_eq (hleg : PricedLeg leg dca quantity entry) :
    exactLegPnl row direction pnl dca =
      if 0 < numOrConst row.closePrice 0 then
        exitResult row direction quantity entry row.executedTotal
      else pnl := by
  unfold exactLegPnl exitResult
  rw [hleg.dca_quantity, hleg.dca_entry, numOrConst_of_pos hleg.quantity_pos,
    numOrConst_of_pos hleg.entry_pos]
  simp only [hleg.entry_pos, hrow.total_pos, true_and, and_true, sign_mul_sub]

/-- The direction field names the direction of the close unless the row has only a side. -/
lemma recordedDirection_eq :
    row.recordedDirection = if strOrEmpty row.direction = "" then none else some direction := by
  have hcl := hrow.direction_eq
  unfold ClosingPosition.closeDirection at hcl
  unfold SettledRow.recordedDirection
  split
  · rename_i hemp
    rw [hemp]
    decide
  · rename_i hname
    have hfield : strOrEmpty (strOr row.direction row.side) = strOrEmpty row.direction := by
      rcases hdir : row.direction with _ | name
      · simp [hdir, strOrEmpty] at hname
      · have hne : name ≠ "" := by simpa [hdir, strOrEmpty] using hname
        simp [strOr, hne]
    rw [hfield] at hcl
    rw [trim_of_direction hcl, hcl]

lemma largestTotal_eq : row.largestTotal = max row.executedTotal (numOrConst row.quantity 0) := by
  have hpos := hrow.total_pos
  unfold SettledRow.executedTotal at hpos ⊢
  unfold SettledRow.largestTotal
  rcases hexec : row.totalExecutedQuantity with _ | total
  · rw [hexec] at hpos
    have hzero : numOrConst none 0 = 0 := rfl
    rw [show numOr none row.quantity = row.quantity from rfl] at hpos ⊢
    rw [hzero, max_eq_right hpos.le, max_self]
  · rw [hexec] at hpos
    by_cases htot : total = 0
    · have hzero : numOrConst (some total) 0 = 0 := by simp [numOrConst, numOr, htot]
      have hqty : numOr (some total) row.quantity = row.quantity := by simp [numOr, htot]
      rw [hqty] at hpos ⊢
      rw [hzero, max_eq_right hpos.le, max_self]
    · have hnumOr : numOr (some total) row.quantity = some total := by simp [numOr, htot]
      rw [hnumOr]

lemma blockLegOutcome_eq (hleg : PricedLeg leg dca quantity entry) :
    (blockLegOutcome row leg).map LegOutcome.pnl =
      if strOrEmpty row.direction ≠ "" ∧ 0 < numOrConst row.closePrice 0 then
        some (exitResult row direction quantity entry row.largestTotal)
      else none := by
  have htot : 0 < row.largestTotal := by
    rw [largestTotal_eq hrow]
    exact lt_max_of_lt_left hrow.total_pos
  unfold blockLegOutcome
  rw [recordedDirection_eq hrow, hleg.block_quantity, hleg.block_entry,
    numOrConst_of_pos hleg.quantity_pos, numOrConst_of_pos hleg.entry_pos]
  by_cases hname : strOrEmpty row.direction = ""
  · simp [hname]
  · by_cases hcl : 0 < numOrConst row.closePrice 0
    · simp [hname, hcl, htot, hleg.quantity_pos, hleg.entry_pos, sign_mul_sub, exitResult]
    · simp [hname, hcl]

end

/-- The row left the whole position at its close price, as far as the leg can tell. -/
def ExitsAtClose (row : SettledRow) (direction : Direction) (pnl : ℚ) (leg : BlockLeg) : Prop :=
  strOrEmpty row.direction ≠ "" ∧ 0 < numOrConst row.closePrice 0 ∧
    (row.fees = 0 ∨ numOrConst row.quantity 0 ≤ row.executedTotal) ∧
    pnl + row.fees = direction.sign * row.executedTotal *
      (numOrConst row.closePrice 0 - unitValue row.market row.averageEntry -
        (numOrConst leg.entryPrice 0 - unitValue row.market (numOrConst leg.entryPrice 0)))

lemma feeShare_eq_iff (hrow : ExecutedClose row direction pnl) (hqty : 0 < quantity) :
    row.fees * quantity / row.largestTotal = row.fees * quantity / row.executedTotal ↔
      row.fees = 0 ∨ numOrConst row.quantity 0 ≤ row.executedTotal := by
  have htot := hrow.total_pos
  have hlarg : 0 < row.largestTotal := by
    rw [largestTotal_eq hrow]
    exact lt_max_of_lt_left htot
  rw [div_eq_div_iff hlarg.ne' htot.ne', ← sub_eq_zero, ← mul_sub, mul_eq_zero, mul_eq_zero,
    or_iff_left hqty.ne', sub_eq_zero, largestTotal_eq hrow, eq_comm (a := row.executedTotal),
    max_eq_left_iff]

/-- **One leg.** The three recorders agree on a leg exactly if its row left at the close price. -/
lemma legResult_agree_iff (hrow : ExecutedClose row direction pnl)
    (hleg : PricedLeg leg dca quantity entry) :
    (exactLegPnl row direction pnl dca = settledLegPnl row.toClosingPosition direction pnl leg ∧
      (blockLegOutcome row leg).map LegOutcome.pnl =
        some (settledLegPnl row.toClosingPosition direction pnl leg)) ↔
      ExitsAtClose row direction pnl leg := by
  have htot := hrow.total_pos
  have hqty := hleg.quantity_pos
  rw [exactLegPnl_eq hrow hleg, blockLegOutcome_eq hrow hleg, settledLegPnl_eq hrow hleg]
  unfold ExitsAtClose
  rw [hleg.block_entry, numOrConst_of_pos hleg.entry_pos]
  by_cases hname : strOrEmpty row.direction = ""
  · simp [hname]
  by_cases hcl : 0 < numOrConst row.closePrice 0
  · -- the results differ by the share of the leg in what the close price leaves unexplained
    have hdiff : exitResult row direction quantity entry row.executedTotal -
        (pnl * quantity / row.executedTotal + direction.sign * (quantity *
          (unitValue row.market row.averageEntry - unitValue row.market entry))) =
        quantity / row.executedTotal * (direction.sign * row.executedTotal *
          (numOrConst row.closePrice 0 - unitValue row.market row.averageEntry -
            (entry - unitValue row.market entry)) - (pnl + row.fees)) := by
      unfold exitResult
      field_simp
      ring
    have hsettl : exitResult row direction quantity entry row.executedTotal =
        pnl * quantity / row.executedTotal + direction.sign * (quantity *
          (unitValue row.market row.averageEntry - unitValue row.market entry)) ↔
        pnl + row.fees = direction.sign * row.executedTotal *
          (numOrConst row.closePrice 0 - unitValue row.market row.averageEntry -
            (entry - unitValue row.market entry)) := by
      rw [← sub_eq_zero, hdiff, mul_eq_zero, or_iff_right (div_pos hqty htot).ne',
        sub_eq_zero, eq_comm]
    have hfees : exitResult row direction quantity entry row.largestTotal =
        exitResult row direction quantity entry row.executedTotal ↔
        row.fees = 0 ∨ numOrConst row.quantity 0 ≤ row.executedTotal := by
      rw [← feeShare_eq_iff hrow hqty]
      exact sub_right_inj
    rw [if_pos hcl, if_pos ⟨hname, hcl⟩, Option.some.injEq, ← hsettl, ← hfees]
    constructor
    · rintro ⟨hexact, hlive⟩
      exact ⟨hname, hcl, hlive.trans hexact.symm, hexact⟩
    · rintro ⟨-, -, hlive, hexact⟩
      exact ⟨hexact, hlive.trans hexact⟩
  · simp [hcl]

end OneLeg

/-! ### All legs -/

def legQuantity (leg : BlockLeg) : ℚ := numOrConst leg.quantity 0

/-- Entry price of a leg. -/
def legEntry (leg : BlockLeg) : ℚ := numOrConst leg.entryPrice 0

/-- The results of the three recorders for the legs are the same and, if the legs partition the
executed quantity at the average entry of the row, add up to its settled result. -/
def LegResultsAgree (row : SettledRow) (direction : Direction) (pnl : ℚ)
    (legs : List (BlockLeg × DcaLeg)) : Prop :=
  (∀ l ∈ legs,
    exactLegPnl row direction pnl l.2 = settledLegPnl row.toClosingPosition direction pnl l.1 ∧
      (blockLegOutcome row l.1).map LegOutcome.pnl =
        some (settledLegPnl row.toClosingPosition direction pnl l.1)) ∧
  ((legs.map fun l => legQuantity l.1).sum = row.executedTotal →
    (legs.map fun l => legQuantity l.1 * legEntry l.1).sum = row.executedTotal * row.averageEntry →
    (legs.map fun l => settledLegPnl row.toClosingPosition direction pnl l.1).sum = pnl ∧
      (legs.map fun l => exactLegPnl row direction pnl l.2).sum = pnl ∧
      (legs.map fun l => ((blockLegOutcome row l.1).map LegOutcome.pnl).getD 0).sum = pnl)

section AllLegs

variable {row : SettledRow} {direction : Direction} {pnl : ℚ} {legs : List (BlockLeg × DcaLeg)}

lemma sum_unitValue {total average : ℚ} (havg : 0 < average) (hent : ∀ l ∈ legs, 0 < legEntry l.1)
    (hqtys : (legs.map fun l => legQuantity l.1).sum = total)
    (hents : (legs.map fun l => legQuantity l.1 * legEntry l.1).sum = total * average) :
    (legs.map fun l => legQuantity l.1 * unitValue market (legEntry l.1)).sum =
      total * unitValue market average := by
  obtain ⟨a, b, haffin⟩ := unitValue_affine market
  have hmap : (legs.map fun l => legQuantity l.1 * unitValue market (legEntry l.1)) =
      legs.map fun l => a * (legQuantity l.1 * legEntry l.1) + b * legQuantity l.1 := by
    apply map_congr_left
    intro l hl
    rw [haffin _ (hent l hl)]
    ring
  rw [hmap, sum_map_add, sum_map_mul_left, sum_map_mul_left, hents, hqtys, haffin _ havg]
  ring

lemma sum_settledLegPnl (hrow : ExecutedClose row direction pnl)
    (hlegs : ∀ l ∈ legs, ∃ quantity entry, PricedLeg l.1 l.2 quantity entry)
    (hqtys : (legs.map fun l => legQuantity l.1).sum = row.executedTotal)
    (hents : (legs.map fun l => legQuantity l.1 * legEntry l.1).sum =
      row.executedTotal * row.averageEntry) :
    (legs.map fun l => settledLegPnl row.toClosingPosition direction pnl l.1).sum = pnl := by
  have hent : ∀ l ∈ legs, 0 < legEntry l.1 := by
    intro l hl
    obtain ⟨quantity, entry, hleg⟩ := hlegs l hl
    rw [legEntry, hleg.block_entry, numOrConst_of_pos hleg.entry_pos]
    exact hleg.entry_pos
  have hmap : (legs.map fun l => settledLegPnl row.toClosingPosition direction pnl l.1) =
      legs.map fun l => (pnl / row.executedTotal +
          direction.sign * unitValue row.market row.averageEntry) * legQuantity l.1 +
        -direction.sign * (legQuantity l.1 * unitValue row.market (legEntry l.1)) := by
    apply map_congr_left
    intro l hl
    obtain ⟨quantity, entry, hleg⟩ := hlegs l hl
    rw [settledLegPnl_eq hrow hleg, legQuantity, legEntry, hleg.block_quantity, hleg.block_entry,
      numOrConst_of_pos hleg.quantity_pos, numOrConst_of_pos hleg.entry_pos]
    ring
  rw [hmap, sum_map_add, sum_map_mul_left, sum_map_mul_left, hqtys,
    sum_unitValue row.market hrow.entry_pos hent hqtys hents]
  have htot := hrow.total_pos.ne'
  field_simp
  ring

/-- **Leg results.** For a settled close of an executed row the three recorders agree on every leg,
with results that add up to the settlement when the legs partition it, if and only if every leg sees
the row left at its close price. -/
theorem legResults_agree_iff (row : SettledRow) (direction : Direction) (pnl : ℚ)
    (hrow : ExecutedClose row direction pnl) (legs : List (BlockLeg × DcaLeg))
    (hlegs : ∀ l ∈ legs, ∃ quantity entry, PricedLeg l.1 l.2 quantity entry) :
    LegResultsAgree row direction pnl legs ↔ ∀ l ∈ legs, ExitsAtClose row direction pnl l.1 := by
  constructor
  · rintro ⟨hagree, -⟩ l hl
    obtain ⟨quantity, entry, hleg⟩ := hlegs l hl
    exact (legResult_agree_iff hrow hleg).mp (hagree l hl)
  · intro hexits
    have hagree : ∀ l ∈ legs, exactLegPnl row direction pnl l.2 =
          settledLegPnl row.toClosingPosition direction pnl l.1 ∧
        (blockLegOutcome row l.1).map LegOutcome.pnl =
          some (settledLegPnl row.toClosingPosition direction pnl l.1) := by
      intro l hl
      obtain ⟨quantity, entry, hleg⟩ := hlegs l hl
      exact (legResult_agree_iff hrow hleg).mpr (hexits l hl)
    refine ⟨hagree, fun hquantities hentries => ?_⟩
    have hsum := sum_settledLegPnl hrow hlegs hquantities hentries
    refine ⟨hsum, ?_, ?_⟩
    · rw [map_congr_left fun l hl => (hagree l hl).1]
      exact hsum
    · have hlive : ∀ l ∈ legs, ((blockLegOutcome row l.1).map LegOutcome.pnl).getD 0 =
          settledLegPnl row.toClosingPosition direction pnl l.1 := by
        intro l hl
        rw [(hagree l hl).2, Option.getD_some]
      rw [map_congr_left hlive]
      exact hsum

end AllLegs

/-- A long row of two units, entered at an average of 100 and left by the given exit. -/
def exitRow (pnl closePrice fees : ℚ) (partials : List PartialExecutionMark) : SettledRow where
  connectionId := "x02"
  id := "p1"
  symbol := "BTCUSDT"
  direction := some "long"
  side := none
  status := "closed"
  realizedPnL := some pnl
  realizedPnlComplete := some true
  pnlAccountingComplete := none
  setKey := some "btc:a"
  parentSetKey := none
  accumulatedSetKeys := []
  blockLegs := []
  totalExecutedQuantity := some 2
  quantity := some 2
  averageExecutionPrice := some 100
  entryPrice := some 100
  partialOrderExecutions := partials
  market := .crypto
  closePrice := some closePrice
  tradingFees := some fees

/-- A leg of one unit at a price, as both recorders hold it. -/
def unitLeg (entry : ℚ) : BlockLeg × DcaLeg :=
  ({ setKey := some "btc:a#block:1", lifecycleKey := none, blockCount := some 1, quantity := some 1
     entryPrice := some entry, incrementSteps := some 2, effectiveIncrementStep := some 1
     pauseCount := some 1, targetSatisfied := some true, addedAt := some 10 },
   { quantity := some 1, entryPrice := some entry })

lemma pricedLeg_unitLeg {entry : ℚ} (h : 0 < entry) :
    PricedLeg (unitLeg entry).1 (unitLeg entry).2 1 entry :=
  ⟨one_pos, h, rfl, rfl, rfl, rfl⟩

theorem legResults_agree_iff_oneExit :
    LegResultsAgree (exitRow 38 120 2 []) .long 38 [unitLeg 90, unitLeg 110] := by
  have hrow : ExecutedClose (exitRow 38 120 2 []) .long 38 :=
    ⟨by decide, by decide, rfl, by decide +kernel, by decide +kernel⟩
  have hlegs : ∀ l ∈ [unitLeg 90, unitLeg 110], ∃ quantity entry,
      PricedLeg l.1 l.2 quantity entry := by
    intro l hl
    rcases mem_pair.mp hl with rfl | rfl
    · exact ⟨1, 90, pricedLeg_unitLeg (by norm_num)⟩
    · exact ⟨1, 110, pricedLeg_unitLeg (by norm_num)⟩
  apply (legResults_agree_iff _ _ _ hrow _ hlegs).mpr
  intro l hl
  rcases mem_pair.mp hl with rfl | rfl
  · exact ⟨by decide, by decide +kernel, .inr (by decide +kernel), by decide +kernel⟩
  · exact ⟨by decide, by decide +kernel, .inr (by decide +kernel), by decide +kernel⟩

/-- One unit left at 120 and the last one at 90: the row gained 10, half of it with either leg, and
both other recorders book a loss of 10 for the leg. -/
theorem legResults_differ : ExecutedClose (exitRow 10 90 0 [⟨some 1, none, some 50⟩]) .long 10 ∧
      PricedLeg (unitLeg 100).1 (unitLeg 100).2 1 100 ∧
      settledLegPnl (exitRow 10 90 0 [⟨some 1, none, some 50⟩]).toClosingPosition .long 10
        (unitLeg 100).1 = 5 ∧
      exactLegPnl (exitRow 10 90 0 [⟨some 1, none, some 50⟩]) .long 10 (unitLeg 100).2 = -10 ∧
      (blockLegOutcome (exitRow 10 90 0 [⟨some 1, none, some 50⟩]) (unitLeg 100).1).map
        LegOutcome.pnl = some (-10) ∧
      ¬ LegResultsAgree (exitRow 10 90 0 [⟨some 1, none, some 50⟩]) .long 10
        [unitLeg 100, unitLeg 100] := by
  have hblock : settledLegPnl (exitRow 10 90 0 [⟨some 1, none, some 50⟩]).toClosingPosition .long
      10 (unitLeg 100).1 = 5 := by decide +kernel
  have hdca : exactLegPnl (exitRow 10 90 0 [⟨some 1, none, some 50⟩]) .long 10
      (unitLeg 100).2 = -10 := by decide +kernel
  refine ⟨⟨by decide, by decide, rfl, by decide +kernel, by decide +kernel⟩,
    pricedLeg_unitLeg (by norm_num), hblock, hdca, by decide +kernel, ?_⟩
  rintro ⟨hagree, -⟩
  have hsame := (hagree (unitLeg 100) (mem_cons_self ..)).1
  rw [hblock, hdca] at hsame
  norm_num at hsame

end CtsEngine
