import CtsEngine.History.PosHistory
import CtsEngine.TradeHistory.StoredPosition
import Mathlib.Algebra.BigOperators.Ring.List

/-!
# Which Sets a settled position is booked into

`liveOutcomeSetShares` of `lib/live-set-outcomes.ts`.  A row is booked into every Set of its
lineage: a key `a#b#c` stands for the Sets `a`, `a#b` and `a#b#c`.  The members of a combined row
split its result by their ratios; every other Set carries the whole of it.  A Set of a Block leg is
booked with the leg's own result.
-/

namespace CtsEngine

open List Keyed

/-- A Block leg of a row. -/
structure OutcomeLeg where
  setKey : Option String := none
  lifecycleKey : Option String := none
  entryPrice : StoredValue := .missing
  quantity : StoredValue := .missing

/-- A stored position with what the Set outcomes read of it. -/
structure OutcomeRow extends StoredPosition where
  setKey : Option String := none
  parentSetKey : Option String := none
  /-- The array that the field holds or whose text it holds, else empty. -/
  accumulatedSetKeys : List (Option String) := []
  combinedPosCounts : StoredValue := .missing
  /-- The entries of the record that the field holds or whose text it holds, else empty. -/
  posCountsSetRatios : List (String × StoredValue) := []
  /-- The array that the field holds, else empty. -/
  blockLegs : List OutcomeLeg := []
  tradingFees : StoredValue := .missing
  positionCostPct : StoredValue := .missing

namespace OutcomeRow

/-! ## The lineage -/

/-- `withAncestors`: the Sets of a key. -/
def withAncestors (key : String) : List String :=
  let parts := key.toList.splitOn '#'
  ((List.range parts.length).map fun index =>
    String.ofList (['#'].intercalate (parts.take (index + 1)))).filter (· ≠ "")

/-- `truthy`. -/
def isTruthy : StoredValue → Bool
  | .flag value => value
  | .number value => decide (value = 1)
  | .text value => value = "true" || value = "1"
  | _ => false

def stringList (values : List (Option String)) : List String := (values.map text).filter (· ≠ "")

variable (row : OutcomeRow)

/-- `numberRecord`, looked up with `|| 0`. -/
def ratio (key : String) : ℚ :=
  max 0 (((get? row.posCountsSetRatios key).getD .missing).finite)

/-- The row splits its result among the Sets that accumulated into it. -/
def isCombined : Bool :=
  isTruthy row.combinedPosCounts && decide (stringList row.accumulatedSetKeys ≠ [])

def members : List String := (stringList row.accumulatedSetKeys).eraseDups

/-- The part of a member of a combined row. -/
def memberPart (key : String) : ℚ :=
  let total := (row.members.map row.ratio).sum
  if 0 < total then row.ratio key / total else 1 / row.members.length

/-- The keys that carry the result, with the part that each of them carries. -/
def carriers : List (String × ℚ) :=
  if row.isCombined then row.members.map fun key => (key, row.memberPart key)
  else (((text row.setKey :: stringList row.accumulatedSetKeys).filter (· ≠ "")).eraseDups).map
    fun key => (key, 1)

/-- The parent carries the whole. -/
def parentCarrier : List (String × ℚ) :=
  if text row.parentSetKey = "" then [] else [(text row.parentSetKey, 1)]

/-- `add` for one Set of a key. -/
def addShare (share : ℚ) (shares : List (String × ℚ)) (lineageKey : String) : List (String × ℚ) :=
  put shares lineageKey (min 1 ((get? shares lineageKey).getD 0 + share))

/-- `add`. -/
def addShares (shares : List (String × ℚ)) (carrier : String × ℚ) : List (String × ℚ) :=
  (withAncestors carrier.1).foldl (addShare carrier.2) shares

def liveOutcomeSetShares : List (String × ℚ) :=
  (row.carriers ++ row.parentCarrier).foldl addShares []

/-! ## Results -/

/-- What one Set is booked with, before its share is taken: `StrategyPositionCloseOutcome`. -/
structure CloseOutcome where
  pnl : ℚ
  pnlPct : Option ℚ
  positionCostPct : ℚ
  drawdownMinutes : ℚ
deriving DecidableEq

/-- A leg's result, for a row with a direction, a close price and a quantity. -/
def legOutcome (direction : Direction) (close total fees : ℚ) (leg : OutcomeLeg) : Option (ℚ × ℚ) :=
  let entry := leg.entryPrice.finite
  let quantity := leg.quantity.finite
  if 0 < entry ∧ 0 < quantity then
    let move := match direction with
      | .long => close - entry
      | .short => entry - close
    let pnl := move * quantity - fees * quantity / total
    some (pnl, pnl / (entry * quantity) * 100)
  else none

def blockLegOutcomes : List (String × ℚ × ℚ) :=
  let close := row.closePrice.finite
  let total := max row.totalExecutedQuantity.finite row.quantity.finite
  let fees := max 0 row.tradingFees.finite
  let direction := toLowerCase (text row.direction)
  let side : Option Direction :=
    if direction = "long" then some .long else if direction = "short" then some .short else none
  match side with
  | none => []
  | some side =>
    if 0 < close ∧ 0 < total then
      row.blockLegs.foldl (fun out leg =>
        match legOutcome side close total fees leg with
        | none => out
        | some value =>
          ([text leg.setKey, text leg.lifecycleKey].filter (· ≠ "")).foldl
            (fun out key => put out key value) out) []
    else []

/-- `left || right` on numbers. -/
def orNumber (left right : ℚ) : ℚ := if left = 0 then right else left

def settledLiveSetOutcome (connectionId : String) (notionalUsd : Option ℚ) : Option CloseOutcome :=
  if connectionId = "" ∨ toLowerCase (text row.status) ≠ "closed" ∨
      classifyRow row.ledgerRow connectionId ≠ .executed then none
  else row.settledPnl.map fun pnl =>
    let quantity := max (max row.totalExecutedQuantity.finite row.closedQuantity.finite)
      row.executedQuantity.finite
    let entry := orNumber row.averageExecutionPrice.finite row.entryPrice.finite
    let notional := if 0 < notionalUsd.getD 0 then notionalUsd.getD 0 else quantity * entry
    let openedAt := (row.createdAt.or row.timestamp).finite
    let closedAt := (row.closedAt.or row.updatedAt).finite
    { pnl := pnl
      pnlPct := if 0 < notional then some (pnl / notional * 100) else none
      positionCostPct :=
        if 0 < row.positionCostPct.finite then row.positionCostPct.finite else 1 / 10
      drawdownMinutes := if 0 < openedAt ∧ openedAt < closedAt then (closedAt - openedAt) / 60000
        else 0 }

variable (outcome : CloseOutcome)

def strategyOutcomeRecord : String :=
  let ratio := if 0 < outcome.positionCostPct then outcome.pnlPct else none
  "|".intercalate [toFixedText 6 outcome.pnl, "0", toFixedText 3 (max 0 outcome.drawdownMinutes),
    ratio.elim "" fun pnlPct => toFixedText 8 pnlPct,
    ratio.elim "" fun _ => toFixedText 8 outcome.positionCostPct]

/-- What a Set is booked with: the result of its leg, or its share of the row's. -/
def bookedOutcome (setKey : String) (share : ℚ) : CloseOutcome :=
  match get? row.blockLegOutcomes setKey with
  | some (pnl, pnlPct) => { outcome with pnl := pnl, pnlPct := some pnlPct }
  | none => { outcome with pnl := outcome.pnl * share }

/-- `entries`: the Sets with their records. -/
def outcomeEntries : List (String × String) :=
  row.liveOutcomeSetShares.map fun entry =>
    (entry.1, strategyOutcomeRecord (row.bookedOutcome outcome entry.1 entry.2))

end OutcomeRow

namespace OutcomeRow

/-- The parts of the keys at or below a Set. -/
def lineageShare (carriers : List (String × ℚ)) (setKey : String) : ℚ :=
  (carriers.map fun carrier => if setKey ∈ withAncestors carrier.1 then carrier.2 else 0).sum

/-- How the shares of a row are made. -/
structure SharesSplit (row : OutcomeRow) : Prop where
  share : ∀ entry ∈ row.liveOutcomeSetShares,
    entry.2 = min 1 (lineageShare (row.carriers ++ row.parentCarrier) entry.1)
  combined : row.isCombined = true → (row.carriers.map Prod.snd).sum = 1
  whole : row.isCombined = false → ∀ entry ∈ row.liveOutcomeSetShares, entry.2 = 1

lemma intercalate_append {α : Type} (sep : List α) {front back : List (List α)}
    (hfront : front ≠ []) (hback : back ≠ []) :
    sep.intercalate (front ++ back) = sep.intercalate front ++ sep ++ sep.intercalate back := by
  induction front with
  | nil => exact absurd rfl hfront
  | cons part front ih =>
    by_cases hlast : front = []
    · subst hlast
      rw [singleton_append, intercalate_cons_of_ne_nil hback, intercalate_singleton]
    · rw [cons_append, intercalate_cons_of_ne_nil (by simp [hlast]), ih hlast,
        intercalate_cons_of_ne_nil hlast]
      simp only [append_assoc]

lemma length_intercalate_take_lt {parts : List (List Char)} {i j : ℕ} (hij : i < j)
    (hj : j < parts.length) :
    (['#'].intercalate (parts.take (i + 1))).length <
      (['#'].intercalate (parts.take (j + 1))).length := by
  have hsplit : parts.take (j + 1) = parts.take (i + 1) ++ (parts.drop (i + 1)).take (j - i) := by
    rw [← take_add]
    congr 1
    omega
  have hfront : parts.take (i + 1) ≠ [] := by
    intro h
    have hlen := congrArg List.length h
    rw [length_take, length_nil] at hlen
    omega
  have hback : (parts.drop (i + 1)).take (j - i) ≠ [] := by
    intro h
    have hlen := congrArg List.length h
    rw [length_take, length_drop, length_nil] at hlen
    omega
  rw [hsplit, intercalate_append _ hfront hback, length_append, length_append, length_singleton]
  omega

lemma nodup_withAncestors (key : String) : (withAncestors key).Nodup := by
  refine List.Nodup.filter _ ((nodup_range).map_on ?_)
  intro i hi j hj heq
  have hlists := String.ofList_injective heq
  rw [mem_range] at hi hj
  rcases lt_trichotomy i j with hlt | hsame | hlt
  · exact absurd (congrArg List.length hlists) (length_intercalate_take_lt hlt hj).ne
  · exact hsame
  · exact absurd (congrArg List.length hlists) (length_intercalate_take_lt hlt hi).ne'

/-! ## Shares -/

lemma keysUnique_addShares {shares : List (String × ℚ)} (huniq : KeysUnique shares)
    (carrier : String × ℚ) : KeysUnique (addShares shares carrier) := by
  unfold addShares
  induction withAncestors carrier.1 generalizing shares with
  | nil => exact huniq
  | cons lineageKey rest ih => exact ih (huniq.put ..)

lemma keysUnique_foldl_addShares (carriers : List (String × ℚ)) :
    KeysUnique (carriers.foldl addShares []) := by
  induction carriers using reverseRecOn with
  | nil => exact nodup_nil
  | append_singleton carriers carrier ih =>
    rw [foldl_append]
    exact keysUnique_addShares ih carrier

lemma get?_addShares (shares : List (String × ℚ)) (carrier : String × ℚ) (setKey : String) :
    get? (addShares shares carrier) setKey =
      if setKey ∈ withAncestors carrier.1 then
        some (min 1 ((get? shares setKey).getD 0 + carrier.2))
      else get? shares setKey := by
  have hnodup := nodup_withAncestors carrier.1
  unfold addShares
  revert hnodup
  induction withAncestors carrier.1 generalizing shares with
  | nil => exact fun _ => rfl
  | cons lineageKey rest ih =>
    intro hnodup
    obtain ⟨hfst, hrest⟩ := nodup_cons.mp hnodup
    rw [foldl_cons, ih _ hrest]
    by_cases hsame : setKey = lineageKey
    · subst hsame
      rw [if_neg hfst, if_pos (mem_cons_self ..), addShare, get?_put_self]
    · rw [addShare, get?_put_of_ne _ _ hsame]
      simp only [mem_cons, hsame, false_or]

lemma lineageShare_append (front back : List (String × ℚ)) (setKey : String) :
    lineageShare (front ++ back) setKey = lineageShare front setKey + lineageShare back setKey := by
  rw [lineageShare, map_append, sum_append]
  rfl

variable {carriers : List (String × ℚ)}

lemma lineageShare_nonneg (hnn : ∀ carrier ∈ carriers, 0 ≤ carrier.2) (setKey : String) :
    0 ≤ lineageShare carriers setKey := by
  refine sum_nonneg fun part hpart => ?_
  obtain ⟨carrier, hcarr, rfl⟩ := mem_map.mp hpart
  split
  · exact hnn carrier hcarr
  · exact le_rfl

lemma le_lineageShare {carrier : String × ℚ} {setKey : String}
    (hnn : ∀ carrier ∈ carriers, 0 ≤ carrier.2) (hcarr : carrier ∈ carriers)
    (hmem : setKey ∈ withAncestors carrier.1) : carrier.2 ≤ lineageShare carriers setKey := by
  obtain ⟨front, back, rfl⟩ := append_of_mem hcarr
  have hfront := lineageShare_nonneg (fun other hoth => hnn other (mem_append_left _ hoth)) setKey
  have hback := lineageShare_nonneg (fun other hoth =>
    hnn other (mem_append_right _ (mem_cons_of_mem _ hoth))) setKey
  have hcons : lineageShare (carrier :: back) setKey = carrier.2 + lineageShare back setKey := by
    rw [lineageShare, map_cons, if_pos hmem]
    rfl
  rw [lineageShare_append]
  linarith

/-- **Shares.** What has been added up for a Set is the sum of the parts, at most the whole. -/
lemma getD_foldl_addShares (hnn : ∀ carrier ∈ carriers, 0 ≤ carrier.2) (setKey : String) :
    (get? (carriers.foldl addShares []) setKey).getD 0 =
      min 1 (lineageShare carriers setKey) := by
  induction carriers using reverseRecOn with
  | nil => exact (min_eq_right zero_le_one).symm
  | append_singleton carriers carrier ih =>
    have hold := ih fun other hoth => hnn other (mem_append_left _ hoth)
    have hpart : 0 ≤ carrier.2 := hnn carrier (mem_concat_self)
    have hsing : lineageShare [carrier] setKey =
        if setKey ∈ withAncestors carrier.1 then carrier.2 else 0 := by
      rw [lineageShare, map_singleton, sum_singleton]
    rw [foldl_append, foldl_cons, foldl_nil, get?_addShares, lineageShare_append, hsing]
    split
    · rw [Option.getD_some, hold]
      rcases le_total 1 (lineageShare carriers setKey) with hle | hle
      · rw [min_eq_left hle, min_eq_left (by linarith), min_eq_left (by linarith)]
      · rw [min_eq_right hle]
    · rw [hold, add_zero]

lemma mem_withAncestors_of_mem_foldl {entry : String × ℚ}
    (h : entry ∈ carriers.foldl addShares []) :
    ∃ carrier ∈ carriers, entry.1 ∈ withAncestors carrier.1 := by
  have hsome : (get? (carriers.foldl addShares []) entry.1).isSome = true :=
    isSome_get?_iff.mpr (mem_map_of_mem h)
  clear h
  induction carriers using reverseRecOn with
  | nil => cases hsome
  | append_singleton carriers carrier ih =>
    rw [foldl_append, foldl_cons, foldl_nil, get?_addShares] at hsome
    split at hsome
    · next hmem => exact ⟨carrier, mem_concat_self, hmem⟩
    · obtain ⟨other, hoth, hmem⟩ := ih hsome
      exact ⟨other, mem_append_left _ hoth, hmem⟩

lemma ratio_nonneg (row : OutcomeRow) (key : String) : 0 ≤ row.ratio key := le_max_left ..

lemma carriers_nonneg (row : OutcomeRow) :
    ∀ carrier ∈ row.carriers ++ row.parentCarrier, 0 ≤ carrier.2 := by
  intro carrier hcarr
  rcases mem_append.mp hcarr with hcarr | hcarr
  · unfold carriers at hcarr
    split at hcarr
    · obtain ⟨key, -, rfl⟩ := mem_map.mp hcarr
      dsimp only [memberPart]
      split
      · next htot => exact div_nonneg (row.ratio_nonneg key) htot.le
      · positivity
    · obtain ⟨key, -, rfl⟩ := mem_map.mp hcarr
      exact zero_le_one
  · unfold parentCarrier at hcarr
    split at hcarr
    · cases hcarr
    · rw [mem_singleton.mp hcarr]
      exact zero_le_one

lemma sum_carriers_of_isCombined {row : OutcomeRow} (h : row.isCombined = true) :
    (row.carriers.map Prod.snd).sum = 1 := by
  have hmems : row.members ≠ [] := by
    intro hnone
    obtain ⟨-, hlist⟩ := Bool.and_eq_true_iff.mp h
    obtain ⟨key, hkey⟩ := exists_mem_of_ne_nil _ (of_decide_eq_true hlist)
    have hmem : key ∈ row.members := mem_eraseDups.mpr hkey
    rw [hnone] at hmem
    cases hmem
  have hlen : (row.members.length : ℚ) ≠ 0 := by
    exact_mod_cast (length_pos_iff.mpr hmems).ne'
  rw [carriers, if_pos h, map_map]
  by_cases htot : 0 < (row.members.map row.ratio).sum
  · have hpart : (Prod.snd ∘ fun key => (key, row.memberPart key)) =
        fun key => row.ratio key * ((row.members.map row.ratio).sum)⁻¹ := by
      funext key
      rw [Function.comp_apply, memberPart, if_pos htot, div_eq_mul_inv]
    rw [hpart, sum_map_mul_right]
    exact mul_inv_cancel₀ htot.ne'
  · have hpart : (Prod.snd ∘ fun key => (key, row.memberPart key)) =
        fun _ => 1 / (row.members.length : ℚ) := by
      funext key
      rw [Function.comp_apply, memberPart, if_neg htot]
    rw [hpart, map_const', sum_replicate]
    exact mul_one_div_cancel hlen

/-- **`liveOutcomeSetShares`.** How the shares of every row are made. -/
lemma sharesSplit (row : OutcomeRow) : row.SharesSplit := by
  have hshare : ∀ entry ∈ row.liveOutcomeSetShares,
      entry.2 = min 1 (lineageShare (row.carriers ++ row.parentCarrier) entry.1) := by
    intro entry hent
    have hget := get?_of_mem (keysUnique_foldl_addShares _) hent
    rw [← getD_foldl_addShares row.carriers_nonneg, hget, Option.getD_some]
  refine ⟨hshare, sum_carriers_of_isCombined, fun hplain entry hent => ?_⟩
  obtain ⟨carrier, hcarr, hmem⟩ := mem_withAncestors_of_mem_foldl hent
  have hone : carrier.2 = 1 := by
    rcases mem_append.mp hcarr with hcarr | hcarr
    · rw [carriers, hplain] at hcarr
      obtain ⟨key, -, rfl⟩ := mem_map.mp hcarr
      rfl
    · unfold parentCarrier at hcarr
      split at hcarr
      · cases hcarr
      · rw [mem_singleton.mp hcarr]
  have hpart := le_lineageShare row.carriers_nonneg hcarr hmem
  rw [hone] at hpart
  rw [hshare entry hent, min_eq_left hpart]

end OutcomeRow

end CtsEngine
