import CtsEngine.Foundation.BudgetedChoice
import CtsEngine.VenueReply.OrderResults

/-!
# The rows of a Real stage that are materialised

`limitRealRowsForMaterialization` of `lib/strategy-real-materialization-limit.ts`: a ceiling for the
rows that are kept.  Active rows are kept in any case, and the rest of the ceiling goes to the best
row of every family and then to the best rows.  A ceiling below one is no ceiling.

Rows are objects.  A row that is listed twice is one element of the sets that count.
-/

namespace CtsEngine

open List BudgetedChoice VenueReply

/-! ## The rows -/

structure MaterializableStrategyRow where
  setKey : Value := .undefined
  parentSetKey : Value := .undefined
  rowSourceSetKey : Value := .undefined
  rowEvaluationKey : Value := .undefined
  accumulatedSetKeys : Value := .undefined
  hasLivePositions : Value := .undefined
  rowStage : Value := .undefined
  variant : Value := .undefined
  indicationType : Value := .undefined
  direction : Value := .undefined
  combinedPosCounts : Value := .undefined
  signalRisk : Value := .undefined

def normalizedKey (value : Value) : String := trim (value.orElse (.text "")).toText

/-- `text || fallback`. -/
def textOr (text fallback : String) : String := if text = "" then fallback else text

def strategyRowHasActiveExposure (row : MaterializableStrategyRow) (activeSetKeys : List String) :
    Bool :=
  let members := match row.accumulatedSetKeys with
    | .array items => items
    | _ => []
  let exactKeys := [row.setKey, row.rowSourceSetKey, row.rowEvaluationKey] ++ members
  let setKey := normalizedKey row.setKey
  let hasDerivedIdentity := setKey.toList.contains '#' || normalizedKey row.rowSourceSetKey ≠ "" ||
    normalizedKey row.rowEvaluationKey ≠ ""
  let parentSetKey := normalizedKey row.parentSetKey
  row.hasLivePositions.isTrue ||
    exactKeys.any (fun value =>
      normalizedKey value ≠ "" && activeSetKeys.contains (normalizedKey value)) ||
    !hasDerivedIdentity && parentSetKey ≠ "" && activeSetKeys.contains parentSetKey

def materializationFamily (row : MaterializableStrategyRow) : String :=
  let rowStage := normalizedKey row.rowStage
  let stage := if rowStage = "" then "source:real" else "row:" ++ rowStage
  let variant := if row.combinedPosCounts.isTrue then "position_count"
    else textOr (normalizedKey row.variant) "default"
  let indication := textOr (normalizedKey row.indicationType) "unknown"
  let direction := textOr (normalizedKey row.direction) "unknown"
  let sourceId := normalizedKey (row.signalRisk.get "sourceId")
  "|".intercalate [stage, variant, indication, direction, sourceId]

structure StrategyRealMaterializationResult (T : Type*) where
  rows : List T
  ceiling : ℕ
  qualifiedBeforeLimit : ℕ
  activeRowsPreserved : ℕ
  familiesPreserved : ℕ
  truncatedRows : ℕ

/-- `ceiling`: the whole part of a finite ceiling that is not negative. -/
def materializationCeiling (rawCeiling : Double) : ℕ :=
  match rawCeiling with
  | .finite q => (max 0 ⌊q⌋).toNat
  | _ => 0

variable {T : Type*} [DecidableEq T]

/-- `activeRows`, of objects with the fields of a row. -/
def activeRows (fields : T → MaterializableStrategyRow) (activeSetKeys : List String)
    (rows : List T) : Finset T :=
  (rows.filter fun row => strategyRowHasActiveExposure (fields row) activeSetKeys).toFinset

def limitRealRowsForMaterialization (fields : T → MaterializableStrategyRow) (rows : List T)
    (rawCeiling : Double) (activeSetKeys : List String) : StrategyRealMaterializationResult T :=
  let ceiling := materializationCeiling rawCeiling
  if ceiling ≤ 0 ∨ rows.length ≤ ceiling then
    { rows
      ceiling
      qualifiedBeforeLimit := rows.length
      activeRowsPreserved := (rows.filter fun row =>
        strategyRowHasActiveExposure (fields row) activeSetKeys).length
      familiesPreserved := 0
      truncatedRows := 0 }
  else
    let active := activeRows fields activeSetKeys rows
    let inactiveBudget := ceiling - active.card
    let reserved := reserve active (fun row => materializationFamily (fields row)) inactiveBudget
      rows ⟨∅, ∅⟩
    let selectedInactive := fill active inactiveBudget rows reserved.chosen
    let selected := rows.filter fun row => row ∈ active || row ∈ selectedInactive
    { rows := selected
      ceiling
      qualifiedBeforeLimit := rows.length
      activeRowsPreserved := active.card
      familiesPreserved := reserved.represented.card
      truncatedRows := rows.length - selected.length }

/-! ## What is kept -/

def inactiveFamilies (fields : T → MaterializableStrategyRow) (activeSetKeys : List String)
    (rows : List T) : Finset String :=
  (rows.toFinset \ activeRows fields activeSetKeys rows).image fun row =>
    materializationFamily (fields row)

/-- How many rows are kept. -/
def keptCount (total active ceiling : ℕ) : ℕ :=
  if ceiling = 0 then total else min total (max active ceiling)

/-- What a ceiling promises of the rows that are kept. -/
structure KeepsRows (fields : T → MaterializableStrategyRow) (rows : List T) (ceiling : ℕ)
    (activeSetKeys : List String) (kept : List T) : Prop where
  /-- The order of the rows is kept. -/
  sublist : kept.Sublist rows
  active : (kept.filter fun row => strategyRowHasActiveExposure (fields row) activeSetKeys) =
    rows.filter fun row => strategyRowHasActiveExposure (fields row) activeSetKeys
  count : kept.toFinset.card =
    keptCount rows.toFinset.card (activeRows fields activeSetKeys rows).card ceiling
  length : rows.Nodup → kept.length =
    keptCount rows.length (activeRows fields activeSetKeys rows).card ceiling
  /-- When the rest of the ceiling is enough for the families of the inactive rows, each of them is
  represented. -/
  families : (inactiveFamilies fields activeSetKeys rows).card ≤
      ceiling - (activeRows fields activeSetKeys rows).card →
    ∀ row ∈ rows, strategyRowHasActiveExposure (fields row) activeSetKeys = false →
      ∃ other ∈ kept, strategyRowHasActiveExposure (fields other) activeSetKeys = false ∧
        materializationFamily (fields other) = materializationFamily (fields row)

variable {fields : T → MaterializableStrategyRow} {rows : List T} {ceiling : ℕ}
  {activeSetKeys : List String}

lemma mem_activeRows {row : T} : row ∈ activeRows fields activeSetKeys rows ↔
    row ∈ rows ∧ strategyRowHasActiveExposure (fields row) activeSetKeys := by
  rw [activeRows, mem_toFinset, mem_filter]

lemma activeRows_subset (fields : T → MaterializableStrategyRow) (activeSetKeys : List String)
    (rows : List T) : activeRows fields activeSetKeys rows ⊆ rows.toFinset := fun _ hrow =>
  mem_toFinset.mpr (mem_activeRows.mp hrow).1

lemma length_eq_keptCount {kept : List T} {active : ℕ} (hsubl : kept.Sublist rows)
    (hcnt : kept.toFinset.card = keptCount rows.toFinset.card active ceiling)
    (hnodup : rows.Nodup) : kept.length = keptCount rows.length active ceiling := by
  rwa [toFinset_card_of_nodup (hnodup.sublist hsubl), toFinset_card_of_nodup hnodup] at hcnt

lemma keepsRows_all (hroom : ceiling ≤ 0 ∨ rows.length ≤ ceiling) :
    KeepsRows fields rows ceiling activeSetKeys rows := by
  have hcnt : rows.toFinset.card =
      keptCount rows.toFinset.card (activeRows fields activeSetKeys rows).card ceiling := by
    rw [keptCount]
    split_ifs with hzero
    · rfl
    · have hlen : rows.length ≤ ceiling := hroom.resolve_left (by omega)
      have hcard := (toFinset_card_le rows).trans hlen
      exact (min_eq_left (hcard.trans (le_max_right _ _))).symm
  exact ⟨List.Sublist.refl rows, rfl, hcnt, length_eq_keptCount (List.Sublist.refl rows) hcnt,
    fun _ row hrow hinact => ⟨row, hrow, hinact, rfl⟩⟩

/-- The active rows and both passes keep what must be kept. -/
lemma keepsRows_of_fill {reserved : Reserved T String} {next : Finset T} (hpos : 0 < ceiling)
    (hreser : AfterReserve (activeRows fields activeSetKeys rows)
      (fun row => materializationFamily (fields row))
      (ceiling - (activeRows fields activeSetKeys rows).card) rows ⟨∅, ∅⟩ reserved)
    (hfill : AfterFill (activeRows fields activeSetKeys rows)
      (ceiling - (activeRows fields activeSetKeys rows).card) rows reserved.chosen next) :
    KeepsRows fields rows ceiling activeSetKeys
      (rows.filter fun row => row ∈ activeRows fields activeSetKeys rows || row ∈ next) := by
  have hresv : ∀ row ∈ reserved.chosen,
      row ∈ rows ∧ row ∉ activeRows fields activeSetKeys rows := fun row hrow =>
    (hreser.eligible row hrow).resolve_left (Finset.notMem_empty row)
  have hnext : ∀ row ∈ next, row ∈ rows ∧ row ∉ activeRows fields activeSetKeys rows :=
    fun row hrow => (hfill.eligible row hrow).elim (hresv row) id
  have hcnt : (rows.filter fun row =>
      row ∈ activeRows fields activeSetKeys rows || row ∈ next).toFinset.card =
        keptCount rows.toFinset.card (activeRows fields activeSetKeys rows).card ceiling := by
    have hkept : (rows.filter fun row =>
        row ∈ activeRows fields activeSetKeys rows || row ∈ next).toFinset =
          activeRows fields activeSetKeys rows ∪ next := by
      ext row
      rw [mem_toFinset, mem_filter, Bool.or_eq_true, decide_eq_true_eq,
        decide_eq_true_eq, Finset.mem_union]
      exact and_iff_right_of_imp fun h =>
        h.elim (fun hact => (mem_activeRows.mp hact).1) fun hrow => (hnext row hrow).1
    have hdisj : Disjoint (activeRows fields activeSetKeys rows) next :=
      Finset.disjoint_left.mpr fun row hact hrow => (hnext row hrow).2 hact
    have hcard := hfill.card_eq hresv
    have hsplit := Finset.card_sdiff_add_card_eq_card (activeRows_subset fields activeSetKeys rows)
    rw [hkept, Finset.card_union_of_disjoint hdisj, keptCount, if_neg hpos.ne']
    omega
  refine ⟨filter_sublist, ?_, hcnt, length_eq_keptCount filter_sublist hcnt, ?_⟩
  · rw [filter_filter]
    refine filter_congr fun row hrow => ?_
    cases hact : strategyRowHasActiveExposure (fields row) activeSetKeys with
    | false => rfl
    | true => simp [mem_activeRows, hrow, hact]
  · intro hroom row hrow hinact
    have hnot : ∀ other, strategyRowHasActiveExposure (fields other) activeSetKeys = false →
        other ∉ activeRows fields activeSetKeys rows := by
      intro other hoth hmem
      rw [(mem_activeRows.mp hmem).2] at hoth
      cases hoth
    have hfam := hreser.complete (inactiveFamilies fields activeSetKeys rows)
      (Finset.empty_subset _) hroom
      (fun other hoth hnotAct => Finset.mem_image_of_mem _
        (Finset.mem_sdiff.mpr ⟨mem_toFinset.mpr hoth, hnotAct⟩))
      row hrow (hnot row hinact)
    rw [hreser.represents.families] at hfam
    obtain ⟨other, hoth, hsame⟩ := Finset.mem_image.mp hfam
    obtain ⟨hlist, hothNot⟩ := hresv other hoth
    refine ⟨other, mem_filter.mpr ⟨hlist, ?_⟩, ?_, hsame⟩
    · exact Bool.or_eq_true_iff.mpr (.inr (decide_eq_true (hfill.grows hoth)))
    · rw [mem_activeRows, and_iff_right hlist, Bool.not_eq_true] at hothNot
      exact hothNot

/-- **Materialisation** keeps the active rows, the order and the count, and the families that it has
room for. -/
theorem limitRealRowsForMaterialization_keeps (fields : T → MaterializableStrategyRow)
    (rows : List T) (rawCeiling : Double) (activeSetKeys : List String) :
    KeepsRows fields rows (materializationCeiling rawCeiling) activeSetKeys
      (limitRealRowsForMaterialization fields rows rawCeiling activeSetKeys).rows := by
  rw [limitRealRowsForMaterialization]
  split_ifs with hroom
  · exact keepsRows_all hroom
  · have hreserve := reserve_empty_spec (activeRows fields activeSetKeys rows)
      (fun row => materializationFamily (fields row))
      (materializationCeiling rawCeiling - (activeRows fields activeSetKeys rows).card) rows
    exact keepsRows_of_fill (by omega) hreserve (fill_spec hreserve.card_le)

/-- A ceiling of zero keeps an inactive row. -/
theorem not_limitRealRowsForMaterialization_zero :
    ¬ ∀ (fields : ℕ → MaterializableStrategyRow) (rows : List ℕ) (ceiling : ℤ)
      (activeSetKeys : List String), rows.Nodup →
        let kept :=
          (limitRealRowsForMaterialization fields rows (.finite ceiling) activeSetKeys).rows
        (kept.length : ℤ) = min (rows.length : ℤ)
            (max ((activeRows fields activeSetKeys rows).card : ℤ) ceiling) := by
  intro hall
  have hzero := hall (fun _ => { setKey := .text "base#a" }) [0] 0 [] (by decide)
  exact absurd hzero (by decide +kernel)

end CtsEngine
