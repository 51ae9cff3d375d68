import CtsEngine.Foundation.Comparison
import CtsEngine.Foundation.Grouping
import CtsEngine.StopLevels.SecurityStop
import CtsEngine.Venue.Ownership

/-!
# Plans for the slots of a book

`buildAggregateProtectionPlans` of `lib/aggregate-protection-coordination.ts`: the rows of each
symbol and direction get one plan, with a leader among the rows, their own quantity of the venue's
position and the security stop.  The order of the texts is `localeCompare`, whose values come from
the language's tables.
-/

namespace CtsEngine

open List Keyed

namespace StopLevels

open Comparison

structure AggregateProtectionVenuePosition where
  symbol : String
  direction : Direction
  quantity : Option ℚ

structure AggregateProtectionPlan where
  key : String
  leaderId : String
  memberIds : List String
  staleMemberIds : List String
  direction : Direction
  symbol : String
  reportedSystemQuantity : ℚ
  systemQuantity : ℚ
  venueQuantity : ℚ
  rawVenueQuantity : ℚ
  quantityTolerance : ℚ
  ownershipMatches : Bool
  desiredStopLoss : ℚ
  desiredTakeProfit : ℚ
  security : SecurityStop

def aggregateProtectionSlot (symbol : String) (direction : Direction) : String :=
  symbolKey symbol ++ "|" ++ (match direction with | .long => "long" | .short => "short")

namespace AggregateProtectionCandidate

variable (candidate : AggregateProtectionCandidate)

/-- The slot of a candidate. -/
def slot : String :=
  aggregateProtectionSlot candidate.symbol candidate.direction

/-- A candidate with an id and a quantity. -/
def isCounted : Bool :=
  candidate.id ≠ "" ∧ 0 < finitePositive candidate.quantity

def leaderScore : ℚ :=
  (if candidate.hasSecurityStopOrder then 1 else 0) +
    if candidate.hasPendingSecurityStop then 1 else 0

end AggregateProtectionCandidate

/-- The sum of the quantities of rows. -/
def totalQuantity (rows : List AggregateProtectionCandidate) : ℚ :=
  rows.foldl (fun sum row => sum + finitePositive row.quantity) 0

/-- `Math.max(1e-10, venueQuantity * 1e-8, ...)`. -/
def quantityTolerance (venueQuantity : ℚ) (rows : List AggregateProtectionCandidate) : ℚ :=
  greatest ([1 / 10 ^ 10, venueQuantity * (1 / 10 ^ 8)] ++
    rows.map fun row => finitePositive row.quantityStep / 2)

def codeUnits (text : String) : List ℕ := text.toList.flatMap utf16Units

/-- `texts.sort()`: by code units. -/
def sortTexts (texts : List String) : List String :=
  texts.mergeSort fun a b => codeUnits a ≤ codeUnits b

/-- The last position of each slot. -/
def venueBySlot (venuePositions : List AggregateProtectionVenuePosition) :
    List (String × AggregateProtectionVenuePosition) :=
  venuePositions.foldl (fun bySlot position =>
    put bySlot (aggregateProtectionSlot position.symbol position.direction) position) []

section Plans

variable (localeCompare : String → String → ℤ)

/-- The comparison of `selectLeader`. -/
def leaderOrder : AggregateProtectionCandidate → AggregateProtectionCandidate → ℚ :=
  orElse (fun a b => b.leaderScore - a.leaderScore)
    (orElse (fun a b => finitePositive a.createdAt - finitePositive b.createdAt)
      fun a b => localeCompare a.id b.id)

def selectLeader (candidates : List AggregateProtectionCandidate) :
    Option AggregateProtectionCandidate :=
  (sortBy (leaderOrder localeCompare) candidates).head?

/-- The plan of a slot with its rows. -/
def slotPlan (venuePositions : List AggregateProtectionVenuePosition) (key : String)
    (rows : List AggregateProtectionCandidate) : Option AggregateProtectionPlan :=
  (selectLeader localeCompare rows).map fun leader =>
    let venue := get? (venueBySlot venuePositions) key
    let venueQuantity := finitePositive (venue.bind (·.quantity))
    let tolerance := quantityTolerance venueQuantity rows
    let systemQuantity := totalQuantity rows
    let ownQuantityPresent := decide
      (0 < systemQuantity ∧ 0 < venueQuantity ∧ systemQuantity ≤ venueQuantity + tolerance)
    { key
      leaderId := leader.id
      memberIds := sortTexts (rows.map (·.id))
      staleMemberIds := []
      direction := leader.direction
      symbol := leader.symbol
      reportedSystemQuantity := totalQuantity rows
      systemQuantity
      venueQuantity := if ownQuantityPresent then systemQuantity else venueQuantity
      rawVenueQuantity := venueQuantity
      quantityTolerance := tolerance
      ownershipMatches := ownQuantityPresent
      desiredStopLoss := outerStopLoss leader.direction (rows.map (·.desiredStopLoss))
      desiredTakeProfit := outerTakeProfit leader.direction (rows.map (·.desiredTakeProfit))
      security := securityStopForRows leader.direction rows }

/-- The rows of each slot. -/
def slotGroups (candidates : List AggregateProtectionCandidate) :
    List (String × List AggregateProtectionCandidate) :=
  collect (·.slot) (fun _ => []) (fun rows candidate => rows ++ [candidate])
    (candidates.filter (·.isCounted))

def buildAggregateProtectionPlans (candidates : List AggregateProtectionCandidate)
    (venuePositions : List AggregateProtectionVenuePosition) : List AggregateProtectionPlan :=
  sortBy (fun a b => (localeCompare a.key b.key : ℚ))
    ((slotGroups candidates).filterMap fun group =>
      slotPlan localeCompare venuePositions group.1 group.2)

end Plans

/-! ## The order of the candidates -/

lemma greatest_perm {xs ys : List ℚ} (h : xs.Perm ys) : greatest xs = greatest ys := by
  have hmax : xs.max? = ys.max? := Option.ext fun a => by
    simp only [max?_eq_some_iff, h.mem_iff]
  rw [greatest, greatest, hmax]

lemma least_perm {xs ys : List ℚ} (h : xs.Perm ys) : least xs = least ys := by
  have hmin : xs.min? = ys.min? := Option.ext fun a => by
    simp only [min?_eq_some_iff, h.mem_iff]
  rw [least, least, hmin]

lemma codeUnits_injective : Function.Injective codeUnits := by
  have hchars : ∀ cs ds : List Char, cs.flatMap utf16Units = ds.flatMap utf16Units → cs = ds := by
    intro cs
    induction cs with
    | nil =>
      intro ds h
      rcases ds with - | ⟨d, ds⟩
      · rfl
      · rw [flatMap_cons, utf16Units] at h
        split_ifs at h <;> cases h
    | cons c cs ih =>
      intro ds h
      rcases ds with - | ⟨d, ds⟩
      · rw [flatMap_cons, utf16Units] at h
        split_ifs at h <;> cases h
      · have hc : c.toNat < 0xD800 ∨ 0xDFFF < c.toNat ∧ c.toNat < 0x110000 := by
          have := c.valid
          simpa [UInt32.isValidChar, Nat.isValidChar] using this
        have hd : d.toNat < 0xD800 ∨ 0xDFFF < d.toNat ∧ d.toNat < 0x110000 := by
          have := d.valid
          simpa [UInt32.isValidChar, Nat.isValidChar] using this
        rw [flatMap_cons, flatMap_cons, utf16Units, utf16Units] at h
        have hboth : c.toNat = d.toNat ∧ cs.flatMap utf16Units = ds.flatMap utf16Units := by
          split_ifs at h with hlow hlow' hlow' <;>
            simp only [cons_append, List.cons.injEq] at h
          · exact h
          · omega
          · omega
          · exact ⟨by omega, h.2.2⟩
        rw [ih ds hboth.2, Char.toNat_inj.mp hboth.1]
  intro a b h
  exact String.toList_injective (hchars _ _ h)

lemma sortTexts_perm {xs ys : List String} (h : xs.Perm ys) : sortTexts xs = sortTexts ys := by
  have hpair : ∀ zs : List String,
      (sortTexts zs).Pairwise fun a b => codeUnits a ≤ codeUnits b := by
    intro zs
    refine (pairwise_mergeSort ?_ ?_ zs).imp of_decide_eq_true
    · intro a b c hab hbc
      exact decide_eq_true (le_trans (of_decide_eq_true hab) (of_decide_eq_true hbc))
    · intro a b
      rw [Bool.or_eq_true, decide_eq_true_eq, decide_eq_true_eq]
      exact le_total (codeUnits a) (codeUnits b)
  have hperm : (sortTexts xs).Perm (sortTexts ys) :=
    (mergeSort_perm xs _).trans (h.trans (mergeSort_perm ys _).symm)
  exact hperm.eq_of_pairwise (fun a b _ _ hab hba => codeUnits_injective (le_antisymm hab hba))
    (hpair xs) (hpair ys)

lemma totalQuantity_eq_sum (rows : List AggregateProtectionCandidate) :
    totalQuantity rows = (rows.map fun row => finitePositive row.quantity).sum := by
  rw [totalQuantity, sum_eq_foldl, foldl_map]

lemma isComparison_leaderOrder {localeCompare : String → String → ℤ}
    (hloc : IsComparison fun a b => (localeCompare a b : ℚ)) :
    IsComparison (leaderOrder localeCompare) := by
  have hscore : IsComparison fun a b : AggregateProtectionCandidate =>
      b.leaderScore - a.leaderScore := by
    have h := IsComparison.of_number fun a : AggregateProtectionCandidate => -a.leaderScore
    simpa only [neg_sub_neg] using h
  exact hscore.orElse
    ((IsComparison.of_number _).orElse (hloc.comap AggregateProtectionCandidate.id))

section Perm

variable {rows rows' : List AggregateProtectionCandidate} (h : rows.Perm rows')
include h

lemma outerPrices_perm (direction : Direction) (field : AggregateProtectionCandidate → Option ℚ) :
    outerStopLoss direction (rows.map field) = outerStopLoss direction (rows'.map field) ∧
      outerTakeProfit direction (rows.map field) = outerTakeProfit direction (rows'.map field) := by
  have hposit : (positives (rows.map field)).Perm (positives (rows'.map field)) :=
    ((h.map field).map finitePositive).filter _
  rw [outerStopLoss, outerTakeProfit, least_perm hposit, greatest_perm hposit]
  exact ⟨rfl, rfl⟩

lemma securityStopForRows_perm (direction : Direction) :
    securityStopForRows direction rows = securityStopForRows direction rows' := by
  have houter := (outerPrices_perm h direction (·.desiredStopLoss)).1
  have hrange := greatest_perm (h.map (·.stopRange))
  have htick : priceTickOf rows = priceTickOf rows' :=
    greatest_perm (h.map fun row => finitePositive row.priceTick)
  have harm : cannotArm direction rows = cannotArm direction rows' := by
    rw [cannotArm, cannotArm, houter, hrange, h.any_eq]
  have hliq : (liquidationPrices direction rows).Perm (liquidationPrices direction rows') :=
    (h.map _).filter _
  have hlong : ∀ outer gap tick, longPrice outer gap tick (liquidationPrices direction rows) =
      longPrice outer gap tick (liquidationPrices direction rows') := fun outer gap tick => by
    rw [longPrice, longPrice, greatest_perm hliq, hliq.length_eq]
  have hshort : ∀ outer gap tick, shortPrice outer gap tick (liquidationPrices direction rows) =
      shortPrice outer gap tick (liquidationPrices direction rows') := fun outer gap tick => by
    rw [shortPrice, shortPrice, least_perm hliq, hliq.length_eq]
  cases direction <;> simp only [securityStopForRows, houter, hrange, htick, harm, hlong, hshort]

lemma slotPlan_perm {localeCompare : String → String → ℤ}
    (hloc : IsComparison fun a b => (localeCompare a b : ℚ))
    (hids : ∀ a ∈ rows, ∀ b ∈ rows, localeCompare a.id b.id = 0 → a = b)
    (venuePositions : List AggregateProtectionVenuePosition) (key : String) :
    slotPlan localeCompare venuePositions key rows =
      slotPlan localeCompare venuePositions key rows' := by
  have hord := isComparison_leaderOrder hloc
  have hlead : selectLeader localeCompare rows = selectLeader localeCompare rows' := by
    rw [selectLeader, selectLeader, sortBy_eq_of_perm hord h]
    intro a ha b hb hzero
    rw [leaderOrder, orElse_eq_zero_iff, orElse_eq_zero_iff] at hzero
    exact hids a ha b hb (by exact_mod_cast hzero.2.2)
  have htot : totalQuantity rows = totalQuantity rows' := by
    rw [totalQuantity_eq_sum, totalQuantity_eq_sum]
    exact (h.map _).sum_eq
  have htoler : ∀ quantity, quantityTolerance quantity rows = quantityTolerance quantity rows' :=
    fun quantity => greatest_perm ((h.map _).append_left _)
  have hids' := sortTexts_perm (h.map (·.id))
  have houter := outerPrices_perm h
  have hsec := securityStopForRows_perm h
  simp only [slotPlan, hlead, htot, htoler, hids', hsec,
    (houter _ (·.desiredStopLoss)).1, (houter _ (·.desiredTakeProfit)).2]

end Perm

/-! ## All plans -/

section Plans

variable {localeCompare : String → String → ℤ}

/-- The rows of a slot. -/
def rowsOf (candidates : List AggregateProtectionCandidate) (key : String) :
    List AggregateProtectionCandidate :=
  (candidates.filter (·.isCounted)).filter (·.slot = key)

/-- The slots in the order in which they first appear. -/
def slots (candidates : List AggregateProtectionCandidate) : List String :=
  (firsts AggregateProtectionCandidate.slot (candidates.filter (·.isCounted))).map (·.slot)

variable (candidates)

lemma slotGroups_eq :
    slotGroups candidates = (slots candidates).map fun key => (key, rowsOf candidates key) := by
  have hfold : ∀ rows : List AggregateProtectionCandidate,
      rows.foldl (fun rows candidate => rows ++ [candidate]) [] = rows := fun rows => by
    induction rows using reverseRecOn with
    | nil => rfl
    | append_singleton rows row ih => rw [foldl_append, ih, foldl_cons, foldl_nil]
  rw [slotGroups, collect_eq, slots, map_map]
  refine map_congr_left fun row _ => ?_
  rw [hfold]
  rfl

lemma mem_slots (key : String) :
    key ∈ slots candidates ↔ ∃ row ∈ candidates, row.isCounted = true ∧ row.slot = key := by
  obtain ⟨hmem, -, hkeys⟩ :=
    firsts_spec AggregateProtectionCandidate.slot (candidates.filter (·.isCounted))
  rw [slots, mem_map]
  constructor
  · rintro ⟨row, hrow, rfl⟩
    obtain ⟨hin, hcntd⟩ := mem_filter.mp (hmem row hrow)
    exact ⟨row, hin, hcntd, rfl⟩
  · rintro ⟨row, hrow, hcntd, rfl⟩
    exact hkeys row (mem_filter.mpr ⟨hrow, hcntd⟩)

lemma nodup_slots : (slots candidates).Nodup :=
  (firsts_spec AggregateProtectionCandidate.slot (candidates.filter (·.isCounted))).2.1

variable {candidates}

/-- The plans before they are sorted. -/
def unsortedPlans (localeCompare : String → String → ℤ)
    (venuePositions : List AggregateProtectionVenuePosition)
    (candidates : List AggregateProtectionCandidate) : List AggregateProtectionPlan :=
  (slots candidates).filterMap fun key =>
    slotPlan localeCompare venuePositions key (rowsOf candidates key)

lemma buildAggregateProtectionPlans_eq (candidates : List AggregateProtectionCandidate)
    (venuePositions : List AggregateProtectionVenuePosition) :
    buildAggregateProtectionPlans localeCompare candidates venuePositions =
      sortBy (fun a b => (localeCompare a.key b.key : ℚ))
        (unsortedPlans localeCompare venuePositions candidates) := by
  rw [buildAggregateProtectionPlans, slotGroups_eq, filterMap_map]
  rfl

variable {rows candidates : List AggregateProtectionCandidate}
  {venuePositions : List AggregateProtectionVenuePosition}

variable {key : String} {plan : AggregateProtectionPlan}

lemma slotPlan_key (h : slotPlan localeCompare venuePositions key rows = some plan) :
    plan.key = key := by
  obtain ⟨leader, -, rfl⟩ := Option.map_eq_some_iff.mp h
  rfl

lemma unsortedPlans_perm (hloc : IsComparison fun a b => (localeCompare a b : ℚ))
    {candidates' : List AggregateProtectionCandidate} (hperm : candidates.Perm candidates')
    (hids : ∀ a ∈ candidates, ∀ b ∈ candidates, a.slot = b.slot →
      localeCompare a.id b.id = 0 → a = b)
        (venuePositions : List AggregateProtectionVenuePosition) :
    (unsortedPlans localeCompare venuePositions candidates).Perm
      (unsortedPlans localeCompare venuePositions candidates') := by
  have hslots : (slots candidates).Perm (slots candidates') := by
    refine (perm_ext_iff_of_nodup (nodup_slots _) (nodup_slots _)).mpr fun key => ?_
    simp only [mem_slots, hperm.mem_iff]
  have hplan : ∀ key, slotPlan localeCompare venuePositions key (rowsOf candidates key) =
      slotPlan localeCompare venuePositions key (rowsOf candidates' key) := by
    intro key
    refine slotPlan_perm ((hperm.filter _).filter _) hloc ?_ venuePositions key
    intro a ha b hb hzero
    obtain ⟨ha, hslot⟩ := mem_filter.mp ha
    obtain ⟨hb, hslot'⟩ := mem_filter.mp hb
    exact hids a (mem_of_mem_filter ha) b (mem_of_mem_filter hb)
      ((of_decide_eq_true hslot).trans (of_decide_eq_true hslot').symm) hzero
  rw [unsortedPlans]
  simp only [hplan]
  exact hslots.filterMap _

/-- The quantity of a plan is at most the smaller of the venue's and the system's. -/
lemma slotPlan_venueQuantity (h : slotPlan localeCompare venuePositions key rows = some plan)
    (hrows : 0 < totalQuantity rows) :
    plan.venueQuantity ≤
      min plan.rawVenueQuantity plan.systemQuantity + plan.quantityTolerance := by
  obtain ⟨leader, -, rfl⟩ := Option.map_eq_some_iff.mp h
  dsimp only
  generalize finitePositive ((get? (venueBySlot venuePositions) key).bind (·.quantity)) =
    venueQuantity
  have htoler : (0 : ℚ) ≤ quantityTolerance venueQuantity rows := by
    have hfst : (1 / 10 ^ 10 : ℚ) ∈ [1 / 10 ^ 10, venueQuantity * (1 / 10 ^ 8)] ++
        rows.map fun row => finitePositive row.quantityStep / 2 := by simp
    exact le_trans (by norm_num) (le_greatest hfst)
  by_cases hown : 0 < totalQuantity rows ∧ 0 < venueQuantity ∧
      totalQuantity rows ≤ venueQuantity + quantityTolerance venueQuantity rows
  · rw [if_pos (decide_eq_true hown)]
    rcases min_cases venueQuantity (totalQuantity rows) with ⟨hmin, -⟩ | ⟨hmin, -⟩ <;> rw [hmin]
    · exact hown.2.2
    · linarith
  · rw [if_neg (by simpa using hown)]
    have hless : venueQuantity ≤ totalQuantity rows := by
      by_contra hlt
      exact hown ⟨hrows, by linarith, by linarith⟩
    rw [min_eq_left hless]
    linarith

lemma positive_nonneg (value : Option ℚ) : 0 ≤ positive value := by
  rcases value with - | parsed
  · rfl
  · simp only [positive]
    split_ifs with h
    · exact h.le
    · rfl

lemma totalQuantity_pos (h : key ∈ slots candidates) :
    0 < totalQuantity (rowsOf candidates key) := by
  obtain ⟨row, hrow, hcntd, hslot⟩ := (mem_slots candidates key).mp h
  have hmem : row ∈ rowsOf candidates key := mem_filter.mpr
    ⟨mem_filter.mpr ⟨hrow, hcntd⟩, decide_eq_true hslot⟩
  have hpos : 0 < finitePositive row.quantity := (of_decide_eq_true hcntd).2
  rw [totalQuantity_eq_sum]
  refine hpos.trans_le (single_le_sum ?_ _ (mem_map.mpr ⟨row, hmem, rfl⟩))
  intro quantity hqty
  obtain ⟨other, -, rfl⟩ := mem_map.mp hqty
  exact positive_nonneg _

/-- The security stop of rows is zero or the outermost safe price; and when the order of texts tells
the slots and the rows of a slot apart, the plans do not depend on the order of the candidates, and
protect at most the smaller of the venue's and the system's quantity, up to the tolerance. -/
theorem aggregateProtectionPlans_spec (hlocale : IsComparison fun a b => (localeCompare a b : ℚ))
    {candidates candidates' : List AggregateProtectionCandidate}
    (hperm : candidates.Perm candidates')
    (hslots : ∀ a ∈ candidates, ∀ b ∈ candidates, localeCompare a.slot b.slot = 0 → a.slot = b.slot)
    (hids : ∀ a ∈ candidates, ∀ b ∈ candidates, a.slot = b.slot →
      localeCompare a.id b.id = 0 → a = b)
    (venuePositions : List AggregateProtectionVenuePosition) :
    (∀ direction rows, ((∃ row ∈ rows, finitePositive row.priceTick = 0) →
        (securityStopForRows direction rows).securityStopPrice = 0) ∧
      ((securityStopForRows direction rows).securityStopPrice = 0 ∨
        IsOutermost direction rows (securityStopForRows direction rows).securityStopPrice)) ∧
    buildAggregateProtectionPlans localeCompare candidates venuePositions =
      buildAggregateProtectionPlans localeCompare candidates' venuePositions ∧
    ∀ plan ∈ buildAggregateProtectionPlans localeCompare candidates venuePositions,
      plan.venueQuantity ≤
        min plan.rawVenueQuantity plan.systemQuantity + plan.quantityTolerance := by
  have hmem : ∀ plan ∈ unsortedPlans localeCompare venuePositions candidates,
      ∃ key ∈ slots candidates,
        slotPlan localeCompare venuePositions key (rowsOf candidates key) = some plan :=
    fun plan hplan => mem_filterMap.mp hplan
  refine ⟨securityStopForRows_spec, ?_, fun plan hplan => ?_⟩
  · rw [buildAggregateProtectionPlans_eq, buildAggregateProtectionPlans_eq]
    refine sortBy_eq_of_perm (hlocale.comap AggregateProtectionPlan.key)
      (unsortedPlans_perm hlocale hperm hids venuePositions) fun a ha b hb hzero => ?_
    obtain ⟨key, hkey, hplan⟩ := hmem a ha
    obtain ⟨key', hkey', hplan'⟩ := hmem b hb
    obtain ⟨row, hrow, -, rfl⟩ := (mem_slots candidates key).mp hkey
    obtain ⟨row', hrow', -, rfl⟩ := (mem_slots candidates key').mp hkey'
    rw [slotPlan_key hplan, slotPlan_key hplan'] at hzero
    rw [hslots row hrow row' hrow' (by exact_mod_cast hzero), hplan'] at hplan
    exact (Option.some.inj hplan).symm
  · rw [buildAggregateProtectionPlans_eq] at hplan
    obtain ⟨key, hkey, hslot⟩ := hmem plan ((sortBy_perm _ _).mem_iff.mp hplan)
    exact slotPlan_venueQuantity hslot (totalQuantity_pos hkey)

end Plans

/-- Two long rows of one slot. -/
def twoRows : List AggregateProtectionCandidate :=
  [{ id := "a", symbol := "BTC-USDT", direction := .long, quantity := some 1,
     entryPrice := some 110, priceTick := some 1, desiredStopLoss := some 100 },
   { id := "b", symbol := "BTCUSDT", direction := .long, quantity := some 2,
     entryPrice := some 112, priceTick := some 1, desiredStopLoss := some 102 }]

theorem aggregateProtectionPlans_spec_twoRows :
    buildAggregateProtectionPlans codeOrder twoRows [⟨"BTCUSDT", .long, some 3⟩] =
      buildAggregateProtectionPlans codeOrder twoRows.reverse [⟨"BTCUSDT", .long, some 3⟩] :=
  (aggregateProtectionPlans_spec isComparison_codeOrder (reverse_perm twoRows).symm
    (fun _ _ _ _ hzero => codeOrder_eq_zero hzero) (by decide +kernel)
    [⟨"BTCUSDT", .long, some 3⟩]).2.1

/-- A long row whose stop lies a little below a whole tick, and whose liquidation price lies three
ticks below it. -/
def belowTick : AggregateProtectionCandidate where
  id := "a"
  symbol := "BTCUSDT"
  direction := .long
  quantity := some 1
  entryPrice := some 110
  liquidationPrice := some 97
  priceTick := some 1
  desiredStopLoss := some (100 - 5 / 10 ^ 9)

/-- The security stop is not a whole tick farther than the stop of the row. -/
theorem not_outermost_belowTick :
    ¬ ∀ direction rows, (securityStopForRows direction rows).securityStopPrice = 0 ∨
      (∃ n : ℤ, (securityStopForRows direction rows).securityStopPrice = n * priceTickOf rows) ∧
        (∀ row ∈ rows, 0 < finitePositive row.desiredStopLoss →
          ¬isAbove direction (securityStopForRows direction rows).securityStopPrice
            (lowered direction (finitePositive row.desiredStopLoss) (priceTickOf rows))) ∧
        ∀ row ∈ rows, 0 < row.validLiquidation direction →
          ¬isAbove direction (lowered direction (row.validLiquidation direction)
            (-(priceTickOf rows * 2))) (securityStopForRows direction rows).securityStopPrice := by
  intro h
  have hprice : (securityStopForRows .long [belowTick]).securityStopPrice = 99 := by decide +kernel
  have hspec := h .long [belowTick]
  rw [hprice] at hspec
  rcases hspec with hzero | ⟨-, hout, -⟩
  · norm_num at hzero
  · exact hout belowTick (mem_singleton_self _) (by decide +kernel) (by decide +kernel)

end StopLevels

end CtsEngine
