import CtsEngine.Foundation.Grouping
import CtsEngine.Foundation.JsValue
import CtsEngine.Foundation.Tally
import CtsEngine.Foundation.Rounding
import Mathlib.Algebra.BigOperators.Ring.List

/-!
# The shares of the Strategy Sets

`allocateQuantityAcrossSets` and `allocateQuantityByRatios` of `lib/live-order-coordination.ts`
divide a quantity among the Sets that hold it.  Every share but the last is rounded to twelve
decimals, and the last one is what is left, or nothing where the rounded shares already exceed the
quantity.  A key that comes twice after trimming keeps its later share.
-/

namespace CtsEngine.SetAllocation

open List Keyed Function Int

/-! ## Allocation -/

/-- The trimmed keys without blanks and repetitions, in the order of their first occurrence. -/
def distinctKeys (setKeys : List String) : List String :=
  firsts (fun key => key) ((setKeys.map trim).filter fun key => decide (key ≠ ""))

/-- `allocation[key] = value`: the setter of `__proto__` ignores a number. -/
def assign (allocation : List (String × ℚ)) (key : String) (value : ℚ) : List (String × ℚ) :=
  if key = "__proto__" then allocation else put allocation key value

/-- The loop of an allocation: each key is given its rounded share, and the last one what is left.
-/
def allocationLoop (total : ℚ) : List (String × ℚ) → List (String × ℚ) → ℚ → List (String × ℚ)
  | [], allocation, _ => allocation
  | [(key, _)], allocation, assigned => assign allocation key (roundQuantity (total - assigned))
  | (key, share) :: next :: rest, allocation, assigned =>
    let value := roundQuantity share
    allocationLoop total (next :: rest) (assign allocation key value)
      (roundQuantity (assigned + value))

variable (quantity : ℚ)

/-- The quantity that is allocated. -/
def allocationTotal : ℚ := roundQuantity (finiteNonNegative quantity)

variable (total : ℚ)

def equalShares (keys : List String) : List (String × ℚ) :=
  keys.map fun key => (key, total / keys.length)

def allocateQuantityAcrossSets (setKeys : List String) : List (String × ℚ) :=
  let keys := distinctKeys setKeys
  let total := allocationTotal quantity
  if keys.length = 0 ∨ total ≤ 0 then [] else allocationLoop total (equalShares total keys) [] 0

variable (ratios : List (String × ℚ))

/-- The ratios with a key and a positive value. -/
def normalizedRatios : List (String × ℚ) :=
  (ratios.map fun entry => (trim entry.1, finiteNonNegative entry.2)).filter fun entry =>
    decide (entry.1 ≠ "") && decide (0 < entry.2)

/-- The weighted shares of keys. -/
def weightedShares (normalized : List (String × ℚ)) : List (String × ℚ) :=
  let ratioTotal := (normalized.map Prod.snd).sum
  normalized.map fun entry => (entry.1, total * (entry.2 / ratioTotal))

def allocateQuantityByRatios (fallbackSetKeys : List String) : List (String × ℚ) :=
  let normalized := normalizedRatios ratios
  if normalized.length = 0 then allocateQuantityAcrossSets quantity fallbackSetKeys
  else
    let total := allocationTotal quantity
    if total ≤ 0 then [] else allocationLoop total (weightedShares total normalized) [] 0

/-- An allocation of a quantity to keys: no share is negative, every key has one, and they add up to
the quantity. -/
structure Conserves (allocation : List (String × ℚ)) (keys : List String) (total : ℚ) : Prop where
  nonneg : ∀ entry ∈ allocation, 0 ≤ entry.2
  unique : KeysUnique allocation
  keys : ∀ key, key ∈ allocation.map Prod.fst ↔ key ∈ keys
  sum : (allocation.map Prod.snd).sum = total

variable (shares : List (String × ℚ))

/-- The rounded shares of all keys but the last. -/
def roundedShares : ℚ := (shares.dropLast.map fun share => roundQuantity share.2).sum

/-- By how much the last share differs from what the others leave: the excess of the others, when
they take more than there is. -/
def overspent : ℚ := roundQuantity (total - roundedShares shares) - (total - roundedShares shares)

/-- The rounded shares that a later one with the same key replaces. -/
def replacedShares : ℚ :=
  overwritten (shares.map fun share => (share.1, roundQuantity share.2))

/-- A non-negative multiple of `10 ^ (-12)`, or a number from `10 ^ 21` on. -/
def IsRounded (x : ℚ) : Prop := 0 ≤ x ∧ (OnGrid x ∨ 10 ^ 21 ≤ x)

lemma isRounded_roundQuantity (x : ℚ) : IsRounded (roundQuantity x) := by
  refine ⟨roundQuantity_nonneg x, ?_⟩
  unfold roundQuantity toFixedNonneg
  split_ifs with h
  · exact .inl ⟨_, rfl⟩
  · exact .inr (not_lt.mp h)

variable {x : ℚ} {allocation : List (String × ℚ)}

lemma IsRounded.roundQuantity_eq (h : IsRounded x) : roundQuantity x = x := by
  unfold roundQuantity
  rw [max_eq_right h.1]
  rcases h.2 with hgrid | hlarge
  · exact toFixedNonneg_of_onGrid hgrid
  · exact if_neg (not_lt.mpr hlarge)

lemma IsRounded.add {x y : ℚ} (hx : IsRounded x) (hy : IsRounded y) : IsRounded (x + y) := by
  refine ⟨add_nonneg hx.1 hy.1, ?_⟩
  rcases hx.2 with hxgrid | hxlar
  · rcases hy.2 with hygrid | hylar
    · exact .inl (hxgrid.add hygrid)
    · exact .inr (le_add_of_nonneg_of_le hx.1 hylar)
  · exact .inr (le_add_of_le_of_nonneg hxlar hy.1)

lemma proto_not_mem_assign (h : "__proto__" ∉ allocation.map Prod.fst) (key : String) (value : ℚ) :
    "__proto__" ∉ (assign allocation key value).map Prod.fst := by
  unfold assign
  split_ifs with hkey
  · exact h
  · rw [mem_keys_put]
    exact not_or.mpr ⟨h, fun heq => hkey heq.symm⟩

/-- No allocation has a share under `__proto__`. -/
lemma proto_not_mem_allocationLoop (assigned : ℚ)
    (h : "__proto__" ∉ allocation.map Prod.fst) :
    "__proto__" ∉ (allocationLoop total shares allocation assigned).map Prod.fst := by
  induction shares generalizing allocation assigned with
  | nil => exact h
  | cons share rest ih =>
    cases rest with
    | nil => exact proto_not_mem_assign h _ _
    | cons next rest => exact ih _ (proto_not_mem_assign h _ _)

section

variable {shares : List (String × ℚ)} (hne : shares ≠ [])

include hne

/-- The loop writes the rounded shares, and for the last key what they leave. -/
lemma allocationLoop_eq (hproto : "__proto__" ∉ shares.map Prod.fst)
    (allocation : List (String × ℚ)) {assigned : ℚ} (hassig : IsRounded assigned) :
    allocationLoop total shares allocation assigned = putAll allocation
        ((shares.dropLast.map fun share => (share.1, roundQuantity share.2)) ++
          [((shares.getLast hne).1,
            roundQuantity (total - (assigned + roundedShares shares)))]) := by
  induction shares generalizing allocation assigned with
  | nil => exact absurd rfl hne
  | cons share rest ih =>
    obtain ⟨hkey, hrest⟩ := not_or.mp (mem_cons.not.mp hproto)
    have hput : ∀ value, assign allocation share.1 value = put allocation share.1 value :=
      fun _ => if_neg (Ne.symm hkey)
    cases rest with
    | nil => simp [allocationLoop, hput, putAll, roundedShares]
    | cons next rest =>
      have hval := isRounded_roundQuantity share.2
      have hsum := hassig.add hval
      rw [allocationLoop, hsum.roundQuantity_eq, ih (cons_ne_nil _ _) hrest _ hsum, hput]
      simp [putAll, roundedShares, add_assoc]

lemma overwritten_writes (value : ℚ) :
    overwritten ((shares.dropLast.map fun share => (share.1, roundQuantity share.2)) ++
      [((shares.getLast hne).1, value)]) = replacedShares shares := by
  rw [overwritten_append_singleton _ _ value (roundQuantity (shares.getLast hne).2)]
  unfold replacedShares
  conv_rhs => rw [← dropLast_append_getLast hne, map_append, map_singleton]

/-- An allocation conserves the quantity when every key can be assigned, and what the shares take
beyond it is what later ones replace. -/
lemma conserves_allocationLoop_iff :
    Conserves (allocationLoop total shares [] 0) (shares.map Prod.fst) total ↔
      "__proto__" ∉ shares.map Prod.fst ∧ overspent total shares = replacedShares shares := by
  by_cases hproto : "__proto__" ∈ shares.map Prod.fst
  · refine iff_of_false (fun h => ?_) fun h => h.1 hproto
    exact proto_not_mem_allocationLoop total shares 0 not_mem_nil ((h.keys _).mpr hproto)
  rw [and_iff_right hproto]
  have hzero : IsRounded 0 := ⟨le_rfl, .inl onGrid_zero⟩
  have hemp : KeysUnique ([] : List (String × ℚ)) := nodup_nil
  have hsum := sum_putAll_nil
    ((shares.dropLast.map fun share => (share.1, roundQuantity share.2)) ++
      [((shares.getLast hne).1, roundQuantity (total - roundedShares shares))])
  rw [overwritten_writes hne, map_append, map_map, sum_append, map_singleton, sum_singleton] at hsum
  have hroun : (shares.dropLast.map (Prod.snd ∘ fun share => (share.1, roundQuantity share.2))).sum
      = roundedShares shares := rfl
  rw [allocationLoop_eq total hne hproto [] hzero, zero_add]
  constructor
  · intro hcons
    have htot := hcons.sum
    unfold overspent
    linarith
  · intro hover
    unfold overspent at hover
    constructor
    case nonneg =>
      intro entry hent
      rcases mem_putAll hent with hnil | hwrote
      · cases hnil
      · rcases mem_append.mp hwrote with hshare | hlast
        · obtain ⟨share, -, rfl⟩ := mem_map.mp hshare
          exact roundQuantity_nonneg _
        · rw [mem_singleton.mp hlast]
          exact roundQuantity_nonneg _
    case unique => exact hemp.putAll _
    case keys =>
      intro key
      rw [mem_keys_putAll]
      have hkeys : ((shares.dropLast.map fun share => (share.1, roundQuantity share.2)) ++
          [((shares.getLast hne).1, roundQuantity (total - roundedShares shares))]).map Prod.fst =
          shares.map Prod.fst := by
        conv_rhs => rw [← dropLast_append_getLast hne]
        simp [comp_def]
      rw [hkeys]
      exact or_iff_right not_mem_nil
    case sum => linarith

end

/-- An allocation of nothing is empty, so it conserves the quantity just if there are no keys. -/
lemma conserves_nil_iff (keys : List String) (total : ℚ) :
    Conserves [] keys total ↔ keys = [] ∧ total = 0 := by
  constructor
  · intro h
    exact ⟨eq_nil_iff_forall_not_mem.mpr fun key hkey =>
      not_mem_nil ((h.keys key).mpr hkey), h.sum.symm⟩
  · rintro ⟨rfl, rfl⟩
    exact ⟨forall_mem_nil _, nodup_nil, fun _ => Iff.rfl, rfl⟩

/-! ## The two forms -/

/-- What a share gains by its rounding, from the digits behind the twelfth decimal. -/
def roundingGain (share : ℚ) : ℚ :=
  if share < 10 ^ 21 then
    ((if fract (share * gridScale) < 1 / 2 then 0 else 1) - fract (share * gridScale)) /
      gridScale
  else 0

/-- The share of the last entry without the gains of the others. -/
def leftForLast : ℚ :=
  (shares.getLast?.map Prod.snd).getD 0 -
  (shares.dropLast.map fun share => roundingGain share.2).sum

/-- The shares, with their gains, of the entries whose key comes again. -/
def lostShares : ℚ :=
  overwritten (shares.map fun share => (share.1, share.2 + roundingGain share.2))

/-- When equal shares make up the quantity: there is nothing to share and nobody to share it, or a
share that pays the gains of the other ones is not negative and needs no rounding. -/
def EqualSharesFit (keys : List String) : Prop :=
  if keys = [] then total = 0
  else 0 < total ∧ "__proto__" ∉ keys ∧
    IsRounded (total / keys.length - (keys.length - 1) * roundingGain (total / keys.length))

/-- When weighted shares make up the quantity: an entry whose key comes again has less than half a
step, and the last share pays the gains of the others; or it falls short by what is lost under the
keys that come again. -/
def WeightedSharesFit (normalized : List (String × ℚ)) : Prop :=
  0 < total ∧ "__proto__" ∉ normalized.map Prod.fst ∧
    (((weightedShares total normalized).Pairwise fun share later =>
        share.1 = later.1 → share.2 < 1 / (2 * gridScale)) ∧
      IsRounded (leftForLast (weightedShares total normalized)) ∨
    leftForLast (weightedShares total normalized) = -lostShares (weightedShares total normalized))

/-- Rounding adds the gain. -/
lemma roundQuantity_eq_add (hx : 0 ≤ x) : roundQuantity x = x + roundingGain x := by
  have hscale := gridScale_pos.ne'
  unfold roundQuantity toFixedNonneg roundingGain
  rw [max_eq_right hx]
  split_ifs with hlarge hhalf
  · have hfloor : ⌊x * gridScale + 1 / 2⌋ = ⌊x * gridScale⌋ := by
      rw [floor_eq_iff]
      constructor <;> linarith [floor_add_fract (x * gridScale),
        fract_nonneg (x * gridScale)]
    rw [hfloor, ← self_sub_fract]
    field_simp
    ring
  · have hfloor : ⌊x * gridScale + 1 / 2⌋ = ⌊x * gridScale⌋ + 1 := by
      rw [floor_eq_iff]
      push_cast
      constructor <;> linarith [floor_add_fract (x * gridScale),
        fract_lt_one (x * gridScale)]
    rw [hfloor, cast_add, cast_one, ← self_sub_fract]
    field_simp
    ring
  · rw [add_zero]

/-- Less than half a step is rounded to nothing. -/
lemma roundQuantity_of_lt (hx : 0 ≤ x) (h : x < 1 / (2 * gridScale)) :
    roundQuantity x = 0 := by
  have hscale := gridScale_pos
  rw [lt_div_iff₀ (by positivity)] at h
  have hfloor : ⌊x * gridScale + 1 / 2⌋ = 0 := by
    rw [floor_eq_zero_iff]
    exact ⟨by positivity, by linarith⟩
  have hsmall : x < 10 ^ 21 := by
    unfold gridScale at h
    linarith
  rw [roundQuantity, max_eq_right hx, toFixedNonneg, if_pos hsmall, hfloor, cast_zero, zero_div]

/-- And nothing else is rounded to half a step or less. -/
lemma lt_of_roundQuantity_le (h : roundQuantity x ≤ 1 / (2 * gridScale)) :
    x < 1 / (2 * gridScale) := by
  have hscale := gridScale_pos
  by_contra hge
  rw [not_lt, div_le_iff₀ (by positivity)] at hge
  have hx : 0 ≤ x := by
    by_contra hneg
    linarith [mul_neg_of_neg_of_pos (not_le.mp hneg) hscale]
  have hfloor : (1 : ℚ) ≤ ⌊x * gridScale + 1 / 2⌋ := by
    exact_mod_cast le_floor.mpr (by push_cast; linarith)
  rw [roundQuantity, max_eq_right hx, toFixedNonneg] at h
  split_ifs at h with hlarge
  · rw [div_le_div_iff₀ hscale (by positivity)] at h
    linarith [mul_le_mul_of_nonneg_right hfloor hscale.le]
  · have hone : 1 / (2 * gridScale) < 10 ^ 21 := by
      unfold gridScale
      norm_num
    linarith

lemma allocationTotal_nonneg : 0 ≤ allocationTotal quantity := roundQuantity_nonneg _

lemma overspent_eq_zero_iff :
    overspent total shares = 0 ↔ IsRounded (total - roundedShares shares) := by
  unfold overspent
  rw [sub_eq_zero]
  constructor
  · intro heq
    rw [← heq]
    exact isRounded_roundQuantity _
  · exact IsRounded.roundQuantity_eq

lemma roundQuantity_of_nonpos (hx : x ≤ 0) : roundQuantity x = 0 := by
  rw [roundQuantity, max_eq_left hx, toFixedNonneg_of_onGrid onGrid_zero]

/-- **Overspending.** Rounded shares overspend as much as is replaced just if each replaced one is
nothing and the last share pays the gains, or it falls short by what is replaced. -/
lemma overspent_eq_replacedShares_iff {shares : List (String × ℚ)}
    (hnn : ∀ share ∈ shares, 0 ≤ share.2) (hne : shares ≠ []) :
    overspent (shares.map Prod.snd).sum shares = replacedShares shares ↔
      (shares.Pairwise fun share later => share.1 = later.1 → share.2 < 1 / (2 * gridScale)) ∧
        IsRounded (leftForLast shares) ∨ leftForLast shares = -lostShares shares := by
  have hgain : ∀ share ∈ shares, roundQuantity share.2 = share.2 + roundingGain share.2 :=
    fun share hshare => roundQuantity_eq_add (hnn share hshare)
  have hlost : lostShares shares = replacedShares shares :=
    congrArg overwritten (map_congr_left fun share hshare => by rw [hgain share hshare])
  have hleft : (shares.map Prod.snd).sum - roundedShares shares = leftForLast shares := by
    have hsplit := congrArg (fun shares => (shares.map Prod.snd).sum) (dropLast_append_getLast hne)
    have hroun : roundedShares shares = (shares.dropLast.map Prod.snd).sum +
        (shares.dropLast.map fun share => roundingGain share.2).sum := by
      rw [← sum_map_add, roundedShares]
      exact congrArg sum (map_congr_left fun share hshare => hgain share
        (mem_of_mem_dropLast hshare))
    simp only [map_append, map_singleton, sum_append, sum_singleton] at hsplit
    rw [leftForLast, getLast?_eq_some_getLast hne, Option.map_some, Option.getD_some, hroun]
    linarith
  have hrounded : ∀ entry ∈ shares.map fun share => (share.1, roundQuantity share.2), 0 ≤ entry.2 :=
    forall_mem_map.mpr fun share _ => roundQuantity_nonneg share.2
  obtain ⟨hreplnn, hrepl⟩ := le_overwritten hrounded
  rw [pairwise_map] at hrepl
  have hzero : (shares.Pairwise fun share later =>
      share.1 = later.1 → share.2 < 1 / (2 * gridScale)) → replacedShares shares = 0 := by
    intro hsmall
    refine overwritten_of_pairwise (pairwise_map.mpr (hsmall.imp_of_mem ?_))
    exact fun hmem _ hlt hkey => roundQuantity_of_lt (hnn _ hmem) (hlt hkey)
  rw [hlost, ← hleft]
  constructor
  · intro hover
    rcases lt_or_ge ((shares.map Prod.snd).sum - roundedShares shares) 0 with hneg | hpos
    · refine .inr ?_
      rw [overspent, roundQuantity_of_nonpos hneg.le] at hover
      linarith
    · -- rounding takes half a step at most, which is less than any replaced share
      have hhalf : replacedShares shares ≤ 1 / (2 * gridScale) := by
        rw [← hover, overspent, roundQuantity, max_eq_right hpos]
        exact (le_abs_self _).trans (abs_toFixedNonneg_sub_le _)
      have hsmall := hrepl.imp fun hle hkey => lt_of_roundQuantity_le ((hle hkey).trans hhalf)
      rw [hzero hsmall] at hover
      exact .inl ⟨hsmall, (overspent_eq_zero_iff _ _).mp hover⟩
  · rintro (⟨hsmall, hround⟩ | hshort)
    · rw [hzero hsmall]
      exact (overspent_eq_zero_iff _ _).mpr hround
    · have hnone := roundQuantity_of_nonpos (hshort.trans_le (neg_nonpos.mpr hreplnn))
      rw [overspent, hnone, hshort]
      ring

lemma roundedShares_equalShares {keys : List String} (hkeys : keys ≠ []) :
    roundedShares (equalShares total keys) =
      (keys.length - 1) * roundQuantity (total / keys.length) := by
  have hlen : 1 ≤ keys.length := length_pos_iff.mpr hkeys
  unfold roundedShares equalShares
  rw [← map_dropLast, map_map, show ((fun share : String × ℚ => roundQuantity share.2) ∘
    fun key => (key, total / keys.length)) = fun _ => roundQuantity (total / keys.length) from rfl,
    map_const', sum_replicate, length_dropLast, nsmul_eq_mul, Nat.cast_sub hlen,
    Nat.cast_one]

lemma conserves_acrossSets_iff (setKeys : List String) :
    Conserves (allocateQuantityAcrossSets quantity setKeys) (distinctKeys setKeys)
        (allocationTotal quantity) ↔
      EqualSharesFit (allocationTotal quantity) (distinctKeys setKeys) := by
  have hnodup : (distinctKeys setKeys).Nodup := by
    obtain ⟨-, hnodup, -⟩ := firsts_spec (fun key : String => key)
      ((setKeys.map trim).filter fun key => decide (key ≠ ""))
    rwa [map_id'] at hnodup
  have hnn := allocationTotal_nonneg quantity
  unfold allocateQuantityAcrossSets EqualSharesFit
  generalize distinctKeys setKeys = keys at *
  generalize allocationTotal quantity = total at *
  by_cases hkeys : keys = []
  · subst hkeys
    rw [if_pos (.inl rfl), conserves_nil_iff]
    exact and_iff_right rfl
  rw [if_neg hkeys]
  rcases hnn.eq_or_lt with rfl | hpos
  · rw [if_pos (.inr le_rfl), conserves_nil_iff]
    exact iff_of_false (fun h => hkeys h.1) fun h => lt_irrefl _ h.1
  · have hne : equalShares total keys ≠ [] := by simpa [equalShares] using hkeys
    have hfst : (equalShares total keys).map Prod.fst = keys := by
      simp [equalShares, comp_def]
    have hrepl : replacedShares (equalShares total keys) = 0 := by
      refine overwritten_of_nodup ?_
      rwa [map_map, show Prod.fst ∘ (fun share : String × ℚ =>
        (share.1, roundQuantity share.2)) = Prod.fst from rfl, hfst]
    have hloop := conserves_allocationLoop_iff total hne
    rw [hfst, hrepl, overspent_eq_zero_iff, roundedShares_equalShares total hkeys] at hloop
    have hmul : (keys.length : ℚ) * (total / keys.length) = total :=
      mul_div_cancel₀ _ (Nat.cast_ne_zero.mpr (length_pos_iff.mpr hkeys).ne')
    have hleft : total - (keys.length - 1) * roundQuantity (total / keys.length) =
        total / keys.length - (keys.length - 1) * roundingGain (total / keys.length) := by
      rw [roundQuantity_eq_add (div_nonneg hnn (Nat.cast_nonneg _))]
      linarith
    rw [if_neg, hloop, hleft]
    · exact (and_iff_right hpos).symm
    · rintro (hlen | hle)
      · exact hkeys (length_eq_zero_iff.mp hlen)
      · exact absurd hpos (not_lt.mpr hle)

/-- Positive ratios share out the quantity. -/
lemma weightedShares_spec {normalized : List (String × ℚ)} (hnn : 0 ≤ total)
    (hne : normalized ≠ []) (hratios : ∀ entry ∈ normalized, 0 < entry.2) :
    (∀ share ∈ weightedShares total normalized, 0 ≤ share.2) ∧
      ((weightedShares total normalized).map Prod.snd).sum = total := by
  have hsum : 0 < (normalized.map Prod.snd).sum :=
    sum_pos _ (forall_mem_map.mpr hratios) (by simpa using hne)
  refine ⟨forall_mem_map.mpr fun entry hent => ?_, ?_⟩
  · exact mul_nonneg hnn (div_nonneg (hratios entry hent).le hsum.le)
  · simp only [weightedShares, map_map, comp_def, div_eq_mul_inv, sum_map_mul_left,
      sum_map_mul_right]
    rw [mul_inv_cancel₀ hsum.ne', mul_one]

lemma conserves_byRatios_iff (fallbackSetKeys : List String) (hne : normalizedRatios ratios ≠ []) :
    Conserves (allocateQuantityByRatios quantity ratios fallbackSetKeys)
        ((normalizedRatios ratios).map Prod.fst) (allocationTotal quantity) ↔
      WeightedSharesFit (allocationTotal quantity) (normalizedRatios ratios) := by
  have hnn := allocationTotal_nonneg quantity
  have hratios : ∀ entry ∈ normalizedRatios ratios, 0 < entry.2 := fun entry hent => by
    simpa using (Bool.and_eq_true_iff.mp (mem_filter.mp hent).2).2
  unfold allocateQuantityByRatios WeightedSharesFit
  generalize normalizedRatios ratios = normalized at *
  generalize allocationTotal quantity = total at *
  rw [if_neg fun hlen => hne (length_eq_zero_iff.mp hlen)]
  rcases hnn.eq_or_lt with rfl | hpos
  · rw [if_pos le_rfl, conserves_nil_iff]
    exact iff_of_false (fun h => hne (map_eq_nil_iff.mp h.1)) fun h => lt_irrefl _ h.1
  · have hshar : weightedShares total normalized ≠ [] := by simpa [weightedShares] using hne
    have hfst : (weightedShares total normalized).map Prod.fst = normalized.map Prod.fst := by
      simp [weightedShares]
    have hloop := conserves_allocationLoop_iff total hshar
    obtain ⟨hsharesnn, hsum⟩ := weightedShares_spec total hnn hne hratios
    have hover := overspent_eq_replacedShares_iff hsharesnn hshar
    rw [hsum] at hover
    rw [hfst, hover] at hloop
    rw [if_neg (not_le.mpr hpos), hloop]
    exact (and_iff_right hpos).symm

/-- The keys that an allocation by ratios is about. -/
def ratioKeys (fallbackSetKeys : List String) : List String :=
  if normalizedRatios ratios = [] then distinctKeys fallbackSetKeys
  else (normalizedRatios ratios).map Prod.fst

/-- **Allocations.** Both forms of the allocation give every key one share that is not negative, and
the whole quantity together, just if every key can be assigned and the last exact share pays what
the others gain by their rounding, and no share is lost under a key that comes again. -/
theorem allocations_conserve_iff (quantity : ℚ) (setKeys : List String)
    (ratios : List (String × ℚ)) :
    (Conserves (allocateQuantityAcrossSets quantity setKeys) (distinctKeys setKeys)
        (allocationTotal quantity) ↔
      EqualSharesFit (allocationTotal quantity) (distinctKeys setKeys)) ∧
    (Conserves (allocateQuantityByRatios quantity ratios setKeys) (ratioKeys ratios setKeys)
        (allocationTotal quantity) ↔
      if normalizedRatios ratios = [] then
        EqualSharesFit (allocationTotal quantity) (distinctKeys setKeys)
      else WeightedSharesFit (allocationTotal quantity) (normalizedRatios ratios)) := by
  refine ⟨conserves_acrossSets_iff quantity setKeys, ?_⟩
  unfold ratioKeys
  split_ifs with hnone
  · have hsame : allocateQuantityByRatios quantity ratios setKeys =
        allocateQuantityAcrossSets quantity setKeys := by
      simp [allocateQuantityByRatios, hnone]
    rw [hsame]
    exact conserves_acrossSets_iff quantity setKeys
  · exact conserves_byRatios_iff quantity ratios setKeys hnone

/-- Five Sets share three grid steps: the first four take one each. Two entries of one key: the
first share is lost. -/
theorem not_conserves_small :
    ¬ Conserves (allocateQuantityAcrossSets (3 / 10 ^ 12) ["a", "b", "c", "d", "e"])
        (distinctKeys ["a", "b", "c", "d", "e"]) (allocationTotal (3 / 10 ^ 12)) ∧
      ¬ Conserves (allocateQuantityByRatios 4 [("a", 1), ("a ", 1)] [])
        (ratioKeys [("a", 1), ("a ", 1)] []) (allocationTotal 4) := by
  constructor
  · intro h
    have hsum := h.sum
    revert hsum
    decide +kernel
  · intro h
    have hsum := h.sum
    revert hsum
    decide +kernel

end CtsEngine.SetAllocation
