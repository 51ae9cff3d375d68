import CtsEngine.Foundation.Comparison
import CtsEngine.Foundation.SignificantDigits

/-!
# The fill of a shared control order

`allocateAggregateControlFill` of `lib/aggregate-control-fill.ts`: a cumulative fill of the control
order that several positions share is divided among them by their quantities.  The shares are
rounded to fifteen significant digits, and the last member, in the order of the ids, is given what
is left. -/

namespace CtsEngine.AggregateFill

open Function List SignificantDigits Prod

/-! ## Allocation -/

structure AggregateFillAllocation where
  id : String
  originalQuantity : ℚ
  cumulativeQuantity : ℚ
  fraction : ℚ

/-- `Math.min(quantity, Math.max(0, value))`. -/
def clamp (quantity value : ℚ) : ℚ := min quantity (max 0 value)

/-- The share of a member: what is filled of its fraction, to fifteen significant digits. -/
def roundedShare (total filled quantity : ℚ) : ℚ :=
  clamp quantity (round 15 (filled * (quantity / total)))

/-- The loop over the members. -/
def fillLoop (total filled : ℚ) : List (String × ℚ) → ℚ → List AggregateFillAllocation
  | [], _ => []
  | [(id, quantity)], allocated =>
    [⟨id, quantity, clamp quantity (filled - allocated), quantity / total⟩]
  | (id, quantity) :: next :: rest, allocated =>
    let cumulativeQuantity := roundedShare total filled quantity
    ⟨id, quantity, cumulativeQuantity, quantity / total⟩ ::
      fillLoop total filled (next :: rest) (allocated + cumulativeQuantity)

section Members

variable (localeCompare : String → String → ℤ) (members : List (String × Option ℚ))

/-- The members with a positive quantity, in the order of their ids; a quantity is `none` when it is
not finite. -/
def memberEntries : List (String × ℚ) :=
  Comparison.sortBy (fun a b => (localeCompare a.1 b.1 : ℚ)) (members.filterMap fun member =>
    (member.2.filter fun quantity => decide (0 < quantity)).map fun quantity =>
      (member.1, quantity))

/-- What the members hold together. -/
def memberTotal : ℚ := ((memberEntries localeCompare members).map snd).sum

/-- `allocateAggregateControlFill`; the fill is `none` when it is not finite. -/
def allocateAggregateControlFill (cumulativeFill : Option ℚ) : List AggregateFillAllocation :=
  let total := memberTotal localeCompare members
  let fill := cumulativeFill.getD 0
  if ¬ 0 < total ∨ fill ≤ 0 then []
  else fillLoop total (min total fill) (memberEntries localeCompare members) 0

/-- What an allocation gives to a member. -/
def memberAmount (cumulativeFill : ℚ) (id : String) : ℚ :=
  (((allocateAggregateControlFill localeCompare members (some cumulativeFill)).find? fun item =>
    item.id = id).map (·.cumulativeQuantity)).getD 0

/-- The member that is given what is left. -/
def isLastMember (id : String) : Bool :=
  ((memberEntries localeCompare members).getLast?.map fst) == some id

/-- The part of a fill that the members can take. -/
def filledQuantity (cumulativeFill : ℚ) : ℚ :=
  max 0 (min (memberTotal localeCompare members) cumulativeFill)

/-- What is applied to a member in a run of snapshots: from each the part that exceeds what is
applied already. -/
def appliedQuantity (fills : List ℚ) (id : String) : ℚ :=
  fills.foldl (fun applied fill =>
    applied + max 0 (memberAmount localeCompare members fill id - applied)) 0

end Members

lemma clamp_nonneg {quantity : ℚ} (h : 0 ≤ quantity) (value : ℚ) : 0 ≤ clamp quantity value :=
  le_min h (le_max_left ..)

lemma clamp_le (quantity value : ℚ) : clamp quantity value ≤ quantity := min_le_left ..

lemma clamp_mono (quantity : ℚ) {value other : ℚ} (h : value ≤ other) :
    clamp quantity value ≤ clamp quantity other :=
  min_le_min_left _ (max_le_max_left _ h)

lemma abs_clamp_sub_le {quantity exact : ℚ} (hexact : 0 ≤ exact) (hle : exact ≤ quantity)
    (value : ℚ) : |clamp quantity value - exact| ≤ |value - exact| := by
  unfold clamp
  rcases le_total value 0 with hval | hval
  · rw [max_eq_left hval, min_eq_right (hexact.trans hle), abs_of_nonpos (by linarith),
      abs_of_nonpos (by linarith)]
    linarith
  rw [max_eq_right hval]
  rcases le_total value quantity with hqty | hqty
  · rw [min_eq_right hqty]
  · rw [min_eq_left hqty, abs_of_nonneg (by linarith), abs_of_nonneg (by linarith)]
    linarith

lemma abs_clamp_sub_self_le {quantity exact : ℚ} (hexact : 0 ≤ exact) (hle : exact ≤ quantity)
    (value : ℚ) : |clamp quantity value - value| ≤ |value - exact| := by
  unfold clamp
  rcases le_total value 0 with hval | hval
  · rw [max_eq_left hval, min_eq_right (hexact.trans hle), abs_of_nonneg (by linarith),
      abs_of_nonpos (by linarith)]
    linarith
  rw [max_eq_right hval]
  rcases le_total value quantity with hqty | hqty
  · rw [min_eq_right hqty, sub_self]
    exact abs_nonneg _
  · rw [min_eq_left hqty, abs_of_nonpos (by linarith), abs_of_nonneg (by linarith)]
    linarith

/-! ## Rounded shares -/

/-- The part of an amount that rounding to fifteen significant digits moves it by at most. -/
def shareError : ℚ := 5 / 10 ^ 15

lemma abs_round_sub_le_mul {x : ℚ} (hx : 0 < x) : |round 15 x - x| ≤ shareError * x := by
  have hrnd := abs_round_sub_le 15 x
  have hunit := (unit_bounds (p := 15) (by norm_num) hx).1
  rw [abs_of_pos hx] at hrnd
  unfold shareError
  norm_num at hunit ⊢
  linarith

/-- Shares of a fill within the total. -/
structure Filling (total filled : ℚ) : Prop where
  total_pos : 0 < total
  filled_pos : 0 < filled
  filled_le : filled ≤ total

namespace Filling

variable {total filled quantity : ℚ}

lemma share_pos (h : Filling total filled) (hq : 0 < quantity) : 0 < filled * (quantity / total) :=
  mul_pos h.filled_pos (div_pos hq h.total_pos)

lemma share_le (h : Filling total filled) (hq : 0 < quantity) :
    filled * (quantity / total) ≤ quantity := by
  rw [mul_div_left_comm]
  exact mul_le_of_le_one_right hq.le ((div_le_one h.total_pos).mpr h.filled_le)

lemma abs_roundedShare_sub_le (h : Filling total filled) (hq : 0 < quantity) :
    |roundedShare total filled quantity - filled * (quantity / total)| ≤
      shareError * (filled * (quantity / total)) :=
  (abs_clamp_sub_le (h.share_pos hq).le (h.share_le hq) _).trans
    (abs_round_sub_le_mul (h.share_pos hq))

lemma abs_sum_roundedShare_sub_le (h : Filling total filled) {entries : List (String × ℚ)}
    (hpos : ∀ entry ∈ entries, 0 < entry.2) :
    |(entries.map fun entry => roundedShare total filled entry.2).sum -
        filled * ((entries.map snd).sum / total)| ≤
      shareError * (filled * ((entries.map snd).sum / total)) := by
  induction entries with
  | nil => simp
  | cons entry rest ih =>
    have hfst := abs_le.mp (h.abs_roundedShare_sub_le (hpos entry (mem_cons_self ..)))
    have hrest := abs_le.mp (ih fun other hoth => hpos other (mem_cons_of_mem _ hoth))
    simp only [map_cons, sum_cons, add_div]
    rw [abs_le]
    constructor <;> linarith

end Filling

/-- What the last member is given, after the rounded shares of the others. -/
def lastShare (total filled : ℚ) (others : List (String × ℚ)) (quantity : ℚ) : ℚ :=
  clamp quantity (filled - (others.map fun entry => roundedShare total filled entry.2).sum)

lemma fillLoop_append_singleton (total filled : ℚ) (others : List (String × ℚ))
    (last : String × ℚ) (allocated : ℚ) :
    fillLoop total filled (others ++ [last]) allocated = (others.map fun entry =>
        ⟨entry.1, entry.2, roundedShare total filled entry.2, entry.2 / total⟩) ++
      [⟨last.1, last.2, clamp last.2 (filled - (allocated +
        (others.map fun entry => roundedShare total filled entry.2).sum)), last.2 / total⟩] := by
  induction others generalizing allocated with
  | nil => simp [fillLoop]
  | cons entry rest ih =>
    obtain ⟨next, tail, htail⟩ : ∃ next tail, rest ++ [last] = next :: tail :=
      exists_cons_of_ne_nil (by simp)
    have hrest := ih (allocated + roundedShare total filled entry.2)
    rw [htail] at hrest
    rw [cons_append, htail, fillLoop, hrest, add_assoc]
    simp

namespace Filling

variable {total filled : ℚ} {others : List (String × ℚ)} {last : String × ℚ}

section

variable (h : Filling total filled) (hpos : ∀ entry ∈ others ++ [last], 0 < entry.2)
  (htot : ((others ++ [last]).map snd).sum = total)

include h hpos htot

lemma abs_left_sub_le : |filled - (others.map fun entry => roundedShare total filled entry.2).sum -
        filled * (last.2 / total)| ≤ shareError * filled := by
  have hoths := h.abs_sum_roundedShare_sub_le fun entry hent =>
    hpos entry (mem_append_left _ hent)
  have hlast : 0 < last.2 := hpos last (mem_concat_self)
  rw [map_append, sum_append, map_singleton, sum_singleton] at htot
  have hsplit : filled * ((others.map snd).sum / total) =
      filled - filled * (last.2 / total) := by
    rw [← htot]
    have hne : (others.map snd).sum + last.2 ≠ 0 := htot ▸ h.total_pos.ne'
    field_simp
    ring
  have herror : (0 : ℚ) ≤ shareError := by unfold shareError; norm_num
  have hshare := mul_nonneg herror (h.share_pos hlast).le
  rw [hsplit, abs_sub_comm] at hoths
  have hsame : filled - (others.map fun entry => roundedShare total filled entry.2).sum -
      filled * (last.2 / total) = filled - filled * (last.2 / total) -
        (others.map fun entry => roundedShare total filled entry.2).sum := by ring
  rw [hsame]
  linarith

lemma abs_lastShare_sub_le :
    |lastShare total filled others last.2 - filled * (last.2 / total)| ≤ shareError * filled :=
  have hlast := hpos last (mem_concat_self)
  (abs_clamp_sub_le (h.share_pos hlast).le (h.share_le hlast) _).trans (h.abs_left_sub_le hpos htot)

lemma abs_sum_sub_le : |(others.map fun entry => roundedShare total filled entry.2).sum +
        lastShare total filled others last.2 - filled| ≤ shareError * filled := by
  have hlast := hpos last (mem_concat_self)
  have hself := (abs_clamp_sub_self_le (h.share_pos hlast).le (h.share_le hlast)
    (filled - (others.map fun entry => roundedShare total filled entry.2).sum)).trans
    (h.abs_left_sub_le hpos htot)
  have hsame : (others.map fun entry => roundedShare total filled entry.2).sum +
      lastShare total filled others last.2 - filled = lastShare total filled others last.2 -
        (filled - (others.map fun entry => roundedShare total filled entry.2).sum) := by ring
  rw [hsame]
  exact hself

end

end Filling

/-! ## Amounts -/

section Amounts

variable {localeCompare : String → String → ℤ} {members : List (String × Option ℚ)}

lemma memberEntries_pos : ∀ entry ∈ memberEntries localeCompare members, 0 < entry.2 := by
  intro entry hent
  obtain ⟨member, -, hmem⟩ := mem_filterMap.mp ((Comparison.sortBy_perm _ _).mem_iff.mp hent)
  obtain ⟨quantity, hqty, rfl⟩ := Option.map_eq_some_iff.mp hmem
  exact of_decide_eq_true (Option.filter_eq_some_iff.mp hqty).2

lemma mem_of_mem_memberEntries {entry : String × ℚ}
    (h : entry ∈ memberEntries localeCompare members) : (entry.1, some entry.2) ∈ members := by
  obtain ⟨member, hmem, hmembe⟩ := mem_filterMap.mp ((Comparison.sortBy_perm _ _).mem_iff.mp h)
  obtain ⟨quantity, hqty, rfl⟩ := Option.map_eq_some_iff.mp hmembe
  have hsome := (Option.filter_eq_some_iff.mp hqty).1
  rwa [← hsome]

lemma memberEntries_split (h : 0 < memberTotal localeCompare members) :
    ∃ others last, memberEntries localeCompare members = others ++ [last] := by
  rcases eq_nil_or_concat (memberEntries localeCompare members) with hnil | ⟨others, last, heq⟩
  · rw [memberTotal, hnil] at h
    exact absurd h (lt_irrefl 0)
  · exact ⟨others, last, by simpa using heq⟩

variable (localeCompare members) in
lemma allocate_cases (fill : ℚ) :
    (allocateAggregateControlFill localeCompare members (some fill) = [] ∧
        filledQuantity localeCompare members fill = 0) ∨
      Filling (memberTotal localeCompare members) (filledQuantity localeCompare members fill) ∧
        allocateAggregateControlFill localeCompare members (some fill) =
          fillLoop (memberTotal localeCompare members)
            (filledQuantity localeCompare members fill)
            (memberEntries localeCompare members) 0 := by
  have hnn : 0 ≤ memberTotal localeCompare members := by
    refine sum_nonneg fun quantity hqty => ?_
    obtain ⟨entry, hent, rfl⟩ := mem_map.mp hqty
    exact (memberEntries_pos entry hent).le
  unfold allocateAggregateControlFill filledQuantity
  dsimp only [Option.getD_some]
  by_cases hnone : ¬ 0 < memberTotal localeCompare members ∨ fill ≤ 0
  · rw [if_pos hnone]
    refine .inl ⟨rfl, max_eq_left ?_⟩
    rcases hnone with htot | hfill
    · exact (min_le_left ..).trans (not_lt.mp htot)
    · exact (min_le_right ..).trans hfill
  · rw [if_neg hnone]
    obtain ⟨htot, hfill⟩ := not_or.mp hnone
    have htot := not_not.mp htot
    have hmin : 0 < min (memberTotal localeCompare members) fill := lt_min htot (not_le.mp hfill)
    rw [max_eq_right hmin.le]
    exact .inr ⟨⟨htot, hmin, min_le_left ..⟩, rfl⟩

variable {fill : ℚ}

lemma filledQuantity_mono {fill' : ℚ} (h : fill ≤ fill') :
    filledQuantity localeCompare members fill ≤ filledQuantity localeCompare members fill' :=
  max_le_max_left _ (min_le_min_left _ h)

lemma mem_allocate {item : AggregateFillAllocation}
    (h : item ∈ allocateAggregateControlFill localeCompare members (some fill)) :
    (item.id, some item.originalQuantity) ∈ members ∧ 0 ≤ item.cumulativeQuantity ∧
      item.cumulativeQuantity ≤ item.originalQuantity := by
  rcases allocate_cases localeCompare members fill with ⟨hnil, -⟩ | ⟨hfill, hloop⟩
  · rw [hnil] at h
    cases h
  obtain ⟨others, last, hsplit⟩ := memberEntries_split hfill.total_pos
  rw [hloop, hsplit, fillLoop_append_singleton] at h
  rcases mem_append.mp h with hoth | hlast
  · obtain ⟨entry, hent, rfl⟩ := mem_map.mp hoth
    have hmem : entry ∈ memberEntries localeCompare members := hsplit ▸ mem_append_left _ hent
    exact ⟨mem_of_mem_memberEntries hmem, clamp_nonneg (memberEntries_pos entry hmem).le _,
      clamp_le ..⟩
  · rw [mem_singleton.mp hlast]
    have hmem : last ∈ memberEntries localeCompare members := hsplit ▸ mem_concat_self
    exact ⟨mem_of_mem_memberEntries hmem, clamp_nonneg (memberEntries_pos last hmem).le _,
      clamp_le ..⟩

variable (localeCompare members) in
lemma abs_sum_allocate_sub_le (fill : ℚ) :
    |((allocateAggregateControlFill localeCompare members (some fill)).map
        (·.cumulativeQuantity)).sum - filledQuantity localeCompare members fill| ≤
      shareError * filledQuantity localeCompare members fill := by
  rcases allocate_cases localeCompare members fill with ⟨hnil, hzero⟩ | ⟨hfill, hloop⟩
  · simp [hnil, hzero]
  obtain ⟨others, last, hsplit⟩ := memberEntries_split hfill.total_pos
  have hpos := @memberEntries_pos localeCompare members
  have htot : ((memberEntries localeCompare members).map snd).sum =
      memberTotal localeCompare members := rfl
  rw [hsplit] at hpos htot
  have hsum := hfill.abs_sum_sub_le hpos htot
  rw [hloop, hsplit, fillLoop_append_singleton, zero_add]
  simpa [comp_def, lastShare] using hsum

lemma memberAmount_eq {others : List (String × ℚ)} {last : String × ℚ}
    (hsplit : memberEntries localeCompare members = others ++ [last])
    (hloop : allocateAggregateControlFill localeCompare members (some fill) =
      fillLoop (memberTotal localeCompare members) (filledQuantity localeCompare members fill)
        (memberEntries localeCompare members) 0)
    (id : String) : memberAmount localeCompare members fill id =
      ((others.find? fun entry => entry.1 = id).map fun entry =>
        roundedShare (memberTotal localeCompare members)
          (filledQuantity localeCompare members fill) entry.2).getD
        (if last.1 = id then lastShare (memberTotal localeCompare members)
          (filledQuantity localeCompare members fill) others last.2 else 0) := by
  unfold memberAmount
  rw [hloop, hsplit, fillLoop_append_singleton, find?_append, find?_map, comp_def]
  cases others.find? fun entry => entry.1 = id with
  | some entry => simp
  | none =>
    by_cases hlast : last.1 = id
    · simp [hlast, lastShare]
    · simp [hlast]

lemma memberAmount_nonneg (fill : ℚ) (id : String) :
    0 ≤ memberAmount localeCompare members fill id := by
  unfold memberAmount
  cases hfind : (allocateAggregateControlFill localeCompare members (some fill)).find?
      fun item => item.id = id with
  | none => exact le_rfl
  | some item => exact (mem_allocate (mem_of_find?_eq_some hfind)).2.1

/-- Amounts rise with the fill, up to the rounding for the last. -/
lemma memberAmount_mono {fill' : ℚ} (h : fill ≤ fill') (id : String) :
    (isLastMember localeCompare members id = false →
        memberAmount localeCompare members fill id ≤ memberAmount localeCompare members fill' id) ∧
      memberAmount localeCompare members fill id ≤ memberAmount localeCompare members fill' id +
          2 * shareError * filledQuantity localeCompare members fill' := by
  have hfille := @filledQuantity_mono localeCompare members _ _ h
  have herror : (0 : ℚ) ≤ shareError := by unfold shareError; norm_num
  have hslack : 0 ≤ 2 * shareError * filledQuantity localeCompare members fill' :=
    mul_nonneg (mul_nonneg (by norm_num) herror) (le_max_left ..)
  have hnn := @memberAmount_nonneg localeCompare members fill' id
  rcases allocate_cases localeCompare members fill with ⟨hnil, -⟩ | ⟨hfill, hloop⟩
  · have hzero : memberAmount localeCompare members fill id = 0 := by simp [memberAmount, hnil]
    rw [hzero]
    exact ⟨fun _ => hnn, add_nonneg hnn hslack⟩
  rcases allocate_cases localeCompare members fill' with ⟨-, hzero'⟩ | ⟨hfill', hloop'⟩
  · exact absurd hfill.filled_pos (not_lt.mpr (hfille.trans hzero'.le))
  obtain ⟨others, last, hsplit⟩ := memberEntries_split hfill.total_pos
  have hpos := @memberEntries_pos localeCompare members
  have htot : ((memberEntries localeCompare members).map snd).sum =
      memberTotal localeCompare members := rfl
  rw [hsplit] at hpos htot
  rw [memberAmount_eq hsplit hloop, memberAmount_eq hsplit hloop']
  cases hfind : others.find? fun entry => entry.1 = id with
  | some entry =>
    -- A rounded share: rounding keeps the order.
    have hent := hpos entry (mem_append_left _ (mem_of_find?_eq_some hfind))
    have hle : roundedShare (memberTotal localeCompare members)
        (filledQuantity localeCompare members fill) entry.2 ≤
          roundedShare (memberTotal localeCompare members)
            (filledQuantity localeCompare members fill') entry.2 :=
      clamp_mono _ (round_mono (by norm_num) (mul_le_mul_of_nonneg_right hfille
        (div_pos hent hfill.total_pos).le))
    exact ⟨fun _ => hle, hle.trans (le_add_of_nonneg_right hslack)⟩
  | none =>
    simp only [Option.map_none, Option.getD_none]
    split_ifs with hlast
    · -- What is left for the last member follows its exact share.
      refine ⟨fun hnot => ?_, ?_⟩
      · rw [isLastMember, hsplit] at hnot
        simp [hlast] at hnot
      · have hlow := abs_le.mp (hfill.abs_lastShare_sub_le hpos htot)
        have hhigh := abs_le.mp (hfill'.abs_lastShare_sub_le hpos htot)
        have hlastPos := hpos last (mem_concat_self)
        have hexact := mul_le_mul_of_nonneg_right hfille (div_pos hlastPos hfill.total_pos).le
        have hsmall := mul_le_mul_of_nonneg_left hfille herror
        linarith
    · exact ⟨fun _ => le_rfl, by simpa using hslack⟩

/-! ## Runs of snapshots -/

/-- What is applied after some snapshots is nothing or the amount of one of them, and no less than
the amount of the last one. -/
lemma appliedQuantity_cases (fills : List ℚ) (id : String) :
    (appliedQuantity localeCompare members fills id = 0 ∨
        ∃ fill ∈ fills, appliedQuantity localeCompare members fills id =
          memberAmount localeCompare members fill id) ∧
      ∀ fill ∈ fills, memberAmount localeCompare members fill id ≤
        appliedQuantity localeCompare members fills id := by
  induction fills using reverseRecOn with
  | nil => exact ⟨.inl rfl, forall_mem_nil _⟩
  | append_singleton fills fill ih =>
    obtain ⟨hcases, hboun⟩ := ih
    have hstep : appliedQuantity localeCompare members (fills ++ [fill]) id =
        max (appliedQuantity localeCompare members fills id)
          (memberAmount localeCompare members fill id) := by
      unfold appliedQuantity
      rw [foldl_append, foldl_cons, foldl_nil, ← max_add_add_left, add_zero, add_sub_cancel]
    rw [hstep]
    constructor
    · rcases max_choice (appliedQuantity localeCompare members fills id)
        (memberAmount localeCompare members fill id) with hold | hnew
      · rw [hold]
        exact hcases.imp_right fun ⟨other, hoth, heq⟩ =>
          ⟨other, mem_append_left _ hoth, heq⟩
      · exact .inr ⟨fill, mem_concat_self, hnew⟩
    · intro other hoth
      rcases mem_append.mp hoth with hold | hlast
      · exact le_max_of_le_left (hboun other hold)
      · rw [mem_singleton.mp hlast]
        exact le_max_right ..

/-- After growing snapshots a member has the amount of the last one; the last member may keep an
earlier amount that the rounding has made larger. -/
def AppliesLast (localeCompare : String → String → ℤ) (members : List (String × Option ℚ))
    (fills : List ℚ) (fill : ℚ) (id : String) : Prop :=
  (isLastMember localeCompare members id = false →
      appliedQuantity localeCompare members (fills ++ [fill]) id =
        memberAmount localeCompare members fill id) ∧
    memberAmount localeCompare members fill id ≤
      appliedQuantity localeCompare members (fills ++ [fill]) id ∧
    appliedQuantity localeCompare members (fills ++ [fill]) id ≤
      memberAmount localeCompare members fill id +
        2 * (5 / 10 ^ 15) * filledQuantity localeCompare members fill

lemma appliedQuantity_append_singleton {fills : List ℚ} {fill : ℚ}
    (hsort : (fills ++ [fill]).Pairwise (· ≤ ·)) (id : String) :
    AppliesLast localeCompare members fills fill id := by
  unfold AppliesLast
  obtain ⟨hcases, hboun⟩ := @appliedQuantity_cases localeCompare members (fills ++ [fill]) id
  have hlast := hboun fill (mem_concat_self)
  have hbef : ∀ other ∈ fills ++ [fill], other ≤ fill := by
    intro other hoth
    rcases mem_append.mp hoth with hold | hnew
    · exact (pairwise_append.mp hsort).2.2 other hold fill (mem_singleton_self fill)
    · exact (mem_singleton.mp hnew).le
  rcases hcases with hzero | ⟨other, hoth, heq⟩
  · -- Nothing is applied, so the last amount is nothing.
    have hamt : memberAmount localeCompare members fill id = 0 :=
      (hlast.trans hzero.le).antisymm (memberAmount_nonneg fill id)
    have hmono := (@memberAmount_mono localeCompare members _ _ (le_refl fill) id).2
    rw [hzero, hamt] at *
    exact ⟨fun _ => rfl, le_rfl, hmono⟩
  · obtain ⟨hsame, hslack⟩ := @memberAmount_mono localeCompare members _ _ (hbef other hoth) id
    rw [← heq] at hsame hslack
    exact ⟨fun hnot => (hsame hnot).antisymm hlast, hlast, hslack⟩

end Amounts

/-- How fills are divided among members: every amount lies between zero and the quantity of its
member, the amounts make up the fill, a larger fill gives no member less, and a run of growing
snapshots applies the amounts of the last one. -/
structure Distributes (localeCompare : String → String → ℤ) (members : List (String × Option ℚ)) :
    Prop where
  items : ∀ fill, ∀ item ∈ allocateAggregateControlFill localeCompare members (some fill),
    (item.id, some item.originalQuantity) ∈ members ∧ 0 ≤ item.cumulativeQuantity ∧
      item.cumulativeQuantity ≤ item.originalQuantity
  total : ∀ fill, |((allocateAggregateControlFill localeCompare members (some fill)).map
      (·.cumulativeQuantity)).sum - filledQuantity localeCompare members fill| ≤
    5 / 10 ^ 15 * filledQuantity localeCompare members fill
  monotone : ∀ fill fill', fill ≤ fill' → ∀ id, (isLastMember localeCompare members id = false →
        memberAmount localeCompare members fill id ≤ memberAmount localeCompare members fill' id) ∧
      memberAmount localeCompare members fill id ≤ memberAmount localeCompare members fill' id +
          2 * (5 / 10 ^ 15) * filledQuantity localeCompare members fill'
  applied : ∀ fills fill, (fills ++ [fill]).Pairwise (· ≤ ·) → ∀ id,
    AppliesLast localeCompare members fills fill id

/-- **Shared fills.** Whatever the members hold and however their ids are ordered, fills are divided
without loss or double counting, up to rounding to fifteen significant digits. -/
theorem allocateAggregateControlFill_distributes (localeCompare : String → String → ℤ)
    (members : List (String × Option ℚ)) : Distributes localeCompare members where
  items := fun _ _ h => mem_allocate h
  total := abs_sum_allocate_sub_le localeCompare members
  monotone := fun _ _ h id => memberAmount_mono h id
  applied := fun _ _ h id => appliedQuantity_append_singleton h id

/-- Two members with one each. -/
def evenMembers : List (String × Option ℚ) := [("a", some 1), ("b", some 1)]

lemma memberEntries_evenMembers : memberEntries codeOrder evenMembers = [("a", 1), ("b", 1)] := by
  exact mergeSort_of_pairwise (by decide +kernel)

lemma memberAmount_evenMembers {fill : ℚ} (hpos : 0 < fill) (hle : fill ≤ 2) :
    memberAmount codeOrder evenMembers fill "b" =
      clamp 1 (fill - clamp 1 (round 15 (fill * (1 / 2)))) := by
  have htot : memberTotal codeOrder evenMembers = 2 := by
    rw [memberTotal, memberEntries_evenMembers]
    norm_num
  unfold memberAmount allocateAggregateControlFill
  rw [htot, memberEntries_evenMembers]
  simp [fillLoop, roundedShare, hle, hpos.not_ge]

/-- The share of the first member is rounded up, and the second is given less of a larger fill. -/
theorem not_memberAmount_mono : ¬ ∀ (members : List (String × Option ℚ)) (fill fill' : ℚ)
    (id : String), fill ≤ fill' →
      memberAmount codeOrder members fill id ≤ memberAmount codeOrder members fill' id := by
  intro h
  have hle := h evenMembers (1 + 4 / 2 ^ 52) (1 + 5 / 2 ^ 52) "b" (by norm_num)
  have hunit : ∀ z : ℚ, 1 / 2 ≤ z → z < 1 → unit 15 z = 1 / 10 ^ 15 := by
    intro z hlow hhigh
    rw [unit_eq (k := -15) (by linarith) (by norm_num; linarith) (by norm_num; linarith)]
    norm_num
  have hfirst : round 15 ((1 + 4 / 2 ^ 52) * (1 / 2)) = 1 / 2 := by
    rw [round_eq_mul (m := 500000000000000) (by norm_num)]
    all_goals norm_num [hunit]
  have hsecond : round 15 ((1 + 5 / 2 ^ 52) * (1 / 2)) = 1 / 2 + 1 / 10 ^ 15 := by
    rw [round_eq_mul (m := 500000000000001) (by norm_num)]
    all_goals norm_num [hunit]
  rw [memberAmount_evenMembers (by norm_num) (by norm_num),
    memberAmount_evenMembers (by norm_num) (by norm_num), hfirst, hsecond] at hle
  norm_num [clamp] at hle

end CtsEngine.AggregateFill
