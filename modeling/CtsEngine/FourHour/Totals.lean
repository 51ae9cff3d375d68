import CtsEngine.FourHour.Parsing

/-!
# The totals of recorded items

Every recorded item counts into the window of its time.  What it counts is a bucket of its own: a
bucket that balances, whose counts are whole numbers, and that is not empty.  An accumulator is the
tally of these buckets, and the increments of a batch, read field by field, give them back.
-/

namespace CtsEngine

open List Nat HistoricRecording Pi

/-- The bucket with the given amounts. -/
def bucketOf (amounts : List (BucketProperty × ℚ)) : HistoricBucket :=
  (amounts.map fun amount => single amount.1 amount.2).sum

/-- The windows of the items, and what each item counts there. -/
def itemMarks {A : Type*} (start : A → Option ℕ) (amounts : A → List (BucketProperty × ℚ))
    (items : List A) : List (ℕ × HistoricBucket) :=
  items.filterMap fun item => (start item).map fun bucketStartMs =>
    (bucketStartMs, bucketOf (amounts item))

variable (dateParse : String → Option ℤ)

/-- What a recording counts. -/
def HistoricRecording.marks : HistoricRecording → List (ℕ × HistoricBucket)
  | .coverage times indicationConfigs strategyConfigs =>
    (historicFourHourBucketStarts dateParse times).map fun bucketStartMs =>
      (bucketStartMs, bucketOf (coverageAmounts indicationConfigs strategyConfigs))
  | .indications results aliasCount =>
    let multiplier := wholeNumber aliasCount 1
    if multiplier = 0 then []
    else itemMarks (fun result => historicFourHourBucketStartMs dateParse result.timestamp)
      (indicationAmounts multiplier) results
  | .positions items aliasCount fallbackPositionCostPct =>
    let multiplier := wholeNumber aliasCount 1
    if multiplier = 0 then []
    else itemMarks (fun position => historicFourHourBucketStartMs dateParse position.eventTime)
      (positionAmounts multiplier (max 0 (finiteOr fallbackPositionCostPct 0))) items

/-- What all batches count. -/
def recordedMarks (batches : List (List HistoricRecording)) : List (ℕ × HistoricBucket) :=
  batches.flatMap fun recordings => recordings.flatMap (marks dateParse)

/-! ## Balanced buckets -/

/-- The numbers of a bucket that count items. -/
def BucketProperty.isCount : BucketProperty → Bool
  | netPnlPct | grossProfitPct | grossLossPct | positionCostPct => false
  | _ => true

/-- The counts are whole numbers, and the parts of a total add up to it. -/
structure Balanced (bucket : HistoricBucket) : Prop where
  whole : ∀ property, property.isCount = true → ∃ n : ℕ, bucket property = n
  results : bucket .setResultsTotal = bucket .setResultsClosed + bucket .setResultsOpen
  outcomes : bucket .setResultsClosed = bucket .wins + bucket .losses + bucket .breakeven
  directions : bucket .indicationsTotal =
    bucket .indicationsBuy + bucket .indicationsSell + bucket .indicationsNeutral

lemma Balanced.zero : Balanced 0 where
  whole := fun _ _ => ⟨0, cast_zero.symm⟩
  results := (add_zero _).symm
  outcomes := by simp
  directions := by simp

lemma Balanced.add {left right : HistoricBucket} (hl : Balanced left) (hr : Balanced right) :
    Balanced (left + right) where
  whole := by
    intro property hcnt
    obtain ⟨m, hm⟩ := hl.whole property hcnt
    obtain ⟨n, hn⟩ := hr.whole property hcnt
    exact ⟨m + n, by rw [Pi.add_apply, hm, hn, cast_add]⟩
  results := by
    simp only [Pi.add_apply, hl.results, hr.results]
    ring
  outcomes := by
    simp only [Pi.add_apply, hl.outcomes, hr.outcomes]
    ring
  directions := by
    simp only [Pi.add_apply, hl.directions, hr.directions]
    ring

lemma Balanced.sum {buckets : List HistoricBucket} (h : ∀ bucket ∈ buckets, Balanced bucket) :
    Balanced buckets.sum := by
  induction buckets with
  | nil => exact Balanced.zero
  | cons bucket buckets ih =>
    exact (h bucket (mem_cons_self ..)).add (ih fun other hoth => h other (mem_cons_of_mem _ hoth))

/-- The number of evaluations, indications and set results that a bucket counts. -/
def counted (bucket : HistoricBucket) : ℚ :=
  bucket .symbols + bucket .indicationsTotal + bucket .setResultsTotal

lemma counted_add (left right : HistoricBucket) :
    counted (left + right) = counted left + counted right := by
  simp only [counted, Pi.add_apply]
  ring

/-- A bucket that an item counts. -/
structure MarkOk (bucket : HistoricBucket) : Prop extends Balanced bucket where
  counted_pos : 0 < counted bucket

lemma Balanced.counted_nonneg {bucket : HistoricBucket} (h : Balanced bucket) :
    0 ≤ counted bucket := by
  obtain ⟨symbols, hsymb⟩ := h.whole .symbols rfl
  obtain ⟨indications, hindic⟩ := h.whole .indicationsTotal rfl
  obtain ⟨results, hress⟩ := h.whole .setResultsTotal rfl
  unfold counted
  rw [hsymb, hindic, hress]
  positivity

lemma bucketOf_whole {amounts : List (BucketProperty × ℚ)}
    (h : ∀ amount ∈ amounts, amount.1.isCount = true → ∃ n : ℕ, amount.2 = n)
    (property : BucketProperty) (hcnt : property.isCount = true) :
    ∃ n : ℕ, bucketOf amounts property = n := by
  induction amounts with
  | nil => exact ⟨0, cast_zero.symm⟩
  | cons amount amounts ih =>
    obtain ⟨rest, hrest⟩ := ih fun other hoth => h other (mem_cons_of_mem _ hoth)
    have hcons : bucketOf (amount :: amounts) property =
        single (M := fun _ => ℚ) amount.1 amount.2 property + bucketOf amounts property := by
      simp [bucketOf]
    by_cases heq : property = amount.1
    · obtain ⟨n, hn⟩ := h amount (mem_cons_self ..) (heq ▸ hcnt)
      exact ⟨n + rest, by rw [hcons, heq, single_eq_same, ← heq, hrest, hn, cast_add]⟩
    · exact ⟨rest, by rw [hcons, single_eq_of_ne heq, zero_add, hrest]⟩

lemma coverageAmounts_ok (indicationConfigs strategyConfigs : Double) :
    MarkOk (bucketOf (coverageAmounts indicationConfigs strategyConfigs)) where
  whole := by
    refine bucketOf_whole ?_
    intro amount hamt _
    simp only [coverageAmounts, mem_cons, not_mem_nil, or_false] at hamt
    rcases hamt with rfl | rfl | rfl
    · exact ⟨1, cast_one.symm⟩
    · exact ⟨_, rfl⟩
    · exact ⟨_, rfl⟩
  results := by simp [bucketOf, coverageAmounts]
  outcomes := by simp [bucketOf, coverageAmounts]
  directions := by simp [bucketOf, coverageAmounts]
  counted_pos := by simp [counted, bucketOf, coverageAmounts]

variable {multiplier : ℕ}

lemma indicationAmounts_ok (hpos : multiplier ≠ 0) (result : HistoricIndication) :
    MarkOk (bucketOf (indicationAmounts multiplier result)) where
  whole := by
    refine bucketOf_whole ?_
    intro amount hamt _
    simp only [indicationAmounts, mem_cons, not_mem_nil, or_false] at hamt
    rcases hamt with rfl | rfl <;> exact ⟨multiplier, rfl⟩
  results := by
    unfold indicationAmounts
    split_ifs <;> simp [bucketOf]
  outcomes := by
    unfold indicationAmounts
    split_ifs <;> simp [bucketOf]
  directions := by
    unfold indicationAmounts
    split_ifs <;> simp [bucketOf]
  counted_pos := by
    have hmult : 0 < multiplier := pos_of_ne_zero hpos
    unfold indicationAmounts
    split_ifs <;> simpa [counted, bucketOf]

lemma bucketOf_append (left right : List (BucketProperty × ℚ)) :
    bucketOf (left ++ right) = bucketOf left + bucketOf right := by
  simp [bucketOf]

lemma outcomeAmounts_ok (multiplier : ℕ) (resultPct : ℚ) : (∀ property, property.isCount = true →
      ∃ n : ℕ, bucketOf (outcomeAmounts multiplier resultPct) property = n) ∧
    bucketOf (outcomeAmounts multiplier resultPct) .wins +
      bucketOf (outcomeAmounts multiplier resultPct) .losses +
      bucketOf (outcomeAmounts multiplier resultPct) .breakeven = multiplier ∧
    ∀ property, property ∉ [BucketProperty.wins, .losses, .breakeven, .grossProfitPct,
      .grossLossPct] → bucketOf (outcomeAmounts multiplier resultPct) property = 0 := by
  refine ⟨bucketOf_whole ?_, ?_, ?_⟩
  · intro amount hamt hcnt
    unfold outcomeAmounts at hamt
    split_ifs at hamt <;>
      simp only [mem_cons, not_mem_nil, or_false] at hamt
    · rcases hamt with rfl | rfl
      · exact ⟨multiplier, rfl⟩
      · cases hcnt
    · rcases hamt with rfl | rfl
      · exact ⟨multiplier, rfl⟩
      · cases hcnt
    · exact ⟨multiplier, by rw [hamt]⟩
  · unfold outcomeAmounts
    split_ifs <;> simp [bucketOf]
  · intro property hprop
    simp only [mem_cons, not_or] at hprop
    unfold outcomeAmounts
    split_ifs <;> simp [bucketOf, hprop]

lemma costAmounts_ok (multiplier : ℕ) (positionCostPct : ℚ) : (∀ property, property.isCount = true →
      ∃ n : ℕ, bucketOf (costAmounts multiplier positionCostPct) property = n) ∧
    ∀ property, property ∉ [BucketProperty.positionCostPct, .positionCostSamples] →
      bucketOf (costAmounts multiplier positionCostPct) property = 0 := by
  constructor
  · refine bucketOf_whole ?_
    intro amount hamt hcnt
    unfold costAmounts at hamt
    split_ifs at hamt
    · simp only [mem_cons, not_mem_nil, or_false] at hamt
      rcases hamt with rfl | rfl
      · cases hcnt
      · exact ⟨multiplier, rfl⟩
    · cases hamt
  · intro property hprop
    simp only [mem_cons, not_or] at hprop
    unfold costAmounts
    split_ifs <;> simp [bucketOf, hprop]

lemma openAmounts_ok (hpos : multiplier ≠ 0) :
    MarkOk (bucketOf [(.setResultsTotal, (multiplier : ℚ)), (.setResultsOpen, (multiplier : ℚ))])
    where
  whole := by
    refine bucketOf_whole ?_
    intro amount hamt _
    simp only [mem_cons, not_mem_nil, or_false] at hamt
    rcases hamt with rfl | rfl <;> exact ⟨multiplier, rfl⟩
  results := by simp [bucketOf]
  outcomes := by simp [bucketOf]
  directions := by simp [bucketOf]
  counted_pos := by
    have hmult : 0 < multiplier := pos_of_ne_zero hpos
    simpa [counted, bucketOf]

/-- The amounts of a position are balanced, and they count. -/
lemma positionAmounts_ok (hpos : multiplier ≠ 0) (fallbackCost : ℚ) (position : HistoricPosition) :
    MarkOk (bucketOf (positionAmounts multiplier fallbackCost position)) := by
  unfold positionAmounts
  split
  · obtain ⟨hwhole, hsum, hoth⟩ :=
      outcomeAmounts_ok multiplier (finiteOr position.result.toNumber 0)
    obtain ⟨hcostWhole, hcost⟩ := costAmounts_ok multiplier (position.cost fallbackCost)
    rw [bucketOf_append, bucketOf_append]
    refine ⟨⟨?_, ?_, ?_, ?_⟩, ?_⟩
    · intro property hcnt
      obtain ⟨m, hm⟩ := hwhole property hcnt
      obtain ⟨n, hn⟩ := hcostWhole property hcnt
      have hhead : ∃ k : ℕ, bucketOf [(.setResultsTotal, (multiplier : ℚ)),
          (.setResultsClosed, (multiplier : ℚ)),
          (.netPnlPct, finiteOr position.result.toNumber 0 * multiplier)] property = k := by
        refine bucketOf_whole ?_ property hcnt
        intro amount hamt hcnt
        simp only [mem_cons, not_mem_nil, or_false] at hamt
        rcases hamt with rfl | rfl | rfl
        · exact ⟨multiplier, rfl⟩
        · exact ⟨multiplier, rfl⟩
        · cases hcnt
      obtain ⟨k, hk⟩ := hhead
      exact ⟨k + m + n, by rw [Pi.add_apply, Pi.add_apply, hk, hm, hn]; push_cast; ring⟩
    · simp only [Pi.add_apply, hoth .setResultsTotal (by decide),
        hoth .setResultsClosed (by decide), hoth .setResultsOpen (by decide),
        hcost .setResultsTotal (by decide), hcost .setResultsClosed (by decide),
        hcost .setResultsOpen (by decide)]
      simp [bucketOf]
    · simp only [Pi.add_apply, hoth .setResultsClosed (by decide),
        hcost .setResultsClosed (by decide), hcost .wins (by decide), hcost .losses (by decide),
        hcost .breakeven (by decide)]
      rw [show ∀ a b c d e f : ℚ, a + d + 0 + (b + e + 0) + (c + f + 0) = a + b + c + (d + e + f)
        from fun a b c d e f => by ring, hsum]
      simp [bucketOf]
    · simp only [Pi.add_apply, hoth .indicationsTotal (by decide),
        hoth .indicationsBuy (by decide), hoth .indicationsSell (by decide),
        hoth .indicationsNeutral (by decide), hcost .indicationsTotal (by decide),
        hcost .indicationsBuy (by decide), hcost .indicationsSell (by decide),
        hcost .indicationsNeutral (by decide)]
      simp [bucketOf]
    · have hmult : 0 < multiplier := pos_of_ne_zero hpos
      simp only [counted, Pi.add_apply, hoth .symbols (by decide),
        hoth .indicationsTotal (by decide), hoth .setResultsTotal (by decide),
        hcost .symbols (by decide), hcost .indicationsTotal (by decide),
        hcost .setResultsTotal (by decide)]
      simpa [bucketOf]
  · exact openAmounts_ok hpos

lemma marks_ok (recording : HistoricRecording) :
    ∀ mark ∈ recording.marks dateParse, MarkOk mark.2 := by
  have hitems : ∀ {A : Type} (start : A → Option ℕ) (amounts : A → List (BucketProperty × ℚ))
      (items : List A), (∀ item, MarkOk (bucketOf (amounts item))) →
      ∀ mark ∈ itemMarks start amounts items, MarkOk mark.2 := by
    intro A start amounts items hok mark hmark
    obtain ⟨item, -, hitem⟩ := mem_filterMap.mp hmark
    obtain ⟨bucketStartMs, -, rfl⟩ := Option.map_eq_some_iff.mp hitem
    exact hok item
  cases recording with
  | coverage times indicationConfigs strategyConfigs =>
    intro mark hmark
    obtain ⟨bucketStartMs, -, rfl⟩ := mem_map.mp hmark
    exact coverageAmounts_ok ..
  | indications results aliasCount =>
    rw [marks]
    split
    · exact fun mark hmark => by cases hmark
    · next hpos => exact hitems _ _ _ (indicationAmounts_ok hpos)
  | positions items aliasCount fallbackPositionCostPct =>
    rw [marks]
    split
    · exact fun mark hmark => by cases hmark
    · next hpos => exact hitems _ _ _ (positionAmounts_ok hpos _)

end CtsEngine
