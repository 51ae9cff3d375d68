import CtsEngine.FourHour.RoundTrip
import Mathlib.Algebra.BigOperators.Pi
import Mathlib.Algebra.BigOperators.Ring.Finset

/-!
# What four-hour statistics report

Stored increments without declared expectations are reported window by window: every count is the
number of recorded items, every percentage is the recorded total rounded to ten decimals, the
summary is that of all windows, and no check finds an issue.  The times have to lie before the
last millisecond of a `Date`: the report of a later window throws.
-/

namespace CtsEngine

open List Keyed Nat

/-! ## Counts -/

/-- Where a count is reported. -/
def countOf : BucketProperty → Option (HistoricMetrics → ℕ)
  | .symbols => some (·.symbols)
  | .indicationConfigs => some (·.indicationConfigs)
  | .strategyConfigs => some (·.strategyConfigs)
  | .indicationsTotal => some (·.indicationsTotal)
  | .indicationsBuy => some (·.indicationsBuy)
  | .indicationsSell => some (·.indicationsSell)
  | .indicationsNeutral => some (·.indicationsNeutral)
  | .setResultsTotal => some (·.setResultsTotal)
  | .setResultsClosed => some (·.setResultsClosed)
  | .setResultsOpen => some (·.setResultsOpen)
  | .wins => some (·.performance.wins)
  | .losses => some (·.performance.losses)
  | .breakeven => some (·.performance.breakeven)
  | _ => none

/-- Metrics report totals: the counts are exact, the rest is computed from the totals. -/
structure Reports (totals : HistoricBucket) (metrics : HistoricMetrics) : Prop where
  computed : metrics = metricsFromBucket totals
  counts : ∀ property count, countOf property = some count → (count metrics : ℚ) = totals property

lemma roundedCount_natCast (n : ℕ) : roundedCount n = n := by
  have hfloor : ⌊(n : ℚ) + 1 / 2⌋ = (n : ℤ) := by
    rw [Int.floor_eq_iff]
    constructor <;> push_cast <;> linarith
  rw [roundedCount, hfloor, Int.toNat_natCast]

lemma countOf_spec {property : BucketProperty} {count : HistoricMetrics → ℕ}
    (h : countOf property = some count) : property.isCount = true ∧
      ∀ bucket, count (metricsFromBucket bucket) = roundedCount (bucket property) := by
  cases property <;> cases h <;> exact ⟨rfl, fun _ => rfl⟩

lemma Balanced.reports {bucket : HistoricBucket} (h : Balanced bucket) :
    Reports bucket (metricsFromBucket bucket) where
  computed := rfl
  counts := by
    intro property count hcnt
    obtain ⟨hwhole, hmetr⟩ := countOf_spec hcnt
    obtain ⟨n, hn⟩ := h.whole property hwhole
    rw [hmetr, hn, roundedCount_natCast]

/-- The parts of the reported totals add up to them. -/
structure AddsUp (metrics : HistoricMetrics) : Prop where
  results : metrics.setResultsTotal = metrics.setResultsClosed + metrics.setResultsOpen
  outcomes : metrics.setResultsClosed =
    metrics.performance.wins + metrics.performance.losses + metrics.performance.breakeven
  directions : metrics.indicationsTotal =
    metrics.indicationsBuy + metrics.indicationsSell + metrics.indicationsNeutral

lemma Balanced.addsUp {bucket : HistoricBucket} (h : Balanced bucket) :
    AddsUp (metricsFromBucket bucket) := by
  have hcnt := h.reports.counts
  refine ⟨?_, ?_, ?_⟩
  · have hsum := h.results
    rw [← hcnt .setResultsTotal _ rfl, ← hcnt .setResultsClosed _ rfl,
      ← hcnt .setResultsOpen _ rfl] at hsum
    exact_mod_cast hsum
  · have hsum := h.outcomes
    rw [← hcnt .setResultsClosed _ rfl, ← hcnt .wins _ rfl, ← hcnt .losses _ rfl,
      ← hcnt .breakeven _ rfl] at hsum
    exact_mod_cast hsum
  · have hsum := h.directions
    rw [← hcnt .indicationsTotal _ rfl, ← hcnt .indicationsBuy _ rfl,
      ← hcnt .indicationsSell _ rfl, ← hcnt .indicationsNeutral _ rfl] at hsum
    exact_mod_cast hsum

/-! ## Reports -/

/-- A bucket whose totals add up has no issue if nothing is declared. -/
lemma bucketIssues_eq_nil {bucket : HistoricBucketStats} (h : AddsUp bucket.toHistoricMetrics) :
    bucketIssues ⟨none, none, none, none, none⟩ bucket = [] := by
  have hress : (bucket.setResultsTotal != bucket.setResultsClosed + bucket.setResultsOpen) =
      false := bne_eq_false_iff_eq.mpr h.results
  have houtc : (bucket.setResultsClosed != bucket.performance.wins + bucket.performance.losses +
      bucket.performance.breakeven) = false := bne_eq_false_iff_eq.mpr h.outcomes
  have hdirec : (bucket.indicationsTotal != bucket.indicationsBuy + bucket.indicationsSell +
      bucket.indicationsNeutral) = false := bne_eq_false_iff_eq.mpr h.directions
  unfold bucketIssues
  rw [hress, houtc, hdirec]
  rfl

lemma mapM_bucketStats {buckets : HistoricAccumulator}
    (h : ∀ entry ∈ buckets, entry.1 + historicFourHourBucketMs ≤ lastDateMs) :
    ∃ parsed, (buckets.mapM fun entry => bucketStats entry.1 entry.2) = some parsed ∧
      parsed.map (fun stats => (stats.bucketStartMs, stats.toHistoricMetrics)) =
        buckets.map fun entry => (entry.1, metricsFromBucket entry.2) := by
  have hiso : ∀ ms, ms ≤ lastDateMs → ∃ text, toISOString ms = some text := by
    intro ms hms
    unfold toISOString
    rw [if_neg (not_lt.mpr hms)]
    exact ⟨_, rfl⟩
  induction buckets with
  | nil => exact ⟨[], rfl, rfl⟩
  | cons entry buckets ih =>
    obtain ⟨parsed, hpars, hmap⟩ := ih fun other hoth => h other (mem_cons_of_mem _ hoth)
    have hend := h entry (mem_cons_self ..)
    obtain ⟨startText, hstText⟩ := hiso entry.1 ((le_add_right ..).trans hend)
    obtain ⟨endText, hendText⟩ := hiso _ hend
    refine ⟨{ metricsFromBucket entry.2 with
      bucketStartMs := entry.1
      bucketEndMs := entry.1 + historicFourHourBucketMs
      bucketStart := startText
      bucketEnd := endText } :: parsed, ?_, ?_⟩
    · rw [mapM_cons, hpars]
      simp only [bucketStats, hstText, hendText]
      rfl
    · rw [map_cons, map_cons, hmap]

/-- What is reported of marks. -/
structure ReadsBack (marks : List (ℕ × HistoricBucket)) (stats : HistoricStats) : Prop where
  sorted : (stats.buckets.map (·.bucketStartMs)).Pairwise (· < ·)
  windows : ∀ start, start ∈ stats.buckets.map (·.bucketStartMs) ↔ start ∈ marks.map Prod.fst
  buckets : ∀ bucket ∈ stats.buckets,
    Reports (sumAt marks bucket.bucketStartMs) bucket.toHistoricMetrics ∧
      AddsUp bucket.toHistoricMetrics
  summary : Reports (marks.map Prod.snd).sum stats.summary
  summaryCounts : ∀ property count, countOf property = some count →
    count stats.summary = (stats.buckets.map fun bucket => count bucket.toHistoricMetrics).sum
  valid : stats.integrityValid = true ∧ stats.integrityIssues = []

variable (dateParse : String → Option ℤ)

/-- A hash that declares nothing is reported without issues if its buckets add up. -/
lemma parse_undeclared {fields : List (String × Double)} {parsed : List HistoricBucketStats}
    (hpars : ((parseBuckets fields).mapM fun entry => bucketStats entry.1 entry.2) = some parsed)
    (hadds : ∀ bucket ∈ parsed, AddsUp bucket.toHistoricMetrics) :
    ∃ stats, parseHistoricFourHourAggregate dateParse fields (fun _ => none) = some stats ∧
      stats.buckets = parsed ∧
      stats.summary = metricsFromBucket ((parseBuckets fields).map Prod.snd).sum ∧
      stats.integrityValid = true ∧ stats.integrityIssues = [] := by
  have hbucke : parsed.flatMap (bucketIssues ⟨none, none, none, none, none⟩) = [] :=
    flatMap_eq_nil_iff.mpr fun bucket hbuck => bucketIssues_eq_nil (hadds bucket hbuck)
  have hiss : integrityIssues dateParse (fun _ => none) parsed = [] := congrArg (firsts id) hbucke
  unfold parseHistoricFourHourAggregate
  rw [hpars]
  refine ⟨_, rfl, rfl, rfl, ?_, hiss⟩
  exact List.isEmpty_iff.mpr hiss

lemma dvd_marks {recording : HistoricRecording} {mark : ℕ × HistoricBucket}
    (hmark : mark ∈ recording.marks dateParse) : historicFourHourBucketMs ∣ mark.1 := by
  have hst : ∀ {value start}, historicFourHourBucketStartMs dateParse value = some start →
      historicFourHourBucketMs ∣ start := by
    intro value start h
    obtain ⟨epochMs, -, rfl⟩ := Option.map_eq_some_iff.mp h
    exact dvd_mul_left ..
  have hitems : ∀ {A : Type} (time : A → StatValue) (amounts : A → List (BucketProperty × ℚ))
      (items : List A),
      mark ∈ itemMarks (fun item => historicFourHourBucketStartMs dateParse (time item)) amounts
        items → historicFourHourBucketMs ∣ mark.1 := by
    intro A time amounts items hmark
    obtain ⟨item, -, hitem⟩ := mem_filterMap.mp hmark
    obtain ⟨start, hsome, rfl⟩ := Option.map_eq_some_iff.mp hitem
    exact hst hsome
  cases recording with
  | coverage times indicationConfigs strategyConfigs =>
    obtain ⟨start, hmem, rfl⟩ := mem_map.mp hmark
    have hfst := (perm_insertionSort ..).mem_iff.mp hmem
    obtain ⟨value, -, hval⟩ := mem_filterMap.mp ((firsts_spec id _).1 start hfst)
    exact hst hval
  | indications results aliasCount =>
    rw [HistoricRecording.marks] at hmark
    split at hmark
    · cases hmark
    · exact hitems _ _ _ hmark
  | positions items aliasCount fallbackPositionCostPct =>
    rw [HistoricRecording.marks] at hmark
    split at hmark
    · cases hmark
    · exact hitems _ _ _ hmark

lemma sorted_parseBuckets {fields : List (String × Double)}
    (huniq : KeysUnique (parseBuckets fields)) :
    ((parseBuckets fields).map Prod.fst).Pairwise (· < ·) := by
  have hsort : (parseBuckets fields).Pairwise fun left right => left.1 ≤ right.1 :=
    pairwise_insertionSort _ _
  refine pairwise_map.mpr ?_
  exact hsort.imp₂ (fun left right hle hne => lt_of_le_of_ne hle hne) (pairwise_map.mp huniq)

/-- **Four-hour statistics.** Whatever is recorded in whatever batches, for times in the range of a
`Date`, and in whatever order the increments of the batches are stored, the hash is reported with
the totals of the recorded items. -/
theorem parseHistoricFourHourAggregate_readsBack (batches : List (List HistoricRecording))
    (increments : List (String × ℚ))
    (hperm : increments.Perm (batches.flatMap (batchIncrements dateParse)))
    (htimes : ∀ mark ∈ recordedMarks dateParse batches, mark.1 < lastDateMs) :
    ∃ stats, parseHistoricFourHourAggregate dateParse (persistedHash increments)
        (fun _ => none) = some stats ∧
      ReadsBack (recordedMarks dateParse batches) stats := by
  have hstarts : ∀ mark ∈ recordedMarks dateParse batches, mark.1 < 10 ^ 21 := fun mark hmark =>
    (htimes mark hmark).trans (by decide +kernel : lastDateMs < 10 ^ 21)
  have hcollects := collects_parseBuckets dateParse hperm hstarts
  have hmarks : ∀ mark ∈ recordedMarks dateParse batches,
      Balanced mark.2 ∧ mark.1 + historicFourHourBucketMs ≤ lastDateMs := by
    intro mark hmark
    have hbefore := htimes mark hmark
    obtain ⟨recordings, -, hrecordings⟩ := mem_flatMap.mp hmark
    obtain ⟨recording, -, hrecording⟩ := mem_flatMap.mp hrecordings
    obtain ⟨k, hk⟩ := dvd_marks dateParse hrecording
    refine ⟨(marks_ok dateParse recording mark hrecording).toBalanced, ?_⟩
    unfold lastDateMs historicFourHourBucketMs at *
    omega
  have hbalanced : ∀ start, Balanced (sumAt (recordedMarks dateParse batches) start) := by
    intro start
    refine Balanced.sum fun bucket hbucket => ?_
    obtain ⟨mark, hmark, rfl⟩ := mem_map.mp hbucket
    exact (hmarks mark (mem_filter.mp hmark).1).1
  have hends : ∀ entry ∈ parseBuckets (persistedHash increments),
      entry.1 + historicFourHourBucketMs ≤ lastDateMs := by
    intro entry hentry
    obtain ⟨mark, hmark, heq⟩ := mem_map.mp ((hcollects.starts entry.1).mp (mem_map_of_mem hentry))
    exact heq ▸ (hmarks mark hmark).2
  obtain ⟨parsed, hparsed, hmap⟩ := mapM_bucketStats hends
  have hbucket : ∀ bucket ∈ parsed, bucket.toHistoricMetrics =
      metricsFromBucket (sumAt (recordedMarks dateParse batches) bucket.bucketStartMs) := by
    intro bucket hbucket
    have hmem : (bucket.bucketStartMs, bucket.toHistoricMetrics) ∈
        parsed.map fun stats => (stats.bucketStartMs, stats.toHistoricMetrics) :=
      mem_map_of_mem (f := fun stats : HistoricBucketStats =>
        (stats.bucketStartMs, stats.toHistoricMetrics)) hbucket
    rw [hmap] at hmem
    obtain ⟨entry, hentry, heq⟩ := mem_map.mp hmem
    obtain ⟨hstart, hmetrics⟩ := Prod.mk.inj heq
    rw [← hmetrics, ← hstart, hcollects.bucket_eq hentry]
  have hadds : ∀ bucket ∈ parsed, AddsUp bucket.toHistoricMetrics := by
    intro bucket hmem
    rw [hbucket bucket hmem]
    exact (hbalanced _).addsUp
  have hkeys : parsed.map (·.bucketStartMs) =
      (parseBuckets (persistedHash increments)).map Prod.fst := by
    have hfst := congrArg (List.map Prod.fst) hmap
    rwa [map_map, map_map] at hfst
  have hsum : ((parseBuckets (persistedHash increments)).map Prod.snd).sum =
      ((recordedMarks dateParse batches).map Prod.snd).sum :=
    hcollects.reading fun _ => AddMonoidHom.id HistoricBucket
  have hsummary : Balanced ((recordedMarks dateParse batches).map Prod.snd).sum := by
    refine Balanced.sum fun bucket hbucket => ?_
    obtain ⟨mark, hmark, rfl⟩ := mem_map.mp hbucket
    exact (hmarks mark hmark).1
  obtain ⟨stats, hstats, hbuckets, hstatsSummary, hvalid⟩ :=
    parse_undeclared dateParse hparsed hadds
  refine ⟨stats, hstats, ?_, ?_, ?_, ?_, ?_, hvalid⟩
  · rw [hbuckets, hkeys]
    exact sorted_parseBuckets hcollects.unique
  · intro start
    rw [hbuckets, hkeys]
    exact hcollects.starts start
  · intro bucket hmem
    rw [hbuckets] at hmem
    refine ⟨?_, hadds bucket hmem⟩
    rw [hbucket bucket hmem]
    exact (hbalanced _).reports
  · rw [hstatsSummary, hsum]
    exact hsummary.reports
  · intro property count hcount
    have hparts : (parsed.map fun bucket => (count bucket.toHistoricMetrics : ℚ)).sum =
        ((parseBuckets (persistedHash increments)).map fun entry => entry.2 property).sum := by
      have hcounts : (parsed.map fun bucket => (count bucket.toHistoricMetrics : ℚ)) =
          (parseBuckets (persistedHash increments)).map fun entry =>
            (count (metricsFromBucket entry.2) : ℚ) := by
        have hmetrics := congrArg
          (List.map fun pair : ℕ × HistoricMetrics => (count pair.2 : ℚ)) hmap
        rwa [map_map, map_map] at hmetrics
      rw [hcounts]
      refine congrArg List.sum (map_congr_left fun entry hentry => ?_)
      have hbalance : Balanced entry.2 := by
        rw [hcollects.bucket_eq hentry]
        exact hbalanced entry.1
      exact hbalance.reports.counts property count hcount
    have htotal : ((parseBuckets (persistedHash increments)).map fun entry =>
        entry.2 property).sum = ((recordedMarks dateParse batches).map Prod.snd).sum property := by
      rw [← hsum, Pi.list_sum_apply, map_map]
      rfl
    rw [hbuckets]
    have hcast : (count stats.summary : ℚ) =
        ((parsed.map fun bucket => count bucket.toHistoricMetrics).sum : ℕ) := by
      rw [cast_list_sum, map_map]
      refine Eq.trans ?_ hparts.symm
      rw [htotal, hstatsSummary, hsum]
      exact hsummary.reports.counts property count hcount
    exact_mod_cast hcast

/-- A closed and an open position of one window, in two batches that are stored in turn. -/
def samplePosition (status : String) (result : ℚ) : HistoricPosition :=
  ⟨.number (.finite 1787544000000), .undefined, .text status, .number (.finite result), .undefined⟩

/-- A batch of one position. -/
def sampleBatch (status : String) (result : ℚ) : List HistoricRecording :=
  [.positions [samplePosition status result] (.finite 1) (.finite (1 / 10))]

theorem parseHistoricFourHourAggregate_readsBack_two :
    ∃ stats, parseHistoricFourHourAggregate (fun _ => none)
        (persistedHash ((batchIncrements (fun _ => none) (sampleBatch "open" 2)) ++
          batchIncrements (fun _ => none) (sampleBatch "closed" 3))) (fun _ => none) =
        some stats ∧
      ReadsBack (recordedMarks (fun _ => none) [sampleBatch "closed" 3, sampleBatch "open" 2])
        stats := by
  apply parseHistoricFourHourAggregate_readsBack
  · exact perm_append_comm.trans (by simp)
  · intro mark hmark
    have hall : (recordedMarks (fun _ => none) [sampleBatch "closed" 3, sampleBatch "open" 2]).all
          fun mark => decide (mark.1 < lastDateMs) := by
      decide +kernel
    exact of_decide_eq_true (all_eq_true.mp hall mark hmark)

/-- The total of a small result is reported as `0`, and a position at the last millisecond of a
`Date` makes the report throw. -/
theorem parseHistoricFourHourAggregate_inexact :
    (sumAt (recordedMarks (fun _ => none) [sampleBatch "closed" (1 / 10 ^ 11)]) 1787544000000)
        .netPnlPct = 1 / 10 ^ 11 ∧
      (parseHistoricFourHourAggregate (fun _ => none)
        (persistedHash (batchIncrements (fun _ => none) (sampleBatch "closed" (1 / 10 ^ 11))))
        (fun _ => none)).map (fun stats =>
          stats.buckets.map fun bucket => (bucket.bucketStartMs, bucket.performance.netPnlPct)) =
        some [(1787544000000, 0)] ∧
      (parseHistoricFourHourAggregate (fun _ => none)
        (persistedHash (batchIncrements (fun _ => none)
          [.indications [⟨.number (.finite lastDateMs), .text "buy"⟩] (.finite 1)]))
        (fun _ => none)).isNone = true := by
  refine ⟨?_, ?_, ?_⟩ <;> decide +kernel

end CtsEngine
