import CtsEngine.FourHour.Totals

/-!
# Four-hour statistics come back

The fields of all batches, stored as increments in any order, read back as the totals of the
recorded items.  The counts come back exactly; the percentages are rounded to ten decimals.  Every
check of the integrity passes.
-/

namespace CtsEngine

open List Keyed BucketProperty

variable {N : Type} [AddCommMonoid N]

/-- An additive reading of buckets. -/
def readBy (g : ℕ → HistoricBucket →+ N) (entries : List (ℕ × HistoricBucket)) : N :=
  (entries.map fun entry => g entry.1 entry.2).sum

variable (g : ℕ → HistoricBucket →+ N)

lemma readBy_append (left right : List (ℕ × HistoricBucket)) :
    readBy g (left ++ right) = readBy g left + readBy g right := by
  simp [readBy]

/-- The accumulator has what the marks count, in their windows. -/
structure Collects (accumulator : HistoricAccumulator) (marks : List (ℕ × HistoricBucket)) :
    Prop where
  unique : KeysUnique accumulator
  reading : ∀ {N : Type} [AddCommMonoid N] (g : ℕ → HistoricBucket →+ N),
    readBy g accumulator = readBy g marks
  starts : ∀ start, start ∈ accumulator.map Prod.fst ↔ start ∈ marks.map Prod.fst

lemma collects_tallyAll (marks : List (ℕ × HistoricBucket)) :
    Collects (tallyAll [] marks) marks where
  unique := by
    refine KeysUnique.tallyAll ?_ _
    exact nodup_nil
  reading := by
    intro N _ g
    exact (sum_map_tallyAll g [] marks).trans (zero_add _)
  starts := fun start => (mem_keys_tallyAll ..).trans (or_iff_right not_mem_nil)

variable {accumulator : HistoricAccumulator} {marks : List (ℕ × HistoricBucket)}
  {bucketStartMs start : ℕ}

lemma Collects.addAt (h : Collects accumulator marks) (bucketStartMs : ℕ)
    {amounts : List (BucketProperty × ℚ)} (hamoun : amounts ≠ []) :
    Collects (accumulator.addAt bucketStartMs amounts)
      (marks ++ [(bucketStartMs, bucketOf amounts)]) := by
  have htally : accumulator.addAt bucketStartMs amounts = tallyAll accumulator
      (amounts.map fun amount => (bucketStartMs, Pi.single amount.1 amount.2)) := by
    rw [HistoricAccumulator.addAt, tallyAll, foldl_map]
  rw [htally]
  refine ⟨h.unique.tallyAll _, ?_, ?_⟩
  · intro N _ g
    have hsum := sum_map_tallyAll g accumulator
      (amounts.map fun amount => (bucketStartMs, Pi.single amount.1 amount.2))
    rw [readBy_append, ← h.reading g]
    refine hsum.trans (congrArg _ ?_)
    simp [readBy, bucketOf, map_list_sum, Function.comp_def]
  · intro start
    rw [mem_keys_tallyAll, h.starts, map_map]
    have hconst : amounts.map (Prod.fst ∘ fun amount : BucketProperty × ℚ =>
        (bucketStartMs, (Pi.single amount.1 amount.2 : HistoricBucket))) =
          replicate amounts.length bucketStartMs := map_const ..
    rw [hconst]
    simp [hamoun]

lemma Collects.items {A : Type*} {start : A → Option ℕ} {amounts : A → List (BucketProperty × ℚ)}
    (hamoun : ∀ item, amounts item ≠ []) (h : Collects accumulator marks) (items : List A) :
    Collects (recordItems start amounts accumulator items)
      (marks ++ itemMarks start amounts items) := by
  induction items generalizing accumulator marks with
  | nil => simpa [recordItems, itemMarks] using h
  | cons item items ih =>
    cases hst : start item with
    | none => simpa [recordItems, itemMarks, hst] using ih h
    | some bucketStartMs =>
      have hitem := ih (h.addAt bucketStartMs (hamoun item))
      simpa [recordItems, itemMarks, hst] using hitem

lemma Collects.coverage (h : Collects accumulator marks) (starts : List ℕ)
    (indicationConfigs strategyConfigs : Double) :
    Collects (starts.foldl (fun accumulator bucketStartMs => accumulator.addAt bucketStartMs
        (coverageAmounts indicationConfigs strategyConfigs)) accumulator)
      (marks ++ starts.map fun bucketStartMs =>
        (bucketStartMs, bucketOf (coverageAmounts indicationConfigs strategyConfigs))) := by
  induction starts generalizing accumulator marks with
  | nil => simpa using h
  | cons start starts ih =>
    have hnonem : coverageAmounts indicationConfigs strategyConfigs ≠ [] := cons_ne_nil _ _
    have hst := ih (h.addAt start hnonem)
    rwa [append_assoc] at hst

lemma firsts_of_nodup {A : Type*} [DecidableEq A] {xs : List A} (h : xs.Nodup) :
    firsts id xs = xs := by
  induction xs using reverseRecOn with
  | nil => rfl
  | append_singleton xs x ih =>
    obtain ⟨hxs, -, hx⟩ := nodup_append.mp h
    rw [firsts_append_singleton, ih hxs, if_neg]
    intro hany
    obtain ⟨y, hy, heq⟩ := any_eq_true.mp hany
    exact hx y hy x (mem_singleton_self x) (of_decide_eq_true heq)

variable (dateParse : String → Option ℤ)

lemma nodup_historicFourHourBucketStarts (values : List StatValue) :
    (historicFourHourBucketStarts dateParse values).Nodup := by
  unfold historicFourHourBucketStarts
  rw [(perm_insertionSort ..).nodup_iff]
  simpa using (firsts_spec id (values.filterMap (historicFourHourBucketStartMs dateParse))).2.1

lemma Collects.perform (h : Collects accumulator marks) (recording : HistoricRecording) :
    Collects (recording.perform dateParse accumulator) (marks ++ recording.marks dateParse) := by
  cases recording with
  | coverage times indicationConfigs strategyConfigs =>
    rw [HistoricRecording.perform, markHistoricFourHourCoverage,
      firsts_of_nodup (nodup_historicFourHourBucketStarts ..)]
    exact h.coverage ..
  | indications results aliasCount =>
    simp only [HistoricRecording.perform, recordHistoricFourHourIndications,
      HistoricRecording.marks]
    split
    · simpa using h
    · exact h.items (fun item => cons_ne_nil _ _) results
  | positions items aliasCount fallbackPositionCostPct =>
    simp only [HistoricRecording.perform, recordHistoricFourHourPositions, HistoricRecording.marks]
    split
    · simpa using h
    · refine h.items (fun item => ?_) items
      unfold positionAmounts
      split <;> simp

lemma collects_batch (recordings : List HistoricRecording) :
    Collects (recordings.foldl
      (fun accumulator recording => recording.perform dateParse accumulator)
      []) (recordings.flatMap (HistoricRecording.marks dateParse)) := by
  induction recordings using reverseRecOn with
  | nil =>
    exact ⟨nodup_nil, fun g => rfl, fun start => Iff.rfl⟩
  | append_singleton recordings recording ih =>
    simpa using ih.perform dateParse recording

/-! ## Fields -/

lemma redisField_ok (property : BucketProperty) :
    property.redisField.toList ≠ [] ∧ property.redisField.toList.all isFieldLetter = true ∧
      (all.find? fun other => other.redisField == property.redisField) =
        some property := by
  cases property <;> decide +kernel

/-- **Fields.** A field is read as the window and the property it was written for, while the start
of the window has a plain text. -/
lemma parseBucketField_bucketField (hst : bucketStartMs < 10 ^ 21) (property : BucketProperty) :
    parseBucketField (bucketField bucketStartMs property) = some (bucketStartMs, property) := by
  obtain ⟨hname, hlett, hfind⟩ := redisField_ok property
  have hdigs : ∀ c ∈ Nat.toDigits 10 bucketStartMs, c.isDigit = true :=
    fun c hc => Nat.isDigit_of_mem_toDigits (by decide) (by decide) hc
  have htext : (bucketField bucketStartMs property).toList =
      'b' :: ':' :: (Nat.toDigits 10 bucketStartMs ++ ':' :: property.redisField.toList) := by
    rw [bucketField, numberText, if_pos hst]
    simp [String.toList_append]
  have htake : (Nat.toDigits 10 bucketStartMs ++ ':' :: property.redisField.toList).takeWhile
      Char.isDigit = Nat.toDigits 10 bucketStartMs := by
    rw [takeWhile_append_of_pos hdigs, takeWhile_cons_of_neg (by decide), append_nil]
  have hdrop : (Nat.toDigits 10 bucketStartMs ++ ':' :: property.redisField.toList).dropWhile
      Char.isDigit = ':' :: property.redisField.toList := by
    rw [dropWhile_append_of_pos hdigs, dropWhile_cons_of_neg (by decide)]
  unfold parseBucketField
  rw [htext]
  simp only [hdrop, htake]
  rw [if_pos ⟨Nat.toDigits_ne_nil, hname, hlett⟩, String.ofList_toList, hfind,
    Nat.ofDigitChars_ten_toDigits]
  rfl

/-- The reading of a stored field. -/
def readField (g : ℕ → HistoricBucket →+ N) (field : String) : ℚ →+ N :=
  match parseBucketField field with
  | some (bucketStartMs, property) =>
    if bucketStartMs < infiniteFrom then
      (g bucketStartMs).comp (AddMonoidHom.single (fun _ : BucketProperty => ℚ) property)
    else 0
  | none => 0

lemma readBy_parseEntry (fields : List (String × ℚ)) :
    readBy g ((fields.map fun field => (field.1, Double.finite field.2)).filterMap parseEntry) =
      (fields.map fun field => readField g field.1 field.2).sum := by
  induction fields with
  | nil => rfl
  | cons field fields ih =>
    rw [map_cons, map_cons, sum_cons, ← ih]
    unfold parseEntry readField
    cases hparse : parseBucketField field.1 with
    | none => simp [hparse]
    | some entry =>
      by_cases hfinit : entry.1 < infiniteFrom
      · rw [filterMap_cons_some (b := (entry.1, Pi.single entry.2 field.2))]
        · simp only [hfinit]
          rfl
        · simp only [hparse, hfinit, if_true]
      · rw [filterMap_cons_none]
        · simp only [hfinit, if_false, AddMonoidHom.zero_apply, zero_add]
        · simp only [hparse, hfinit, if_false]

lemma readField_bucketField (hst : bucketStartMs < 10 ^ 21) (property : BucketProperty)
    (value : ℚ) :
    readField g (bucketField bucketStartMs property) value =
      g bucketStartMs (Pi.single property value) := by
  have hfinit : bucketStartMs < infiniteFrom :=
    hst.trans (by decide +kernel : 10 ^ 21 < infiniteFrom)
  unfold readField
  rw [parseBucketField_bucketField hst]
  simp only [if_pos hfinit]
  rfl

lemma sum_single_all (bucket : HistoricBucket) :
    (all.map fun property => Pi.single property (bucket property)).sum =
      bucket := by
  funext property
  cases property <;> simp [BucketProperty.all]

lemma sum_flatMap {A : Type*} (f : A → List N) (xs : List A) :
    (xs.flatMap f).sum = (xs.map fun x => (f x).sum).sum := by
  induction xs with
  | nil => rfl
  | cons x xs ih => rw [flatMap_cons, sum_append, ih, map_cons, sum_cons]

lemma sum_readField_increments (hst : ∀ entry ∈ accumulator, entry.1 < 10 ^ 21) :
    ((historicFourHourRedisIncrements accumulator).map fun field => readField g field.1 field.2).sum
      = readBy g accumulator := by
  have hbuck : ∀ entry ∈ accumulator, ((all.filterMap fun property =>
      if entry.2 property = 0 then none
      else some (bucketField entry.1 property, entry.2 property)).map
        fun field => readField g field.1 field.2).sum = g entry.1 entry.2 := by
    intro entry hent
    have hflds : ∀ properties : List BucketProperty, ((properties.filterMap fun property =>
        if entry.2 property = 0 then none
        else some (bucketField entry.1 property, entry.2 property)).map
          fun field => readField g field.1 field.2).sum =
        (properties.map fun property =>
          g entry.1 (Pi.single property (entry.2 property))).sum := by
      intro properties
      induction properties with
      | nil => rfl
      | cons property properties ih =>
        rw [map_cons, sum_cons, ← ih]
        by_cases hzero : entry.2 property = 0
        · simp [hzero]
        · have hsome : (if entry.2 property = 0 then none
              else some (bucketField entry.1 property, entry.2 property)) =
                some (bucketField entry.1 property, entry.2 property) := if_neg hzero
          rw [filterMap_cons, hsome]
          rw [map_cons, sum_cons, readField_bucketField g (hst entry hent)]
    rw [hflds, ← sum_single_all entry.2, map_list_sum, sum_single_all]
    rfl
  have hperm : (accumulator.insertionSort fun left right => left.1 ≤ right.1).Perm accumulator :=
    perm_insertionSort ..
  unfold historicFourHourRedisIncrements readBy
  rw [map_flatMap, sum_flatMap, (hperm.map _).sum_eq]
  exact congrArg List.sum (map_congr_left hbuck)

lemma sumAt_ne_zero (hok : ∀ mark ∈ marks, MarkOk mark.2) (hst : start ∈ marks.map Prod.fst) :
    ∃ property, sumAt marks start property ≠ 0 := by
  have hpos : 0 < counted (sumAt marks start) := by
    have hsum : ∀ buckets : List HistoricBucket, (∀ bucket ∈ buckets, MarkOk bucket) →
        buckets ≠ [] → 0 < counted buckets.sum := by
      intro buckets hbucke hne
      obtain ⟨bucket, rest, rfl⟩ := exists_cons_of_ne_nil hne
      rw [sum_cons, counted_add]
      refine add_pos_of_pos_of_nonneg (hbucke bucket (mem_cons_self ..)).counted_pos ?_
      exact (Balanced.sum fun other hoth =>
        (hbucke other (mem_cons_of_mem _ hoth)).toBalanced).counted_nonneg
    obtain ⟨mark, hmark, rfl⟩ := mem_map.mp hst
    refine hsum _ ?_ ?_
    · intro bucket hbuck
      obtain ⟨other, hoth, rfl⟩ := mem_map.mp hbuck
      exact hok other (mem_filter.mp hoth).1
    · refine ne_nil_of_mem (a := mark.2) ?_
      exact mem_map_of_mem (mem_filter.mpr ⟨hmark, decide_eq_true rfl⟩)
  by_contra hnone
  have hzero : ∀ property, sumAt marks start property = 0 := by
    intro property
    by_contra hne
    exact hnone ⟨property, hne⟩
  rw [counted, hzero, hzero, hzero] at hpos
  norm_num at hpos

lemma Collects.bucket_eq (h : Collects accumulator marks) {bucket : HistoricBucket}
    (hmem : (start, bucket) ∈ accumulator) : bucket = sumAt marks start := by
  have hread : ∀ entries : List (ℕ × HistoricBucket), sumAt entries start =
      readBy (fun other =>
        if other = start then AddMonoidHom.id HistoricBucket else 0) entries := by
    intro entries
    induction entries with
    | nil => rfl
    | cons entry entries ih =>
      rw [sumAt_cons, ih, readBy, readBy, map_cons]
      split <;> rfl
  rw [← sumAt_of_mem h.unique hmem, hread, h.reading, hread]

lemma exists_field_iff (h : Collects accumulator marks) (hok : ∀ mark ∈ marks, MarkOk mark.2)
    (hstarts : ∀ mark ∈ marks, mark.1 < 10 ^ 21) (start : ℕ) :
    (∃ field ∈ historicFourHourRedisIncrements accumulator,
      ∃ property, parseBucketField field.1 = some (start, property)) ↔
      start ∈ marks.map Prod.fst := by
  have hent : ∀ entry ∈ accumulator, entry.1 < 10 ^ 21 := by
    intro entry hent
    obtain ⟨mark, hmark, heq⟩ := mem_map.mp ((h.starts entry.1).mp (mem_map_of_mem hent))
    exact heq ▸ hstarts mark hmark
  have hperm : (accumulator.insertionSort fun left right => left.1 ≤ right.1).Perm accumulator :=
    perm_insertionSort ..
  constructor
  · rintro ⟨field, hfield, property, hparse⟩
    obtain ⟨entry, hmem, hflds⟩ := mem_flatMap.mp hfield
    obtain ⟨other, -, hoth⟩ := mem_filterMap.mp hflds
    have hacc := hperm.mem_iff.mp hmem
    split at hoth
    · cases hoth
    · cases hoth
      rw [parseBucketField_bucketField (hent entry hacc)] at hparse
      obtain rfl : entry.1 = start := (Prod.mk.inj (Option.some.inj hparse)).1
      exact (h.starts _).mp (mem_map_of_mem hacc)
  · intro hst
    obtain ⟨entry, hmem, rfl⟩ := mem_map.mp ((h.starts start).mpr hst)
    obtain ⟨property, hne⟩ := sumAt_ne_zero hok hst
    rw [← h.bucket_eq hmem] at hne
    refine ⟨(bucketField entry.1 property, entry.2 property), ?_, property,
      parseBucketField_bucketField (hent entry hmem) property⟩
    refine mem_flatMap.mpr ⟨entry, hperm.mem_iff.mpr hmem, ?_⟩
    exact mem_filterMap.mpr ⟨property, by cases property <;> decide, if_neg hne⟩

/-- The hash that the increments leave. -/
def persistedHash (increments : List (String × ℚ)) : List (String × Double) :=
  (persistIncrements increments).map fun field => (field.1, .finite field.2)

lemma mem_parsed_iff (fields : List (String × ℚ)) (start : ℕ) :
    start ∈ ((fields.map fun field => (field.1, Double.finite field.2)).filterMap parseEntry).map
        Prod.fst ↔
      start < infiniteFrom ∧ ∃ name ∈ fields.map Prod.fst,
        ∃ property, parseBucketField name = some (start, property) := by
  have hent : ∀ (field : String × ℚ) (mark : ℕ × HistoricBucket),
      parseEntry (field.1, Double.finite field.2) = some mark ↔ mark.1 < infiniteFrom ∧
        ∃ property, parseBucketField field.1 = some (mark.1, property) ∧
          mark.2 = Pi.single property field.2 := by
    intro field mark
    unfold parseEntry
    cases hparse : parseBucketField field.1 with
    | none => simp
    | some entry =>
      obtain ⟨bucketStartMs, property⟩ := entry
      obtain ⟨markStart, markBucket⟩ := mark
      by_cases hfinit : bucketStartMs < infiniteFrom
      · simp only [if_pos hfinit, Option.some.injEq, Prod.mk.injEq]
        constructor
        · rintro ⟨rfl, rfl⟩
          exact ⟨hfinit, property, ⟨rfl, rfl⟩, rfl⟩
        · rintro ⟨-, _, ⟨rfl, rfl⟩, rfl⟩
          exact ⟨rfl, rfl⟩
      · simp only [if_neg hfinit]
        constructor
        · intro h
          cases h
        · rintro ⟨hless, _, ⟨rfl, rfl⟩, -⟩
          exact absurd hless hfinit
  constructor
  · intro h
    obtain ⟨mark, hmark, rfl⟩ := mem_map.mp h
    obtain ⟨stored, hstor, hparse⟩ := mem_filterMap.mp hmark
    obtain ⟨field, hfield, rfl⟩ := mem_map.mp hstor
    obtain ⟨hfinit, property, hprop, -⟩ := (hent field mark).mp hparse
    exact ⟨hfinit, field.1, mem_map_of_mem hfield, property, hprop⟩
  · rintro ⟨hfinit, name, hname, property, hprop⟩
    obtain ⟨field, hfield, rfl⟩ := mem_map.mp hname
    refine mem_map.mpr ⟨(start, Pi.single property field.2), ?_, rfl⟩
    refine mem_filterMap.mpr ⟨(field.1, .finite field.2), ?_, ?_⟩
    · exact mem_map.mpr ⟨field, hfield, rfl⟩
    · exact (hent field _).mpr ⟨hfinit, property, hprop, rfl⟩

/-- **The stored hash.** The parsed buckets have what all batches count, whatever the order of
their increments. -/
lemma collects_parseBuckets {batches : List (List HistoricRecording)}
    {increments : List (String × ℚ)}
    (hperm : increments.Perm (batches.flatMap (batchIncrements dateParse)))
    (hstarts : ∀ mark ∈ recordedMarks dateParse batches, mark.1 < 10 ^ 21) :
    Collects (parseBuckets (persistedHash increments)) (recordedMarks dateParse batches) := by
  have hok : ∀ mark ∈ recordedMarks dateParse batches, MarkOk mark.2 := by
    intro mark hmark
    obtain ⟨recordings, -, hrecordings⟩ := mem_flatMap.mp hmark
    obtain ⟨recording, -, hrecor⟩ := mem_flatMap.mp hrecordings
    exact marks_ok dateParse recording mark hrecor
  have hbatch : ∀ batch ∈ batches, ∀ mark ∈ batch.flatMap (HistoricRecording.marks dateParse),
      mark ∈ recordedMarks dateParse batches :=
    fun batch hbatch mark hmark => mem_flatMap.mpr ⟨batch, hbatch, hmark⟩
  have hsort : (parseBuckets (persistedHash increments)).Perm
      (tallyAll [] ((persistedHash increments).filterMap parseEntry)) :=
    perm_insertionSort ..
  have hpars := collects_tallyAll ((persistedHash increments).filterMap parseEntry)
  refine ⟨?_, ?_, ?_⟩
  · exact (hsort.map Prod.fst).nodup_iff.mpr hpars.unique
  · intro N _ g
    calc readBy g (parseBuckets (persistedHash increments))
        = readBy g (tallyAll [] ((persistedHash increments).filterMap parseEntry)) :=
          (hsort.map _).sum_eq
      _ = readBy g ((persistedHash increments).filterMap parseEntry) := hpars.reading g
      _ = ((persistIncrements increments).map fun field => readField g field.1 field.2).sum :=
          readBy_parseEntry g _
      _ = (increments.map fun field => readField g field.1 field.2).sum :=
          (sum_map_tallyAll (readField g) [] increments).trans (zero_add _)
      _ = ((batches.flatMap (batchIncrements dateParse)).map
            fun field => readField g field.1 field.2).sum := (hperm.map _).sum_eq
      _ = readBy g (recordedMarks dateParse batches) := by
          rw [map_flatMap, sum_flatMap, recordedMarks, readBy, map_flatMap, sum_flatMap]
          refine congrArg List.sum (map_congr_left fun batch hmem => ?_)
          have hcoll := collects_batch dateParse batch
          rw [batchIncrements, sum_readField_increments g, hcoll.reading g]
          · rfl
          · intro entry hent
            obtain ⟨mark, hmark, heq⟩ := mem_map.mp
              ((hcoll.starts entry.1).mp (mem_map_of_mem hent))
            exact heq ▸ hstarts mark (hbatch batch hmem mark hmark)
  · intro start
    have hbatc : (∃ name ∈ (batches.flatMap (batchIncrements dateParse)).map Prod.fst,
        ∃ property, parseBucketField name = some (start, property)) ↔
        start ∈ (recordedMarks dateParse batches).map Prod.fst := by
      have hfield := fun batch hmem => exists_field_iff (collects_batch dateParse batch)
        (fun mark hmark => hok mark (hbatch batch hmem mark hmark))
        (fun mark hmark => hstarts mark (hbatch batch hmem mark hmark)) start
      constructor
      · rintro ⟨name, hname, property, hprop⟩
        obtain ⟨field, hflds, rfl⟩ := mem_map.mp hname
        obtain ⟨batch, hmem, hincr⟩ := mem_flatMap.mp hflds
        obtain ⟨mark, hmark, rfl⟩ := mem_map.mp
          ((hfield batch hmem).mp ⟨field, hincr, property, hprop⟩)
        exact mem_map_of_mem (hbatch batch hmem mark hmark)
      · intro hst
        obtain ⟨mark, hmark, rfl⟩ := mem_map.mp hst
        obtain ⟨batch, hmem, hin⟩ := mem_flatMap.mp hmark
        obtain ⟨field, hincr, property, hprop⟩ := (hfield batch hmem).mpr (mem_map_of_mem hin)
        exact ⟨field.1, mem_map_of_mem (mem_flatMap.mpr ⟨batch, hmem, hincr⟩), property, hprop⟩
    have hnames : ∀ name, name ∈ (persistIncrements increments).map Prod.fst ↔
        name ∈ (batches.flatMap (batchIncrements dateParse)).map Prod.fst := by
      intro name
      rw [← (hperm.map Prod.fst).mem_iff, persistIncrements, mem_keys_tallyAll]
      exact or_iff_right not_mem_nil
    rw [(hsort.map Prod.fst).mem_iff, hpars.starts, persistedHash, mem_parsed_iff, ← hbatc]
    simp only [hnames]
    refine and_iff_right_of_imp fun hexis => ?_
    obtain ⟨mark, hmark, rfl⟩ := mem_map.mp (hbatc.mp hexis)
    exact (hstarts mark hmark).trans (by decide +kernel : 10 ^ 21 < infiniteFrom)

end CtsEngine
