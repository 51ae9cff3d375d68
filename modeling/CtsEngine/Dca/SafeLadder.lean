import CtsEngine.Dca.Profile
import CtsEngine.Foundation.DecimalPlaces
import Mathlib.Data.List.Induction

/-!
# Safe ladders

A normalised profile is meant to be safe: its steps fit under its ceiling, and normalising it once
more changes nothing.  The steps are clipped before they are rounded, so that the rounding of early
steps can lift the ladder over the ceiling, or leave the last step more or less than it got.
-/

namespace CtsEngine

open List DecimalPlaces Int

/-! ## The ladder -/

section Ladder

variable {remaining drift value : ℚ} {values : List ℚ}

/-- `Math.round(value * 1_000_000) / 1_000_000`. -/
def roundRatio (value : ℚ) : ℚ := nearest 1000000 value

/-- `finiteInRange` for the ratio of a step that is a number. -/
def ratioInRange (value : ℚ) : ℚ := max (1 / 10) (min (5 / 2) value)

lemma roundRatio_mono {x y : ℚ} (h : x ≤ y) : roundRatio x ≤ roundRatio y :=
  nearest_mono (by norm_num) h

lemma roundRatio_nonneg (h : 0 ≤ value) : 0 ≤ roundRatio value := nearest_nonneg (by norm_num) h

lemma roundRatio_roundRatio (value : ℚ) : roundRatio (roundRatio value) = roundRatio value :=
  nearest_nearest (by norm_num) value

lemma roundRatio_zero : roundRatio 0 = 0 := nearest_zero (by norm_num)

lemma roundRatio_low : roundRatio (1 / 10) = 1 / 10 := by decide +kernel

lemma roundRatio_high : roundRatio (5 / 2) = 5 / 2 := by decide +kernel

lemma boundedLadder_of_le (h0 : 0 ≤ value) (h : value ≤ remaining) :
    boundedLadder remaining (value :: values) =
      roundRatio value :: boundedLadder (remaining - value) values := by
  have hval : max 0 (min value remaining) = value := by rw [min_eq_left h, max_eq_right h0]
  rw [boundedLadder, hval, max_eq_right (sub_nonneg.mpr h)]
  rfl

lemma boundedLadder_of_ge (h0 : 0 ≤ remaining) (h : remaining ≤ value) :
    boundedLadder remaining (value :: values) = roundRatio remaining :: boundedLadder 0 values := by
  have hval : max 0 (min value remaining) = remaining := by
    rw [min_eq_right h, max_eq_right h0]
  rw [boundedLadder, hval, sub_self]
  rfl

lemma boundedLadder_zero (h : ∀ value ∈ values, 1 / 10 ≤ value) :
    boundedLadder 0 values = replicate values.length 0 := by
  induction values with
  | nil => rfl
  | cons value values ih =>
    have hval : (0 : ℚ) ≤ value := le_trans (by norm_num) (h value (mem_cons_self ..))
    rw [boundedLadder_of_ge le_rfl hval, roundRatio_zero, ih fun v hv => h v (mem_cons_of_mem _ hv)]
    rfl

lemma sum_boundedLadder_nonneg (remaining : ℚ) (values : List ℚ) :
    0 ≤ (boundedLadder remaining values).sum := by
  induction values generalizing remaining with
  | nil => exact le_rfl
  | cons value values ih =>
    exact add_nonneg (roundRatio_nonneg (le_max_left ..)) (ih _)

/-- Least steps after the last one stay zero when nothing is left for them. -/
lemma boundedLadder_replicate_iff (h0 : 0 ≤ remaining) (n : ℕ) :
    boundedLadder remaining (replicate n (1 / 10)) = replicate n 0 ↔
      n = 0 ∨ roundRatio remaining = 0 := by
  cases n with
  | zero => exact iff_of_true rfl (.inl rfl)
  | succ n =>
    rw [replicate_succ, replicate_succ]
    rcases le_total (1 / 10) remaining with hle | hle
    · have hrnd := roundRatio_mono hle
      rw [roundRatio_low] at hrnd
      rw [boundedLadder_of_le (by norm_num) hle, roundRatio_low]
      refine iff_of_false (fun h => ?_) ?_
      · exact absurd (List.cons.inj h).1 (by norm_num)
      · rintro (h | h)
        · cases h
        · rw [h] at hrnd
          exact absurd hrnd (by norm_num)
    · rw [boundedLadder_of_ge h0 hle, boundedLadder_zero (fun v hv =>
        (eq_of_mem_replicate hv).ge)]
      simp

/-- When rounding keeps a ladder safe.  `remaining` is what the steps so far leave of the allowance,
and `drift` how much larger they became by rounding. -/
def RoundsSafely (drift remaining : ℚ) : List ℚ → Prop
  | [] => drift ≤ remaining
  | value :: values =>
    if value ≤ remaining then
      RoundsSafely (drift + (roundRatio value - value)) (remaining - value) values
    else
      roundRatio remaining ≤ remaining - drift ∧ (values = [] ∧ 1 / 10 ≤ roundRatio remaining ∨
          roundRatio (remaining - drift) = roundRatio remaining)

lemma boundedLadder_clipped_iff {left : ℚ} (hrnd : roundRatio remaining ≤ left)
    (h0 : 0 ≤ remaining) (hhigh : remaining ≤ 5 / 2) (n : ℕ) :
    boundedLadder left (ratioInRange (roundRatio remaining) :: replicate n (1 / 10)) =
        roundRatio remaining :: replicate n 0 ↔
      n = 0 ∧ 1 / 10 ≤ roundRatio remaining ∨ roundRatio left = roundRatio remaining := by
  have hleast := roundRatio_nonneg h0
  have hmost := roundRatio_mono hhigh
  rw [roundRatio_high] at hmost
  unfold ratioInRange
  rw [min_eq_right hmost]
  rcases le_or_gt (1 / 10) (roundRatio remaining) with hlow | hlow
  · rw [max_eq_right hlow, boundedLadder_of_le hleast hrnd, roundRatio_roundRatio,
      cons_inj_right, boundedLadder_replicate_iff (sub_nonneg.mpr hrnd), roundRatio,
      roundRatio, nearest_sub_nearest (by norm_num), sub_eq_zero]
    exact or_congr_left (and_iff_left hlow).symm
  · rw [max_eq_left hlow.le]
    rcases le_or_gt (1 / 10) left with hle | hlt
    · -- the step grows to the least ratio
      have hleft := roundRatio_mono hle
      rw [roundRatio_low] at hleft
      rw [boundedLadder_of_le (by norm_num) hle, roundRatio_low]
      refine iff_of_false (fun h => hlow.ne' (List.cons.inj h).1) ?_
      rintro (⟨-, h⟩ | h)
      · exact absurd h (not_le.mpr hlow)
      · rw [h] at hleft
        exact absurd hleft (not_le.mpr hlow)
    · rw [boundedLadder_of_ge (hleast.trans hrnd) hlt.le, boundedLadder_zero (fun v hv =>
        (eq_of_mem_replicate hv).ge), length_replicate, List.cons.injEq]
      exact ⟨fun h => .inr h.1,
        fun h => ⟨h.resolve_left fun h => absurd h.2 (not_le.mpr hlow), rfl⟩⟩

/-- The ladder stays below what is left and survives a second pass exactly when it rounds safely. -/
lemma roundsSafely_iff (hvals : ∀ value ∈ values, 1 / 10 ≤ value ∧ value ≤ 5 / 2)
    (h0 : 0 ≤ remaining) :
    (boundedLadder remaining values).sum ≤ remaining - drift ∧
        boundedLadder (remaining - drift) ((boundedLadder remaining values).map ratioInRange) =
          boundedLadder remaining values ↔
      RoundsSafely drift remaining values := by
  induction values generalizing remaining drift with
  | nil => simp [boundedLadder, RoundsSafely]
  | cons value values ih =>
    obtain ⟨hlow, hhigh⟩ := hvals value (mem_cons_self ..)
    have hrest : ∀ v ∈ values, 1 / 10 ≤ v ∧ v ≤ 5 / 2 := fun v hv => hvals v (mem_cons_of_mem _ hv)
    have hpos : 0 ≤ value := le_trans (by norm_num) hlow
    unfold RoundsSafely
    split_ifs with hfits
    · have hrnd := roundRatio_nonneg hpos
      have hleast := roundRatio_mono hlow
      have hmost := roundRatio_mono hhigh
      rw [roundRatio_low] at hleast
      rw [roundRatio_high] at hmost
      have hinRange : ratioInRange (roundRatio value) = roundRatio value := by
        unfold ratioInRange
        rw [min_eq_right hmost, max_eq_right hleast]
      have hleft : remaining - drift - roundRatio value =
          remaining - value - (drift + (roundRatio value - value)) := by ring
      rw [boundedLadder_of_le hpos hfits, sum_cons, map_cons, hinRange,
        ← ih hrest (sub_nonneg.mpr hfits), ← hleft, le_sub_iff_add_le' (a := roundRatio value)]
      refine and_congr_right fun hsum => ?_
      have htail := sum_boundedLadder_nonneg (remaining - value) values
      rw [boundedLadder_of_le hrnd (by linarith), roundRatio_roundRatio, cons_inj_right]
    · have hclip := (not_le.mp hfits).le
      rw [boundedLadder_of_ge h0 hclip, boundedLadder_zero fun v hv => (hrest v hv).1,
        sum_cons, sum_replicate, nsmul_zero, add_zero, map_cons, map_replicate,
        show ratioInRange 0 = 1 / 10 by decide +kernel]
      refine and_congr_right fun hrnd => ?_
      rw [boundedLadder_clipped_iff hrnd h0 (hclip.trans hhigh), length_eq_zero_iff]

lemma boundedLadder_pairwise (hvals : ∀ value ∈ values, 1 / 10 ≤ value) (h0 : 0 ≤ remaining) :
    (boundedLadder remaining values).Pairwise fun before after => 0 < after → 0 < before := by
  induction values generalizing remaining with
  | nil => exact List.Pairwise.nil
  | cons value values ih =>
    have hlow := hvals value (mem_cons_self ..)
    have hrest : ∀ v ∈ values, 1 / 10 ≤ v := fun v hv => hvals v (mem_cons_of_mem _ hv)
    rcases le_total value remaining with hle | hle
    · have hrnd := roundRatio_mono hlow
      rw [roundRatio_low] at hrnd
      rw [boundedLadder_of_le (le_trans (by norm_num) hlow) hle]
      exact pairwise_cons.mpr ⟨fun _ _ _ => lt_of_lt_of_le (by norm_num) hrnd,
        ih hrest (sub_nonneg.mpr hle)⟩
    · rw [boundedLadder_of_ge h0 hle, boundedLadder_zero hrest]
      refine pairwise_cons.mpr ⟨fun v hv hpos => ?_, pairwise_replicate.mpr (.inr id)⟩
      exact absurd hpos (eq_of_mem_replicate hv).le.not_gt

lemma boundedLadder_head_pos (hlow : 1 / 10 ≤ value) (hrem : 1 / 10 ≤ remaining)
    (values : List ℚ) : 0 < (boundedLadder remaining (value :: values)).getD 0 0 := by
  have hrnd : 1 / 10 ≤ roundRatio (min value remaining) :=
    roundRatio_low.symm.le.trans (roundRatio_mono (le_min hlow hrem))
  have hval : max 0 (min value remaining) = min value remaining :=
    max_eq_right (le_trans (by norm_num) (le_min hlow hrem))
  rw [boundedLadder, hval]
  exact lt_of_lt_of_le (by norm_num) hrnd

@[simp] lemma boundedLadder_length (remaining : ℚ) (values : List ℚ) :
    (boundedLadder remaining values).length = values.length := by
  induction values generalizing remaining with
  | nil => rfl
  | cons value values ih => simp [boundedLadder, ih]

lemma lastExecutableStep_pos (ratios : List ℚ) :
    lastExecutableStep ratios = 0 ∨ 0 < ratios.getD (lastExecutableStep ratios - 1) 0 := by
  induction ratios using reverseRecOn with
  | nil => exact .inl rfl
  | append_singleton ratios ratio ih =>
    have hlast : lastExecutableStep (ratios ++ [ratio]) =
        if 0 < ratio then ratios.length + 1 else lastExecutableStep ratios := by
      simp [lastExecutableStep, zipIdx_append]
    rw [hlast]
    split_ifs with hpos
    · simpa using hpos
    · refine ih.imp_right fun h => ?_
      have hlt : lastExecutableStep ratios - 1 < ratios.length := by
        by_contra hge
        rw [getD_eq_default _ _ (not_lt.mp hge)] at h
        exact lt_irrefl 0 h
      rwa [getD_append _ _ _ _ hlt]

end Ladder

/-! ## A profile as settings -/

attribute [ext] DcaProfile

def DcaTakeProfitMode.text : DcaTakeProfitMode → String
  | .average => "average"
  | .firstEntry => "first_entry"
  | .breakevenPlus => "breakeven_plus"

def SettingValue.ofNumber (value : ℚ) : SettingValue := .number (.finite value)

def DcaProfile.toSettings (profile : DcaProfile) : SettingsObject :=
  [("maxSteps", .ofNumber profile.maxSteps),
    ("stepVolumeMultipliers", .array (profile.stepVolumeMultipliers.map .ofNumber)),
    ("stepDistancesPct", .array (profile.stepDistancesPct.map .ofNumber)),
    ("takeProfitMode", .text profile.takeProfitMode.text),
    ("breakevenProfitPct", .ofNumber profile.breakevenProfitPct),
    ("cooldownSeconds", .ofNumber profile.cooldownSeconds),
    ("maxPositionVolumeRatio", .ofNumber profile.maxPositionVolumeRatio),
    ("incrementSteps", .ofNumber profile.incrementSteps)]

/-- What a normalised profile has, whatever its ladder. -/
structure DcaProfile.Canonical (profile : DcaProfile) : Prop where
  maxSteps : 1 ≤ profile.maxSteps ∧ profile.maxSteps ≤ 4
  executable : profile.maxSteps ≤ max 1 (lastExecutableStep profile.stepVolumeMultipliers)
  volumes_length : profile.stepVolumeMultipliers.length = 4
  distances_length : profile.stepDistancesPct.length = 4
  distances : ∀ value ∈ profile.stepDistancesPct, 1 / 10 ≤ value ∧ value ≤ 20
  nondecreasing : profile.stepDistancesPct.Pairwise (· ≤ ·)
  breakeven : 5 / 100 ≤ profile.breakevenProfitPct ∧ profile.breakevenProfitPct ≤ 5
  cooldown : 0 ≤ profile.cooldownSeconds ∧ profile.cooldownSeconds ≤ 3600
  cooldown_whole : ∃ n : ℤ, profile.cooldownSeconds = n
  ratio : minDcaPositionVolumeRatio ≤ profile.maxPositionVolumeRatio ∧
    profile.maxPositionVolumeRatio ≤ maxDcaPositionVolumeRatio
  incrementSteps : blockIncrementStepsMin ≤ profile.incrementSteps ∧
    profile.incrementSteps ≤ blockIncrementStepsMax

section Settings

variable (parseJson : JsonArrays)

lemma pairwise_nondecreasing (previous : Option ℚ) (values : List ℚ) :
    (nondecreasing previous values).Pairwise (· ≤ ·) ∧
      ∀ least ∈ previous, ∀ value ∈ nondecreasing previous values, least ≤ value := by
  induction values generalizing previous with
  | nil => exact ⟨List.Pairwise.nil, by simp [nondecreasing]⟩
  | cons value values ih =>
    obtain ⟨hpair, hleast⟩ := ih (some (previous.elim value (max value)))
    refine ⟨pairwise_cons.mpr ⟨hleast _ rfl, hpair⟩, ?_⟩
    rintro least rfl v hv
    rcases mem_cons.mp hv with rfl | hv
    · exact le_max_right ..
    · exact (le_max_right value least).trans (hleast _ rfl v hv)

lemma nondecreasing_of_pairwise {previous : Option ℚ} {values : List ℚ}
    (h : values.Pairwise (· ≤ ·)) (hleast : ∀ least ∈ previous, ∀ value ∈ values, least ≤ value) :
    nondecreasing previous values = values := by
  induction values generalizing previous with
  | nil => rfl
  | cons value values ih =>
    obtain ⟨hval, hrest⟩ := pairwise_cons.mp h
    have hnext : previous.elim value (max value) = value := by
      cases previous with
      | none => rfl
      | some least => exact max_eq_left (hleast least rfl value (mem_cons_self ..))
    rw [nondecreasing, hnext, ih hrest (by rintro least ⟨⟩; exact hval)]

lemma resolveStepArray_ofNumber {values : List ℚ} (hlen : values.length = 4)
    (source : SettingsObject) (legacyStart : String) (defaults : List ℚ) (low high : ℚ) :
    resolveStepArray parseJson
      (.array (values.map .ofNumber)) source legacyStart defaults low high =
      values.map fun value => max low (min high value) := by
  refine ext_getElem (by simp [resolveStepArray, hlen]) fun index hidx hidx' => ?_
  rw [length_map] at hidx'
  simp only [resolveStepArray, parseArray, getElem_map, getElem_range]
  rw [getD_eq_getElem _ _ (by rwa [length_map]), getElem_map]
  rfl

lemma resolveStepArray_mem_Icc {rawArray : SettingValue} {source : SettingsObject}
    {legacyStart : String} {defaults : List ℚ} {low high : ℚ} (hrange : low ≤ high)
    (hdef : ∀ index < 4, low ≤ defaults.getD index 0 ∧ defaults.getD index 0 ≤ high) :
    ∀ value ∈ resolveStepArray parseJson rawArray source legacyStart defaults low high,
      low ≤ value ∧ value ≤ high := by
  intro value hval
  obtain ⟨index, hidx, rfl⟩ := mem_map.mp hval
  obtain ⟨hlow, hhigh⟩ := hdef index (mem_range.mp hidx)
  exact ⟨le_finiteInRange hlow, finiteInRange_le hhigh hrange⟩

variable (raw : Option SettingsObject)

/-- The steps that settings ask for, in their range. -/
def requestedStepVolumeMultipliers : List ℚ :=
  resolveStepArray parseJson
    ((raw.getD []).firstOf ["stepVolumeMultipliers", "dcaStepVolumeMultipliers"]) (raw.getD [])
    "dcaStepVolume" defaultDcaProfile.stepVolumeMultipliers (1 / 10) (5 / 2)

/-- The ceiling that settings ask for, in its range. -/
def requestedPositionVolumeRatio : ℚ :=
  finiteInRange ((raw.getD []).firstOf
    ["maxPositionVolumeRatio", "dcaMaxPositionVolumeRatio", "dcaMaxVolumeRatio"])
    defaultDcaProfile.maxPositionVolumeRatio minDcaPositionVolumeRatio maxDcaPositionVolumeRatio

lemma mem_requestedStepVolumeMultipliers :
    ∀ value ∈ requestedStepVolumeMultipliers parseJson raw, 1 / 10 ≤ value ∧ value ≤ 5 / 2 :=
  resolveStepArray_mem_Icc parseJson (by norm_num) (by decide +kernel)

lemma requestedPositionVolumeRatio_ge :
    14 / 10 ≤ requestedPositionVolumeRatio raw := le_finiteInRange (by decide +kernel)

lemma normalizeDcaProfile_stepVolumeMultipliers :
    (normalizeDcaProfile parseJson raw).stepVolumeMultipliers =
      boundedLadder (requestedPositionVolumeRatio raw - 1)
        (requestedStepVolumeMultipliers parseJson raw) := by
  have hratio := requestedPositionVolumeRatio_ge raw
  change boundedLadder (max 0 (requestedPositionVolumeRatio raw - 1)) _ = _
  rw [max_eq_right (by linarith)]
  rfl

lemma normalizeDcaProfile_canonical : (normalizeDcaProfile parseJson raw).Canonical where
  maxSteps := ⟨le_max_left .., normalizeDcaProfile_maxSteps_le parseJson raw⟩
  executable := by
    have hle : ∀ steps last : ℕ, max 1 (min steps (if last = 0 then 1 else last)) ≤ max 1 last := by
      intro steps last
      split_ifs <;> omega
    exact hle _ _
  volumes_length := by simp [normalizeDcaProfile, resolveStepArray]
  distances_length := by simp [normalizeDcaProfile, resolveStepArray]
  distances := nondecreasing_mem_Icc
    (resolveStepArray_mem_Icc parseJson (by norm_num) (by decide +kernel)) (by simp)
  nondecreasing := (pairwise_nondecreasing none _).1
  breakeven := ⟨le_finiteInRange (by decide +kernel),
    finiteInRange_le (by decide +kernel) (by norm_num)⟩
  cooldown := by
    have hlow : 0 ≤ finiteInRange ((raw.getD []).firstOf ["cooldownSeconds", "dcaCooldownSeconds"])
        defaultDcaProfile.cooldownSeconds 0 3600 := le_finiteInRange (by decide +kernel)
    have hhigh : finiteInRange ((raw.getD []).firstOf ["cooldownSeconds", "dcaCooldownSeconds"])
        defaultDcaProfile.cooldownSeconds 0 3600 ≤ 3600 :=
      finiteInRange_le (by decide +kernel) (by norm_num)
    refine ⟨?_, ?_⟩
    · exact cast_nonneg (floor_nonneg.mpr (by linarith))
    · have hfloor : ⌊finiteInRange ((raw.getD []).firstOf ["cooldownSeconds", "dcaCooldownSeconds"])
          defaultDcaProfile.cooldownSeconds 0 3600 + 1 / 2⌋ < 3601 :=
        floor_lt.mpr (by linarith)
      have hle := cast_le (R := ℚ).mpr (le_sub_one_of_lt hfloor)
      exact hle.trans (by norm_num)
  cooldown_whole := ⟨_, rfl⟩
  ratio := normalizeDcaProfile_ratio parseJson raw
  incrementSteps := ⟨le_max_left .., max_le (by decide) (min_le_left ..)⟩

/-- A profile reads back exactly when its ladder fits the bound. -/
lemma normalizeDcaProfile_toSettings_iff {profile : DcaProfile} (h : profile.Canonical) :
    normalizeDcaProfile parseJson (some profile.toSettings) = profile ↔
      boundedLadder (profile.maxPositionVolumeRatio - 1)
        (profile.stepVolumeMultipliers.map ratioInRange) = profile.stepVolumeMultipliers := by
  have hratio : requestedPositionVolumeRatio (some profile.toSettings) =
      profile.maxPositionVolumeRatio := finiteInRange_of_mem h.ratio.1 h.ratio.2
  have hvolum : requestedStepVolumeMultipliers parseJson (some profile.toSettings) =
      profile.stepVolumeMultipliers.map ratioInRange :=
    resolveStepArray_ofNumber parseJson h.volumes_length _ _ _ _ _
  have hladd := normalizeDcaProfile_stepVolumeMultipliers parseJson (some profile.toSettings)
  rw [hratio, hvolum] at hladd
  refine ⟨fun heq => hladd.symm.trans (congrArg DcaProfile.stepVolumeMultipliers heq),
    fun heq => ?_⟩
  rw [heq] at hladd
  have hsteps : finiteInRange (.ofNumber profile.maxSteps) defaultDcaProfile.maxSteps 1 4 =
      profile.maxSteps := finiteInRange_of_mem (by exact_mod_cast h.maxSteps.1)
    (by exact_mod_cast h.maxSteps.2)
  have hmaxSteps : (normalizeDcaProfile parseJson (some profile.toSettings)).maxSteps =
      profile.maxSteps := by
    have hmin : ∀ steps last : ℕ, 1 ≤ steps → steps ≤ max 1 last →
        max 1 (min steps (if last = 0 then 1 else last)) = steps := by
      intro steps last hone hle
      split_ifs <;> omega
    rw [← hmin profile.maxSteps _ h.maxSteps.1 h.executable, ← hladd]
    change max 1 (min (⌊finiteInRange
      (.ofNumber profile.maxSteps) defaultDcaProfile.maxSteps 1 4⌋).toNat
      _) = _
    rw [hsteps]
    rfl
  have hdist : (normalizeDcaProfile parseJson (some profile.toSettings)).stepDistancesPct =
      profile.stepDistancesPct := by
    change nondecreasing none (resolveStepArray parseJson
      (.array (profile.stepDistancesPct.map .ofNumber)) _ _ _ _ _) = _
    rw [resolveStepArray_ofNumber parseJson h.distances_length, map_congr_left fun value hv => by
      rw [min_eq_right (h.distances value hv).2, max_eq_right (h.distances value hv).1], map_id']
    exact nondecreasing_of_pairwise h.nondecreasing (by simp)
  have hmode : (normalizeDcaProfile parseJson (some profile.toSettings)).takeProfitMode =
      profile.takeProfitMode := by
    change (if (SettingValue.text profile.takeProfitMode.text).isWord "first_entry" then
      DcaTakeProfitMode.firstEntry else if (SettingValue.text profile.takeProfitMode.text).isWord
      "breakeven_plus" then .breakevenPlus else .average) = _
    cases profile.takeProfitMode <;> decide
  have hbreak : (normalizeDcaProfile parseJson (some profile.toSettings)).breakevenProfitPct =
      profile.breakevenProfitPct := by
    change finiteInRange (.ofNumber _) defaultDcaProfile.breakevenProfitPct _ _ = _
    exact finiteInRange_of_mem h.breakeven.1 h.breakeven.2
  have hcool : (normalizeDcaProfile parseJson (some profile.toSettings)).cooldownSeconds =
      profile.cooldownSeconds := by
    obtain ⟨n, hn⟩ := h.cooldown_whole
    change ((⌊finiteInRange (.ofNumber profile.cooldownSeconds) _ 0 3600 + 1 / 2⌋ : ℤ) : ℚ) = _
    rw [SettingValue.ofNumber, finiteInRange_of_mem h.cooldown.1 h.cooldown.2, hn,
      floor_intCast_add, show ⌊(1 / 2 : ℚ)⌋ = 0 by norm_num, add_zero]
  have hincr : (normalizeDcaProfile parseJson (some profile.toSettings)).incrementSteps =
      profile.incrementSteps := by
    change max blockIncrementStepsMin
      (min blockIncrementStepsMax ⌊(profile.incrementSteps : ℚ)⌋) = _
    rw [floor_intCast, min_eq_right h.incrementSteps.2, max_eq_right h.incrementSteps.1]
  exact DcaProfile.ext hmaxSteps hladd hdist hmode hbreak hcool hratio hincr

end Settings

/-- What normalising makes of settings is safe. -/
structure NormalizesSafely (parseJson : JsonArrays) (raw : Option SettingsObject) : Prop where
  idempotent : normalizeDcaProfile parseJson (some (normalizeDcaProfile parseJson raw).toSettings) =
    normalizeDcaProfile parseJson raw
  ceiling : 1 + (normalizeDcaProfile parseJson raw).stepVolumeMultipliers.sum ≤
    (normalizeDcaProfile parseJson raw).maxPositionVolumeRatio
  ratio_le : (normalizeDcaProfile parseJson raw).maxPositionVolumeRatio ≤ 5
  nondecreasing : (normalizeDcaProfile parseJson raw).stepDistancesPct.Pairwise (· ≤ ·)
  maxSteps : 1 ≤ (normalizeDcaProfile parseJson raw).maxSteps ∧
    (normalizeDcaProfile parseJson raw).maxSteps ≤ 4
  positive : ∀ step < (normalizeDcaProfile parseJson raw).maxSteps,
    0 < (normalizeDcaProfile parseJson raw).stepVolumeMultipliers.getD step 0

lemma normalizeDcaProfile_positive (parseJson : JsonArrays) (raw : Option SettingsObject) {step : ℕ}
    (hstep : step < (normalizeDcaProfile parseJson raw).maxSteps) :
    0 < (normalizeDcaProfile parseJson raw).stepVolumeMultipliers.getD step 0 := by
  have hle := (normalizeDcaProfile_canonical parseJson raw).executable
  have hlast := lastExecutableStep_pos (normalizeDcaProfile parseJson raw).stepVolumeMultipliers
  have hratio := requestedPositionVolumeRatio_ge raw
  rw [normalizeDcaProfile_stepVolumeMultipliers] at hle hlast ⊢
  have hpair := boundedLadder_pairwise
    (fun v hv => (mem_requestedStepVolumeMultipliers parseJson raw v hv).1)
    (by linarith : 0 ≤ requestedPositionVolumeRatio raw - 1)
  have hhead : 0 < (boundedLadder (requestedPositionVolumeRatio raw - 1)
      (requestedStepVolumeMultipliers parseJson raw)).getD 0 0 :=
    boundedLadder_head_pos (mem_requestedStepVolumeMultipliers parseJson raw _
      (mem_cons_self ..)).1 (by linarith) _
  generalize boundedLadder (requestedPositionVolumeRatio raw - 1)
    (requestedStepVolumeMultipliers parseJson raw) = ladder at hle hlast hpair hhead ⊢
  rcases hlast with hzero | hlast
  · obtain rfl : step = 0 := by omega
    exact hhead
  · rcases Nat.lt_or_ge step (lastExecutableStep ladder - 1) with hlt | hge
    · have hlen : lastExecutableStep ladder - 1 < ladder.length := by
        by_contra hge
        rw [getD_eq_default _ _ (not_lt.mp hge)] at hlast
        exact lt_irrefl 0 hlast
      rw [getD_eq_getElem _ _ hlen] at hlast
      rw [getD_eq_getElem _ _ (hlt.trans hlen)]
      exact pairwise_iff_getElem.mp hpair _ _ (hlt.trans hlen) hlen hlt hlast
    · obtain rfl : step = lastExecutableStep ladder - 1 := by omega
      exact hlast

/-- **Normalising is safe exactly when the requested ladder rounds safely.** -/
theorem normalizeDcaProfile_safe_iff (parseJson : JsonArrays) (raw : Option SettingsObject) :
    NormalizesSafely parseJson raw ↔ RoundsSafely 0 (requestedPositionVolumeRatio raw - 1)
        (requestedStepVolumeMultipliers parseJson raw) := by
  have hcanonical := normalizeDcaProfile_canonical parseJson raw
  have hratio := requestedPositionVolumeRatio_ge raw
  have hceiling : (normalizeDcaProfile parseJson raw).maxPositionVolumeRatio =
      requestedPositionVolumeRatio raw := rfl
  rw [← roundsSafely_iff (mem_requestedStepVolumeMultipliers parseJson raw) (by linarith), sub_zero,
    ← normalizeDcaProfile_stepVolumeMultipliers, ← hceiling,
    ← normalizeDcaProfile_toSettings_iff parseJson hcanonical]
  refine ⟨fun h => ⟨le_sub_iff_add_le'.mpr h.ceiling, h.idempotent⟩, fun ⟨hsum, hsame⟩ => ?_⟩
  exact ⟨hsame, le_sub_iff_add_le'.mp hsum, hcanonical.ratio.2, hcanonical.nondecreasing,
    hcanonical.maxSteps, fun step => normalizeDcaProfile_positive parseJson raw⟩

/-- A ceiling of 1.5 with a first step of 0.2500005: half a millionth is added to the first step and
to what is left for the second one. -/
theorem not_normalizesSafely_halfMillionth : ¬ ∀ parseJson raw, NormalizesSafely parseJson raw := by
  intro h
  have hceiling := (h (fun _ => none) (some [("maxPositionVolumeRatio", .ofNumber (3 / 2)),
    ("stepVolumeMultipliers", .array [.ofNumber (2500005 / 10000000)])])).ceiling
  exact absurd hceiling (by decide +kernel)

end CtsEngine
