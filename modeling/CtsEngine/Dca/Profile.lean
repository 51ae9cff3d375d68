import CtsEngine.Block.Lifecycle
import CtsEngine.Foundation.Keyed
import CtsEngine.Foundation.NumberText
import Mathlib.Data.List.GetD

/-!
# The DCA profile

`normalizeDcaProfile` of `lib/dca-strategy.ts`: a settings object under normalised names, flat
`dca*` names or per-step names becomes a profile whose numbers lie in their ranges, whose step
ratios fit under the position ceiling and whose distances do not decrease.

Values of settings are JavaScript values; numbers of a profile are exact.
-/

namespace CtsEngine

open List

/-! ## Settings objects -/

/-- The value of a property. -/
inductive SettingValue
  | undefined
  | null
  | boolean (b : Bool)
  | number (x : Double)
  | text (s : String)
  | array (items : List SettingValue)
  /-- Any other object. -/
  | record

namespace SettingValue

/-- `Number(value)`.  An array is read as the text of its elements with commas between them. -/
def toNumber : SettingValue → Double
  | .undefined => .nan
  | .null => .finite 0
  | .boolean b => .finite (if b then 1 else 0)
  | .number x => x
  | .text s => numberOfString s
  | .array [] => .finite 0
  | .array [.undefined] => .finite 0
  | .array [.boolean _] => .nan
  | .array [x] => x.toNumber
  | .array _ => .nan
  | .record => .nan

/-- `String(value) === word`, for a word of letters and underscores that is none of `undefined`,
`null`, `true`, `false`, `NaN` and `Infinity`. -/
def isWord (word : String) : SettingValue → Bool
  | .text s => s == word
  | .array [x] => x.isWord word
  | _ => false

/-- `value` is `null` or `undefined`. -/
def isNullish : SettingValue → Bool
  | .undefined => true
  | .null => true
  | _ => false

/-- `a ?? b`. -/
def orElse (a b : SettingValue) : SettingValue := if a.isNullish then b else a

end SettingValue

/-- A settings object: its own properties. -/
abbrev SettingsObject := List (String × SettingValue)

/-- `source[key]`. -/
def SettingsObject.read (source : SettingsObject) (key : String) : SettingValue :=
  (Keyed.get? source key).getD .undefined

def hasOwn (source : SettingsObject) (key : String) : Bool := (Keyed.get? source key).isSome

/-- `source[a] ?? source[b] ?? …`. -/
def SettingsObject.firstOf (source : SettingsObject) : List String → SettingValue
  | [] => .undefined
  | [key] => source.read key
  | key :: keys => (source.read key).orElse (firstOf source keys)

/-! ## Profiles -/

inductive DcaTakeProfitMode
  | average
  | firstEntry
  | breakevenPlus
  deriving DecidableEq

structure DcaProfile where
  maxSteps : ℕ
  stepVolumeMultipliers : List ℚ
  stepDistancesPct : List ℚ
  takeProfitMode : DcaTakeProfitMode
  breakevenProfitPct : ℚ
  cooldownSeconds : ℚ
  maxPositionVolumeRatio : ℚ
  incrementSteps : ℤ

/-- `MAX_DCA_POSITION_VOLUME_RATIO`. -/
def maxDcaPositionVolumeRatio : ℚ := 5

/-- `MIN_DCA_POSITION_VOLUME_RATIO`. -/
def minDcaPositionVolumeRatio : ℚ := 14 / 10

/-- `DEFAULT_DCA_PROFILE`. -/
def defaultDcaProfile : DcaProfile where
  maxSteps := 4
  stepVolumeMultipliers := [1, 1, 1, 1]
  stepDistancesPct := [3 / 10, 6 / 10, 1, 16 / 10]
  takeProfitMode := .average
  breakevenProfitPct := 2 / 10
  cooldownSeconds := 30
  maxPositionVolumeRatio := maxDcaPositionVolumeRatio
  incrementSteps := 3

def finiteInRange (raw : SettingValue) (fallback low high : ℚ) : ℚ :=
  match raw.toNumber with
  | .finite value => max low (min high value)
  | _ => fallback

/-- `JSON.parse` of a text that starts with a bracket, `none` when it throws. -/
abbrev JsonArrays := String → Option SettingValue

variable (parseJson : JsonArrays)

def parseArray : SettingValue → List SettingValue
  | .array items => items
  | .text s =>
    let trimmed := trim s
    if trimmed = "" then []
    else if hasPrefix "[" trimmed then
      match parseJson trimmed with
      | some (.array items) => items
      | _ => []
    else
      ((trimmed.toList.splitOnP fun c => isJsSpace c || c == ',' || c == '|').filter
        fun piece => piece ≠ []).map fun piece => .text (String.ofList piece)
  | _ => []

/-- The names of the per-step properties under a prefix. -/
def stepKeys (start : String) : List String :=
  [start ++ "1", start ++ "2", start ++ "3", start ++ "4"]

def resolveStepArray (rawArray : SettingValue) (source : SettingsObject) (legacyStart : String)
    (defaults : List ℚ) (low high : ℚ) : List ℚ :=
  let parsed := parseArray parseJson rawArray
  (List.range 4).map fun index =>
    finiteInRange
      ((parsed.getD index .undefined).orElse (source.read ((stepKeys legacyStart).getD index "")))
      (defaults.getD index 0) low high

/-- Clip the ratios against what is left of the exposure allowance, and round them. -/
def boundedLadder : ℚ → List ℚ → List ℚ
  | _, [] => []
  | remainingAddRatio, value :: values =>
    let boundedValue := max 0 (min value remainingAddRatio)
    ((⌊boundedValue * 1000000 + 1 / 2⌋ : ℤ) / 1000000) ::
      boundedLadder (max 0 (remainingAddRatio - boundedValue)) values

/-- The last step with a positive ratio, `0` when there is none. -/
def lastExecutableStep (ratios : List ℚ) : ℕ :=
  ratios.zipIdx.foldl (fun last entry => if 0 < entry.1 then entry.2 + 1 else last) 0

/-- Every distance is at least the one before. -/
def nondecreasing : Option ℚ → List ℚ → List ℚ
  | _, [] => []
  | previous, value :: values =>
    let next := previous.elim value (max value)
    next :: nondecreasing (some next) values

/-- `normalizeDcaProfile`, with `none` for a value that is not an object. -/
def normalizeDcaProfile (raw : Option SettingsObject) : DcaProfile :=
  let source := raw.getD []
  let maxSteps := ⌊finiteInRange (source.firstOf ["maxSteps", "dcaMaxSteps"])
    defaultDcaProfile.maxSteps 1 4⌋
  let incrementSteps := normalizeBlockIncrementSteps
    (match (source.firstOf ["incrementSteps", "dcaIncrementSteps"]).toNumber with
    | .finite value => some value
    | _ => none)
  let maxPositionVolumeRatio := finiteInRange
    (source.firstOf ["maxPositionVolumeRatio", "dcaMaxPositionVolumeRatio", "dcaMaxVolumeRatio"])
    defaultDcaProfile.maxPositionVolumeRatio minDcaPositionVolumeRatio maxDcaPositionVolumeRatio
  let stepVolumeMultipliers := boundedLadder (max 0 (maxPositionVolumeRatio - 1))
    (resolveStepArray parseJson
      (source.firstOf ["stepVolumeMultipliers", "dcaStepVolumeMultipliers"]) source
      "dcaStepVolume" defaultDcaProfile.stepVolumeMultipliers (1 / 10) (5 / 2))
  let last := lastExecutableStep stepVolumeMultipliers
  let takeProfitMode :=
    source.firstOf ["takeProfitMode", "dcaTakeProfitMode", "dcaTakeProfitAdjustment"]
  { maxSteps := max 1 (min maxSteps.toNat (if last = 0 then 1 else last))
    stepVolumeMultipliers := stepVolumeMultipliers
    stepDistancesPct := nondecreasing none
      (resolveStepArray parseJson (source.firstOf ["stepDistancesPct", "dcaStepDistancesPct"])
        source "dcaStepDistance" defaultDcaProfile.stepDistancesPct (1 / 10) 20)
    takeProfitMode :=
      if takeProfitMode.isWord "first_entry" then .firstEntry
      else if takeProfitMode.isWord "breakeven_plus" then .breakevenPlus
      else .average
    breakevenProfitPct := finiteInRange
      (source.firstOf ["breakevenProfitPct", "dcaBreakevenProfitPct"])
      defaultDcaProfile.breakevenProfitPct (5 / 100) 5
    cooldownSeconds := (⌊finiteInRange (source.firstOf ["cooldownSeconds", "dcaCooldownSeconds"])
      defaultDcaProfile.cooldownSeconds 0 3600 + 1 / 2⌋ : ℤ)
    maxPositionVolumeRatio := maxPositionVolumeRatio
    incrementSteps := incrementSteps }

/-! ## What every profile keeps -/

lemma le_finiteInRange {raw : SettingValue} {fallback low high : ℚ} (hlow : low ≤ fallback) :
    low ≤ finiteInRange raw fallback low high := by
  unfold finiteInRange
  split
  · exact le_max_left ..
  · exact hlow

lemma finiteInRange_le {raw : SettingValue} {fallback low high : ℚ} (hhigh : fallback ≤ high)
    (hrange : low ≤ high) : finiteInRange raw fallback low high ≤ high := by
  unfold finiteInRange
  split
  · exact max_le hrange (min_le_left ..)
  · exact hhigh

lemma finiteInRange_of_mem {value fallback low high : ℚ} (hlow : low ≤ value)
    (hhigh : value ≤ high) :
    finiteInRange (.number (.finite value)) fallback low high = value := by
  simp [finiteInRange, SettingValue.toNumber, hlow, hhigh]

@[simp] lemma nondecreasing_length (previous : Option ℚ) (values : List ℚ) :
    (nondecreasing previous values).length = values.length := by
  induction values generalizing previous with
  | nil => rfl
  | cons value values ih => simp [nondecreasing, ih]

lemma nondecreasing_mem_Icc {low high : ℚ} {values : List ℚ}
    (h : ∀ value ∈ values, low ≤ value ∧ value ≤ high) {previous : Option ℚ}
    (hprev : ∀ value ∈ previous, value ≤ high) :
    ∀ value ∈ nondecreasing previous values, low ≤ value ∧ value ≤ high := by
  induction values generalizing previous with
  | nil => simp [nondecreasing]
  | cons value values ih =>
    obtain ⟨hlow, hhigh⟩ := h value (mem_cons_self ..)
    have hnext : low ≤ previous.elim value (max value) ∧
        previous.elim value (max value) ≤ high := by
      cases previous with
      | none => exact ⟨hlow, hhigh⟩
      | some before => exact ⟨le_max_of_le_left hlow, max_le hhigh (hprev before rfl)⟩
    intro x hx
    rcases mem_cons.mp hx with rfl | hrest
    · exact hnext
    · refine ih (fun y hy => h y (mem_cons_of_mem _ hy)) ?_ x hrest
      intro y hy
      obtain rfl : previous.elim value (max value) = y := Option.mem_some.mp hy
      exact hnext.2

variable (raw : Option SettingsObject)

lemma normalizeDcaProfile_ratio :
    minDcaPositionVolumeRatio ≤ (normalizeDcaProfile parseJson raw).maxPositionVolumeRatio ∧
      (normalizeDcaProfile parseJson raw).maxPositionVolumeRatio ≤ maxDcaPositionVolumeRatio :=
  ⟨le_finiteInRange (by decide +kernel), finiteInRange_le le_rfl (by decide +kernel)⟩

lemma normalizeDcaProfile_maxSteps_le : (normalizeDcaProfile parseJson raw).maxSteps ≤ 4 := by
  have hsteps : ⌊finiteInRange ((raw.getD []).firstOf ["maxSteps", "dcaMaxSteps"])
      defaultDcaProfile.maxSteps 1 4⌋ ≤ 4 := by
    have hle : finiteInRange ((raw.getD []).firstOf ["maxSteps", "dcaMaxSteps"])
        defaultDcaProfile.maxSteps 1 4 ≤ 4 := finiteInRange_le (by decide +kernel) (by norm_num)
    exact_mod_cast (Int.floor_le _).trans hle
  simp only [normalizeDcaProfile]
  omega

lemma normalizeDcaProfile_distance {index : ℕ} (hidx : index < 4) :
    1 / 10 ≤ (normalizeDcaProfile parseJson raw).stepDistancesPct.getD index 0 ∧
      (normalizeDcaProfile parseJson raw).stepDistancesPct.getD index 0 ≤ 20 := by
  have hall : ∀ value ∈ (normalizeDcaProfile parseJson raw).stepDistancesPct,
      1 / 10 ≤ value ∧ value ≤ 20 := by
    apply nondecreasing_mem_Icc
    · intro value hval
      obtain ⟨i, hi, rfl⟩ := mem_map.mp hval
      have hdefau : ∀ i < 4, 1 / 10 ≤ defaultDcaProfile.stepDistancesPct.getD i 0 ∧
          defaultDcaProfile.stepDistancesPct.getD i 0 ≤ 20 := by decide +kernel
      have hdef := hdefau i (mem_range.mp hi)
      exact ⟨le_finiteInRange hdef.1, finiteInRange_le hdef.2 (by norm_num)⟩
    · simp
  have hlen : index < (normalizeDcaProfile parseJson raw).stepDistancesPct.length := by
    simpa [normalizeDcaProfile, resolveStepArray] using hidx
  rw [getD_eq_getElem _ _ hlen]
  exact hall _ (getElem_mem hlen)

/-- The ranges of a profile that a run depends on. -/
structure DcaProfile.InRange (profile : DcaProfile) : Prop where
  maxSteps_le : profile.maxSteps ≤ 4
  distance : ∀ index < 4, 1 / 10 ≤ profile.stepDistancesPct.getD index 0 ∧
    profile.stepDistancesPct.getD index 0 ≤ 20
  ratio : minDcaPositionVolumeRatio ≤ profile.maxPositionVolumeRatio ∧
    profile.maxPositionVolumeRatio ≤ maxDcaPositionVolumeRatio

lemma normalizeDcaProfile_inRange : (normalizeDcaProfile parseJson raw).InRange where
  maxSteps_le := normalizeDcaProfile_maxSteps_le parseJson raw
  distance := fun _ hidx => normalizeDcaProfile_distance parseJson raw hidx
  ratio := normalizeDcaProfile_ratio parseJson raw

end CtsEngine
