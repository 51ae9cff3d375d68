import CtsEngine.Dca.Profile
import Mathlib.Data.List.Induction
import Mathlib.Data.List.ReduceOption

/-!
# Merging layers of DCA settings

`mergeDcaProfileSources` of `lib/dca-strategy.ts`.  The layers come in ascending priority: stored
hashes with flat `dca*` names, per-step names of older saves, a position snapshot with normalised
names.  Every layer is copied over the merged object, and a setting that the layer has under any of
its names is written again under the normalised one, which `normalizeDcaProfile` reads first.  Only
`incrementSteps` has no such second write.
-/

namespace CtsEngine

open List Keyed Option

/-! ## The names of the settings -/

abbrev maxStepsNames : List String := ["maxSteps", "dcaMaxSteps"]

abbrev incrementStepsNames : List String := ["incrementSteps", "dcaIncrementSteps"]

abbrev stepVolumeNames : List String := ["stepVolumeMultipliers", "dcaStepVolumeMultipliers"]

abbrev stepDistanceNames : List String := ["stepDistancesPct", "dcaStepDistancesPct"]

abbrev takeProfitModeNames : List String :=
  ["takeProfitMode", "dcaTakeProfitMode", "dcaTakeProfitAdjustment"]

abbrev breakevenNames : List String := ["breakevenProfitPct", "dcaBreakevenProfitPct"]

abbrev cooldownNames : List String := ["cooldownSeconds", "dcaCooldownSeconds"]

abbrev volumeRatioNames : List String :=
  ["maxPositionVolumeRatio", "dcaMaxPositionVolumeRatio", "dcaMaxVolumeRatio"]

/-! ## The merge -/

namespace SettingsObject

/-- `Object.assign(merged, source)`.  The keys of an object are distinct, so that the order of the
writes does not matter. -/
def assign (merged source : SettingsObject) : SettingsObject :=
  source.foldr (fun entry merged => put merged entry.1 entry.2) merged

/-- `merged[key] = value`, if there is a value to write. -/
def write (merged : SettingsObject) (key : String) (value : Option SettingValue) :
    SettingsObject :=
  value.elim merged (put merged key)

/-- The layer has one of the names. -/
def hasAny (source : SettingsObject) (names : List String) : Bool := names.any (hasOwn source)

/-- The value of a setting that the layer has under one of its names. -/
def named (source : SettingsObject) (names : List String) : Option SettingValue :=
  if source.hasAny names then some (source.firstOf names) else none

/-- The list of a setting with per-step names: a list that the layer has, or the current values
with the steps of the layer in their places. -/
def namedSteps (source : SettingsObject) (names : List String) (legacyStart : String)
    (current : List ℚ) : Option SettingValue :=
  if source.hasAny names then some (source.firstOf names)
  else if source.hasAny (stepKeys legacyStart) then
    some (.array ((List.range 4).map fun index =>
      let key := (stepKeys legacyStart).getD index ""
      if hasOwn source key then source.read key
      else .number (.finite (current.getD index 0))))
  else none

end SettingsObject

variable (parseJson : JsonArrays)

/-- The body of the loop over the layers. -/
def applyLayer (merged source : SettingsObject) : SettingsObject :=
  let current := normalizeDcaProfile parseJson (some merged)
  let merged := merged.assign source
  let merged := merged.write "maxSteps" (source.named maxStepsNames)
  let merged := merged.write "stepVolumeMultipliers"
    (source.namedSteps stepVolumeNames "dcaStepVolume" current.stepVolumeMultipliers)
  let merged := merged.write "stepDistancesPct"
    (source.namedSteps stepDistanceNames "dcaStepDistance" current.stepDistancesPct)
  let merged := merged.write "takeProfitMode" (source.named takeProfitModeNames)
  let merged := merged.write "breakevenProfitPct" (source.named breakevenNames)
  let merged := merged.write "cooldownSeconds" (source.named cooldownNames)
  merged.write "maxPositionVolumeRatio" (source.named volumeRatioNames)

/-- `mergeDcaProfileSources`, with `none` for a source that is not an object. -/
def mergeDcaProfileSources (sources : List (Option SettingsObject)) : DcaProfile :=
  normalizeDcaProfile parseJson (some
    (sources.foldl (fun merged raw => raw.elim merged (applyLayer parseJson merged)) []))

/-- The merged object after some layers. -/
def mergedLayers (layers : List SettingsObject) : SettingsObject :=
  layers.foldl (applyLayer parseJson) []

lemma mergeDcaProfileSources_eq (sources : List (Option SettingsObject)) :
    mergeDcaProfileSources parseJson sources =
      normalizeDcaProfile parseJson (some (mergedLayers parseJson sources.reduceOption)) := by
  unfold mergeDcaProfileSources mergedLayers
  congr 2
  induction sources using reverseRecOn with
  | nil => rfl
  | append_singleton sources raw ih =>
    rw [foldl_append, ih, reduceOption_append, foldl_append]
    cases raw with
    | none => rfl
    | some source => rfl

@[simp] lemma mergedLayers_append_singleton (layers : List SettingsObject)
    (layer : SettingsObject) : mergedLayers parseJson (layers ++ [layer]) =
      applyLayer parseJson (mergedLayers parseJson layers) layer := by
  simp [mergedLayers]

/-! ## What the merged object holds -/

namespace SettingsObject

variable {source : SettingsObject} {names : List String}

lemma read_of_not_hasOwn {key : String} (h : hasOwn source key = false) :
    source.read key = .undefined := by
  simp [read, isSome_eq_false_iff.mp h |> isNone_iff_eq_none.mp]

lemma read_put (merged : SettingsObject) (key other : String) (value : SettingValue) :
    read (put merged key value) other = if other = key then value else merged.read other := by
  unfold read
  split
  · next h => rw [h, get?_put_self, getD_some]
  · next h => rw [get?_put_of_ne merged value h]

lemma read_assign (merged source : SettingsObject) (key : String) :
    (merged.assign source).read key =
      if hasOwn source key then source.read key else merged.read key := by
  induction source with
  | nil => simp [assign, hasOwn, get?]
  | cons entry source ih =>
    change read (put (merged.assign source) entry.1 entry.2) key = _
    rw [read_put, ih]
    by_cases hkey : key = entry.1
    · simp [hkey, hasOwn, read, get?]
    · have hget : get? (entry :: source) key = get? source key := by
        simp [get?, Ne.symm hkey]
      unfold hasOwn read
      rw [if_neg hkey, hget]

lemma read_write (merged : SettingsObject) (key other : String) (value : Option SettingValue) :
    (merged.write key value).read other =
      if other = key then value.getD (merged.read key) else merged.read other := by
  cases value with
  | none =>
    by_cases h : other = key
    · simp [write, h]
    · simp [write, h]
  | some value => exact read_put ..

lemma firstOf_cons (source : SettingsObject) (name next : String) (names : List String) :
    source.firstOf (name :: next :: names) =
      (source.read name).orElse (source.firstOf (next :: names)) := rfl

lemma firstOf_congr {other : SettingsObject}
    (h : ∀ name ∈ names, source.read name = other.read name) :
    source.firstOf names = other.firstOf names := by
  induction names with
  | nil => rfl
  | cons name names ih =>
    have hhead := h name (mem_cons_self ..)
    have hrest := ih fun other hoth => h other (mem_cons_of_mem _ hoth)
    cases names with
    | nil => exact hhead
    | cons next names => rw [firstOf_cons, firstOf_cons, hhead, hrest]

lemma firstOf_of_head {name : String} (h : (source.read name).isNullish = false) :
    source.firstOf (name :: names) = source.read name := by
  cases names with
  | nil => rfl
  | cons next names => rw [firstOf_cons, SettingValue.orElse, if_neg (by simp [h])]

end SettingsObject

/-- What a layer writes under a normalised name. -/
def written (source : SettingsObject) (current : DcaProfile) (key : String) : Option SettingValue :=
  if key = "maxSteps" then source.named maxStepsNames
  else if key = "stepVolumeMultipliers" then
    source.namedSteps stepVolumeNames "dcaStepVolume" current.stepVolumeMultipliers
  else if key = "stepDistancesPct" then
    source.namedSteps stepDistanceNames "dcaStepDistance" current.stepDistancesPct
  else if key = "takeProfitMode" then source.named takeProfitModeNames
  else if key = "breakevenProfitPct" then source.named breakevenNames
  else if key = "cooldownSeconds" then source.named cooldownNames
  else if key = "maxPositionVolumeRatio" then source.named volumeRatioNames
  else none

lemma read_applyLayer (merged source : SettingsObject) (key : String) :
    (applyLayer parseJson merged source).read key =
      (written source (normalizeDcaProfile parseJson (some merged)) key).getD
        (if hasOwn source key then source.read key else merged.read key) := by
  unfold applyLayer written
  simp only [SettingsObject.read_write, SettingsObject.read_assign]
  rcases eq_or_ne key "maxSteps" with rfl | hsteps
  · simp
  rcases eq_or_ne key "stepVolumeMultipliers" with rfl | hvolum
  · simp
  rcases eq_or_ne key "stepDistancesPct" with rfl | hdist
  · simp
  rcases eq_or_ne key "takeProfitMode" with rfl | hmode
  · simp
  rcases eq_or_ne key "breakevenProfitPct" with rfl | hbreak
  · simp
  rcases eq_or_ne key "cooldownSeconds" with rfl | hcool
  · simp
  rcases eq_or_ne key "maxPositionVolumeRatio" with rfl | hratio
  · simp
  simp [hsteps, hvolum, hdist, hmode, hbreak, hcool, hratio]

end CtsEngine
