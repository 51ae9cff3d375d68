import CtsEngine.Dca.ProfileMerge

/-!
# The newest save of a DCA setting

`mergeDcaProfileSources` is there for the newest save of every setting to win, under whichever of
its names the layers have it.  `NewestSaveWins` states this for a profile, up to the ranges of
`normalizeDcaProfile`; a step of a list of volumes or distances is a setting of its own, as a save
may name it alone.
-/

namespace CtsEngine

open Option List SettingsObject SettingValue

/-! ## What the layers supply -/

namespace SettingValue

/-- A value that a numeric setting accepts. -/
def isNumeric (value : SettingValue) : Bool :=
  !value.isNullish && (match value.toNumber with
    | .finite _ => true
    | _ => false)

/-- A take-profit mode. -/
def isMode (value : SettingValue) : Bool :=
  ["average", "first_entry", "breakeven_plus"].any value.isWord

variable {value a : SettingValue}

lemma isNumeric_not_nullish (h : value.isNumeric = true) : value.isNullish = false := by
  cases hnull : value.isNullish with
  | false => rfl
  | true => simp [isNumeric, hnull] at h

lemma isMode_not_nullish (h : value.isMode = true) : value.isNullish = false := by
  cases value with
  | undefined => simp [isMode, isWord] at h
  | null => simp [isMode, isWord] at h
  | boolean => rfl
  | number => rfl
  | text => rfl
  | array => rfl
  | record => rfl

lemma orElse_of_isNullish (b : SettingValue) (h : a.isNullish = true) : a.orElse b = b := if_pos h

lemma orElse_of_not_isNullish (b : SettingValue) (h : a.isNullish = false) :
    a.orElse b = a := if_neg (by simp [h])

end SettingValue

/-- The newest valid value of a setting, where `values` gives those that a layer has for it. -/
def newest (valid : SettingValue → Bool) (values : SettingsObject → List SettingValue)
    (layers : List SettingsObject) : Option SettingValue :=
  layers.reverse.findSome? fun layer => (values layer).find? valid

/-- The last layer that has a setting, with the layers before it. -/
def lastWith (has : SettingsObject → Bool) (layers : List SettingsObject) :
    Option (List SettingsObject × SettingsObject) :=
  match layers.reverse.dropWhile fun layer => !has layer with
  | [] => none
  | layer :: earlier => some (earlier.reverse, layer)

/-- The layers laid over each other: every name with what the newest layer with it has there. -/
def laidOver (layers : List SettingsObject) : SettingsObject := layers.foldl assign []

/-- The values that a layer has for a setting: the one that a profile of this layer alone would
read, and then those under each of the names. -/
def namedValues (names : List String) (layer : SettingsObject) : List SettingValue :=
  layer.firstOf names :: names.map layer.read

variable (parseJson : JsonArrays)

/-- What a profile of one object reads for a step. -/
def stepReading (names : List String) (legacyStart : String) (index : ℕ)
    (source : SettingsObject) : SettingValue :=
  ((parseArray parseJson (source.firstOf names)).getD index .undefined).orElse
    (source.read ((stepKeys legacyStart).getD index ""))

/-- The values that a layer has for a step. -/
def stepValues (names : List String) (legacyStart : String) (index : ℕ)
    (layer : SettingsObject) : List SettingValue :=
  stepReading parseJson names legacyStart index layer ::
    (names.map fun name => (parseArray parseJson (layer.read name)).getD index .undefined) ++
      [layer.read ((stepKeys legacyStart).getD index "")]

/-- The newest valid value of a numeric setting. -/
def newestNumber (names : List String) (layers : List SettingsObject) : Option SettingValue :=
  newest isNumeric (namedValues names) layers

/-- The newest valid value of a step. -/
def newestStep (names : List String) (legacyStart : String) (index : ℕ)
    (layers : List SettingsObject) : Option SettingValue :=
  newest isNumeric (stepValues parseJson names legacyStart index) layers

/-- A list of requested steps agrees with the newest saves of the steps. -/
def RequestsNewest (names : List String) (legacyStart : String) (defaults : List ℚ) (low high : ℚ)
    (layers : List SettingsObject) (requested : List ℚ) : Prop :=
  requested.length = 4 ∧ ∀ index < 4, ∀ value ∈ newestStep parseJson names legacyStart index layers,
      requested.getD index 0 = finiteInRange value (defaults.getD index 0) low high

/-- Every setting of a profile is the newest valid save of it, up to the ranges of a profile; a
setting without a valid save may be anything. -/
structure NewestSaveWins (layers : List SettingsObject) (profile : DcaProfile) : Prop where
  maxSteps : ∀ value ∈ newestNumber maxStepsNames layers,
    profile.maxSteps = max 1 (min ⌊finiteInRange value defaultDcaProfile.maxSteps 1 4⌋.toNat
      (if lastExecutableStep profile.stepVolumeMultipliers = 0 then 1
        else lastExecutableStep profile.stepVolumeMultipliers))
  incrementSteps : ∀ value ∈ newestNumber incrementStepsNames layers,
    ∀ steps, value.toNumber = .finite steps →
      profile.incrementSteps = normalizeBlockIncrementSteps (some steps)
  stepVolumes : ∃ requested, RequestsNewest parseJson stepVolumeNames "dcaStepVolume"
      defaultDcaProfile.stepVolumeMultipliers (1 / 10) (5 / 2) layers requested ∧
    profile.stepVolumeMultipliers =
      boundedLadder (max 0 (profile.maxPositionVolumeRatio - 1)) requested
  stepDistances : ∃ requested, RequestsNewest parseJson stepDistanceNames "dcaStepDistance"
      defaultDcaProfile.stepDistancesPct (1 / 10) 20 layers requested ∧
    profile.stepDistancesPct = nondecreasing none requested
  takeProfitMode : ∀ value ∈ newest isMode (namedValues takeProfitModeNames) layers,
    profile.takeProfitMode =
      if value.isWord "first_entry" then .firstEntry
      else if value.isWord "breakeven_plus" then .breakevenPlus
      else .average
  breakevenProfitPct : ∀ value ∈ newestNumber breakevenNames layers, profile.breakevenProfitPct =
      finiteInRange value defaultDcaProfile.breakevenProfitPct (5 / 100) 5
  cooldownSeconds : ∀ value ∈ newestNumber cooldownNames layers, profile.cooldownSeconds =
      (⌊finiteInRange value defaultDcaProfile.cooldownSeconds 0 3600 + 1 / 2⌋ : ℤ)
  maxPositionVolumeRatio : ∀ value ∈ newestNumber volumeRatioNames layers,
    profile.maxPositionVolumeRatio = finiteInRange value defaultDcaProfile.maxPositionVolumeRatio
      minDcaPositionVolumeRatio maxDcaPositionVolumeRatio

/-- The last layer that has a setting has a valid value first, or it has only null and the newest
save lies under one of the other names. -/
def LastSaveValid (valid : SettingValue → Bool) (names : List String)
    (layers : List SettingsObject) : Prop :=
  ∀ value ∈ newest valid (namedValues names) layers, ∀ last ∈ lastWith (·.hasAny names) layers,
      valid (last.2.firstOf names) = true ∨
        (last.2.firstOf names).isNullish = true ∧ (laidOver layers).firstOf names.tail = value

/-- The newest save of `incrementSteps` is not behind an older value under the normalised name. -/
def IncrementStepsInFront (layers : List SettingsObject) : Prop :=
  ∀ value ∈ newestNumber incrementStepsNames layers,
    ((laidOver layers).firstOf incrementStepsNames).toNumber = value.toNumber

/-- The layer has a list of steps, or one of them alone. -/
def hasSteps (names : List String) (legacyStart : String) (layer : SettingsObject) : Bool :=
  layer.hasAny names || layer.hasAny (stepKeys legacyStart)

/-- What is left of a step after the last list: its place there, or in the list under the flat name
if that layer has only null, and else what lies under its own name. -/
def stepLeft (names : List String) (legacyStart : String) (index : ℕ)
    (layers : List SettingsObject) (last : SettingsObject) : SettingValue :=
  ((parseArray parseJson ((last.firstOf names).orElse ((laidOver layers).firstOf names.tail))).getD
    index .undefined).orElse ((laidOver layers).read ((stepKeys legacyStart).getD index ""))

/-- The newest saves of the steps outlive the last layer that has steps.  After a list they are what
is left.  After single steps those must be valid, and the others stand unchanged in the profile
before them. -/
def StepsCarryOver (names : List String) (legacyStart : String) (defaults : List ℚ) (low high : ℚ)
    (current : DcaProfile → List ℚ) (layers : List SettingsObject) : Prop :=
  ∀ last ∈ lastWith (hasSteps names legacyStart) layers,
    ∀ index < 4, ∀ value ∈ newestStep parseJson names legacyStart index layers,
      if last.2.hasAny names then
        finiteInRange (stepLeft parseJson names legacyStart index layers last.2)
          (defaults.getD index 0) low high = finiteInRange value (defaults.getD index 0) low high
      else if hasOwn last.2 ((stepKeys legacyStart).getD index "") then
        (last.2.read ((stepKeys legacyStart).getD index "")).isNumeric = true
      else
        (current (normalizeDcaProfile parseJson (some (mergedLayers parseJson last.1)))).getD
          index 0 = finiteInRange value (defaults.getD index 0) low high

/-- The layers under which every newest save is carried over into the profile. -/
structure SavesCarryOver (layers : List SettingsObject) : Prop where
  maxSteps : LastSaveValid isNumeric maxStepsNames layers
  incrementSteps : IncrementStepsInFront layers
  stepVolumes : StepsCarryOver parseJson stepVolumeNames "dcaStepVolume"
    defaultDcaProfile.stepVolumeMultipliers (1 / 10) (5 / 2) DcaProfile.stepVolumeMultipliers layers
  stepDistances : StepsCarryOver parseJson stepDistanceNames "dcaStepDistance"
    defaultDcaProfile.stepDistancesPct (1 / 10) 20 DcaProfile.stepDistancesPct layers
  takeProfitMode : LastSaveValid isMode takeProfitModeNames layers
  breakevenProfitPct : LastSaveValid isNumeric breakevenNames layers
  cooldownSeconds : LastSaveValid isNumeric cooldownNames layers
  maxPositionVolumeRatio : LastSaveValid isNumeric volumeRatioNames layers

/-! ## The last layer with a setting -/

section LastWith

variable {has : SettingsObject → Bool} {valid : SettingValue → Bool}
  {values : SettingsObject → List SettingValue} {layers before : List SettingsObject}
  {layer : SettingsObject}

variable (layers) (layer)

lemma lastWith_append_singleton (has : SettingsObject → Bool) : lastWith has (layers ++ [layer]) =
      if has layer then some (layers, layer) else lastWith has layers := by
  cases h : has layer with
  | false => simp [lastWith, h]
  | true => simp [lastWith, h]

lemma newest_append_singleton (valid : SettingValue → Bool)
    (values : SettingsObject → List SettingValue) : newest valid values (layers ++ [layer]) =
      ((values layer).find? valid).or (newest valid values layers) := by
  rw [newest, reverse_append, reverse_singleton, singleton_append, findSome?_cons]
  cases (values layer).find? valid with
  | none => rfl
  | some value => rfl

lemma read_laidOver_append_singleton (name : String) : (laidOver (layers ++ [layer])).read name =
      if hasOwn layer name then layer.read name else (laidOver layers).read name := by
  rw [laidOver, foldl_append, foldl_cons, foldl_nil, read_assign]
  rfl

variable {layer} {layers}

lemma hasAny_of_lastWith (h : lastWith has layers = some (before, layer)) : has layer = true := by
  induction layers using reverseRecOn with
  | nil => cases h
  | append_singleton layers other ih =>
    rw [lastWith_append_singleton] at h
    split at h
    · next hhas =>
      obtain ⟨-, rfl⟩ := Prod.mk.inj (some.inj h)
      exact hhas
    · exact ih h

lemma exists_lastWith (hquiet : ∀ other, has other = false → (values other).find? valid = none)
    (h : (newest valid values layers).isSome = true) :
    ∃ before layer, lastWith has layers = some (before, layer) := by
  induction layers using reverseRecOn with
  | nil => cases h
  | append_singleton layers other ih =>
    rw [lastWith_append_singleton]
    cases hhas : has other with
    | true => exact ⟨_, _, rfl⟩
    | false =>
      rw [newest_append_singleton, hquiet other hhas] at h
      exact ih h

lemma newest_of_lastWith (hquiet : ∀ other, has other = false → (values other).find? valid = none)
    (hlast : lastWith has layers = some (before, layer)) {value : SettingValue}
    (hval : (values layer).find? valid = some value) :
    newest valid values layers = some value := by
  induction layers using reverseRecOn with
  | nil => cases hlast
  | append_singleton layers other ih =>
    rw [lastWith_append_singleton] at hlast
    rw [newest_append_singleton]
    split at hlast
    · obtain ⟨-, rfl⟩ := Prod.mk.inj (some.inj hlast)
      rw [hval, some_or]
    · next hhas =>
      rw [hquiet other (by simpa using hhas)]
      exact ih hlast

lemma reading_of_lastWith {A : Type*} (reading : SettingsObject → A)
    (hquiet : ∀ merged other, has other = false →
      reading (applyLayer parseJson merged other) = reading merged)
    (hlast : lastWith has layers = some (before, layer)) :
    reading (mergedLayers parseJson layers) =
      reading (applyLayer parseJson (mergedLayers parseJson before) layer) := by
  induction layers using reverseRecOn with
  | nil => cases hlast
  | append_singleton layers other ih =>
    rw [lastWith_append_singleton] at hlast
    rw [mergedLayers_append_singleton]
    split at hlast
    · cases hlast
      rfl
    · next hhas => rw [hquiet _ other (by simpa using hhas), ih hlast]

/-- A name that is never written again holds what the newest layer with it has there. -/
lemma read_mergedLayers {name : String}
    (hname : ∀ source current, written source current name = none) :
    (mergedLayers parseJson layers).read name = (laidOver layers).read name := by
  induction layers using reverseRecOn with
  | nil => rfl
  | append_singleton layers other ih =>
    rw [mergedLayers_append_singleton, read_applyLayer, hname, read_laidOver_append_singleton, ih,
      getD_none]

lemma firstOf_mergedLayers_of_unwritten {names : List String}
    (hnames : ∀ name ∈ names, ∀ source current, written source current name = none) :
    (mergedLayers parseJson layers).firstOf names = (laidOver layers).firstOf names :=
  firstOf_congr fun name hname =>
    read_mergedLayers parseJson (hnames name hname)

end LastWith

variable {names : List String} {layer : SettingsObject}

lemma hasOwn_of_hasAny (h : layer.hasAny names = false) :
    ∀ name ∈ names, hasOwn layer name = false := by
  intro name hname
  simpa using any_eq_false.mp h name hname

lemma firstOf_of_unnamed (h : layer.hasAny names = false) : layer.firstOf names = .undefined := by
  have hread : ∀ name ∈ names, layer.read name = SettingsObject.read [] name := fun name hname =>
    read_of_not_hasOwn (hasOwn_of_hasAny h name hname)
  rw [firstOf_congr hread]
  clear h hread
  induction names with
  | nil => rfl
  | cons name names ih =>
    cases names with
    | nil => rfl
    | cons next names =>
      rw [firstOf_cons, ih]
      rfl

lemma find?_namedValues {valid : SettingValue → Bool}
    (hvalid : ∀ value, valid value = true → value.isNullish = false)
    (h : layer.hasAny names = false) : (namedValues names layer).find? valid = none := by
  rw [find?_eq_none]
  intro value hval htrue
  have hundef : value = .undefined := by
    rcases mem_cons.mp hval with rfl | hmem
    · exact firstOf_of_unnamed h
    · obtain ⟨name, hname, rfl⟩ := mem_map.mp hmem
      exact read_of_not_hasOwn (hasOwn_of_hasAny h name hname)
  rw [hundef] at htrue
  cases hvalid _ htrue

section Named

variable {valid : SettingValue → Bool} {name next : String} {rest : List String}
  {layers before : List SettingsObject} {layer : SettingsObject} {value : SettingValue}

lemma read_mergedLayers_of_lastWith
    (hname : ∀ source current, written source current name = source.named (name :: rest))
    (hlast : lastWith (·.hasAny (name :: rest)) layers = some (before, layer)) :
    (mergedLayers parseJson layers).read name = layer.firstOf (name :: rest) := by
  have hquiet : ∀ merged other : SettingsObject, other.hasAny (name :: rest) = false →
      (applyLayer parseJson merged other).read name = merged.read name := by
    intro merged other hno
    rw [read_applyLayer, hname, named, if_neg (by simp [hno]), hasOwn_of_hasAny hno name (by simp)]
    rfl
  rw [reading_of_lastWith parseJson (·.read name) hquiet hlast, read_applyLayer, hname,
    named, if_pos (hasAny_of_lastWith hlast)]
  rfl

lemma firstOf_mergedLayers
    (hname : ∀ source current, written source current name = source.named (name :: next :: rest))
    (hrest : ∀ other ∈ next :: rest, ∀ source current, written source current other = none)
    (hvalid : ∀ value, valid value = true → value.isNullish = false)
    (h : LastSaveValid valid (name :: next :: rest) layers)
    (hval : newest valid (namedValues (name :: next :: rest)) layers = some value) :
    (mergedLayers parseJson layers).firstOf (name :: next :: rest) = value := by
  have hquiet : ∀ other : SettingsObject, other.hasAny (name :: next :: rest) = false →
      (namedValues (name :: next :: rest) other).find? valid = none :=
    fun other => find?_namedValues hvalid
  obtain ⟨before, layer, hlast⟩ := exists_lastWith hquiet (by rw [hval]; rfl)
  rw [firstOf_cons, read_mergedLayers_of_lastWith parseJson hname hlast]
  rcases h value hval _ hlast with hfst | ⟨hnull, hleft⟩
  · have hnewes := newest_of_lastWith hquiet hlast (find?_cons_of_pos hfst)
    rw [orElse_of_not_isNullish _ (hvalid _ hfst)]
    exact some.inj (hnewes.symm.trans hval)
  · rw [orElse_of_isNullish _ hnull, firstOf_mergedLayers_of_unwritten parseJson hrest]
    exact hleft

end Named

/-! ## Settings with one value a step -/

section Steps

variable {name flat legacyStart : String} {current : DcaProfile → List ℚ}
  {layers before : List SettingsObject} {layer : SettingsObject} {index : ℕ}

/-- A list of steps is written again under its normalised name only. -/
structure WritesSteps (name flat legacyStart : String) (current : DcaProfile → List ℚ) :
    Prop where
  name : ∀ source profile, written source profile name =
    source.namedSteps [name, flat] legacyStart (current profile)
  flat : ∀ source profile, written source profile flat = none
  keys : ∀ key ∈ stepKeys legacyStart, ∀ source profile, written source profile key = none

lemma stepKey_mem (legacyStart : String) (hidx : index < 4) :
    (stepKeys legacyStart).getD index "" ∈ stepKeys legacyStart := by
  rw [getD_eq_getElem _ _ (by simpa [stepKeys] using hidx)]
  exact getElem_mem _

lemma stepReading_of_unnamed {names : List String} (h : layer.hasAny names = false) :
    stepReading parseJson names legacyStart index layer =
      layer.read ((stepKeys legacyStart).getD index "") := by
  unfold stepReading
  rw [firstOf_of_unnamed h]
  rfl

lemma find?_stepValues {names : List String} (hidx : index < 4)
    (h : hasSteps names legacyStart layer = false) :
    (stepValues parseJson names legacyStart index layer).find? isNumeric = none := by
  obtain ⟨hnames, hkeys⟩ := Bool.or_eq_false_iff.mp h
  have hkey : layer.read ((stepKeys legacyStart).getD index "") = .undefined :=
    read_of_not_hasOwn (hasOwn_of_hasAny hkeys _ (stepKey_mem legacyStart hidx))
  rw [find?_eq_none]
  intro value hval
  have hundef : value = .undefined := by
    unfold stepValues at hval
    rw [stepReading_of_unnamed parseJson hnames, hkey] at hval
    rcases mem_append.mp hval with hlist | hsing
    · rcases mem_cons.mp hlist with rfl | hmem
      · rfl
      · obtain ⟨other, hoth, rfl⟩ := mem_map.mp hmem
        rw [read_of_not_hasOwn (hasOwn_of_hasAny hnames other hoth)]
        rfl
    · exact mem_singleton.mp hsing
  rw [hundef]
  decide

namespace WritesSteps

variable (h : WritesSteps name flat legacyStart current)
  (hlast : lastWith (hasSteps [name, flat] legacyStart) layers = some (before, layer))
include h hlast

lemma read_steps : (mergedLayers parseJson layers).read name =
    (layer.namedSteps [name, flat] legacyStart
      (current (normalizeDcaProfile parseJson (some (mergedLayers parseJson before))))).getD
        .undefined := by
  have hquiet : ∀ merged other, hasSteps [name, flat] legacyStart other = false →
      (applyLayer parseJson merged other).read name = merged.read name := by
    intro merged other hno
    obtain ⟨hnames, hkeys⟩ := Bool.or_eq_false_iff.mp hno
    rw [read_applyLayer, h.name, namedSteps, if_neg (by simp [hnames]),
      if_neg (by simp [hkeys]), hasOwn_of_hasAny hnames name (by simp)]
    rfl
  rw [reading_of_lastWith parseJson (·.read name) hquiet hlast, read_applyLayer, h.name]
  cases hnames : layer.hasAny [name, flat] with
  | true => simp [namedSteps, hnames]
  | false =>
    have hkeys : layer.hasAny (stepKeys legacyStart) = true := by
      simpa [hasSteps, hnames] using hasAny_of_lastWith hlast
    simp [namedSteps, hnames, hkeys]

lemma reading_of_list (hidx : index < 4) (hnames : layer.hasAny [name, flat] = true) :
    stepReading parseJson [name, flat] legacyStart index (mergedLayers parseJson layers) =
      stepLeft parseJson [name, flat] legacyStart index layers layer := by
  have hread : (mergedLayers parseJson layers).read name = layer.firstOf [name, flat] := by
    rw [h.read_steps parseJson hlast, namedSteps, if_pos hnames]
    rfl
  have hflat : (mergedLayers parseJson layers).firstOf [flat] = (laidOver layers).firstOf [flat] :=
    firstOf_mergedLayers_of_unwritten parseJson (by simpa using h.flat)
  unfold stepReading stepLeft
  rw [firstOf_cons, hread, hflat,
    read_mergedLayers parseJson (h.keys _ (stepKey_mem legacyStart hidx))]
  rfl

lemma reading_of_single (hidx : index < 4) (hnames : layer.hasAny [name, flat] = false)
    {value : SettingValue}
    (hval : (if hasOwn layer ((stepKeys legacyStart).getD index "") then
        layer.read ((stepKeys legacyStart).getD index "")
      else .number (.finite ((current (normalizeDcaProfile parseJson
        (some (mergedLayers parseJson before)))).getD index 0))) = value)
    (hnull : value.isNullish = false) :
    stepReading parseJson [name, flat] legacyStart index (mergedLayers parseJson layers) =
      value := by
  have hkeys : layer.hasAny (stepKeys legacyStart) = true := by
    simpa [hasSteps, hnames] using hasAny_of_lastWith hlast
  have hread := h.read_steps parseJson hlast
  rw [namedSteps, if_neg (by simp [hnames]), if_pos hkeys] at hread
  unfold stepReading
  rw [firstOf_of_head (by rw [hread]; rfl), hread]
  simp only [parseArray, getD_eq_getElem?_getD, getElem?_map, getElem?_range hidx,
    map_some, getD_some] at hval ⊢
  rw [hval, orElse_of_not_isNullish _ hnull]

omit hlast in
lemma requestsNewest {defaults : List ℚ} {low high : ℚ}
    (hdef : ∀ index < 4, low ≤ defaults.getD index 0 ∧ defaults.getD index 0 ≤ high)
    (hrange : low ≤ high)
    (hcarry : StepsCarryOver parseJson [name, flat] legacyStart defaults low high current layers) :
    RequestsNewest parseJson [name, flat] legacyStart defaults low high layers
      (resolveStepArray parseJson ((mergedLayers parseJson layers).firstOf [name, flat])
        (mergedLayers parseJson layers) legacyStart defaults low high) := by
  refine ⟨by simp [resolveStepArray], fun index hidx value hval => ?_⟩
  have hreqd : (resolveStepArray parseJson
      ((mergedLayers parseJson layers).firstOf [name, flat]) (mergedLayers parseJson layers)
      legacyStart defaults low high).getD index 0 =
        finiteInRange (stepReading parseJson [name, flat] legacyStart index
          (mergedLayers parseJson layers)) (defaults.getD index 0) low high := by
    simp [resolveStepArray, stepReading, getD_eq_getElem?_getD, getElem?_range hidx]
  have hquiet : ∀ other, hasSteps [name, flat] legacyStart other = false →
      (stepValues parseJson [name, flat] legacyStart index other).find?
        isNumeric = none := fun other => find?_stepValues parseJson hidx
  have hval' : newest isNumeric (stepValues parseJson [name, flat] legacyStart index)
      layers = some value := hval
  obtain ⟨before, layer, hlast⟩ := exists_lastWith hquiet (by rw [hval']; rfl)
  have hcond := hcarry _ hlast index hidx value hval
  rw [hreqd]
  split at hcond
  · next hnames => rw [h.reading_of_list parseJson hlast hidx hnames, hcond]
  · next hnames =>
    have hnames : layer.hasAny [name, flat] = false := by simpa using hnames
    split at hcond
    · next howned =>
      rw [h.reading_of_single parseJson hlast hidx hnames (if_pos howned)
        (isNumeric_not_nullish hcond)]
      -- a numeric step of the last layer is the newest save
      rw [← stepReading_of_unnamed parseJson hnames] at hcond ⊢
      have hnewes := newest_of_lastWith hquiet hlast (find?_cons_of_pos hcond)
      rw [some.inj (hnewes.symm.trans hval')]
    · next hno =>
      obtain ⟨hlow, hhigh⟩ := hdef index hidx
      rw [h.reading_of_single parseJson hlast hidx hnames (if_neg hno) rfl, hcond]
      exact finiteInRange_of_mem (le_finiteInRange hlow) (finiteInRange_le hhigh hrange)

end WritesSteps

end Steps

/-! ## The merge -/

/-- **The newest save wins** in every merge of layers whose newest saves carry over. -/
theorem mergeDcaProfileSources_newest (sources : List (Option SettingsObject))
    (h : SavesCarryOver parseJson sources.reduceOption) :
    NewestSaveWins parseJson sources.reduceOption (mergeDcaProfileSources parseJson sources) := by
  rw [mergeDcaProfileSources_eq]
  have hvolumes : WritesSteps "stepVolumeMultipliers" "dcaStepVolumeMultipliers" "dcaStepVolume"
      DcaProfile.stepVolumeMultipliers :=
    ⟨by simp [written], by simp [written], by simp [written, stepKeys]⟩
  have hdistances : WritesSteps "stepDistancesPct" "dcaStepDistancesPct" "dcaStepDistance"
      DcaProfile.stepDistancesPct :=
    ⟨by simp [written], by simp [written], by simp [written, stepKeys]⟩
  constructor
  case maxSteps =>
    intro value hvalue
    have hread := firstOf_mergedLayers parseJson (by simp [written]) (by simp [written])
      (fun _ => isNumeric_not_nullish) h.maxSteps hvalue
    simp only [normalizeDcaProfile, getD_some, hread]
  case incrementSteps =>
    intro value hvalue steps hsteps
    have hread := h.incrementSteps value hvalue
    rw [← firstOf_mergedLayers_of_unwritten parseJson (by simp [written])] at hread
    simp only [normalizeDcaProfile, getD_some, hread, hsteps]
  case stepVolumes =>
    exact ⟨_, hvolumes.requestsNewest parseJson (by decide +kernel) (by norm_num)
      h.stepVolumes, rfl⟩
  case stepDistances =>
    exact ⟨_, hdistances.requestsNewest parseJson (by decide +kernel) (by norm_num)
      h.stepDistances, rfl⟩
  case takeProfitMode =>
    intro value hvalue
    have hread := firstOf_mergedLayers parseJson (by simp [written]) (by simp [written])
      (fun _ => isMode_not_nullish) h.takeProfitMode hvalue
    simp only [normalizeDcaProfile, getD_some, hread]
  case breakevenProfitPct =>
    intro value hvalue
    have hread := firstOf_mergedLayers parseJson (by simp [written]) (by simp [written])
      (fun _ => isNumeric_not_nullish) h.breakevenProfitPct hvalue
    simp only [normalizeDcaProfile, getD_some, hread]
  case cooldownSeconds =>
    intro value hvalue
    have hread := firstOf_mergedLayers parseJson (by simp [written]) (by simp [written])
      (fun _ => isNumeric_not_nullish) h.cooldownSeconds hvalue
    simp only [normalizeDcaProfile, getD_some, hread]
  case maxPositionVolumeRatio =>
    intro value hvalue
    have hread := firstOf_mergedLayers parseJson (by simp [written]) (by simp [written])
      (fun _ => isNumeric_not_nullish) h.maxPositionVolumeRatio hvalue
    simp only [normalizeDcaProfile, getD_some, hread]

lemma lastSaveValid_of_valid {valid : SettingValue → Bool} {layers : List SettingsObject}
    (h : ∀ last ∈ lastWith (·.hasAny names) layers, valid (last.2.firstOf names) = true) :
    LastSaveValid valid names layers :=
  fun _ _ last hlast => .inl (h last hlast)

instance (layers : List SettingsObject) : Decidable (IncrementStepsInFront layers) :=
  inferInstanceAs (Decidable (∀ value ∈ newestNumber incrementStepsNames layers,
    ((laidOver layers).firstOf incrementStepsNames).toNumber = value.toNumber))

instance (names : List String) (legacyStart : String) (defaults : List ℚ) (low high : ℚ)
    (current : DcaProfile → List ℚ) (layers : List SettingsObject) : Decidable
      (StepsCarryOver parseJson names legacyStart defaults low high current layers) :=
  inferInstanceAs (Decidable (∀ last ∈ lastWith (hasSteps names legacyStart) layers,
    ∀ index < 4, ∀ value ∈ newestStep parseJson names legacyStart index layers,
      if last.2.hasAny names then _ = _
      else if hasOwn last.2 ((stepKeys legacyStart).getD index "") then _ else _))

/-- A save under flat names, a source that is no object, and a save that names the same settings
otherwise. -/
def mixedSaves : List (Option SettingsObject) :=
  [some [("dcaMaxSteps", .number (.finite 3)), ("dcaIncrementSteps", .number (.finite 2)),
      ("dcaStepVolumeMultipliers", .array [.number (.finite (1 / 2)), .number (.finite (1 / 2)),
        .number (.finite 1), .number (.finite 1)])],
    none,
    some [("maxSteps", .number (.finite 2)), ("incrementSteps", .number (.finite 4)),
      ("dcaStepVolume2", .number (.finite (3 / 4))),
      ("dcaTakeProfitAdjustment", .text "first_entry")]]

theorem mergeDcaProfileSources_newest_mixedSaves :
    NewestSaveWins (fun _ => none) mixedSaves.reduceOption
      (mergeDcaProfileSources (fun _ => none) mixedSaves) := by
  apply mergeDcaProfileSources_newest
  constructor
  case incrementSteps => decide +kernel
  case stepVolumes => decide +kernel
  case stepDistances => decide +kernel
  all_goals exact lastSaveValid_of_valid (by decide +kernel)

/-- A save of `incrementSteps`, and a newer one under the flat name. -/
def flatSave : List (Option SettingsObject) :=
  [some [("incrementSteps", .number (.finite 2))],
    some [("dcaIncrementSteps", .number (.finite 5))]]

/-- The newer save of `incrementSteps` is lost. -/
theorem mergeDcaProfileSources_keepsOlder :
    newestNumber incrementStepsNames flatSave.reduceOption = some (.number (.finite 5)) ∧
      (mergeDcaProfileSources (fun _ => none) flatSave).incrementSteps = 2 ∧
      ¬ NewestSaveWins (fun _ => none) flatSave.reduceOption
        (mergeDcaProfileSources (fun _ => none) flatSave) := by
  have hnewest : newestNumber incrementStepsNames flatSave.reduceOption =
      some (.number (.finite 5)) := rfl
  have hmerged : (mergeDcaProfileSources (fun _ => none) flatSave).incrementSteps = 2 := by
    decide +kernel
  refine ⟨hnewest, hmerged, fun h => ?_⟩
  have hclaimed := h.incrementSteps _ hnewest 5 rfl
  revert hclaimed
  decide +kernel

end CtsEngine
