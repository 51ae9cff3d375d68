import CtsEngine.Foundation.Grouping
import CtsEngine.Foundation.NumberText
import CtsEngine.Foundation.RoundRobin

/-!
# Balanced selection of configurations

`selectBalancedConfigs` of `lib/trade-engine/balanced-config-selection.ts`: a bounded number of
configurations, taken from the types in turn.  At least one is selected, whatever limit is
requested, unless the limit is not a number.
-/

namespace CtsEngine

open List Keyed RoundRobin

/-- `String(config.type || "unknown")`. -/
def configTypeName (type : Option String) : String := (strOr type none).getD "unknown"

/-- The limit of `selectBalancedConfigs`, `none` for `NaN`. -/
def selectionLimit (available : ℕ) (requestedLimit : Double) : Option ℕ :=
  match requestedLimit with
  | .finite q => some (max 1 (min (available : ℤ) ⌊q⌋)).toNat
  | .infinity negative => some (if negative then 1 else max 1 available)
  | .nan => none

variable {T : Type*}

/-- `groups`: the configurations of each type, in the order of the first ones. -/
def typeGroups (type : T → Option String) (configs : List T) : List (String × List T) :=
  collect (fun config => configTypeName (type config)) (fun _ => [])
    (fun group config => group ++ [config]) configs

/-- `selectBalancedConfigs`, for configurations with a type.  No length is below `NaN`. -/
def selectBalancedConfigs (type : T → Option String) (configs : List T) (requestedLimit : Double) :
    List T :=
  match selectionLimit configs.length requestedLimit with
  | some limit =>
    if configs.length ≤ limit then configs
    else roundRobin limit (typeGroups type configs)
  | none => []

/-- How many of `total` configurations a limit selects: at least one of them. -/
def selectedCount (total : ℕ) (requestedLimit : Double) : ℕ :=
  match requestedLimit with
  | .finite q => min total (max 1 ⌊q⌋).toNat
  | .infinity negative => if negative then min total 1 else total
  | .nan => 0

/-- The configurations with a type, in their order. -/
def ofType (type : T → Option String) (name : String) (configs : List T) : List T :=
  configs.filter fun config => configTypeName (type config) = name

/-- What a balanced selection promises. -/
structure BalancedSelection (type : T → Option String) (configs : List T) (requestedLimit : Double)
    (selected : List T) : Prop where
  count : selected.length = selectedCount configs.length requestedLimit
  /-- Every entry is selected at most as often as it is listed. -/
  subperm : selected.Subperm configs
  /-- The first ones of every type are selected, in their order. -/
  first : ∀ name, ofType type name selected <+: ofType type name configs
  /-- A type with two fewer than another one has none left. -/
  balanced : ∀ name other,
    (ofType type name selected).length + 1 < (ofType type other selected).length →
      ofType type name selected = ofType type name configs

variable {type : T → Option String} {configs : List T} {requestedLimit : Double}

lemma BalancedSelection.of_fair {limit : ℕ} {selected : List T}
    (hcnt : min limit configs.length = selectedCount configs.length requestedLimit)
    (hfair : Fair (fun config => configTypeName (type config)) limit (typeGroups type configs)
      selected) :
    BalancedSelection type configs requestedLimit selected := by
  have hperm : ((typeGroups type configs).flatMap Prod.snd).Perm configs :=
    collect_lists_perm configs
  have hsubp : selected.Subperm configs := hfair.subperm.trans hperm.subperm
  have hent : ∀ name, ofType type name configs ≠ [] →
      (name, ofType type name configs) ∈ typeGroups type configs :=
    fun name hne => mem_collect_lists.mpr ⟨rfl, hne⟩
  have hnone : ∀ name, ofType type name configs = [] → ofType type name selected = [] := by
    intro name hemp
    refine filter_eq_nil_iff.mpr fun config hconf => ?_
    exact filter_eq_nil_iff.mp hemp config (hsubp.subset hconf)
  refine ⟨?_, hsubp, fun name => ?_, fun name other hless => ?_⟩
  · rw [hfair.length, hperm.length_eq, hcnt]
  · by_cases hemp : ofType type name configs = []
    · simpa only [hnone name hemp] using nil_prefix
    · exact hfair.first _ (hent name hemp)
  · by_cases hemp : ofType type name configs = []
    · exact (hnone name hemp).trans hemp.symm
    · refine hfair.even _ (hent name hemp) _ (hent other fun hoth => ?_) hless
      rw [hnone other hoth] at hless
      exact absurd hless (Nat.not_lt_zero _)

lemma typeGroups_fair (type : T → Option String) (configs : List T) (limit : ℕ) :
    Fair (fun config => configTypeName (type config)) limit (typeGroups type configs)
      (roundRobin limit (typeGroups type configs)) := by
  refine roundRobin_fair (fun entry hent config hconf => ?_) ?_
  · rw [(mem_collect_lists.mp hent).1] at hconf
    exact of_decide_eq_true (mem_filter.mp hconf).2
  · rw [typeGroups, collect_eq, map_map]
    exact (firsts_spec (fun config => configTypeName (type config)) configs).2.1

lemma min_selectionLimit {limit : ℕ}
    (hlimit : selectionLimit configs.length requestedLimit = some limit) :
    min limit configs.length = selectedCount configs.length requestedLimit := by
  cases requestedLimit with
  | finite q =>
    obtain rfl := Option.some.inj hlimit
    rw [selectedCount]
    omega
  | infinity negative =>
    obtain rfl := Option.some.inj hlimit
    cases negative with
    | false => exact min_eq_right (le_max_right _ _)
    | true => exact min_comm _ _
  | nan => cases hlimit

/-- **Balanced selection** is fair and loses nothing but what is beyond the limit. -/
theorem selectBalancedConfigs_balanced (type : T → Option String) (configs : List T)
    (requestedLimit : Double) :
    BalancedSelection type configs requestedLimit
      (selectBalancedConfigs type configs requestedLimit) := by
  rw [selectBalancedConfigs]
  cases hlimit : selectionLimit configs.length requestedLimit with
  | none =>
    have hnan : requestedLimit = .nan := by
      cases requestedLimit with
      | nan => rfl
      | _ => cases hlimit
    subst hnan
    refine ⟨rfl, nil_subperm, fun _ => nil_prefix, fun _ _ h => ?_⟩
    exact absurd h (by simp [ofType])
  | some limit =>
    have hcount := min_selectionLimit hlimit
    dsimp only
    split_ifs with hall
    · rw [min_eq_right hall] at hcount
      exact ⟨hcount, Subperm.refl _, fun _ => prefix_rfl, fun _ _ _ => rfl⟩
    · exact .of_fair hcount (typeGroups_fair type configs limit)

/-- A limit of zero selects one configuration. -/
theorem not_selectBalancedConfigs_zero : ¬ ∀ (configs : List (Option String)) (limit : ℤ),
      ((selectBalancedConfigs id configs (.finite limit)).length : ℤ) =
        min limit configs.length := by
  intro hall
  have hzero := hall [some "SMA", some "EMA"] 0
  exact absurd hzero (by decide +kernel)

end CtsEngine
