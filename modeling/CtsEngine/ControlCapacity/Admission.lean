import CtsEngine.ControlCapacity.Batches

/-!
# What a plan of batches keeps

Every valid intent is in one batch, the batches on the venue fit into the places that are left,
stops come before targets, and the plan does not depend on the order of the intents.
-/

namespace CtsEngine

open List

namespace ControlCapacity

open Comparison ControlOrderCapacityBudget

variable {upperCase : String → String} {localeCompare : String → String → ℤ}

namespace ProtectionOrderBatch

section

variable {intents : List ProtectionOrderIntent} {batch : ProtectionOrderBatch}
  (h : batch.Collects upperCase intents)

include h

lemma Collects.takes_iff (intent : ProtectionOrderIntent) :
    batch.takes upperCase intent = true ↔
      intent.isValid upperCase = true ∧ intent.batchKey upperCase = batch.batchKey := by
  obtain ⟨first, -, hkey, htakes⟩ := h.first
  rw [takes, decide_eq_true_eq] at htakes ⊢
  obtain ⟨-, hconn, hsym, hdir, hleg, hpr⟩ := htakes
  refine and_congr_right fun _ => ?_
  rw [← hkey, ← hconn, ← hsym, ← hdir, ← hleg, ← hpr]
  constructor
  · rintro ⟨hconn, hsym, hdir, hleg, hpr⟩
    rw [ProtectionOrderIntent.batchKey, ProtectionOrderIntent.batchKey,
      ProtectionOrderIntent.terms, ProtectionOrderIntent.terms, hconn, hsym, hdir,
      hleg, hpr]
  · intro hsame
    obtain ⟨hconn, hterms⟩ := terms_inj (String.ofList_injective hsame)
    exact ⟨String.toList_injective hconn, hterms⟩

lemma Collects.filter_takes :
    intents.filter (batch.takes upperCase) = intentsWith upperCase intents batch.batchKey := by
  rw [intentsWith, filter_filter]
  refine filter_congr fun intent _ => ?_
  rw [Bool.eq_iff_iff, h.takes_iff, Bool.and_eq_true, decide_eq_true_eq, and_comm]

end

/-- The batch as it was before a place was reserved for it. -/
def toSystem (batch : ProtectionOrderBatch) : ProtectionOrderBatch :=
  { batch with handling := .system_close }

end ProtectionOrderBatch

/-! ## Reserving places -/

lemma reserve_cases (budget : ControlOrderCapacityBudget) {id : String} (hid : trim id ≠ "") :
    (trim id ∈ budget.reservations ∧ budget.reserve id = (budget, true)) ∨
      (trim id ∉ budget.reservations ∧
        budget.limit ≤ budget.observedOpen + budget.reservations.length ∧
        budget.reserve id = (budget, false)) ∨
      budget.reserve id = ({ budget with reservations := budget.reservations ++ [trim id] },
        true) := by
  unfold reserve
  rw [if_neg hid]
  by_cases hhas : trim id ∈ budget.reservations
  · exact .inl ⟨hhas, if_pos hhas⟩
  · rw [if_neg hhas]
    by_cases hfull : budget.limit ≤ budget.observedOpen + budget.reservations.length
    · exact .inr (.inl ⟨hhas, hfull, if_pos hfull⟩)
    · exact .inr (.inr (if_neg hfull))

/-- A batch of a plan before places are reserved. -/
structure IsWaiting (batch : ProtectionOrderBatch) : Prop where
  handling : batch.handling = .system_close
  id : trim batch.batchKey ≠ ""

variable {batches : List ProtectionOrderBatch} {budget : ControlOrderCapacityBudget}

section

variable (h : ∀ batch ∈ batches, IsWaiting batch)

include h

lemma map_toSystem_reserveAll (budget : ControlOrderCapacityBudget) :
    (reserveAll budget batches).1.map (·.toSystem) = batches := by
  induction batches generalizing budget with
  | nil => rfl
  | cons batch batches ih =>
    have hsame : ∀ reserved : Bool, (if reserved then { batch with handling := .venue_control }
        else batch).toSystem = batch := by
      have hbatch := (h batch (mem_cons_self ..)).handling
      intro reserved
      cases reserved <;> rw [ProtectionOrderBatch.toSystem] <;> simp [← hbatch]
    rw [reserveAll]
    rw [map_cons, hsame, ih (fun other hoth => h other (mem_cons_of_mem batch hoth))]

lemma reserveAll_budget (hfits : budget.Fits) :
    (reserveAll budget batches).2.Fits ∧ (reserveAll budget batches).2.limit = budget.limit ∧
      (reserveAll budget batches).2.observedOpen = budget.observedOpen ∧
      (∀ id ∈ budget.reservations, id ∈ (reserveAll budget batches).2.reservations) ∧
      ∀ batch ∈ (reserveAll budget batches).1, batch.handling = .venue_control →
        trim batch.batchKey ∈ (reserveAll budget batches).2.reservations := by
  induction batches generalizing budget with
  | nil => exact ⟨hfits, rfl, rfl, fun id hid => hid, nofun⟩
  | cons batch batches ih =>
    obtain ⟨hhand, hid⟩ := h batch (mem_cons_self ..)
    have hrest := fun other hoth => h other (mem_cons_of_mem batch hoth)
    rw [reserveAll]
    dsimp only
    have hnext := fits_reserve hfits batch.batchKey
    obtain ⟨hfits', hlimit, hobser, hkeep, hvenue⟩ := ih hrest hnext
    have hreser : (budget.reserve batch.batchKey).1.limit = budget.limit ∧
        (budget.reserve batch.batchKey).1.observedOpen = budget.observedOpen ∧
        (∀ id ∈ budget.reservations, id ∈ (budget.reserve batch.batchKey).1.reservations) ∧
        ((budget.reserve batch.batchKey).2 = true →
          trim batch.batchKey ∈ (budget.reserve batch.batchKey).1.reservations) := by
      rcases reserve_cases budget hid with ⟨hhas, heq⟩ | ⟨-, -, heq⟩ | heq <;> rw [heq]
      · exact ⟨rfl, rfl, fun id hid => hid, fun _ => hhas⟩
      · exact ⟨rfl, rfl, fun id hid => hid, nofun⟩
      · exact ⟨rfl, rfl, fun id hid => mem_append_left _ hid, fun _ => mem_concat_self⟩
    obtain ⟨hlimit', hobser', hkeep', hresv⟩ := hreser
    refine ⟨hfits', hlimit.trans hlimit', hobser.trans hobser',
      fun id hid => hkeep id (hkeep' id hid), fun other hoth hon => ?_⟩
    rcases mem_cons.mp hoth with rfl | hoth
    · by_cases htrue : (budget.reserve batch.batchKey).2 = true
      · rw [if_pos htrue]
        exact hkeep _ (hresv htrue)
      · rw [if_neg htrue, hhand] at hon
        cases hon
    · exact hvenue other hoth hon

lemma reserveAll_of_full (hfull : budget.limit ≤ budget.observedOpen + budget.reservations.length) :
    ∀ batch ∈ (reserveAll budget batches).1, batch.handling = .venue_control →
      trim batch.batchKey ∈ budget.reservations := by
  induction batches with
  | nil => exact fun batch hbatch => by cases hbatch
  | cons batch batches ih =>
    obtain ⟨hhand, hid⟩ := h batch (mem_cons_self ..)
    have hrest := ih fun other hoth => h other (mem_cons_of_mem batch hoth)
    have hsame : (budget.reserve batch.batchKey).1 = budget ∧
        ((budget.reserve batch.batchKey).2 = true → trim batch.batchKey ∈ budget.reservations) := by
      unfold reserve
      rw [if_neg hid]
      split_ifs with hhas
      · exact ⟨rfl, fun _ => hhas⟩
      · exact ⟨rfl, nofun⟩
    rw [reserveAll]
    dsimp only
    rw [hsame.1]
    intro other hoth hon
    rcases mem_cons.mp hoth with rfl | hoth
    · by_cases htrue : (budget.reserve batch.batchKey).2 = true
      · rw [if_pos htrue]
        exact hsame.2 htrue
      · rw [if_neg htrue, hhand] at hon
        cases hon
    · exact hrest other hoth hon

lemma mem_of_mem_reserveAll {batch : ProtectionOrderBatch}
    (hbatch : batch ∈ (reserveAll budget batches).1) : batch.toSystem ∈ batches := by
  rw [← map_toSystem_reserveAll h budget]
  exact mem_map_of_mem hbatch

/-- **Stops come first.** When the stops stand before the targets, and no target shares a
reservation with a stop, no target has a place that a stop does not have. -/
lemma reserveAll_stops_first
    (hsort : batches.Pairwise fun a b => a.leg = .take_profit → b.leg = .take_profit)
    (hlegs : ∀ a ∈ batches, ∀ b ∈ batches, trim a.batchKey = trim b.batchKey → a.leg = b.leg)
    (hbudg : ∀ batch ∈ batches, batch.leg = .take_profit →
      trim batch.batchKey ∉ budget.reservations) :
    ∀ venue ∈ (reserveAll budget batches).1, ∀ system ∈ (reserveAll budget batches).1,
      venue.handling = .venue_control → system.handling = .system_close →
      venue.leg = .take_profit → system.leg = .take_profit := by
  induction batches generalizing budget with
  | nil => exact fun venue hvenue => by cases hvenue
  | cons batch batches ih =>
    obtain ⟨hhand, hid⟩ := h batch (mem_cons_self ..)
    have hrest := fun other hoth => h other (mem_cons_of_mem batch hoth)
    obtain ⟨hfst, hsort⟩ := pairwise_cons.mp hsort
    rcases hleg : batch.leg with - | -
    · have hstep : (budget.reserve batch.batchKey).2 = true ∧
            (∀ other ∈ batches, other.leg = .take_profit →
              trim other.batchKey ∉ (budget.reserve batch.batchKey).1.reservations) ∨
          (budget.reserve batch.batchKey).2 = false ∧
            budget.limit ≤ budget.observedOpen + budget.reservations.length ∧
            (budget.reserve batch.batchKey).1 = budget := by
        have hold := fun other hoth => hbudg other (mem_cons_of_mem batch hoth)
        rcases reserve_cases budget hid with ⟨-, heq⟩ | ⟨-, hfull, heq⟩ | heq <;> rw [heq]
        · exact .inl ⟨rfl, hold⟩
        · exact .inr ⟨rfl, hfull, rfl⟩
        · refine .inl ⟨rfl, fun other hoth htake hmem => ?_⟩
          rcases mem_append.mp hmem with hmem | hmem
          · exact hold other hoth htake hmem
          · have hsame := hlegs other (mem_cons_of_mem batch hoth) batch
              (mem_cons_self ..) (mem_singleton.mp hmem)
            rw [htake, hleg] at hsame
            cases hsame
      rw [reserveAll]
      dsimp only
      intro venue hvenue system hsyst hon hoff htake
      have hne : ∀ {reserved : Bool}, venue ≠
          if reserved then { batch with handling := .venue_control } else batch := by
        rintro reserved rfl
        cases reserved <;> exact absurd (hleg.symm.trans htake) (by decide)
      have hvenue := (mem_cons.mp hvenue).resolve_left hne
      rcases hstep with ⟨hresv, hnext⟩ | ⟨-, hfull, hsame⟩
      · rw [if_pos hresv] at hsyst
        rcases mem_cons.mp hsyst with rfl | hsyst
        · cases hoff
        · exact ih hrest hsort (fun a ha b hb => hlegs a (mem_cons_of_mem batch ha) b
            (mem_cons_of_mem batch hb)) hnext venue hvenue system hsyst hon hoff htake
      · rw [hsame] at hvenue
        have horig := mem_of_mem_reserveAll hrest hvenue
        exact absurd (reserveAll_of_full hrest hfull venue hvenue hon)
          (hbudg venue.toSystem (mem_cons_of_mem batch horig) htake)
    · intro venue _ system hsyst _ _ _
      rcases mem_cons.mp (mem_of_mem_reserveAll h hsyst) with heq | hmem
      · exact (congrArg ProtectionOrderBatch.leg heq).trans hleg
      · exact hfst system.toSystem hmem hleg

end

/-! ## The order of the intents -/

namespace ProtectionOrderBatch

/-- Two batches that differ in the order of their strategies, and in their price only beyond 15
digits. -/
structure SameUpToOrder (batch batch' : ProtectionOrderBatch) : Prop where
  batchKey : batch.batchKey = batch'.batchKey
  connectionId : batch.connectionId = batch'.connectionId
  symbol : batch.symbol = batch'.symbol
  direction : batch.direction = batch'.direction
  leg : batch.leg = batch'.leg
  triggerPrice : toPrecisionText batch.triggerPrice = toPrecisionText batch'.triggerPrice
  quantity : batch.quantity = batch'.quantity
  strategyIds : batch.strategyIds.Perm batch'.strategyIds
  sourceIntentCount : batch.sourceIntentCount = batch'.sourceIntentCount
  handling : batch.handling = batch'.handling

/-- A batch without what depends on the order of its intents. -/
def core (batch : ProtectionOrderBatch) : ProtectionOrderBatch :=
  { batch with triggerPrice := 0, strategyIds := [] }

section Perm

variable {intents intents' : List ProtectionOrderIntent} {batch batch' : ProtectionOrderBatch}
  (hperm : intents.Perm intents') (h : batch.Collects upperCase intents)
  (h' : batch'.Collects upperCase intents')
include hperm h h'

lemma Collects.sameUpToOrder (hkey : batch.batchKey = batch'.batchKey)
    (hhand : batch.handling = batch'.handling) : batch.SameUpToOrder batch' := by
  obtain ⟨first, -, hfst, htakes⟩ := h.first
  obtain ⟨first', -, hfst', htakes'⟩ := h'.first
  rw [takes, decide_eq_true_eq] at htakes htakes'
  obtain ⟨-, hconn, hsym, hdir, hleg, hpr⟩ := htakes
  obtain ⟨-, hconn', hsym', hdir', hleg', hpr'⟩ := htakes'
  obtain ⟨hc, hs, hd, hl, hp⟩ :=
    terms_inj (String.ofList_injective (hfst.trans (hkey.trans hfst'.symm)))
  have hsame : (intentsWith upperCase intents batch.batchKey).Perm
      (intentsWith upperCase intents' batch'.batchKey) := by
    rw [hkey]
    exact (hperm.filter _).filter _
  exact {
    batchKey := hkey
    connectionId := hconn ▸ hconn' ▸ String.toList_injective hc
    symbol := hsym ▸ hsym' ▸ hs
    direction := hdir ▸ hdir' ▸ hd
    leg := hleg ▸ hleg' ▸ hl
    triggerPrice := hpr ▸ hpr' ▸ hp
    quantity := by
      rw [h.quantity, h'.quantity]
      exact (hsame.map _).sum_eq
    strategyIds := by
      refine (perm_ext_iff_of_nodup h.nodup h'.nodup).mpr fun id => ?_
      simp only [h.strategyIds, h'.strategyIds, hsame.mem_iff]
    sourceIntentCount := by
      rw [h.sourceIntentCount, h'.sourceIntentCount]
      exact hsame.length_eq
    handling := hhand }

end Perm

lemma SameUpToOrder.core_eq {batch batch' : ProtectionOrderBatch}
    (h : batch.SameUpToOrder batch') : batch.core = batch'.core := by
  rw [core, core, h.batchKey, h.connectionId, h.symbol, h.direction, h.leg, h.quantity,
    h.sourceIntentCount, h.handling]

end ProtectionOrderBatch

variable {intents intents' : List ProtectionOrderIntent}

lemma map_core_groups_perm (hperm : intents.Perm intents') :
    ((groups upperCase intents).map (·.core)).Perm ((groups upperCase intents').map (·.core)) := by
  have hnodup : ∀ intents, ((groups upperCase intents).map (·.core)).Nodup := fun intents =>
    Nodup.of_map (·.batchKey) (by
      rw [map_map]
      exact (groups_spec intents).1)
  have hsub : ∀ {intents intents' : List ProtectionOrderIntent}, intents.Perm intents' →
      ∀ core ∈ (groups upperCase intents).map (·.core),
        core ∈ (groups upperCase intents').map (·.core) := by
    intro intents intents' hperm core hcore
    obtain ⟨batch, hbatch, rfl⟩ := mem_map.mp hcore
    obtain ⟨hcoll, hhand⟩ := (groups_spec intents).2.1 batch hbatch
    obtain ⟨first, hfst, hkey, htakes⟩ := hcoll.first
    obtain ⟨batch', hbatch', hkey'⟩ := (groups_spec intents').2.2 first
      (hperm.mem_iff.mp hfst) ((hcoll.takes_iff first).mp htakes).1
    obtain ⟨hcoll', hhand'⟩ := (groups_spec intents').2.1 batch' hbatch'
    exact mem_map.mpr ⟨batch', hbatch', (hcoll.sameUpToOrder hperm hcoll'
      (hkey.symm.trans hkey'.symm) (hhand.trans hhand'.symm)).core_eq.symm⟩
  exact (perm_ext_iff_of_nodup (hnodup _) (hnodup _)).mpr fun core =>
    ⟨hsub hperm core, hsub hperm.symm core⟩

def sortedGroups (upperCase : String → String) (localeCompare : String → String → ℤ)
    (intents : List ProtectionOrderIntent) : List ProtectionOrderBatch :=
  sortBy (ProtectionOrderBatch.order localeCompare) (groups upperCase intents)

lemma isComparison_order (hloc : IsComparison fun a b => (localeCompare a b : ℚ)) :
    IsComparison (ProtectionOrderBatch.order localeCompare) := by
  have hleg : IsComparison ProtectionOrderBatch.legOrder := by
    have h := IsComparison.of_number fun batch : ProtectionOrderBatch =>
      if batch.leg = .stop_loss then 0 else 1
    convert h using 3 with left right
    rw [ProtectionOrderBatch.legOrder]
    cases left.leg <;> cases right.leg <;> simp
  have hcnt : IsComparison fun left right : ProtectionOrderBatch =>
      (right.sourceIntentCount : ℚ) - left.sourceIntentCount := by
    have h := IsComparison.of_number fun batch : ProtectionOrderBatch =>
      -(batch.sourceIntentCount : ℚ)
    simpa only [neg_sub_neg] using h
  exact hleg.orElse (hcnt.orElse (hloc.comap ProtectionOrderBatch.batchKey))

lemma sortedGroups_perm (hloc : IsComparison fun a b => (localeCompare a b : ℚ))
    (hperm : intents.Perm intents')
    (hkeys : ∀ a ∈ intents, ∀ b ∈ intents,
      localeCompare (a.batchKey upperCase) (b.batchKey upperCase) = 0 →
        a.batchKey upperCase = b.batchKey upperCase) :
    Forall₂ ProtectionOrderBatch.SameUpToOrder (sortedGroups upperCase localeCompare intents)
      (sortedGroups upperCase localeCompare intents') := by
  have hcore : ∀ batches : List ProtectionOrderBatch,
      (sortBy (ProtectionOrderBatch.order localeCompare) batches).map (·.core) =
        sortBy (ProtectionOrderBatch.order localeCompare) (batches.map (·.core)) :=
    fun batches => map_mergeSort fun a _ b _ => rfl
  have heq : (sortedGroups upperCase localeCompare intents).map (·.core) =
      (sortedGroups upperCase localeCompare intents').map (·.core) := by
    rw [sortedGroups, sortedGroups, hcore, hcore]
    refine sortBy_eq_of_perm (isComparison_order hloc) (map_core_groups_perm hperm) ?_
    intro a ha b hb hzero
    obtain ⟨batch, hbatch, rfl⟩ := mem_map.mp ha
    obtain ⟨other, hoth, rfl⟩ := mem_map.mp hb
    obtain ⟨first, hfst, hkey, -⟩ := ((groups_spec intents).2.1 batch hbatch).1.first
    obtain ⟨first', hfst', hkey', -⟩ := ((groups_spec intents).2.1 other hoth).1.first
    rw [ProtectionOrderBatch.order, orElse_eq_zero_iff, orElse_eq_zero_iff] at hzero
    have hsame : batch.batchKey = other.batchKey := by
      rw [← hkey, ← hkey']
      refine hkeys first hfst first' hfst' ?_
      rw [hkey, hkey']
      exact_mod_cast hzero.2.2
    rw [inj_on_of_nodup_map (groups_spec intents).1 hbatch hoth hsame]
  have hcoll : ∀ intents, ∀ batch ∈ sortedGroups upperCase localeCompare intents,
      batch.Collects upperCase intents ∧ batch.handling = .system_close :=
        fun intents batch hbatch =>
    (groups_spec intents).2.1 batch ((sortBy_perm _ _).mem_iff.mp hbatch)
  rw [← forall₂_eq_eq_eq, forall₂_map_left_iff, forall₂_map_right_iff] at heq
  have hboth := (forall₂_and_left _ _).mpr ⟨hcoll intents', heq.flip⟩
  have hboth := (forall₂_and_left _ _).mpr ⟨hcoll intents, hboth.flip⟩
  refine hboth.imp ?_
  rintro batch batch' ⟨⟨hbatch, hoff⟩, ⟨hbatch', hoff'⟩, hsame⟩
  have hkey : batch.core.batchKey = batch'.core.batchKey := congrArg _ hsame
  exact hbatch.sameUpToOrder hperm hbatch' hkey (hoff.trans hoff'.symm)

lemma forall₂_reserveAll {batches batches' : List ProtectionOrderBatch}
    (h : Forall₂ ProtectionOrderBatch.SameUpToOrder batches batches')
    (budget : ControlOrderCapacityBudget) :
    Forall₂ ProtectionOrderBatch.SameUpToOrder (reserveAll budget batches).1
        (reserveAll budget batches').1 ∧
      (reserveAll budget batches).2 = (reserveAll budget batches').2 := by
  induction h generalizing budget with
  | nil => exact ⟨Forall₂.nil, rfl⟩
  | @cons batch batch' batches batches' hsame _ ih =>
    have hreser : budget.reserve batch'.batchKey = budget.reserve batch.batchKey := by
      rw [hsame.batchKey]
    rw [reserveAll, reserveAll]
    rw [hreser]
    obtain ⟨hrest, hbudg⟩ := ih (budget.reserve batch.batchKey).1
    refine ⟨Forall₂.cons ?_ hrest, hbudg⟩
    split_ifs
    · exact { hsame with handling := rfl }
    · exact hsame

/-! ## The plan -/

/-- Two plans that differ in the order of strategies only. -/
structure ProtectionOrderPlan.SameUpToOrder (plan plan' : ProtectionOrderPlan) : Prop where
  batches : Forall₂ ProtectionOrderBatch.SameUpToOrder plan.batches plan'.batches
  venueBatches : Forall₂ ProtectionOrderBatch.SameUpToOrder plan.venueBatches plan'.venueBatches
  systemBatches : Forall₂ ProtectionOrderBatch.SameUpToOrder plan.systemBatches plan'.systemBatches
  sourceIntentCount : plan.sourceIntentCount = plan'.sourceIntentCount
  combinedOrderCount : plan.combinedOrderCount = plan'.combinedOrderCount
  avoidedOrderCount : plan.avoidedOrderCount = plan'.avoidedOrderCount
  capacity : plan.capacity = plan'.capacity

/-- A batch has exactly the valid intents with its terms. -/
structure ProtectionOrderBatch.Adds (upperCase : String → String)
    (intents : List ProtectionOrderIntent) (batch : ProtectionOrderBatch) : Prop where
  quantity : batch.quantity =
    ((intents.filter (batch.takes upperCase)).map fun intent => intent.quantity.getD 0).sum
  sourceIntentCount : batch.sourceIntentCount = (intents.filter (batch.takes upperCase)).length
  strategyIds : ∀ id, id ∈ batch.strategyIds ↔
    ∃ intent ∈ intents.filter (batch.takes upperCase), trim intent.strategyId = id

/-- The connections of intents are told apart by what follows their leading blanks. -/
def ConnectionsDiffer (intents : List ProtectionOrderIntent) : Prop :=
  ∀ a ∈ intents, ∀ b ∈ intents,
    a.connectionId.toList.dropWhile isJsSpace = b.connectionId.toList.dropWhile isJsSpace →
      a.connectionId = b.connectionId

lemma isWaiting_of_mem_sortedGroups {intents : List ProtectionOrderIntent} :
    ∀ batch ∈ sortedGroups upperCase localeCompare intents, IsWaiting batch := by
  intro batch hbatch
  obtain ⟨hcoll, hhand⟩ := (groups_spec intents).2.1 batch ((sortBy_perm _ _).mem_iff.mp hbatch)
  refine ⟨hhand, fun hemp => ?_⟩
  obtain ⟨first, -, hkey, -⟩ := hcoll.first
  have htext := @toList_trim_batchKey upperCase first
  rw [hkey, hemp] at htext
  exact absurd htext (by simp [ProtectionOrderIntent.terms])

section Plan

variable {intents : List ProtectionOrderIntent}

lemma leg_eq_and_connection_eq {batch batch' : ProtectionOrderBatch}
    (h : batch.Collects upperCase intents) (h' : batch'.Collects upperCase intents)
    (hsame : trim batch.batchKey = trim batch'.batchKey) :
    batch.leg = batch'.leg ∧ (ConnectionsDiffer intents → batch.batchKey = batch'.batchKey) := by
  obtain ⟨first, hfst, hkey, htakes⟩ := h.first
  obtain ⟨first', hfst', hkey', htakes'⟩ := h'.first
  rw [ProtectionOrderBatch.takes, decide_eq_true_eq] at htakes htakes'
  have hlists := congrArg String.toList hsame
  rw [← hkey, ← hkey', toList_trim_batchKey, toList_trim_batchKey] at hlists
  obtain ⟨hleft, hsym, hdir, hleg, hpr⟩ := terms_inj hlists
  refine ⟨htakes.2.2.2.2.1 ▸ htakes'.2.2.2.2.1 ▸ hleg, fun hdiff => ?_⟩
  rw [← hkey, ← hkey', ProtectionOrderIntent.batchKey, ProtectionOrderIntent.batchKey,
    ProtectionOrderIntent.terms, ProtectionOrderIntent.terms, hdiff first hfst first' hfst'
      hleft, hsym, hdir, hleg, hpr]

variable (upperCase localeCompare) (intents) (observedOpenControlOrders : Option ℚ) (limit : ℕ)

lemma map_toSystem_batches :
    (planProtectionOrderBatches upperCase localeCompare intents observedOpenControlOrders
      limit).batches.map (·.toSystem) = sortedGroups upperCase localeCompare intents :=
  map_toSystem_reserveAll isWaiting_of_mem_sortedGroups _

lemma collects_of_mem_batches {batch : ProtectionOrderBatch}
    (h : batch ∈ (planProtectionOrderBatches upperCase localeCompare intents
      observedOpenControlOrders limit).batches) :
    batch.toSystem ∈ groups upperCase intents ∧ batch.toSystem.Collects upperCase intents := by
  have hmem := mem_map_of_mem (f := ProtectionOrderBatch.toSystem) h
  rw [map_toSystem_batches] at hmem
  have hgroup := (sortBy_perm _ _).mem_iff.mp hmem
  exact ⟨hgroup, ((groups_spec intents).2.1 _ hgroup).1⟩

lemma length_filter_takes {intent : ProtectionOrderIntent} (hinten : intent ∈ intents)
    (hvalid : intent.isValid upperCase = true) :
    ((planProtectionOrderBatches upperCase localeCompare intents observedOpenControlOrders
      limit).batches.filter (·.takes upperCase intent)).length = 1 := by
  obtain ⟨batch, hbatch, hkey⟩ := (groups_spec intents).2.2 intent hinten hvalid
  have hgroup : (groups upperCase intents).filter (·.takes upperCase intent) = [batch] := by
    rw [← Keyed.filter_of_nodup (groups_spec intents).1 hbatch]
    refine filter_congr fun other hoth => ?_
    rw [Bool.eq_iff_iff, ((groups_spec intents).2.1 other hoth).1.takes_iff, decide_eq_true_eq,
      hkey, eq_comm (a := other.batchKey)]
    exact and_iff_right hvalid
  have hsort := ((sortBy_perm (ProtectionOrderBatch.order localeCompare)
    (groups upperCase intents)).filter (·.takes upperCase intent)).length_eq
  rw [hgroup, ← sortedGroups, ← map_toSystem_batches upperCase localeCompare intents
    observedOpenControlOrders limit, filter_map, length_map] at hsort
  exact hsort

lemma length_venueBatches_le (hdiff : ConnectionsDiffer intents) :
    (planProtectionOrderBatches upperCase localeCompare intents observedOpenControlOrders
        limit).venueBatches.length ≤
      (new observedOpenControlOrders limit).snapshot.available := by
  have hcoll := @collects_of_mem_batches upperCase localeCompare intents
    observedOpenControlOrders limit
  have hkeys : ((planProtectionOrderBatches upperCase localeCompare intents
      observedOpenControlOrders limit).batches.map (·.batchKey)).Nodup := by
    have hsort := ((sortBy_perm (ProtectionOrderBatch.order localeCompare)
      (groups upperCase intents)).map (·.batchKey)).nodup_iff.mpr (groups_spec intents).1
    rwa [← sortedGroups, ← map_toSystem_batches upperCase localeCompare intents
      observedOpenControlOrders limit, map_map] at hsort
  obtain ⟨hfits, hlimit, hobser, -, hvenue⟩ := reserveAll_budget
    (@isWaiting_of_mem_sortedGroups upperCase localeCompare intents)
    (fits_new observedOpenControlOrders limit)
  have hnodup : ((planProtectionOrderBatches upperCase localeCompare intents
      observedOpenControlOrders limit).venueBatches.map
        fun batch => trim batch.batchKey).Nodup := by
    refine Nodup.map_on (fun a ha b hb hsame => ?_) ((hkeys.of_map _).filter _)
    have ha := mem_of_mem_filter ha
    have hb := mem_of_mem_filter hb
    exact inj_on_of_nodup_map hkeys ha hb
      ((leg_eq_and_connection_eq (hcoll ha).2 (hcoll hb).2 hsame).2 hdiff)
  have hle : (planProtectionOrderBatches upperCase localeCompare intents
      observedOpenControlOrders limit).venueBatches.length ≤
        (reserveAll (new observedOpenControlOrders limit)
          (sortedGroups upperCase localeCompare intents)).2.reservations.length := by
    rw [← length_map fun batch : ProtectionOrderBatch => trim batch.batchKey]
    refine (hnodup.subperm fun id hid => ?_).length_le
    obtain ⟨batch, hbatch, rfl⟩ := mem_map.mp hid
    obtain ⟨hbatch, hon⟩ := mem_filter.mp hbatch
    exact hvenue batch hbatch (of_decide_eq_true hon)
  have hroom : (new observedOpenControlOrders limit).snapshot.available =
      limit - (new observedOpenControlOrders limit).observedOpen - 0 := rfl
  have hnew : (new observedOpenControlOrders limit).limit = limit := rfl
  rw [Fits] at hfits
  omega

lemma stops_first (hloc : IsComparison fun a b => (localeCompare a b : ℚ)) :
    ∀ venue ∈ (planProtectionOrderBatches upperCase localeCompare intents
        observedOpenControlOrders limit).venueBatches,
      ∀ system ∈ (planProtectionOrderBatches upperCase localeCompare intents
          observedOpenControlOrders limit).systemBatches,
        venue.leg = .take_profit → system.leg = .take_profit := by
  intro venue hvenue system hsyst
  obtain ⟨hvenue, hon⟩ := mem_filter.mp hvenue
  obtain ⟨hsyst, hoff⟩ := mem_filter.mp hsyst
  refine reserveAll_stops_first isWaiting_of_mem_sortedGroups ?_ ?_ ?_ venue hvenue system hsyst
    (of_decide_eq_true hon) (of_decide_eq_true hoff)
  · refine (sortBy_pairwise (isComparison_order hloc) _).imp fun {a b} hle htake => ?_
    by_contra hne
    have hstop : b.leg = .stop_loss := by
      cases hleg : b.leg with
      | stop_loss => rfl
      | take_profit => exact absurd hleg hne
    have hafter : ProtectionOrderBatch.legOrder a b = 1 := by
      simp [ProtectionOrderBatch.legOrder, htake, hstop]
    rw [ProtectionOrderBatch.order, orElse, hafter] at hle
    exact absurd hle (by norm_num)
  · intro a ha b hb hsame
    have hcoll : ∀ batch ∈ sortedGroups upperCase localeCompare intents,
        batch.Collects upperCase intents := fun batch hbatch =>
      ((groups_spec intents).2.1 batch ((sortBy_perm _ _).mem_iff.mp hbatch)).1
    exact (leg_eq_and_connection_eq (hcoll a ha) (hcoll b hb) hsame).1
  · exact fun batch _ _ => not_mem_nil

lemma sameUpToOrder_plan (hloc : IsComparison fun a b => (localeCompare a b : ℚ))
    {intents' : List ProtectionOrderIntent} (hperm : intents.Perm intents')
    (hkeys : ∀ a ∈ intents, ∀ b ∈ intents,
      localeCompare (a.batchKey upperCase) (b.batchKey upperCase) = 0 →
        a.batchKey upperCase = b.batchKey upperCase) :
    (planProtectionOrderBatches upperCase localeCompare intents observedOpenControlOrders
      limit).SameUpToOrder
        (planProtectionOrderBatches upperCase localeCompare intents' observedOpenControlOrders
          limit) := by
  obtain ⟨hbatc, hbudg⟩ := forall₂_reserveAll (sortedGroups_perm hloc hperm hkeys)
    (new observedOpenControlOrders limit)
  have hfilt : ∀ handling : Handling, Forall₂ ProtectionOrderBatch.SameUpToOrder
        ((reserveAll (new observedOpenControlOrders limit)
          (sortedGroups upperCase localeCompare intents)).1.filter (·.handling = handling))
        ((reserveAll (new observedOpenControlOrders limit)
          (sortedGroups upperCase localeCompare intents')).1.filter (·.handling = handling)) := by
    intro handling
    refine rel_filter (fun batch batch' hsame => ?_) hbatc
    dsimp only
    rw [hsame.handling]
  exact {
    batches := hbatc
    venueBatches := hfilt .venue_control
    systemBatches := hfilt .system_close
    sourceIntentCount := hperm.length_eq
    combinedOrderCount := hbatc.length_eq
    avoidedOrderCount := congrArg₂ (· - ·) hperm.length_eq hbatc.length_eq
    capacity := congrArg snapshot hbudg }

end Plan

/-- Every valid intent is in one batch, and a batch adds up its intents.  The batches on the venue
fit into the places that are left when no two connections differ only in leading blanks, and stops
come first; permuted intents have the same plan when `localeCompare` tells the keys apart. -/
theorem planProtectionOrderBatches_spec (upperCase : String → String)
    (localeCompare : String → String → ℤ)
    (hlocale : IsComparison fun a b => (localeCompare a b : ℚ))
    (intents : List ProtectionOrderIntent) (observedOpenControlOrders : Option ℚ) (limit : ℕ) :
    (∀ intent ∈ intents, intent.isValid upperCase = true →
      ((planProtectionOrderBatches upperCase localeCompare intents observedOpenControlOrders
        limit).batches.filter (·.takes upperCase intent)).length = 1) ∧
    (∀ batch ∈ (planProtectionOrderBatches upperCase localeCompare intents
      observedOpenControlOrders limit).batches, batch.Adds upperCase intents) ∧
    (ConnectionsDiffer intents →
      (planProtectionOrderBatches upperCase localeCompare intents observedOpenControlOrders
        limit).venueBatches.length ≤ (new observedOpenControlOrders limit).snapshot.available) ∧
    (∀ venue ∈ (planProtectionOrderBatches upperCase localeCompare intents
        observedOpenControlOrders limit).venueBatches,
      ∀ system ∈ (planProtectionOrderBatches upperCase localeCompare intents
          observedOpenControlOrders limit).systemBatches,
        venue.leg = .take_profit → system.leg = .take_profit) ∧
    (∀ intents', intents.Perm intents' → (∀ a ∈ intents, ∀ b ∈ intents,
        localeCompare (a.batchKey upperCase) (b.batchKey upperCase) = 0 →
          a.batchKey upperCase = b.batchKey upperCase) →
      (planProtectionOrderBatches upperCase localeCompare intents observedOpenControlOrders
        limit).SameUpToOrder (planProtectionOrderBatches upperCase localeCompare intents'
          observedOpenControlOrders limit)) ∧
    ∀ calls, (afterCalls observedOpenControlOrders limit calls).snapshot.reserved ≤ limit := by
  refine ⟨fun intent hintent hvalid => length_filter_takes upperCase localeCompare intents _ _
    hintent hvalid, fun batch hbatch => ?_, length_venueBatches_le upperCase localeCompare intents
    _ _, stops_first upperCase localeCompare intents _ _ hlocale, fun intents' hperm hkeys =>
    sameUpToOrder_plan upperCase localeCompare intents _ _ hlocale hperm hkeys, fun calls => ?_⟩
  · have hcollects := (collects_of_mem_batches upperCase localeCompare intents _ _ hbatch).2
    have htakes := hcollects.filter_takes
    exact {
      quantity := hcollects.quantity.trans (by rw [← htakes]; rfl)
      sourceIntentCount := hcollects.sourceIntentCount.trans (by rw [← htakes]; rfl)
      strategyIds := fun id => (hcollects.strategyIds id).trans (by rw [← htakes]; rfl) }
  · obtain ⟨hfits, hlimit⟩ := fits_afterCalls observedOpenControlOrders limit calls
    rw [Fits, hlimit] at hfits
    exact (Nat.le_add_left _ _).trans hfits

/-- A stop and a target of one strategy. -/
def stopAndTarget : List ProtectionOrderIntent :=
  [{ connectionId := "c", symbol := "BTC-USDT", direction := .long, leg := .take_profit,
     triggerPrice := some 120, quantity := some 1, strategyId := "s" },
   { connectionId := "c", symbol := "BTCUSDT", direction := .long, leg := .stop_loss,
     triggerPrice := some 100, quantity := some 1, strategyId := "s" }]

theorem planProtectionOrderBatches_spec_stopAndTarget :
    (planProtectionOrderBatches id codeOrder stopAndTarget (some 199) 200).venueBatches.length ≤
      1 :=
  (planProtectionOrderBatches_spec id codeOrder isComparison_codeOrder stopAndTarget (some 199)
    200).2.2.1 (by
      have hone : ∀ intent ∈ stopAndTarget, intent.connectionId = "c" := by decide
      exact fun a ha b hb _ => (hone a ha).trans (hone b hb).symm)

def withoutQuantity : ProtectionOrderIntent where
  connectionId := "c"
  symbol := "BTCUSDT"
  direction := .long
  leg := .stop_loss
  triggerPrice := some 100
  quantity := some 0
  strategyId := "s"

/-- An intent without a quantity is in no batch. -/
theorem not_assigned_withoutQuantity :
    ¬ ∀ (intents : List ProtectionOrderIntent), ∀ intent ∈ intents,
      ∃ batch ∈ (planProtectionOrderBatches id codeOrder intents none 200).batches,
        batch.connectionId = intent.connectionId := by
  intro h
  obtain ⟨batch, hbatch, -⟩ := h [withoutQuantity] withoutQuantity (mem_singleton_self _)
  have hnone :
      (planProtectionOrderBatches id codeOrder [withoutQuantity] none 200).batches = [] := by
    decide +kernel
  rw [hnone] at hbatch
  cases hbatch

end ControlCapacity

end CtsEngine
