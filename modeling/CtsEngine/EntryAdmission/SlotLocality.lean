import CtsEngine.EntryAdmission.Audit

/-!
# The audit of one slot

The audit of the rows of one slot finds nothing when the audit of all rows notes neither the slot
nor a violation without a slot, up to an ambiguity of the slot of the candidate: the checks of the
rows and of the slot are the same in both audits.  The pending rows have to be noted under their
own slot, for which the field `direction` alone is read.

Rows of other owners are never read.
-/

open List

namespace CtsEngine.EntryAdmission

open Findings.Log

open VenueReply (Value)
open Findings (Report)

namespace AdmissionInput

-- How a row is read does not matter here.
attribute [local irreducible] rowSlot slotOfRow quantityOf

variable {input : AdmissionInput} {slot : String}

/-- The audit of other rows. -/
def withRows (input : AdmissionInput) (rows : List Value) : AdmissionInput :=
  { input with positions := rows }

/-- The audit of the rows of one slot. -/
def onSlot (input : AdmissionInput) (slot : String) : AdmissionInput :=
  input.withRows (input.positions.filter fun row => rowSlot row = some slot)

lemma owned_onSlot : (input.onSlot slot).owned =
    input.owned.filter fun row => rowSlot row = some slot := filter_comm ..

lemma closedOnVenue_withRows (rows : List Value) :
    (input.withRows rows).closedOnVenue = input.closedOnVenue := rfl

lemma executed_onSlot : (input.onSlot slot).executed =
    input.executed.filter fun row => rowSlot row = some slot := by
  rw [executed, executedAll, owned_onSlot, onSlot, closedOnVenue_withRows, executed, executedAll]
  simp only [filter_filter]
  refine filter_congr fun row _ => ?_
  rw [Bool.and_comm (decide (rowSlot row = some slot)), Bool.and_assoc]

lemma rowSlot_of_mem_executed_onSlot {row : Value} (h : row ∈ (input.onSlot slot).executed) :
    row ∈ input.executed ∧ rowSlot row = some slot := by
  rw [executed_onSlot] at h
  exact ⟨mem_of_mem_filter h, of_decide_eq_true (mem_filter.mp h).2⟩

variable {group : String × List Value} {rows : List Value}

lemma mem_bySlot : group ∈ input.bySlot ↔
    group.2 = input.executed.filter (fun row => rowSlot row = some group.1) ∧ group.2 ≠ [] := by
  have hrows : ∀ key, ((input.executed.filter fun row => (rowSlot row).isSome).filter
      fun row => (rowSlot row).getD "" = key) =
        input.executed.filter fun row => rowSlot row = some key := by
    intro key
    rw [filter_filter]
    refine filter_congr fun row _ => ?_
    cases rowSlot row with
    | none => simp
    | some other => simp
  rw [bySlot, Keyed.mem_collect_lists, hrows]

/-! ## The pending rows -/

/-- The rows in between. -/
def pendingRows (input : AdmissionInput) : List Value :=
  input.pendingEntries ++ input.closingRows ++ input.mutatingRows

/-- The pending rows of a slot are noted under the slot. -/
def NotesPending (input : AdmissionInput) (slot : String) : Prop :=
  ∀ row ∈ input.pendingRows, rowSlot row = some slot → slotOfRow row = slot

lemma mem_barriers {place : String} : place ∈ input.barriers.places ↔
    ∃ row ∈ input.pendingRows, slotOfRow row = place := by
  rw [barriers, mem_places_bar, mem_places_bar, mem_places_bar, pendingRows]
  simp only [mem_map, mem_append, not_mem_nil, false_or, or_and_right, exists_or]

lemma barriers_eq_nil : input.barriers.violations = [] ↔ input.pendingRows = [] := by
  rw [barriers, violations_bar_eq_nil, violations_bar_eq_nil, violations_bar_eq_nil, pendingRows]
  simp only [append_eq_nil_iff, map_eq_nil_iff, true_and]

lemma isAttributed_barriers : input.barriers.IsAttributed := by
  rw [barriers, isAttributed_bar, isAttributed_bar, isAttributed_bar]
  rfl

lemma pendingRows_onSlot : (input.onSlot slot).pendingRows =
    input.pendingRows.filter fun row => rowSlot row = some slot := by
  have hcomm : ∀ p : Value → Bool, (input.onSlot slot).owned.filter p =
      (input.owned.filter p).filter fun row => rowSlot row = some slot := by
    intro p
    rw [owned_onSlot, filter_comm]
  rw [pendingRows, pendingEntries, closingRows, mutatingRows, hcomm, hcomm, hcomm,
    ← filter_append, ← filter_append]
  rfl

/-- Nothing is found on the level of the connection when the checks without a slot find nothing. -/
lemma connectionLevelViolation_iff :
    (auditLiveEntryProtectionAdmission input).connectionLevelViolation = false ↔
      ∀ found ∈ input.reports, found.2 = none → found.1 = [] := by
  rw [← isAttributed_reportAll (@isAttributed_barriers input)]
  have hlen := length_violations_reportAll input.barriers input.reports
  have hbarr := @isAttributed_barriers input
  rw [Findings.Log.IsAttributed] at hbarr ⊢
  change decide (input.findings.attributed < input.findings.violations.length) = false ↔ _
  rw [findings, decide_eq_false_iff_not]
  omega

lemma mem_offendingSlots : slot ∈ (auditLiveEntryProtectionAdmission input).offendingSlots ↔
    (∃ row ∈ input.pendingRows, slotOfRow row = slot) ∨
      ∃ found ∈ input.reports, found.2 = some slot ∧ found.1 ≠ [] := by
  rw [← mem_barriers]
  exact mem_places_reportAll

lemma safe_iff : (auditLiveEntryProtectionAdmission input).safe = true ↔
    input.pendingRows = [] ∧ ∀ found ∈ input.reports, found.1 = [] := by
  change decide (input.findings.violations.length = 0) = true ↔ _
  rw [decide_eq_true_eq, length_eq_zero_iff, findings, violations_reportAll,
    append_eq_nil_iff, barriers_eq_nil, flatMap_eq_nil_iff]

lemma mem_bySlot_onSlot (h : group ∈ (input.onSlot slot).bySlot) :
    group ∈ input.bySlot ∧ group.1 = slot := by
  obtain ⟨hrows, hne⟩ := mem_bySlot.mp h
  rw [executed_onSlot] at hrows
  obtain ⟨row, hrow⟩ := exists_mem_of_ne_nil _ hne
  rw [hrows] at hrow
  obtain ⟨hrow, hgroup⟩ := mem_filter.mp hrow
  have hslot : rowSlot row = some slot := of_decide_eq_true (mem_filter.mp hrow).2
  have hkey : group.1 = slot := Option.some.inj ((of_decide_eq_true hgroup).symm.trans hslot)
  refine ⟨mem_bySlot.mpr ⟨?_, hne⟩, hkey⟩
  rw [hrows, hkey, filter_filter]
  exact filter_congr fun row _ => Bool.and_self _

lemma rowReport_place (row : Value) :
    (input.rowReport row).2 = none ∨ (input.rowReport row).2 = rowSlot row := by
  rw [rowReport]
  by_cases hshar : isShared row = true
  · rw [if_pos hshar]
    exact .inl rfl
  · rw [if_neg hshar]
    exact .inr rfl

lemma directionReport_onSlot : (input.onSlot slot).directionReport.1 = [] := by
  rw [directionReport, executed_onSlot]
  rw [map_eq_nil_iff, filter_eq_nil_iff]
  intro row hrow
  rw [of_decide_eq_true (mem_filter.mp hrow).2]
  exact Bool.false_ne_true

lemma mem_reports_onSlot {found : Report String String} (h : found ∈ (input.onSlot slot).reports) :
    (found ∈ input.reports ∧ (found.2 = none ∨ found.2 = some slot)) ∨ found.1 = [] ∨
      found = (input.onSlot slot).candidateReport := by
  rcases mem_append.mp h with h | h
  · rcases mem_append.mp h with h | h
    · rcases mem_append.mp h with h | h
      · obtain ⟨row, hrow, rfl⟩ := mem_map.mp h
        obtain ⟨hexec, hslot⟩ := rowSlot_of_mem_executed_onSlot hrow
        refine .inl ⟨?_, ?_⟩
        · exact mem_append_left _ (mem_append_left _ (mem_append_left _ (mem_map_of_mem hexec)))
        · exact (rowReport_place row).imp_right fun hplace => hplace.trans hslot
      · rw [mem_singleton.mp h]
        exact .inr (.inl directionReport_onSlot)
    · obtain ⟨group, hgroup, rfl⟩ := mem_map.mp h
      obtain ⟨hmem, hkey⟩ := mem_bySlot_onSlot hgroup
      refine .inl ⟨?_, .inr (congrArg some hkey)⟩
      exact mem_append_left _ (mem_append_right _ (mem_map_of_mem hmem))
  · exact .inr (.inr (mem_singleton.mp h))

lemma candidateReport_onSlot_self :
    (input.onSlot input.candidateSlot).candidateReport = input.candidateReport := by
  have hphys : (input.onSlot input.candidateSlot).physicalRows = input.physicalRows := by
    rw [physicalRows, executed_onSlot, filter_filter]
    exact filter_congr fun row _ => Bool.and_self _
  rw [candidateReport, candidateTolerance, systemSlotQuantity, hphys]
  rfl

lemma candidateReport_onSlot_of_ne (h : slot ≠ input.candidateSlot) :
    (input.onSlot slot).candidateReport.1 =
      if 1 < input.venueRows.length then ["venue_physical_slot_ambiguous"] else [] := by
  have hphys : (input.onSlot slot).physicalRows = [] := by
    rw [physicalRows, executed_onSlot]
    refine filter_eq_nil_iff.mpr fun row hrow hcand => h ?_
    have hslot := of_decide_eq_true (mem_filter.mp hrow).2
    exact Option.some.inj (hslot.symm.trans (of_decide_eq_true hcand))
  have hzero : (input.onSlot slot).systemSlotQuantity = 0 := by
    rw [systemSlotQuantity, hphys]
    rfl
  rw [candidateReport, hzero]
  have hnot : ∀ p : Prop, ¬ ((0 : ℚ) < 0 ∧ p) := fun p h => lt_irrefl 0 h.1
  rw [if_neg (hnot _), if_neg (hnot _), append_nil]
  rfl

/-- **The audit of one slot.** When no violation is on the level of the connection and a slot is not
noted, the audit of its rows is safe, up to an ambiguity of the slot of the candidate. -/
theorem safe_onSlot
    (hlvl : (auditLiveEntryProtectionAdmission input).connectionLevelViolation = false)
    (hslot : slot ∉ (auditLiveEntryProtectionAdmission input).offendingSlots)
    (hnotes : input.NotesPending slot)
    (hcand : slot = input.candidateSlot ∨ input.venueRows.length ≤ 1) :
    (auditLiveEntryProtectionAdmission (input.onSlot slot)).safe = true := by
  rw [connectionLevelViolation_iff] at hlvl
  rw [mem_offendingSlots, not_or] at hslot
  obtain ⟨hpend, hrepor⟩ := hslot
  have hclean : ∀ found ∈ input.reports, found.2 = some slot → found.1 = [] :=
    fun found hfnd hplace => by_contra fun hne => hrepor ⟨found, hfnd, hplace, hne⟩
  rw [safe_iff]
  constructor
  · -- A pending row of the slot would be noted under it.
    rw [pendingRows_onSlot]
    refine filter_eq_nil_iff.mpr fun row hrow hplace => hpend ⟨row, hrow, ?_⟩
    exact hnotes row hrow (of_decide_eq_true hplace)
  · intro found hfnd
    rcases mem_reports_onSlot hfnd with ⟨hmem, hplace⟩ | hnil | rfl
    · exact hplace.elim (hlvl found hmem) (hclean found hmem)
    · exact hnil
    · by_cases hself : slot = input.candidateSlot
      · subst hself
        rw [candidateReport_onSlot_self]
        exact hclean _ (mem_concat_self) rfl
      · rw [candidateReport_onSlot_of_ne hself, if_neg (not_lt.mpr (hcand.resolve_left hself))]

lemma owned_withRows (h : rows.filter input.owns = input.positions.filter input.owns) :
    (input.withRows rows).owned = input.owned := by
  have hsplit : ∀ rows : List Value, rows.filter input.isOwned =
      (rows.filter input.owns).filter input.isOwned := by
    intro rows
    rw [filter_filter]
    refine filter_congr fun row _ => ?_
    rw [isOwned]
    cases input.owns row <;> simp
  calc (input.withRows rows).owned = rows.filter input.isOwned := rfl
    _ = (input.positions.filter input.owns).filter input.isOwned := by rw [hsplit, h]
    _ = input.owned := (hsplit input.positions).symm

/-- Rows that the connection does not own are never read. -/
theorem audit_withRows (h : rows.filter input.owns = input.positions.filter input.owns) :
    auditLiveEntryProtectionAdmission (input.withRows rows) =
      auditLiveEntryProtectionAdmission input := by
  have howned := owned_withRows h
  have hexec : (input.withRows rows).executed = input.executed := by
    rw [executed, executedAll, howned, closedOnVenue_withRows, executed, executedAll]
  have hphys : (input.withRows rows).physicalRows = input.physicalRows := by
    rw [physicalRows, hexec]
    rfl
  have hbarr : (input.withRows rows).barriers = input.barriers := by
    rw [barriers, pendingEntries, closingRows, mutatingRows, howned]
    rfl
  have hrepor : (input.withRows rows).reports = input.reports := by
    rw [reports, directionReport, bySlot, candidateReport, candidateTolerance, systemSlotQuantity,
      hphys, hexec]
    rfl
  have hfind : (input.withRows rows).findings = input.findings := by
    rw [findings, hbarr, hrepor, findings]
  unfold auditLiveEntryProtectionAdmission
  rw [hfind, howned, hexec, systemSlotQuantity, hphys]
  rfl

end AdmissionInput

end CtsEngine.EntryAdmission

/-! ## What a safe audit says -/

namespace CtsEngine.EntryAdmission

open VenueReply (Value)

namespace AdmissionInput

variable {input : AdmissionInput}

/-- The order is named and live. -/
def HasLive (input : AdmissionInput) (row : Value) (field : String) : Prop :=
  textOf (row.get field) ≠ "" ∧ textOf (row.get field) ∈ input.liveOrderIds

/-- The row has its own stop loss and take profit, each with its quantity. -/
structure HasOwnControls (input : AdmissionInput) (row : Value) : Prop where
  stopLoss : input.HasLive row "stopLossOrderId"
  takeProfit : input.HasLive row "takeProfitOrderId"
  stopLossQuantity : armedQuantityMatches (quantityOf row)
    (firstOf row ["stopLossArmedQuantity", "protectionArmedQuantity"]) (quantityTolerance row) =
    true
  takeProfitQuantity : armedQuantityMatches (quantityOf row)
    (firstOf row ["takeProfitArmedQuantity", "protectionArmedQuantity"])
    (quantityTolerance row) = true

/-- One row of the slot holds the stop loss and the take profit of all its rows. -/
structure HasSharedControls (input : AdmissionInput) (rows : List Value) : Prop where
  shared : ∀ row ∈ rows, isShared row = true
  leader : ∃ leader, leaders rows = [leader] ∧ ∀ leg ∈ legs,
    input.HasLive leader (leg ++ "OrderId") ∧ armedQuantityMatches (totalQuantity rows)
      (leader.get (leg ++ "ArmedQuantity")) (slotTolerance rows) = true

/-- One security stop of the slot is live, with the quantity of its rows. -/
structure HasSecurityStop (input : AdmissionInput) (rows : List Value) : Prop where
  one : (input.securityIds rows).length = 1
  owner : ∃ owner ∈ rows, input.HasLive owner "securityStopOrderId" ∧
    armedQuantityMatches (totalQuantity rows) (owner.get "securityStopArmedQuantity")
      (slotTolerance rows) = true

/-- The rows with a quantity are protected. -/
structure Protects (input : AdmissionInput) : Prop where
  rows : ∀ row ∈ input.executed, (rowSlot row).isSome = true ∧
    (isShared row = false → input.HasOwnControls row)
  slots : ∀ slot rows, rows = input.executed.filter (fun row => rowSlot row = some slot) →
    rows ≠ [] → input.settledHandoff rows = false →
      input.HasSecurityStop rows ∧ (rows.any isShared = true → input.HasSharedControls rows)

variable {row : Value} {rows : List Value}

lemma hasLive_of_missingOrder {field violation : String}
    (h : input.missingOrder row field violation = []) : input.HasLive row field := by
  rw [missingOrder] at h
  by_cases hmiss : textOf (row.get field) = "" ∨ input.isLive (textOf (row.get field)) = false
  · rw [if_pos hmiss] at h
    cases h
  · obtain ⟨hne, hlive⟩ := not_or.mp hmiss
    exact ⟨hne, of_decide_eq_true (eq_true_of_ne_false hlive)⟩

lemma matches_of_wrongQuantity {field violation : String}
    (h : wrongQuantity row field violation = []) : armedQuantityMatches (quantityOf row)
      (firstOf row [field, "protectionArmedQuantity"]) (quantityTolerance row) = true := by
  rw [wrongQuantity] at h
  by_contra hnot
  rw [if_neg hnot] at h
  cases h

lemma hasOwnControls_of_rowViolations (h : input.rowViolations row = []) :
    input.HasOwnControls row := by
  obtain ⟨h, htakeProfQty⟩ := append_eq_nil_iff.mp h
  obtain ⟨h, hstopLossQty⟩ := append_eq_nil_iff.mp h
  obtain ⟨hstopLoss, htakeProf⟩ := append_eq_nil_iff.mp h
  exact {
    stopLoss := hasLive_of_missingOrder hstopLoss
    takeProfit := hasLive_of_missingOrder htakeProf
    stopLossQuantity := matches_of_wrongQuantity hstopLossQty
    takeProfitQuantity := matches_of_wrongQuantity htakeProfQty }

lemma hasSecurityStop_of_securityViolations (hhand : input.settledHandoff rows = false)
    (h : input.securityViolations rows = []) :
    input.HasSecurityStop rows := by
  rw [securityViolations, hhand] at h
  obtain ⟨hone, howner⟩ := append_eq_nil_iff.mp h
  refine ⟨by_contra fun hnot => ?_, ?_⟩
  · rw [if_neg hnot] at hone
    cases hone
  · cases hfind : input.securityOwner rows with
    | none =>
      rw [hfind] at howner
      cases howner
    | some owner =>
      have hlive := find?_some hfind
      rw [Bool.and_eq_true, decide_eq_true_eq] at hlive
      refine ⟨owner, mem_of_find?_eq_some hfind, ⟨hlive.1, of_decide_eq_true hlive.2⟩,
        by_contra fun hnot => ?_⟩
      rw [hfind, Option.any_some, if_neg hnot] at howner
      cases howner

lemma hasLive_of_legViolations {leader : Value} {leg : String}
    (hhand : input.settledHandoff rows = false)
    (h : input.legViolations rows leader leg = []) :
    input.HasLive leader (leg ++ "OrderId") ∧ armedQuantityMatches (totalQuantity rows)
      (leader.get (leg ++ "ArmedQuantity")) (slotTolerance rows) = true := by
  rw [legViolations, hhand] at h
  obtain ⟨h, -⟩ := append_eq_nil_iff.mp h
  obtain ⟨hmiss, hqty⟩ := append_eq_nil_iff.mp h
  refine ⟨hasLive_of_missingOrder hmiss, by_contra fun hnot => ?_⟩
  rw [if_neg hnot] at hqty
  cases hqty

lemma hasSharedControls_of_sharedViolations (hhand : input.settledHandoff rows = false)
    (hshar : rows.any isShared = true)
    (h : input.sharedViolations rows = []) : input.HasSharedControls rows := by
  rw [sharedViolations, if_pos hshar] at h
  cases hlead : leaders rows with
  | nil =>
    rw [hlead] at h
    cases h
  | cons leader rest =>
    rw [hlead] at h
    cases rest with
    | cons second others => cases h
    | nil =>
      dsimp only at h
      by_cases hall : (rows.any fun row => !isShared row) = true
      · rw [if_pos hall] at h
        cases h
      · rw [if_neg hall] at h
        refine ⟨fun row hrow => by_contra fun hnot => hall ?_, leader, hlead, fun leg hleg => ?_⟩
        · exact any_eq_true.mpr ⟨row, hrow, by simpa using hnot⟩
        · exact hasLive_of_legViolations hhand (flatMap_eq_nil_iff.mp h leg hleg)

/-- **A safe audit** protects the rows with a quantity. -/
theorem protects_of_safe (h : (auditLiveEntryProtectionAdmission input).safe = true) :
    input.Protects := by
  obtain ⟨-, hreports⟩ := safe_iff.mp h
  refine ⟨fun row hrow => ⟨by_contra fun hnone => ?_, fun hown => ?_⟩,
    fun slot rows hrows hne hhand => ?_⟩
  · have hdir := hreports input.directionReport (mem_append_left _
      (mem_append_left _ (mem_concat_self)))
    rw [directionReport, map_eq_nil_iff, filter_eq_nil_iff] at hdir
    exact hdir row hrow (by simpa using hnone)
  · have hrepor := hreports (input.rowReport row) (mem_append_left _ (mem_append_left _
      (mem_append_left _ (mem_map_of_mem hrow))))
    rw [rowReport, hown] at hrepor
    exact hasOwnControls_of_rowViolations (append_eq_nil_iff.mp hrepor).2
  · have hgroup : (slot, rows) ∈ input.bySlot := mem_bySlot.mpr ⟨hrows, hne⟩
    have hrepor := hreports (input.slotReport (slot, rows)) (mem_append_left _
      (mem_append_right _ (mem_map_of_mem hgroup)))
    obtain ⟨hshar, hsec⟩ := append_eq_nil_iff.mp hrepor
    exact ⟨hasSecurityStop_of_securityViolations hhand hsec,
      fun hany => hasSharedControls_of_sharedViolations hhand hany hshar⟩

end AdmissionInput

open AdmissionInput

/-- The audit of the rows of a slot is safe when the audit of all rows notes neither the slot nor a
violation without a slot, the pending rows of the slot are noted under it, and the venue's rows of
the candidate are not ambiguous or the slot is the candidate's. -/
theorem auditLiveEntryProtectionAdmission_spec (input : AdmissionInput) :
    ((auditLiveEntryProtectionAdmission input).connectionLevelViolation = false →
      ∀ slot, slot ∉ (auditLiveEntryProtectionAdmission input).offendingSlots →
        input.NotesPending slot →
        slot = input.candidateSlot ∨ input.venueRows.length ≤ 1 →
          (auditLiveEntryProtectionAdmission (input.onSlot slot)).safe = true) ∧
    (∀ rows, rows.filter input.owns = input.positions.filter input.owns →
      auditLiveEntryProtectionAdmission (input.withRows rows) =
        auditLiveEntryProtectionAdmission input) ∧
    ((auditLiveEntryProtectionAdmission input).safe = true → input.Protects) := by
  refine ⟨?_, ?_, ?_⟩
  · intro hlevel slot hslot hnotes hcandidate
    exact safe_onSlot hlevel hslot hnotes hcandidate
  · intro rows hrows
    exact audit_withRows hrows
  · exact protects_of_safe

/-- A row of a connection with a quantity of one. -/
def rowOn (symbol stopLossOrderId : String) : Value :=
  .object [("id", .text "r1"), ("connectionId", .text "x1"),
    ("system_tracking_id", .text "sys-x1-r1"), ("connection_tracking_id", .text "conn-x1"),
    ("symbol", .text symbol), ("direction", .text "short"), ("status", .text "open"),
    ("executedQuantity", .number (.finite 1)), ("orderId", .text "E1"),
    ("stopLossOrderId", .text stopLossOrderId), ("takeProfitOrderId", .text "TP1"),
    ("securityStopOrderId", .text "SEC1"), ("protectionArmedQuantity", .number (.finite 1)),
    ("securityStopArmedQuantity", .number (.finite 1))]

def oneRow : Value := rowOn "TAKEUSDT" "SL1"

/-- The audit of the row with live orders, for a candidate of the same slot. -/
def oneRowInput (venuePositions : List Value) (liveOrderIds : List String) : AdmissionInput where
  connectionId := "x1"
  symbol := "TAKEUSDT"
  direction := .short
  positions := [oneRow]
  venuePositions := venuePositions
  liveOrderIds := liveOrderIds

/-- The position of a row on the venue. -/
def venueRowOn (symbol : String) : Value :=
  .object [("symbol", .text symbol), ("positionSide", .text "SHORT"), ("positionAmt", .text "-1")]

/-- The audit of the row, and of a row of another slot whose stop loss is not live. -/
def twoRowsInput : AdmissionInput :=
  { oneRowInput [venueRowOn "TAKE-USDT", venueRowOn "MAKE-USDT"] ["SL1", "TP1", "SEC1"] with
    positions := [oneRow, rowOn "MAKEUSDT" "SL2"] }

/-- The audit of both rows is not safe; that of the slot of the first row is, and so it is
protected.  A row without an owner changes nothing. -/
theorem auditLiveEntryProtectionAdmission_spec_twoRows :
    (auditLiveEntryProtectionAdmission twoRowsInput).safe = false ∧
      (auditLiveEntryProtectionAdmission (twoRowsInput.onSlot twoRowsInput.candidateSlot)).safe =
        true ∧
      auditLiveEntryProtectionAdmission
          (twoRowsInput.withRows (venueRowOn "TAKEUSDT" :: twoRowsInput.positions)) =
        auditLiveEntryProtectionAdmission twoRowsInput ∧
      (twoRowsInput.onSlot twoRowsInput.candidateSlot).Protects ∧
      (twoRowsInput.onSlot twoRowsInput.candidateSlot).executed ≠ [] := by
  obtain ⟨hslot, hrows, -⟩ := auditLiveEntryProtectionAdmission_spec twoRowsInput
  have hsafe := hslot (by decide +kernel) twoRowsInput.candidateSlot (by decide +kernel)
    (by unfold NotesPending; decide +kernel) (.inl rfl)
  refine ⟨by decide +kernel, hsafe, hrows _ ?_, ?_, length_pos_iff.mp (by decide +kernel)⟩
  · exact filter_cons_of_neg (by decide +kernel)
  · exact (auditLiveEntryProtectionAdmission_spec _).2.2 hsafe

/-- A row with a quantity whose stop loss has been filled, on a slot that the venue holds nothing
of, is left out of the audit, which is safe. -/
theorem not_everyRow_stopped :
    ¬ ∀ input : AdmissionInput, (auditLiveEntryProtectionAdmission input).safe = true →
      ∀ row ∈ input.executedAll, input.HasLive row "stopLossOrderId" ∧
        input.HasLive row "takeProfitOrderId" := by
  intro h
  have hsafe : (auditLiveEntryProtectionAdmission (oneRowInput [] ["TP1"])).safe = true := by
    decide +kernel
  have hexecuted : (oneRowInput [] ["TP1"]).executedAll = [oneRow] := by
    have hall : ∀ row ∈ [oneRow], (oneRowInput [] ["TP1"]).isOwned row = true ∧
        0 < quantityOf row := by decide +kernel
    rw [executedAll, owned, filter_filter]
    exact filter_eq_self.mpr fun row hrow => by
      rw [Bool.and_eq_true, decide_eq_true_eq]
      exact ⟨(hall row hrow).2, (hall row hrow).1⟩
  have hrow := h (oneRowInput [] ["TP1"]) hsafe oneRow
    (by rw [hexecuted]; exact mem_singleton_self oneRow)
  exact absurd hrow.1.2 (by decide +kernel)

end CtsEngine.EntryAdmission
