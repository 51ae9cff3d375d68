import CtsEngine.Signal.Admission
import CtsEngine.Transition.Runs

/-!
# The number of occupied slots

A reservation that may add a slot has counted the slots under the lease, and only the holder of the
lease adds rows.  The invariant keeps room for every slot that the holder is still going to add, in
each phase of its call; the saves that end rows only give room back.
-/

namespace CtsEngine

open List Transition SignalSystem Function

variable {W : Type*}

/-- A release that has counted no row and is about to drop the slot. -/
def SignalPhase.dropsSlot : SignalPhase → SignalSlot → Bool
  | .droppingSlot row stage, slot | .droppingDirection row stage, slot =>
    decide (row.slotIn stage.direction = slot)
  | _, _ => false

/-- An occupation that has added its rows and is about to add the slot. -/
def SignalPhase.addsSlot : SignalPhase → SignalSlot → Bool
  | .addingSlot slot' _, slot | .addingDirection slot' _, slot => decide (slot' = slot)
  | _, _ => false

/-- When the next command of a call in the given phase meets no other call on its slot. -/
def ApartOn (s : SignalSystem W) : SignalPhase → Prop
  | .addingRows slot _ _ => ∀ v, (s.phase v).dropsSlot slot = false
  | .countingRows row stage => row.slotIn stage.direction ∉ s.occupied →
      ∀ v, (s.phase v).addsSlot (row.slotIn stage.direction) = false
  | .loading _ (r :: _) _ => r ∈ s.stored → r ∉ s.ended
  | _ => True

/-- The condition on a step. -/
def CallsApart (s : SignalSystem W) : SignalAction W → Prop
  | .command w _ => ApartOn s (s.phase w)
  | _ => True

/-- The phases of a call that holds the lease. -/
def SignalPhase.holdsLease : SignalPhase → Bool
  | .idle | .removingRow _ _ | .countingRows _ _ | .droppingSlot _ _ | .droppingDirection _ _
  | .endingRow _ | .leavingIndex _ | .locking _ => false
  | _ => true

/-- The row that a save ends. -/
def SignalPhase.endedRow : SignalPhase → Option SignalRow
  | .removingRow row _ | .countingRows row _ | .droppingSlot row _ | .droppingDirection row _
  | .endingRow row | .leavingIndex row => some row
  | _ => none

/-- The candidate, between its first `SADD` and its entry in the open index. -/
def SignalPhase.savedRow : SignalPhase → Option SignalRow
  | .addingSlot _ (.store row) | .addingDirection _ (.store row) | .storingRow row
  | .indexingRow row => some row
  | _ => none

variable {phase : SignalPhase} {row r : SignalRow} {slot : SignalSlot} {w : W}
  {index : SlotIndex → Finset SignalSlot}

lemma SignalPhase.holdsLease_of_savedRow (h : phase.savedRow = some row) :
    phase.holdsLease = true := by
  cases phase <;> first | rfl | cases h

lemma SignalPhase.savedRow_of_endedRow (h : phase.endedRow = some row) : phase.savedRow = none := by
  cases phase <;> first | rfl | cases h

/-! ### Room for the slots to come -/

/-- The slot of the candidate, if a rebuild over the rows `active` admits it. -/
def admittedSlot (limit : ℕ) (row : SignalRow) (active : List SignalRow) : Finset SignalSlot :=
  if (slotsOf active).toFinset.card < limit then {row.slot} else ∅

/-- The slots that are still to be added after an occupation. -/
def AfterOccupy.claims (limit : ℕ) : AfterOccupy → Finset SignalSlot
  | .restore row active slots => slots.toFinset ∪ admittedSlot limit row active
  | .store row => {row.slot}
  | .finish => ∅

/-- The occupied slots and the claimed ones do not exceed the limit. -/
def SignalSystem.Room (limit : ℕ) (s : SignalSystem W) (claims : Finset SignalSlot) : Prop :=
  (s.occupied ∪ claims).card ≤ limit

/-- What a rebuild has read: every active row, only reserved rows, and not too many slots. -/
structure RebuildOk (limit : ℕ) (s : SignalSystem W) (row : SignalRow) (active : List SignalRow) :
    Prop where
  complete : ∀ r ∈ s.active, r ∈ active
  reserved : ∀ r ∈ active, r ∈ s.reserved
  claims : ((slotsOf active).toFinset ∪ admittedSlot limit row active).card ≤ limit

/-- What holds in the phases of the call that has the lease. -/
def SignalHolderOk (limit : ℕ) (s : SignalSystem W) : SignalPhase → Prop
  | .loading _ ids active => (∀ r ∈ s.active, r ∈ ids ∨ r ∈ active) ∧
      (∀ r ∈ ids, r ∈ s.reserved) ∧ (∀ r ∈ active, r ∈ s.reserved) ∧
      ∃ slots : Finset SignalSlot, slots.card ≤ limit ∧ (∀ r ∈ s.active, r.slot ∈ slots) ∧
        ∀ r ∈ active, r.slot ∈ slots
  | .scanning row active => RebuildOk limit s row active
  | .sweepingRows row active keys => RebuildOk limit s row active ∧
      ∀ r ∈ s.members, r.slot ∉ keys → r ∈ active
  | .removingStale row active keys stale => RebuildOk limit s row active ∧
      (∀ r ∈ stale, r ∉ active) ∧ ∀ r ∈ s.members, r.slot ∉ keys → r ∈ active ∨ r ∈ stale
  | .sweepingSlots row active _ => RebuildOk limit s row active ∧ ∀ r ∈ s.members, r ∈ active
  | .removingGone row active _ key gone => RebuildOk limit s row active ∧
      (∀ r ∈ s.members, r ∈ active) ∧
      ∀ slot ∈ gone, slot ∉ slotsOf active ∨ key.covers slot = false
  | .restoring row active slots => (∀ r ∈ active, r ∈ s.reserved) ∧
      (∀ slot ∈ slots, slot ∈ slotsOf active) ∧
      s.Room limit (slots.toFinset ∪ admittedSlot limit row active)
  | .addingRows slot rows after => rows ≠ [] ∧ (∀ r ∈ rows, r.slot = slot) ∧
      s.Room limit (insert slot (after.claims limit)) ∧
      match after with
      | .restore _ active slots => (∀ r ∈ rows, r ∈ s.reserved) ∧
          (∀ r ∈ active, r ∈ s.reserved) ∧ ∀ slot ∈ slots, slot ∈ slotsOf active
      | .store row => rows = [row]
      | .finish => ∀ r ∈ rows, r ∈ s.reserved
  | .addingSlot _ after | .addingDirection _ after => s.Room limit (after.claims limit) ∧
      match after with
      | .restore _ active slots => (∀ r ∈ active, r ∈ s.reserved) ∧
          ∀ slot ∈ slots, slot ∈ slotsOf active
      | .store row => row ∈ s.reserved
      | .finish => True
  | .finding row allowed | .countingCandidate row allowed =>
    allowed = true → s.Room limit {row.slot}
  | .storingRow row => row ∈ s.reserved ∧ s.Room limit {row.slot}
  | .indexingRow row => row ∈ s.reserved ∧ s.Room limit {row.slot} ∧
      (row ∈ s.active → row ∈ s.stored)
  | _ => True

/-- The invariant of the rows. -/
structure CapacityInvariant (limit : ℕ) (s : SignalSystem W) : Prop where
  lease : ∀ w, (s.phase w).holdsLease = true → s.lease = some w
  ended : ∀ w row, (s.phase w).endedRow = some row → row ∈ s.ended
  holder : ∀ w, SignalHolderOk limit s (s.phase w)
  /-- An active row stands in its row set. -/
  members : ∀ r ∈ s.active, r ∈ s.members
  /-- An active row is stored and listed, unless its own reservation is still saving it. -/
  booked : ∀ r ∈ s.active, (r ∈ s.stored ∧ r ∈ s.openIndex) ∨ ∃ w, (s.phase w).savedRow = some r
  listed : ∀ r ∈ s.openIndex, r ∈ s.reserved
  room : s.occupied.card ≤ limit

variable {limit : ℕ} {s t : SignalSystem W}

lemma SignalSystem.mem_active : r ∈ s.active ↔ r ∈ s.reserved ∧ r ∉ s.ended := Finset.mem_sdiff

lemma SignalSystem.mem_occupied : slot ∈ s.occupied ↔ ∃ r ∈ s.members, r.slot = slot :=
  Finset.mem_image

lemma mem_slotsOf {rows : List SignalRow} : slot ∈ slotsOf rows ↔ ∃ r ∈ rows, r.slot = slot := by
  rw [slotsOf, mem_dedup, mem_map]

lemma SignalSystem.Room.mono {claims claims' : Finset SignalSlot} (h : s.Room limit claims)
    (hocc : t.occupied ⊆ s.occupied) (hclaim : claims' ⊆ claims) : t.Room limit claims' :=
  (Finset.card_le_card (Finset.union_subset_union hocc hclaim)).trans h

/-- What the saves of other workers may do while a call holds the lease. -/
structure Receding (s t : SignalSystem W) : Prop where
  members : t.members ⊆ s.members
  reserved : t.reserved = s.reserved
  ended : s.ended ⊆ t.ended
  /-- Only ended rows leave the stored rows. -/
  stored : ∀ r ∈ s.stored, r ∉ t.ended → r ∈ t.stored

lemma Receding.active (h : Receding s t) (hr : r ∈ t.active) : r ∈ s.active := by
  obtain ⟨hresv, hended⟩ := mem_active.mp hr
  rw [h.reserved] at hresv
  exact mem_active.mpr ⟨hresv, fun hs => hended (h.ended hs)⟩

lemma Receding.occupied (h : Receding s t) : t.occupied ⊆ s.occupied :=
  Finset.image_subset_image h.members

variable {active : List SignalRow}

lemma RebuildOk.stable (h : RebuildOk limit s row active) (hst : Receding s t) :
    RebuildOk limit t row active where
  complete r hr := h.complete r (hst.active hr)
  reserved r hr := hst.reserved ▸ h.reserved r hr
  claims := h.claims

/-- **Stability.** The facts of the holder survive the saves of other workers. -/
lemma SignalHolderOk.stable (h : SignalHolderOk limit s phase) (hst : Receding s t) :
    SignalHolderOk limit t phase := by
  have hresv := hst.reserved
  cases phase with
  | loading row ids active =>
    obtain ⟨hcomp, hids, hact, slots, hcard, hslots, hread⟩ := h
    refine ⟨fun r hr => hcomp r (hst.active hr), ?_, ?_, slots, hcard,
      fun r hr => hslots r (hst.active hr), hread⟩
    · exact fun r hr => hresv ▸ hids r hr
    · exact fun r hr => hresv ▸ hact r hr
  | scanning row active => exact RebuildOk.stable h hst
  | sweepingRows row active keys =>
    exact ⟨h.1.stable hst, fun r hr => h.2 r (hst.members hr)⟩
  | removingStale row active keys stale =>
    exact ⟨h.1.stable hst, h.2.1, fun r hr => h.2.2 r (hst.members hr)⟩
  | sweepingSlots row active keys =>
    exact ⟨h.1.stable hst, fun r hr => h.2 r (hst.members hr)⟩
  | removingGone row active keys key gone =>
    exact ⟨h.1.stable hst, fun r hr => h.2.1 r (hst.members hr), h.2.2⟩
  | restoring row active slots =>
    exact ⟨fun r hr => hresv ▸ h.1 r hr, h.2.1, h.2.2.mono hst.occupied subset_rfl⟩
  | addingRows slot rows after =>
    obtain ⟨hne, hslot, hroom, hafter⟩ := h
    refine ⟨hne, hslot, hroom.mono hst.occupied subset_rfl, ?_⟩
    cases after with
    | restore row active slots =>
      exact ⟨fun r hr => hresv ▸ hafter.1 r hr, fun r hr => hresv ▸ hafter.2.1 r hr, hafter.2.2⟩
    | store row => exact hafter
    | finish => exact fun r hr => hresv ▸ hafter r hr
  | addingSlot slot after | addingDirection slot after =>
    obtain ⟨hroom, hafter⟩ := h
    refine ⟨hroom.mono hst.occupied subset_rfl, ?_⟩
    cases after with
    | restore row active slots => exact ⟨fun r hr => hresv ▸ hafter.1 r hr, hafter.2⟩
    | store row =>
      rw [hresv]
      exact hafter
    | finish => trivial
  | finding row allowed | countingCandidate row allowed =>
    exact fun hallow => (h hallow).mono hst.occupied subset_rfl
  | storingRow row =>
    exact ⟨hresv ▸ h.1, h.2.mono hst.occupied subset_rfl⟩
  | indexingRow row =>
    refine ⟨hresv ▸ h.1, h.2.1.mono hst.occupied subset_rfl, fun hr => ?_⟩
    exact hst.stored row (h.2.2 (hst.active hr)) (mem_active.mp hr).2
  | _ => trivial

variable [DecidableEq W]

/-- A step of `w` to a phase, which adds no row and takes no active row away. -/
structure Moves (s t : SignalSystem W) (w : W) (phase : SignalPhase) : Prop extends
    Receding s t where
  phase_eq : t.phase = update s.phase w phase
  lease : ∀ v, (t.phase v).holdsLease = true → t.lease = some v
  endedRow : ∀ row, phase.endedRow = some row → row ∈ t.ended
  savedRow : ∀ r ∈ t.active, (s.phase w).savedRow = some r →
    (r ∈ t.stored ∧ r ∈ t.openIndex) ∨ phase.savedRow = some r
  left : ∀ r ∈ s.members, r ∈ t.active → r ∈ t.members
  unlisted : ∀ r ∈ s.openIndex, r ∈ t.active → r ∈ t.openIndex
  listed : ∀ r ∈ t.openIndex, r ∈ s.openIndex ∨ r ∈ t.reserved

lemma CapacityInvariant.lease_update (h : CapacityInvariant limit s)
    (hph : phase.holdsLease = true → (s.phase w).holdsLease = true) (v : W)
    (hv : (update s.phase w phase v).holdsLease = true) : s.lease = some v := by
  by_cases hvw : v = w
  · subst hvw
    rw [update_self] at hv
    exact h.lease v (hph hv)
  · rw [update_of_ne hvw] at hv
    exact h.lease v hv

lemma CapacityInvariant.moves (h : CapacityInvariant limit s) (hst : Moves s t w phase)
    (hholde : SignalHolderOk limit t phase) : CapacityInvariant limit t := by
  have hph := hst.phase_eq
  refine ⟨hst.lease, ?_, ?_, fun r hr => ?_, fun r hr => ?_, fun r hr => ?_, ?_⟩
  · rw [hph, forall_update_iff s.phase fun _ p => ∀ row, p.endedRow = some row → row ∈ t.ended]
    exact ⟨hst.endedRow, fun v _ row hrow => hst.ended (h.ended v row hrow)⟩
  · rw [hph, forall_update_iff s.phase fun _ p => SignalHolderOk limit t p]
    exact ⟨hholde, fun v _ => (h.holder v).stable hst.toReceding⟩
  · exact hst.left r (h.members r (hst.toReceding.active hr)) hr
  · rcases h.booked r (hst.toReceding.active hr) with ⟨hstor, hopen⟩ | ⟨v, hv⟩
    · have hended := (mem_active.mp hr).2
      exact .inl ⟨hst.stored r hstor hended, hst.unlisted r hopen hr⟩
    · by_cases hvw : v = w
      · subst hvw
        rcases hst.savedRow r hr hv with hbook | hsaved
        · exact .inl hbook
        · refine .inr ⟨v, ?_⟩
          rw [hph, update_self]
          exact hsaved
      · refine .inr ⟨v, ?_⟩
        rw [hph, update_of_ne hvw]
        exact hv
  · rcases hst.listed r hr with hopen | hresv
    · rw [hst.reserved]
      exact h.listed r hopen
    · exact hresv
  · exact (Finset.card_le_card hst.toReceding.occupied).trans h.room

variable {verifyLock : Bool} {before : SignalPhase} {answer : SignalAnswer}

lemma CapacityInvariant.enter (h : CapacityInvariant limit s)
    (hlease : phase.holdsLease = true → (s.phase w).holdsLease = true)
    (hended : ∀ row, phase.endedRow = some row → row ∈ s.ended)
    (hsaved : ∀ r, (s.phase w).savedRow = some r → phase.savedRow = some r)
    (hholde : SignalHolderOk limit s phase) :
    CapacityInvariant limit
      ({ s with index := index, verifyLock := verifyLock }.enter w phase) := by
  have hrec : Receding s ({ s with index := index, verifyLock := verifyLock }.enter w phase) :=
    ⟨subset_rfl, rfl, subset_rfl, fun _ hr _ => hr⟩
  exact h.moves
    { toReceding := hrec
      phase_eq := rfl
      lease := h.lease_update hlease
      endedRow := hended
      savedRow := fun r _ hr => .inr (hsaved r hr)
      left := fun _ hr _ => hr
      unlisted := fun _ hr _ => hr
      listed := fun _ hr => .inl hr }
    (hholde.stable hrec)

lemma afterRelease_spec (row : SignalRow) (stage : EndStage) :
    (afterRelease row stage).holdsLease = false ∧ (afterRelease row stage).endedRow = some row := by
  cases stage <;> exact ⟨rfl, rfl⟩

omit [DecidableEq W] in
lemma SignalHolderOk.of_released (h : phase.holdsLease = false) : SignalHolderOk limit s phase := by
  cases phase <;> trivial

lemma CapacityInvariant.endEnter (h : CapacityInvariant limit s)
    (hph : s.phase w = before) (hrow : before.endedRow = some row)
    (hafter : phase.holdsLease = false ∧ phase.endedRow = some row) :
    CapacityInvariant limit ({ s with index := index }.enter w phase) := by
  subst hph
  refine h.enter (fun hq => ?_) (fun row' hrow' => ?_) (fun r hr => ?_) (.of_released hafter.1)
  · rw [hafter.1] at hq
    cases hq
  · obtain rfl := Option.some.inj (hafter.2.symm.trans hrow')
    exact h.ended w row hrow
  · rw [SignalPhase.savedRow_of_endedRow hrow] at hr
    cases hr

/-- A command of an end of a row keeps the invariant. -/
lemma capacityInvariant_endCommand (h : CapacityInvariant limit s)
    (hrow : (s.phase w).endedRow = some row) (hstep : s.command limit w answer = some t) :
    CapacityInvariant limit t := by
  have hended := h.ended w row hrow
  unfold SignalSystem.command at hstep
  generalize hph : s.phase w = phase at hrow hstep
  cases phase with
  | removingRow row' stage =>
    obtain rfl := Option.some.inj hrow
    obtain rfl := Option.some.inj hstep
    have hmems : (if row'.slotIn stage.direction = row'.slot then s.members.erase row'
        else s.members) ⊆ s.members := by
      split
      · exact Finset.erase_subset _ _
      · exact subset_rfl
    refine h.moves ⟨⟨hmems, rfl, subset_rfl,
      fun _ hr _ => hr⟩, rfl, h.lease_update nofun, fun r hr => ?_,
      fun r _ hr => ?_, fun r hr hact => ?_, fun _ hr _ => hr, fun _ hr => .inl hr⟩ trivial
    · obtain rfl := Option.some.inj hr
      exact hended
    · rw [hph] at hr
      cases hr
    · have hne : r ≠ row' := by
        rintro rfl
        exact (mem_active.mp hact).2 hended
      split
      · exact Finset.mem_erase.mpr ⟨hne, hr⟩
      · exact hr
  | countingRows row' stage =>
    obtain rfl := Option.some.inj hstep
    refine h.endEnter hph rfl ?_
    split
    · exact afterRelease_spec row' stage
    · exact ⟨rfl, rfl⟩
  | droppingSlot row' stage =>
    obtain rfl := Option.some.inj hstep
    exact h.endEnter hph rfl ⟨rfl, rfl⟩
  | droppingDirection row' stage =>
    obtain rfl := Option.some.inj hstep
    exact h.endEnter hph rfl (afterRelease_spec row' stage)
  | endingRow row' =>
    obtain rfl := Option.some.inj hrow
    obtain rfl := Option.some.inj hstep
    refine h.moves ⟨⟨subset_rfl, rfl, subset_rfl,
      fun r hr hact => ?_⟩, rfl, h.lease_update nofun, fun r hr => ?_,
      fun r _ hr => ?_, fun _ hr _ => hr, fun _ hr _ => hr, fun _ hr => .inl hr⟩ trivial
    · have hne : r ≠ row' := by
        rintro rfl
        exact hact hended
      exact Finset.mem_erase.mpr ⟨hne, hr⟩
    · obtain rfl := Option.some.inj hr
      exact hended
    · rw [hph] at hr
      cases hr
  | leavingIndex row' =>
    obtain rfl := Option.some.inj hrow
    obtain rfl := Option.some.inj hstep
    refine h.moves ⟨⟨subset_rfl, rfl, subset_rfl, fun _ hr _ => hr⟩, rfl,
      h.lease_update nofun, nofun, fun r _ hr => ?_,
      fun _ hr _ => hr, fun r hr hact => ?_, fun r hr => .inl (mem_of_mem_filter hr)⟩
      trivial
    · rw [hph] at hr
      cases hr
    · have hne : r ≠ row' := by
        rintro rfl
        exact (mem_active.mp hact).2 hended
      exact mem_filter.mpr ⟨hr, decide_eq_true hne⟩
  | _ => cases hrow

/-! ### Reservations -/

omit [DecidableEq W] in
lemma CapacityInvariant.eq_of_holdsLease {v : W} (h : CapacityInvariant limit s)
    (hv : (s.phase v).holdsLease = true) (hw : (s.phase w).holdsLease = true) : v = w :=
  Option.some.inj ((h.lease v hv).symm.trans (h.lease w hw))

omit [DecidableEq W] in
lemma CapacityInvariant.booked_of_holder (h : CapacityInvariant limit s) (hph : s.phase w = phase)
    (hw : phase.holdsLease = true) (hsaved : phase.savedRow = none) (hr : r ∈ s.active) :
    r ∈ s.stored ∧ r ∈ s.openIndex := by
  rcases h.booked r hr with hbook | ⟨v, hv⟩
  · exact hbook
  · obtain rfl := h.eq_of_holdsLease (SignalPhase.holdsLease_of_savedRow hv) (hph ▸ hw)
    rw [hph, hsaved] at hv
    cases hv

lemma card_claims_le (h : (slotsOf active).toFinset.card ≤ limit) :
    ((slotsOf active).toFinset ∪ admittedSlot limit row active).card ≤ limit := by
  unfold admittedSlot
  split
  · have hunion := Finset.card_union_le (slotsOf active).toFinset {row.slot}
    rw [Finset.card_singleton] at hunion
    omega
  · rwa [Finset.union_empty]

omit [DecidableEq W] in
lemma SignalSystem.occupied_subset_slotsOf (h : ∀ r ∈ s.members, r ∈ active) :
    s.occupied ⊆ (slotsOf active).toFinset := by
  intro slot hslot
  obtain ⟨r, hr, rfl⟩ := mem_occupied.mp hslot
  exact mem_toFinset.mpr (mem_slotsOf.mpr ⟨r, h r hr, rfl⟩)

omit [DecidableEq W] in
lemma CapacityInvariant.room_of_occupied (h : CapacityInvariant limit s)
    (hslot : slot ∈ s.occupied) :
    s.Room limit {slot} := by
  unfold SignalSystem.Room
  rw [Finset.union_eq_left.mpr (Finset.singleton_subset_iff.mpr hslot)]
  exact h.room

omit [DecidableEq W] in
lemma room_of_counted (hcntd : s.occupied ⊆ s.index .all) (hlt : (s.index .all).card < limit) :
    s.Room limit {slot} := by
  have hunion := Finset.card_union_le s.occupied {slot}
  have hcard := Finset.card_le_card hcntd
  rw [Finset.card_singleton] at hunion
  unfold SignalSystem.Room
  omega

/-- Adding the rows of its slot keeps the invariant. -/
lemma CapacityInvariant.addRows {rows : List SignalRow} {after : AfterOccupy}
    (h : CapacityInvariant limit s) (hph : s.phase w = .addingRows slot rows after) :
    CapacityInvariant limit ((s.saddRows rows).enter w (.addingSlot slot after)) := by
  have hholde := h.holder w
  rw [hph] at hholde
  obtain ⟨-, hslot, hroom, hafter⟩ := hholde
  have hholds : (s.phase w).holdsLease = true := by rw [hph]; rfl
  have hocc : ((s.saddRows rows).enter w (.addingSlot slot after)).occupied ⊆
      insert slot s.occupied := by
    intro slot' hslot'
    obtain ⟨r, hr, rfl⟩ := mem_occupied.mp hslot'
    rcases Finset.mem_union.mp hr with hr | hr
    · exact Finset.mem_insert_of_mem (mem_occupied.mpr ⟨r, hr, rfl⟩)
    · rw [hslot r (mem_toFinset.mp hr)]
      exact Finset.mem_insert_self ..
  have hroom' : ((s.saddRows rows).enter w (.addingSlot slot after)).Room limit
      (after.claims limit) := by
    refine (Finset.card_le_card ?_).trans hroom
    intro slot' hslot'
    rw [Finset.mem_union, Finset.mem_insert]
    rcases Finset.mem_union.mp hslot' with hslot' | hslot'
    · rcases Finset.mem_insert.mp (hocc hslot') with rfl | hslot'
      · exact .inr (.inl rfl)
      · exact .inl hslot'
    · exact .inr (.inr hslot')
  refine ⟨h.lease_update fun _ => hholds, ?_, ?_, fun r hr => ?_, fun r hr => ?_, fun r hr => ?_,
    ?_⟩
  · change ∀ v row, (update s.phase w (.addingSlot slot after) v).endedRow = some row →
      row ∈ s.ended
    rw [forall_update_iff s.phase fun _ p => ∀ row, p.endedRow = some row → row ∈ s.ended]
    exact ⟨nofun, fun v _ => h.ended v⟩
  · change ∀ v, SignalHolderOk limit _ (update s.phase w (.addingSlot slot after) v)
    rw [forall_update_iff s.phase fun _ p =>
      SignalHolderOk limit ((s.saddRows rows).enter w (.addingSlot slot after)) p]
    refine ⟨⟨hroom', ?_⟩, fun v hv => .of_released ?_⟩
    · cases after with
      | restore row active slots =>
        exact ⟨fun r hr => Finset.mem_union_left _ (hafter.2.1 r hr), hafter.2.2⟩
      | store row =>
        rw [show rows = [row] from hafter]
        exact Finset.mem_union_right _ (mem_toFinset.mpr (mem_singleton_self row))
      | finish => trivial
    · -- the other calls do not hold the lease
      cases hoth : (s.phase v).holdsLease with
      | false => rfl
      | true => exact absurd (h.eq_of_holdsLease hoth hholds) hv
  · obtain ⟨hresv, hended⟩ := mem_active.mp hr
    rcases Finset.mem_union.mp hresv with hresv | hrows
    · exact Finset.mem_union_left _ (h.members r (mem_active.mpr ⟨hresv, hended⟩))
    · exact Finset.mem_union_right _ hrows
  · obtain ⟨hresv, hended⟩ := mem_active.mp hr
    by_cases hbef : r ∈ s.reserved
    · exact .inl (h.booked_of_holder hph rfl rfl (mem_active.mpr ⟨hbef, hended⟩))
    · have hrows : r ∈ rows := by
        rcases Finset.mem_union.mp hresv with hresv | hrows
        · exact absurd hresv hbef
        · exact mem_toFinset.mp hrows
      cases after with
      | restore row active slots => exact absurd (hafter.1 r hrows) hbef
      | store row =>
        rw [show rows = [row] from hafter] at hrows
        obtain rfl := mem_singleton.mp hrows
        refine .inr ⟨w, ?_⟩
        change (update s.phase w (.addingSlot slot (.store r)) w).savedRow = some r
        rw [update_self]
        rfl
      | finish => exact absurd (hafter r hrows) hbef
  · exact Finset.mem_union_left _ (h.listed r hr)
  · refine (Finset.card_le_card (hocc.trans ?_)).trans hroom
    rw [Finset.insert_subset_iff]
    exact ⟨Finset.mem_union_right _ (Finset.mem_insert_self ..), Finset.subset_union_left⟩

lemma CapacityInvariant.holderEnter (h : CapacityInvariant limit s) (hph : s.phase w = before)
    (hholds : before.holdsLease = true) (hended : phase.endedRow = none)
    (hsaved : before.savedRow = none ∨ phase.savedRow = before.savedRow)
    (hholde : SignalHolderOk limit s phase) :
    CapacityInvariant limit
      ({ s with index := index, verifyLock := verifyLock }.enter w phase) := by
  subst hph
  refine h.enter (fun _ => hholds) (fun row hrow => ?_) (fun r hr => ?_) hholde
  · rw [hended] at hrow
    cases hrow
  · rcases hsaved with hnone | hsame
    · rw [hnone] at hr
      cases hr
    · rw [hsame]
      exact hr

/-! ### The commands of the holder -/

namespace CapacityInvariant

variable {ids : List SignalRow} {keys slots : List SignalSlot} {stale : Finset SignalRow}
  {allowed : Bool} {after : AfterOccupy}

section

variable (h : CapacityInvariant limit s)

include h

omit [DecidableEq W] in
lemma holderOk (hph : s.phase w = phase) :
    SignalHolderOk limit s phase := hph ▸ h.holder w

/-- The open index lists every active row. -/
lemma list (hph : s.phase w = .listing row) :
    CapacityInvariant limit (s.enter w (.loading row s.openIndex [])) := by
  refine h.holderEnter hph rfl rfl (.inl rfl) ⟨fun r hr => ?_, h.listed,
    nofun, s.active.image SignalRow.slot, ?_, fun r hr => ?_,
    nofun⟩
  · exact .inl (h.booked_of_holder hph rfl rfl hr).2
  · exact (Finset.card_le_card (Finset.image_subset_image fun r hr => h.members r hr)).trans
      h.room
  · exact Finset.mem_image_of_mem _ hr

/-- A row that is read as active is not about to end. -/
lemma load (hph : s.phase w = .loading row (r :: ids) active)
    (hapart : r ∈ s.stored → r ∉ s.ended) :
    CapacityInvariant limit
      (s.enter w (.loading row ids (if r ∈ s.stored then active ++ [r] else active))) := by
  obtain ⟨hcomp, hids, hact, slots, hcard, hslots, hread⟩ := h.holderOk hph
  have hmem : ∀ r', r' ∈ (if r ∈ s.stored then active ++ [r] else active) ↔
      r' ∈ active ∨ (r ∈ s.stored ∧ r' = r) := by
    split
    · rename_i hstor
      simp [hstor]
    · rename_i hstor
      simp [hstor]
  refine h.holderEnter hph rfl rfl (.inl rfl) ⟨fun r' hr' => ?_,
    fun r' hr' => hids r' (mem_cons_of_mem _ hr'), fun r' hr' => ?_, slots, hcard, hslots,
    fun r' hr' => ?_⟩
  · rcases hcomp r' hr' with hr'' | hr''
    · rcases mem_cons.mp hr'' with rfl | hr''
      · have hstor := (h.booked_of_holder hph rfl rfl hr').1
        exact .inr ((hmem r').mpr (.inr ⟨hstor, rfl⟩))
      · exact .inl hr''
    · exact .inr ((hmem r').mpr (.inl hr''))
  · rcases (hmem r').mp hr' with hr' | ⟨-, rfl⟩
    · exact hact r' hr'
    · exact hids r' (mem_cons_self ..)
  · rcases (hmem r').mp hr' with hr' | ⟨hstor, rfl⟩
    · exact hread r' hr'
    · exact hslots r' (mem_active.mpr ⟨hids r' (mem_cons_self ..), hapart hstor⟩)

/-- All rows are read. -/
lemma loaded (hph : s.phase w = .loading row [] active) :
    CapacityInvariant limit (s.enter w (.scanning row active)) := by
  obtain ⟨hcomp, -, hact, slots, hcard, -, hread⟩ := h.holderOk hph
  refine h.holderEnter hph rfl rfl (.inl rfl) ⟨fun r hr => ?_, hact, card_claims_le ?_⟩
  · rcases hcomp r hr with hr | hr
    · cases hr
    · exact hr
  · refine (Finset.card_le_card fun slot hslot => ?_).trans hcard
    obtain ⟨r, hr, rfl⟩ := mem_slotsOf.mp (mem_toFinset.mp hslot)
    exact hread r hr

lemma sweep (hph : s.phase w = .sweepingRows row active (slot :: keys)) :
    CapacityInvariant limit (s.enter w (.removingStale row active keys
      (s.members.filter fun r => r.slot = slot ∧ r ∉ active))) := by
  obtain ⟨hreb, hswept⟩ := h.holderOk hph
  refine h.holderEnter hph rfl rfl (.inl rfl)
    ⟨hreb, fun r hr => (Finset.mem_filter.mp hr).2.2, fun r hr hslot => ?_⟩
  by_cases hin : r ∈ active
  · exact .inl hin
  · by_cases heq : r.slot = slot
    · exact .inr (Finset.mem_filter.mpr ⟨hr, heq, hin⟩)
    · refine .inl (hswept r hr fun hcons => ?_)
      rcases mem_cons.mp hcons with hcons | hcons
      · exact heq hcons
      · exact hslot hcons

/-- No active row is stale. -/
lemma removeStale (hph : s.phase w = .removingStale row active keys stale) :
    CapacityInvariant limit
      ({ s with members := s.members \ stale }.enter w (.sweepingRows row active keys)) := by
  obtain ⟨hreb, hstale, hswept⟩ := h.holderOk hph
  have hrec : Receding s ({ s with members := s.members \ stale }.enter w
      (.sweepingRows row active keys)) :=
    ⟨Finset.sdiff_subset, rfl, subset_rfl, fun _ hr _ => hr⟩
  refine h.moves ⟨hrec, rfl, h.lease_update fun _ => by rw [hph]; rfl, nofun,
    fun r _ hr => ?_, fun r hr hact => ?_, fun _ hr _ => hr, fun _ hr => .inl hr⟩
    ⟨hreb.stable hrec, fun r hr hslot => ?_⟩
  · rw [hph] at hr
    cases hr
  · have hin := hreb.complete r (hrec.active hact)
    exact Finset.mem_sdiff.mpr ⟨hr, fun hr' => hstale r hr' hin⟩
  · obtain ⟨hr, hnot⟩ := Finset.mem_sdiff.mp hr
    rcases hswept r hr hslot with hin | hin
    · exact hin
    · exact absurd hin hnot

lemma swept (hph : s.phase w = .sweepingSlots row active []) :
    CapacityInvariant limit (s.enter w (.restoring row active (slotsOf active))) := by
  obtain ⟨hreb, hmems⟩ := h.holderOk hph
  refine h.holderEnter hph rfl rfl (.inl rfl) ⟨hreb.reserved, fun _ hslot => hslot, ?_⟩
  unfold SignalSystem.Room
  rw [Finset.union_eq_right.mpr
    ((occupied_subset_slotsOf hmems).trans Finset.subset_union_left)]
  exact hreb.claims

lemma restore (hph : s.phase w = .restoring row active (slot :: slots)) :
    CapacityInvariant limit (s.enter w
      (.addingRows slot (active.filter (·.slot = slot)) (.restore row active slots))) := by
  obtain ⟨hresv, hslots, hroom⟩ := h.holderOk hph
  obtain ⟨r, hr, hrslot⟩ := mem_slotsOf.mp (hslots slot (mem_cons_self ..))
  refine h.holderEnter hph rfl rfl (.inl rfl) ⟨?_, fun r' hr' => ?_, ?_,
    fun r' hr' => hresv r' (mem_of_mem_filter hr'), hresv,
    fun slot' hslot' => hslots slot' (mem_cons_of_mem _ hslot')⟩
  · exact ne_nil_of_mem (mem_filter.mpr ⟨hr, decide_eq_true hrslot⟩)
  · exact of_decide_eq_true (mem_filter.mp hr').2
  · refine hroom.mono subset_rfl ?_
    rw [toFinset_cons, Finset.insert_union]
    exact subset_rfl

/-- A rebuild admits the candidate only with room for its slot. -/
lemma restored (hph : s.phase w = .restoring row active []) :
    CapacityInvariant limit
      (s.enter w (.finding row (decide ((slotsOf active).toFinset.card < limit)))) := by
  obtain ⟨-, -, hroom⟩ := h.holderOk hph
  refine h.holderEnter hph rfl rfl (.inl rfl) fun hallow => ?_
  have hlt : (slotsOf active).toFinset.card < limit := of_decide_eq_true hallow
  refine hroom.mono subset_rfl ?_
  rw [admittedSlot, if_pos hlt]
  exact Finset.subset_union_right

/-- The candidate stands in an occupied slot, or there is room for its own. -/
lemma count (hph : s.phase w = .countingCandidate row allowed) :
    CapacityInvariant limit (s.enter w
      (if (row.slot ∈ s.occupied ∨ allowed = true) ∧ answer.ordersFull = false then
        .addingRows row.slot [row] (.store row)
      else .unlocking)) := by
  have hholde := h.holderOk hph
  refine h.holderEnter hph rfl ?_ (.inl rfl) ?_
  · split <;> rfl
  · split
    · rename_i hadmd
      have hroom : s.Room limit {row.slot} := by
        rcases hadmd.1 with hslot | hallow
        · exact h.room_of_occupied hslot
        · exact hholde hallow
      refine ⟨cons_ne_nil _ _, fun r hr => ?_, hroom.mono subset_rfl ?_, rfl⟩
      · rw [mem_singleton.mp hr]
      · exact Finset.insert_subset (Finset.mem_singleton_self _) subset_rfl
    · trivial

lemma store (hph : s.phase w = .storingRow row) :
    CapacityInvariant limit
      ({ s with stored := insert row s.stored }.enter w (.indexingRow row)) := by
  obtain ⟨hresv, hroom⟩ := h.holderOk hph
  have hrec : Receding s ({ s with stored := insert row s.stored }.enter w (.indexingRow row)) :=
    ⟨subset_rfl, rfl, subset_rfl, fun _ hr _ => Finset.mem_insert_of_mem hr⟩
  refine h.moves ⟨hrec, rfl, h.lease_update fun _ => by rw [hph]; rfl, nofun,
    fun r _ hr => .inr ?_, fun _ hr _ => hr, fun _ hr _ => hr, fun _ hr => .inl hr⟩
    ⟨hresv, hroom.mono hrec.occupied subset_rfl, fun _ => Finset.mem_insert_self ..⟩
  rw [hph] at hr
  exact hr

/-- With its entry in the open index the candidate is booked. -/
lemma book (hph : s.phase w = .indexingRow row) :
    CapacityInvariant limit ({ s with openIndex := row :: s.openIndex.filter (· ≠ row) }.enter w
      (.addingRows row.slot [row] .finish)) := by
  obtain ⟨hresv, hroom, hstor⟩ := h.holderOk hph
  have hrec : Receding s ({ s with openIndex := row :: s.openIndex.filter (· ≠ row) }.enter w
      (.addingRows row.slot [row] .finish)) := ⟨subset_rfl, rfl, subset_rfl, fun _ hr _ => hr⟩
  refine h.moves ⟨hrec, rfl, h.lease_update fun _ => by rw [hph]; rfl, nofun,
    fun r hact hr => .inl ?_, fun _ hr _ => hr, fun r hr _ => ?_, fun r hr => ?_⟩
    ⟨cons_ne_nil _ _, fun r hr => ?_, hroom.mono hrec.occupied ?_, fun r hr => ?_⟩
  · rw [hph] at hr
    cases hr
    exact ⟨hstor (hrec.active hact), mem_cons_self ..⟩
  · by_cases hne : r = row
    · exact hne ▸ mem_cons_self ..
    · exact mem_cons_of_mem _ (mem_filter.mpr ⟨hr, decide_eq_true hne⟩)
  · rcases mem_cons.mp hr with rfl | hr
    · exact .inr hresv
    · exact .inl (mem_of_mem_filter hr)
  · rw [mem_singleton.mp hr]
  · exact Finset.insert_subset (Finset.mem_singleton_self _) (Finset.empty_subset _)
  · rw [mem_singleton.mp hr]
    exact hresv

/-- Nobody else holds the lease that is given back. -/
lemma unlock (hph : s.phase w = .unlocking) :
    CapacityInvariant limit
      ({ s with lease := if s.lease = some w then none else s.lease }.enter w .idle) := by
  refine h.moves ⟨⟨subset_rfl, rfl, subset_rfl, fun _ hr _ => hr⟩, rfl, fun v hv => ?_,
    nofun, fun r _ hr => ?_, fun _ hr _ => hr, fun _ hr _ => hr,
    fun _ hr => .inl hr⟩ trivial
  · have hvw : v ≠ w := by
      rintro rfl
      have hidle : (update s.phase v .idle v).holdsLease = true := hv
      rw [update_self] at hidle
      cases hidle
    have hheld : (update s.phase w .idle v).holdsLease = true := hv
    rw [update_of_ne hvw] at hheld
    exact absurd (h.eq_of_holdsLease hheld (by rw [hph]; rfl)) hvw
  · rw [hph] at hr
    cases hr

lemma addDirection (hph : s.phase w = .addingDirection slot after) :
    CapacityInvariant limit ((s.saddSlot (.of slot.direction) slot).enter w after.phase) := by
  obtain ⟨hroom, hafter⟩ := h.holderOk hph
  cases after with
  | restore row active slots =>
    exact h.holderEnter hph rfl rfl (.inl rfl) ⟨hafter.1, hafter.2, hroom⟩
  | store row => exact h.holderEnter hph rfl rfl (.inr rfl) ⟨hafter, hroom⟩
  | finish => exact h.holderEnter hph rfl rfl (.inl rfl) trivial

end

end CapacityInvariant

/-- A command of the holder of the slot lease keeps the invariant. -/
lemma capacityInvariant_holderCommand (h : CapacityInvariant limit s)
    (hholds : (s.phase w).holdsLease = true) (hapart : ApartOn s (s.phase w))
    (hcntd : ∀ row, s.phase w = .readingCapacity row → s.occupied ⊆ s.index .all)
    (hstep : s.command limit w answer = some t) : CapacityInvariant limit t := by
  have hholde := h.holder w
  unfold SignalSystem.command at hstep
  generalize hph : s.phase w = phase at hholds hapart hholde hstep
  cases phase with
  | readingCapacity row =>
    cases hstep
    refine h.holderEnter hph rfl ?_ (.inl rfl) ?_
    · split <;> rfl
    · split
      · rename_i hlt
        exact fun _ => room_of_counted (hcntd row hph) hlt
      · trivial
  | gating row =>
    dsimp only at hstep
    split at hstep
    · cases hstep
      exact h.holderEnter hph rfl rfl (.inl rfl) nofun
    · cases hstep
      exact h.holderEnter hph rfl rfl (.inl rfl) trivial
  | listing row =>
    cases hstep
    exact h.list hph
  | loading row ids active =>
    cases ids with
    | nil =>
      cases hstep
      exact h.loaded hph
    | cons r ids =>
      cases hstep
      exact h.load hph hapart
  | scanning row active =>
    dsimp only at hstep
    split at hstep
    · rename_i hkeys
      cases hstep
      refine h.holderEnter hph rfl rfl (.inl rfl) ⟨hholde, fun r hr hslot => ?_⟩
      have hmem := hkeys (mem_occupied.mpr ⟨r, hr, rfl⟩)
      exact absurd (mem_toFinset.mp hmem) hslot
    · cases hstep
  | sweepingRows row active keys =>
    cases keys with
    | nil =>
      cases hstep
      exact h.holderEnter hph rfl rfl (.inl rfl)
        ⟨hholde.1, fun r hr => hholde.2 r hr (not_mem_nil)⟩
    | cons slot keys =>
      cases hstep
      exact h.sweep hph
  | removingStale row active keys stale =>
    cases hstep
    exact h.removeStale hph
  | sweepingSlots row active keys =>
    cases keys with
    | nil =>
      cases hstep
      exact h.swept hph
    | cons key keys =>
      cases hstep
      exact h.holderEnter hph rfl rfl (.inl rfl)
        ⟨hholde.1, hholde.2, fun slot hslot => (Finset.mem_filter.mp hslot).2⟩
  | removingGone row active keys key gone =>
    cases hstep
    exact h.holderEnter hph rfl rfl (.inl rfl) ⟨hholde.1, hholde.2.1⟩
  | restoring row active slots =>
    cases slots with
    | nil =>
      cases hstep
      exact h.restored hph
    | cons slot slots =>
      cases hstep
      exact h.restore hph
  | addingRows slot rows after =>
    cases hstep
    exact h.addRows hph
  | addingSlot slot after =>
    cases hstep
    refine h.holderEnter hph rfl rfl (.inr ?_) hholde
    cases after <;> rfl
  | addingDirection slot after =>
    cases hstep
    exact h.addDirection hph
  | finding row allowed =>
    cases hstep
    refine h.holderEnter hph rfl ?_ (.inl rfl) ?_
    · split <;> rfl
    · split
      · trivial
      · exact hholde
  | countingCandidate row allowed =>
    cases hstep
    exact h.count hph
  | storingRow row =>
    cases hstep
    exact h.store hph
  | indexingRow row =>
    cases hstep
    exact h.book hph
  | unlocking =>
    simp only [Option.some.injEq] at hstep
    subst hstep
    exact h.unlock hph
  | _ => cases hholds

end CtsEngine
