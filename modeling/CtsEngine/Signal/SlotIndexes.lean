import CtsEngine.Signal.Capacity

/-!
# The sets of slots against the row sets

The set of all slots and the two sets of a direction are derived from the row sets by separate
commands, and saves that end rows work without the lease.  Each difference between a set of slots
and the row sets is the business of a call under way: an occupation that has added its rows and not
yet the slot, a release or a rebuild that is going to drop a slot without rows.
-/

namespace CtsEngine

open Finset List Function SignalSystem

variable {W : Type*}

/-- An occupation that has added its rows and is about to add the slot to the set. -/
def SignalPhase.addsTo : SignalPhase → SlotIndex → SignalSlot → Bool
  | .addingSlot slot' _, _, slot => decide (slot' = slot)
  | .addingDirection slot' _, key, slot => decide (key ≠ .all ∧ slot' = slot)
  | _, _, _ => false

/-- A release that has taken its row out and is about to count the rows of the slot. -/
def SignalPhase.countsSlot : SignalPhase → SignalSlot → Bool
  | .countingRows row stage, slot => decide (row.slotIn stage.direction = slot)
  | _, _ => false

/-- The slots whose rows are added again by the rest of a rebuild. -/
def AfterOccupy.restored : AfterOccupy → List SignalSlot
  | .restore _ _ slots => slots
  | .store _ | .finish => []

/-- A call that is going to drop the slot from the set, if the slot stays without rows, or to add
rows to it. -/
def SignalPhase.Settles : SignalPhase → SlotIndex → SignalSlot → Prop
  | .countingRows row stage, _, slot | .droppingSlot row stage, _, slot =>
    row.slotIn stage.direction = slot
  | .droppingDirection row stage, key, slot => key ≠ .all ∧ row.slotIn stage.direction = slot
  | .scanning _ _, _, _ | .sweepingRows _ _ _, _, _ | .removingStale _ _ _ _, _, _ => True
  | .sweepingSlots _ active keys, key, slot => key ∈ keys ∨ slot ∈ slotsOf active
  | .removingGone _ active keys key' gone, key, slot =>
    (key = key' ∧ slot ∈ gone) ∨ key ∈ keys ∨ slot ∈ slotsOf active
  | .restoring _ _ slots, _, slot => slot ∈ slots
  | .addingRows slot' _ after, _, slot => slot = slot' ∨ slot ∈ after.restored
  | .addingSlot _ after, _, slot | .addingDirection _ after, _, slot => slot ∈ after.restored
  | _, _, _ => False

/-- The invariant of the sets of slots. -/
structure SlotInvariant (s : SignalSystem W) : Prop where
  covers : ∀ key, ∀ slot ∈ s.index key, key.covers slot = true
  /-- A slot with rows is in its sets, or an occupation is about to add it. -/
  listed : ∀ key, ∀ slot ∈ s.occupied, key.covers slot = true →
    slot ∈ s.index key ∨ ∃ w, (s.phase w).addsTo key slot = true
  /-- A release drops only slots without rows. -/
  dropped : ∀ w, ∀ slot ∈ s.occupied, (s.phase w).dropsSlot slot = false
  /-- A slot without rows does not stay in a set. -/
  settled : ∀ key, ∀ slot ∈ s.index key, slot ∉ s.occupied → ∃ w, (s.phase w).Settles key slot
  /-- When a slot lost its rows in the middle of an occupation, a release will count them. -/
  counted : ∀ w, ∀ slot ∉ s.occupied, (s.phase w).addsSlot slot = true →
    ∃ v, (s.phase v).countsSlot slot = true

variable {limit : ℕ} {s t : SignalSystem W}

variable {phase : SignalPhase} {slot : SignalSlot} {key : SlotIndex}
  {openIndex active : List SignalRow} {w : W} {row : SignalRow}

lemma SignalPhase.settles_of_countsSlot (h : phase.countsSlot slot = true) :
    phase.Settles key slot := by
  cases phase with
  | countingRows row stage =>
    have hslot : decide (row.slotIn stage.direction = slot) = true := h
    change row.slotIn stage.direction = slot
    exact of_decide_eq_true hslot
  | _ => cases h

lemma SignalPhase.holdsLease_of_addsSlot (h : phase.addsSlot slot = true) :
    phase.holdsLease = true := by
  cases phase <;> first | rfl | cases h

lemma SignalPhase.holdsLease_of_addsTo (h : phase.addsTo key slot = true) :
    phase.holdsLease = true := by
  cases phase <;> first | rfl | cases h

variable {before : SignalPhase} [DecidableEq W]

/-- What a step of `w` has to respect, in terms of its phases before and after. -/
structure Respects (s t : SignalSystem W) (w : W) (phase : SignalPhase) : Prop where
  phase_eq : t.phase = update s.phase w phase
  covers : ∀ key, ∀ slot ∈ t.index key, slot ∈ s.index key ∨ key.covers slot = true
  listed : ∀ key, ∀ slot ∈ t.occupied, key.covers slot = true → slot ∈ t.index key ∨
    phase.addsTo key slot = true ∨
    (slot ∈ s.occupied ∧ slot ∉ s.index key ∧ (s.phase w).addsTo key slot = false)
  dropped : ∀ slot ∈ t.occupied, phase.dropsSlot slot = false ∧
    (slot ∈ s.occupied ∨ ∀ v, (s.phase v).dropsSlot slot = false)
  settled : ∀ key, ∀ slot ∈ t.index key, slot ∉ t.occupied → phase.Settles key slot ∨
    (slot ∈ s.index key ∧ slot ∉ s.occupied ∧ ¬ (s.phase w).Settles key slot) ∨
    ∃ v ≠ w, (s.phase v).Settles key slot
  counted : ∀ slot ∉ t.occupied, (∀ v, (t.phase v).addsSlot slot = false) ∨
    phase.countsSlot slot = true ∨
    (slot ∉ s.occupied ∧ (s.phase w).countsSlot slot = false ∧
      (phase.addsSlot slot = true → (s.phase w).addsSlot slot = true))

/-- **Frame rule.** The calls of the other workers go on settling what they settled. -/
lemma SlotInvariant.respects (h : SlotInvariant s) (w : W) (phase : SignalPhase)
    (hst : Respects s t w phase) : SlotInvariant t := by
  have hself : t.phase w = phase := by rw [hst.phase_eq, update_self]
  have hoth : ∀ v, v ≠ w → t.phase v = s.phase v := by
    intro v hv
    rw [hst.phase_eq, update_of_ne hv]
  refine ⟨fun key slot hslot => ?_, fun key slot hslot hcov => ?_, fun v slot hslot => ?_,
    fun key slot hslot hnone => ?_, fun v slot hnone hadds => ?_⟩
  · rcases hst.covers key slot hslot with hslot | hcov
    · exact h.covers key slot hslot
    · exact hcov
  · rcases hst.listed key slot hslot hcov with hin | hadds | ⟨hocc, hout, hquiet⟩
    · exact .inl hin
    · exact .inr ⟨w, by rw [hself]; exact hadds⟩
    · rcases h.listed key slot hocc hcov with hin | ⟨v, hv⟩
      · exact absurd hin hout
      · have hvw : v ≠ w := by
          rintro rfl
          rw [hquiet] at hv
          cases hv
        exact .inr ⟨v, by rw [hoth v hvw]; exact hv⟩
  · obtain ⟨hph, hbef⟩ := hst.dropped slot hslot
    by_cases hvw : v = w
    · rw [hvw, hself]
      exact hph
    · rw [hoth v hvw]
      rcases hbef with hocc | hnone
      · exact h.dropped v slot hocc
      · exact hnone v
  · rcases hst.settled key slot hslot hnone with hself' | ⟨hin, hout, hquiet⟩ | ⟨v, hvw, hv⟩
    · exact ⟨w, by rw [hself]; exact hself'⟩
    · obtain ⟨v, hv⟩ := h.settled key slot hin hout
      have hvw : v ≠ w := by
        rintro rfl
        exact hquiet hv
      exact ⟨v, by rw [hoth v hvw]; exact hv⟩
    · exact ⟨v, by rw [hoth v hvw]; exact hv⟩
  · rcases hst.counted slot hnone with hquiet | hcnts | ⟨hout, hquiet, hbef⟩
    · rw [hquiet v] at hadds
      cases hadds
    · exact ⟨w, by rw [hself]; exact hcnts⟩
    · have hsome : ∃ u, (s.phase u).addsSlot slot = true := by
        by_cases hvw : v = w
        · rw [hvw, hself] at hadds
          exact ⟨w, hbef hadds⟩
        · rw [hoth v hvw] at hadds
          exact ⟨v, hadds⟩
      obtain ⟨u, hu⟩ := hsome
      obtain ⟨x, hx⟩ := h.counted u slot hout hu
      have hxw : x ≠ w := by
        rintro rfl
        rw [hquiet] at hx
        cases hx
      exact ⟨x, by rw [hoth x hxw]; exact hx⟩

variable {lease : Option W} {verifyLock : Bool} {stored ended : Finset SignalRow}
  {answer : SignalAnswer}

lemma SlotInvariant.enter (h : SlotInvariant s) (hbef : s.phase w = before)
    (haddsTo : ∀ key slot, before.addsTo key slot = true → phase.addsTo key slot = true)
    (hadds : ∀ slot, phase.addsSlot slot = true → before.addsSlot slot = true)
    (hdrops : ∀ slot ∈ s.occupied, phase.dropsSlot slot = false)
    (hsett : ∀ key, ∀ slot ∈ s.index key, slot ∉ s.occupied →
      before.Settles key slot → phase.Settles key slot)
    (hcnts : ∀ slot ∉ s.occupied, before.countsSlot slot = true →
      ∀ v, (s.phase v).addsSlot slot = false) :
    SlotInvariant ({ s with lease, verifyLock, stored, openIndex, ended }.enter w phase) := by
  subst hbef
  refine h.respects w phase ⟨rfl, fun key slot hslot => .inl hslot,
    fun key slot hslot _ => ?_, fun slot hslot => ⟨hdrops slot hslot, .inl hslot⟩,
    fun key slot hslot hnone => ?_, fun slot hnone => ?_⟩
  · by_cases hin : slot ∈ s.index key
    · exact .inl hin
    · cases hph : (s.phase w).addsTo key slot with
      | true => exact .inr (.inl (haddsTo key slot hph))
      | false => exact .inr (.inr ⟨hslot, hin, rfl⟩)
  · by_cases hph : (s.phase w).Settles key slot
    · exact .inl (hsett key slot hslot hnone hph)
    · exact .inr (.inl ⟨hslot, hnone, hph⟩)
  · cases hph : (s.phase w).countsSlot slot with
    | true =>
      have hquiet := hcnts slot hnone hph
      refine .inl fun v => ?_
      change (update s.phase w phase v).addsSlot slot = false
      by_cases hvw : v = w
      · rw [hvw]
        by_contra hadd
        have hbef := hadds slot (by simpa using hadd)
        rw [hquiet w] at hbef
        cases hbef
      · rw [update_of_ne hvw]
        exact hquiet v
    | false => exact .inr (.inr ⟨hnone, rfl, hadds slot⟩)

lemma SlotInvariant.pass (h : SlotInvariant s)
    (hph : s.phase w = before)
    (hbef : ∀ key slot, before.addsTo key slot = false ∧ before.countsSlot slot = false)
    (hafter : ∀ slot, phase.addsSlot slot = false ∧ phase.dropsSlot slot = false)
    (hsett : ∀ key, ∀ slot ∈ s.index key, before.Settles key slot → phase.Settles key slot) :
    SlotInvariant ({ s with lease, verifyLock, stored, openIndex, ended }.enter w phase) := by
  refine h.enter hph (fun key slot hadds => ?_) (fun slot hadds => ?_)
    (fun slot _ => (hafter slot).2)
    (fun key slot hslot _ => hsett key slot hslot) (fun slot _ hcnts => ?_)
  · rw [(hbef key slot).1] at hadds
    cases hadds
  · rw [(hafter slot).1] at hadds
    cases hadds
  · rw [(hbef .all slot).2] at hcnts
    cases hcnts

lemma afterRelease_quiet (row : SignalRow) (stage : EndStage) (slot : SignalSlot) :
    (afterRelease row stage).addsSlot slot = false ∧
      (afterRelease row stage).dropsSlot slot = false := by
  cases stage <;> exact ⟨rfl, rfl⟩

omit [DecidableEq W] in
lemma SignalSystem.mem_sremSlots {gone : Finset SignalSlot} {key' : SlotIndex} :
    slot ∈ (s.sremSlots key gone).index key' ↔
      slot ∈ s.index key' ∧ ¬ (key' = key ∧ slot ∈ gone) := by
  simp only [sremSlots, update_apply]
  split
  · rename_i hkey
    rw [hkey]
    simp
  · rename_i hkey
    simp [hkey]

lemma SlotInvariant.drop (h : SlotInvariant s) (hbef : s.phase w = before)
    (hdrops : before.dropsSlot slot = true) (hcnts : ∀ slot', before.countsSlot slot' = false)
    (haddsTo : ∀ key' slot', before.addsTo key' slot' = false)
    (hadds : ∀ slot', phase.addsSlot slot' = false)
    (hph : ∀ slot', phase.dropsSlot slot' = true → slot' = slot)
    (hsett : ∀ key' slot', key'.covers slot' = true → before.Settles key' slot' →
      phase.Settles key' slot' ∨ (key' = key ∧ slot' = slot)) :
    SlotInvariant ((s.sremSlots key {slot}).enter w phase) := by
  subst hbef
  have hemp : slot ∉ s.occupied := by
    intro hslot
    rw [h.dropped w slot hslot] at hdrops
    cases hdrops
  have hidx : ∀ key' slot', slot' ∈ (s.sremSlots key {slot}).index key' ↔
      slot' ∈ s.index key' ∧ ¬ (key' = key ∧ slot' = slot) := by
    intro key' slot'
    rw [mem_sremSlots, Finset.mem_singleton]
  refine h.respects w phase ⟨rfl, fun key' slot' hslot' => ?_,
    fun key' slot' hslot' _ => ?_, fun slot' hslot' => ⟨?_, .inl hslot'⟩,
    fun key' slot' hslot' hnone => ?_, fun slot' hnone => ?_⟩
  · exact .inl ((hidx key' slot').mp hslot').1
  · by_cases hbef : slot' ∈ s.index key'
    · exact .inl ((hidx key' slot').mpr ⟨hbef, fun heq => hemp (heq.2 ▸ hslot')⟩)
    · exact .inr (.inr ⟨hslot', hbef, haddsTo key' slot'⟩)
  · by_contra hph'
    have heq := hph slot' (by simpa using hph')
    rw [heq] at hslot'
    exact hemp hslot'
  · obtain ⟨hbef, hne⟩ := (hidx key' slot').mp hslot'
    by_cases hw : (s.phase w).Settles key' slot'
    · rcases hsett key' slot' (h.covers key' slot' hbef) hw with hw | heq
      · exact .inl hw
      · exact absurd heq hne
    · exact .inr (.inl ⟨hbef, hnone, hw⟩)
  · refine .inr (.inr ⟨hnone, hcnts slot', fun hadd => ?_⟩)
    rw [hadds slot'] at hadd
    cases hadd

/-- Removing a row keeps the slot indexes right. -/
lemma SlotInvariant.removeRow {stage : EndStage} (h : SlotInvariant s)
    (hph : s.phase w = .removingRow row stage) :
    SlotInvariant ({ s with
      members := if row.slotIn stage.direction = row.slot then s.members.erase row
        else s.members }.enter w (.countingRows row stage)) := by
  have hsub : ∀ slot ∈ ({ s with
      members := if row.slotIn stage.direction = row.slot then s.members.erase row
        else s.members } : SignalSystem W).occupied, slot ∈ s.occupied := by
    intro slot hslot
    obtain ⟨r, hr, rfl⟩ := mem_occupied.mp hslot
    refine mem_occupied.mpr ⟨r, ?_, rfl⟩
    split at hr
    · exact Finset.mem_of_mem_erase hr
    · exact hr
  -- only the slot that is counted next can have lost its rows
  have hkept : ∀ slot ∈ s.occupied, slot ≠ row.slotIn stage.direction → slot ∈ ({ s with
      members := if row.slotIn stage.direction = row.slot then s.members.erase row
        else s.members } : SignalSystem W).occupied := by
    intro slot hslot hne
    obtain ⟨r, hr, rfl⟩ := mem_occupied.mp hslot
    refine mem_occupied.mpr ⟨r, ?_, rfl⟩
    split
    · rename_i hown
      refine Finset.mem_erase.mpr ⟨?_, hr⟩
      rintro rfl
      exact hne hown.symm
    · exact hr
  refine h.respects w (.countingRows row stage) ⟨rfl,
    fun key slot hslot => .inl hslot, fun key slot hslot _ => ?_,
    fun slot hslot => ⟨rfl, .inl (hsub slot hslot)⟩, fun key slot hslot hnone => ?_,
    fun slot hnone => ?_⟩
  · by_cases hin : slot ∈ s.index key
    · exact .inl hin
    · exact .inr (.inr ⟨hsub slot hslot, hin, by rw [hph]; rfl⟩)
  · by_cases heq : slot = row.slotIn stage.direction
    · exact .inl heq.symm
    · refine .inr (.inl ⟨hslot, fun hocc => hnone (hkept slot hocc heq), ?_⟩)
      rw [hph]
      exact id
  · by_cases heq : slot = row.slotIn stage.direction
    · exact .inr (.inl (decide_eq_true heq.symm))
    · refine .inr (.inr ⟨fun hocc => hnone (hkept slot hocc heq), ?_, ?_⟩)
      · rw [hph]
        rfl
      · exact nofun

lemma SlotIndex.eq_of_covers (key : SlotIndex) (hkey : key ≠ .all) (hcov : key.covers slot = true) :
    key = .of slot.direction := by
  cases key with
  | all => exact absurd rfl hkey
  | of direction =>
    have hdir : slot.direction = direction := of_decide_eq_true hcov
    rw [hdir]

/-- A command of an end keeps the slot indexes right. -/
lemma slotInvariant_endCommand (h : SlotInvariant s)
    (hrow : (s.phase w).endedRow = some row) (hapart : ApartOn s (s.phase w))
    (hstep : s.command limit w answer = some t) : SlotInvariant t := by
  unfold SignalSystem.command at hstep
  generalize hph : s.phase w = phase at hrow hapart hstep
  cases phase with
  | removingRow row' stage =>
    cases hstep
    exact h.removeRow hph
  | countingRows row' stage =>
    cases hstep
    refine h.enter hph (fun key slot hadds => ?_) (fun slot hadds => ?_) (fun slot hslot => ?_)
      (fun key slot _ hnone hsett => ?_) (fun slot hnone hcnts => ?_)
    · cases hadds
    · split at hadds
      · rw [(afterRelease_quiet row' stage slot).1] at hadds
        cases hadds
      · cases hadds
    · split
      · exact (afterRelease_quiet row' stage slot).2
      · rename_i hemp
        have hne : row'.slotIn stage.direction ≠ slot := by
          rintro rfl
          exact hemp hslot
        exact decide_eq_false hne
    · obtain rfl : row'.slotIn stage.direction = slot := hsett
      rw [if_neg hnone]
      rfl
    · obtain rfl : row'.slotIn stage.direction = slot := of_decide_eq_true hcnts
      exact hapart hnone
  | droppingSlot row' stage =>
    cases hstep
    refine h.drop hph (decide_eq_true rfl) (fun _ => rfl) (fun _ _ => rfl)
      (fun _ => rfl) (fun slot hslot => (of_decide_eq_true hslot).symm)
      (fun key slot _ hsett => ?_)
    · have hslot : row'.slotIn stage.direction = slot := hsett
      by_cases hkey : key = .all
      · exact .inr ⟨hkey, hslot.symm⟩
      · exact .inl ⟨hkey, hslot⟩
  | droppingDirection row' stage =>
    cases hstep
    refine h.drop hph (decide_eq_true rfl) (fun _ => rfl) (fun _ _ => rfl)
      (fun slot => (afterRelease_quiet row' stage slot).1) (fun slot hslot => ?_)
      (fun key slot hcov hsett => ?_)
    · rw [(afterRelease_quiet row' stage slot).2] at hslot
      cases hslot
    · obtain ⟨hkey, rfl⟩ : key ≠ .all ∧ row'.slotIn stage.direction = slot := hsett
      exact .inr ⟨key.eq_of_covers hkey hcov, rfl⟩
  | endingRow row' | leavingIndex row' =>
    cases hstep
    exact h.pass hph (fun _ _ => ⟨rfl, rfl⟩) (fun _ => ⟨rfl, rfl⟩) (fun _ _ _ => False.elim)
  | _ => cases hrow

variable {after : AfterOccupy}

lemma SlotInvariant.addRows {rows : List SignalRow} (h : SlotInvariant s)
    (hph : s.phase w = .addingRows slot rows after) (hne : rows ≠ [])
    (hrows : ∀ r ∈ rows, r.slot = slot) (hapart : ∀ v, (s.phase v).dropsSlot slot = false) :
    SlotInvariant ((s.saddRows rows).enter w (.addingSlot slot after)) := by
  have hocc : ∀ slot', slot' ∈ (s.saddRows rows).occupied ↔ slot' = slot ∨ slot' ∈ s.occupied := by
    intro slot'
    constructor
    · intro hslot'
      obtain ⟨r, hr, rfl⟩ := mem_occupied.mp hslot'
      rcases mem_union.mp hr with hr | hr
      · exact .inr (mem_occupied.mpr ⟨r, hr, rfl⟩)
      · exact .inl (hrows r (mem_toFinset.mp hr))
    · rintro (rfl | hslot')
      · obtain ⟨r, hr⟩ := exists_mem_of_ne_nil rows hne
        have hmem := Finset.mem_union_right s.members (mem_toFinset.mpr hr)
        exact mem_occupied.mpr ⟨r, hmem, hrows r hr⟩
      · obtain ⟨r, hr, rfl⟩ := mem_occupied.mp hslot'
        exact mem_occupied.mpr ⟨r, Finset.mem_union_left _ hr, rfl⟩
  refine h.respects w (.addingSlot slot after) ⟨rfl,
    fun key slot' hslot' => .inl hslot', fun key slot' hslot' _ => ?_,
    fun slot' hslot' => ⟨rfl, ?_⟩, fun key slot' hslot' hnone => ?_, fun slot' hnone => ?_⟩
  · rcases (hocc slot').mp hslot' with rfl | hbef
    · exact .inr (.inl (decide_eq_true rfl))
    · by_cases hin : slot' ∈ s.index key
      · exact .inl hin
      · exact .inr (.inr ⟨hbef, hin, by rw [hph]; rfl⟩)
  · rcases (hocc slot').mp hslot' with rfl | hbef
    · exact .inr hapart
    · exact .inl hbef
  · have hout : ¬ (slot' = slot ∨ slot' ∈ s.occupied) := fun hin => hnone ((hocc slot').mpr hin)
    by_cases hrest : slot' ∈ after.restored
    · exact .inl hrest
    · refine .inr (.inl ⟨hslot', fun hin => hout (.inr hin), ?_⟩)
      rw [hph]
      rintro (heq | hin)
      · exact hout (.inl heq)
      · exact hrest hin
  · have hout : ¬ (slot' = slot ∨ slot' ∈ s.occupied) := fun hin => hnone ((hocc slot').mpr hin)
    refine .inr (.inr ⟨fun hin => hout (.inr hin), by rw [hph]; rfl, fun hadds => ?_⟩)
    exact absurd (of_decide_eq_true hadds).symm fun heq => hout (.inl heq)

/-- Adding an occupied slot keeps the slot indexes right. -/
lemma SlotInvariant.addSlot (h : SlotInvariant s) (hbef : s.phase w = before)
    (hcov : key.covers slot = true) (hadds : before.addsSlot slot = true)
    (hcnts : ∀ slot', before.countsSlot slot' = false)
    (haddsTo : ∀ key' slot', key'.covers slot' = true → before.addsTo key' slot' = true →
      phase.addsTo key' slot' = true ∨ (key' = key ∧ slot' = slot))
    (hph : ∀ slot', phase.addsSlot slot' = true → before.addsSlot slot' = true)
    (hdrops : ∀ slot', phase.dropsSlot slot' = false)
    (hsett : ∀ key' slot', before.Settles key' slot' → phase.Settles key' slot') :
    SlotInvariant ((s.saddSlot key slot).enter w phase) := by
  subst hbef
  have hidx : ∀ key' slot', slot' ∈ (s.saddSlot key slot).index key' ↔
      (key' = key ∧ slot' = slot) ∨ slot' ∈ s.index key' := by
    intro key' slot'
    simp only [saddSlot, update_apply]
    split
    · rename_i hkey
      rw [hkey]
      simp
    · rename_i hkey
      simp [hkey]
  refine h.respects w phase ⟨rfl, fun key' slot' hslot' => ?_,
    fun key' slot' hslot' hcov' => ?_, fun slot' hslot' => ⟨hdrops slot', .inl hslot'⟩,
    fun key' slot' hslot' hnone => ?_, fun slot' hnone => ?_⟩
  · rcases (hidx key' slot').mp hslot' with ⟨rfl, rfl⟩ | hbef
    · exact .inr hcov
    · exact .inl hbef
  · by_cases hin : slot' ∈ (s.saddSlot key slot).index key'
    · exact .inl hin
    · have hout : slot' ∉ s.index key' := fun hbef => hin ((hidx key' slot').mpr (.inr hbef))
      cases hbef : (s.phase w).addsTo key' slot' with
      | true =>
        rcases haddsTo key' slot' hcov' hbef with hph' | heq
        · exact .inr (.inl hph')
        · exact absurd ((hidx key' slot').mpr (.inl heq)) hin
      | false => exact .inr (.inr ⟨hslot', hout, rfl⟩)
  · by_cases hw : (s.phase w).Settles key' slot'
    · exact .inl (hsett key' slot' hw)
    · rcases (hidx key' slot').mp hslot' with ⟨rfl, rfl⟩ | hbef
      · -- the slot lost its rows since they were added
        obtain ⟨v, hv⟩ := h.counted w slot' hnone hadds
        refine .inr (.inr ⟨v, ?_, SignalPhase.settles_of_countsSlot hv⟩)
        rintro rfl
        rw [hcnts slot'] at hv
        cases hv
      · exact .inr (.inl ⟨hbef, hnone, hw⟩)
  · exact .inr (.inr ⟨hnone, hcnts slot', hph slot'⟩)

lemma SlotInvariant.removeStale {keys : List SignalSlot} {stale : Finset SignalRow}
    (h : SlotInvariant s) (hcapac : CapacityInvariant limit s)
    (hph : s.phase w = .removingStale row active keys stale) :
    SlotInvariant ({ s with members := s.members \ stale }.enter w
      (.sweepingRows row active keys)) := by
  have hholds : (s.phase w).holdsLease = true := by rw [hph]; rfl
  have hsub : ∀ slot ∈ ({ s with members := s.members \ stale } : SignalSystem W).occupied,
      slot ∈ s.occupied := by
    intro slot hslot
    obtain ⟨r, hr, rfl⟩ := mem_occupied.mp hslot
    exact mem_occupied.mpr ⟨r, (mem_sdiff.mp hr).1, rfl⟩
  refine h.respects w (.sweepingRows row active keys) ⟨rfl,
    fun key slot hslot => .inl hslot, fun key slot hslot _ => ?_,
    fun slot hslot => ⟨rfl, .inl (hsub slot hslot)⟩, fun key slot _ _ => .inl trivial,
    fun slot _ => .inl fun v => ?_⟩
  · by_cases hin : slot ∈ s.index key
    · exact .inl hin
    · exact .inr (.inr ⟨hsub slot hslot, hin, by rw [hph]; rfl⟩)
  · -- no occupation is under way: the rebuild holds the lease
    change (update s.phase w (.sweepingRows row active keys) v).addsSlot slot = false
    by_cases hvw : v = w
    · rw [hvw, update_self]
      rfl
    · rw [update_of_ne hvw]
      by_contra hadds
      have hholds' := SignalPhase.holdsLease_of_addsSlot (by simpa using hadds)
      exact hvw (hcapac.eq_of_holdsLease hholds' hholds)

lemma SlotInvariant.removeGone {keys : List SlotIndex} {gone : Finset SignalSlot}
    (h : SlotInvariant s) (hcapac : CapacityInvariant limit s)
    (hph : s.phase w = .removingGone row active keys key gone) :
    SlotInvariant ((s.sremSlots key gone).enter w (.sweepingSlots row active keys)) := by
  have hholde := hcapac.holder w
  rw [hph] at hholde
  obtain ⟨-, hmems, hgone⟩ := hholde
  refine h.respects w (.sweepingSlots row active keys) ⟨rfl,
    fun key' slot hslot => .inl (mem_sremSlots.mp hslot).1,
    fun key' slot hslot hcov => ?_, fun slot hslot => ⟨rfl, .inl hslot⟩,
    fun key' slot hslot hnone => ?_, fun slot hnone => ?_⟩
  · by_cases hin : slot ∈ s.index key'
    · refine .inl (mem_sremSlots.mpr ⟨hin, ?_⟩)
      rintro ⟨rfl, hslot'⟩
      have hact := occupied_subset_slotsOf hmems hslot
      rcases hgone slot hslot' with hout | hout
      · exact hout (mem_toFinset.mp hact)
      · rw [hcov] at hout
        cases hout
    · exact .inr (.inr ⟨hslot, hin, by rw [hph]; rfl⟩)
  · obtain ⟨hin, hkept⟩ := mem_sremSlots.mp hslot
    by_cases hw : (s.phase w).Settles key' slot
    · rw [hph] at hw
      rcases hw with hdrop | hrest
      · exact absurd hdrop hkept
      · exact .inl hrest
    · exact .inr (.inl ⟨hin, hnone, hw⟩)
  · exact .inr (.inr ⟨hnone, by rw [hph]; rfl, nofun⟩)

lemma AfterOccupy.phase_spec (after : AfterOccupy) (key : SlotIndex) (slot : SignalSlot) :
    after.phase.addsSlot slot = false ∧ after.phase.dropsSlot slot = false ∧
      (slot ∈ after.restored → after.phase.Settles key slot) := by
  cases after with
  | restore row active slots => exact ⟨rfl, rfl, id⟩
  | store row | finish => exact ⟨rfl, rfl, nofun⟩

lemma SlotInvariant.addAll (h : SlotInvariant s)
    (hph : s.phase w = .addingSlot slot after) :
    SlotInvariant ((s.saddSlot .all slot).enter w (.addingDirection slot after)) := by
  refine h.addSlot hph rfl (decide_eq_true rfl) (fun _ => rfl) (fun key slot' _ hadds => ?_)
    (fun _ hadds => ?_) (fun _ => rfl) (fun _ _ hsett => ?_)
  · obtain rfl : slot = slot' := of_decide_eq_true hadds
    by_cases hkey : key = .all
    · exact .inr ⟨hkey, rfl⟩
    · exact .inl (decide_eq_true ⟨hkey, rfl⟩)
  · exact hadds
  · exact hsett

lemma SlotInvariant.addDirection (h : SlotInvariant s)
    (hph : s.phase w = .addingDirection slot after) :
    SlotInvariant ((s.saddSlot (.of slot.direction) slot).enter w after.phase) := by
  refine h.addSlot hph (decide_eq_true rfl) (decide_eq_true rfl) (fun _ => rfl)
    (fun key slot' hcov hadds => ?_) (fun slot' hadds => ?_)
    (fun slot' => (after.phase_spec .all slot').2.1) (fun key slot' hsett => ?_)
  · obtain ⟨hkey, rfl⟩ : key ≠ .all ∧ slot = slot' := of_decide_eq_true hadds
    exact .inr ⟨key.eq_of_covers hkey hcov, rfl⟩
  · rw [(after.phase_spec .all slot').1] at hadds
    cases hadds
  · exact (after.phase_spec key slot').2.2 hsett

/-- A slot that the sweep does not list is active. -/
lemma SlotInvariant.listGone {keys : List SlotIndex} (h : SlotInvariant s)
    (hph : s.phase w = .sweepingSlots row active (key :: keys)) :
    SlotInvariant (s.enter w (.removingGone row active keys key
      ((s.index key).filter fun slot => slot ∉ slotsOf active ∨ key.covers slot = false))) := by
  refine h.pass hph (fun _ _ => ⟨rfl, rfl⟩) (fun _ => ⟨rfl, rfl⟩)
    (fun key' slot hslot hsett => ?_)
  rcases hsett with hkey | hact
  · rcases mem_cons.mp hkey with rfl | hkey
    · by_cases hact : slot ∈ slotsOf active
      · exact .inr (.inr hact)
      · exact .inl ⟨rfl, Finset.mem_filter.mpr ⟨hslot, .inl hact⟩⟩
    · exact .inr (.inl hkey)
  · exact .inr (.inr hact)

/-- A command of the lease holder keeps the slot indexes right. -/
lemma slotInvariant_holderCommand (h : SlotInvariant s)
    (hcapac : CapacityInvariant limit s) (hholds : (s.phase w).holdsLease = true)
    (hapart : ApartOn s (s.phase w)) (hstep : s.command limit w answer = some t) :
    SlotInvariant t := by
  unfold SignalSystem.command at hstep
  generalize hph : s.phase w = phase at hholds hapart hstep
  cases phase with
  | readingCapacity row | finding row allowed | countingCandidate row allowed =>
    cases hstep
    refine h.pass hph (fun _ _ => ⟨rfl, rfl⟩) (fun _ => ?_) (fun _ _ _ => False.elim)
    split <;> exact ⟨rfl, rfl⟩
  | gating row =>
    dsimp only at hstep
    split at hstep
    all_goals
      cases hstep
      exact h.pass hph (fun _ _ => ⟨rfl, rfl⟩) (fun _ => ⟨rfl, rfl⟩) (fun _ _ _ => False.elim)
  | listing row | storingRow row | indexingRow row | unlocking =>
    cases hstep
    exact h.pass hph (fun _ _ => ⟨rfl, rfl⟩) (fun _ => ⟨rfl, rfl⟩) (fun _ _ _ => False.elim)
  | loading row ids active =>
    cases ids with
    | nil | cons r ids =>
      cases hstep
      exact h.pass hph (fun _ _ => ⟨rfl, rfl⟩) (fun _ => ⟨rfl, rfl⟩) (fun _ _ _ => False.elim)
  | addingRows slot rows after =>
    have hholde := hcapac.holder w
    rw [hph] at hholde
    cases hstep
    exact h.addRows hph hholde.1 hholde.2.1 hapart
  | addingSlot slot after =>
    cases hstep
    exact h.addAll hph
  | addingDirection slot after =>
    cases hstep
    exact h.addDirection hph
  | removingStale row active keys stale =>
    cases hstep
    exact h.removeStale hcapac hph
  | removingGone row active keys key gone =>
    cases hstep
    exact h.removeGone hcapac hph
  | scanning row active =>
    dsimp only at hstep
    split at hstep
    · cases hstep
      exact h.pass hph (fun _ _ => ⟨rfl, rfl⟩) (fun _ => ⟨rfl, rfl⟩) (fun _ _ _ _ => trivial)
    · cases hstep
  | sweepingRows row active keys =>
    cases keys with
    | nil =>
      cases hstep
      refine h.pass hph (fun _ _ => ⟨rfl, rfl⟩) (fun _ => ⟨rfl, rfl⟩) (fun key _ _ _ => .inl ?_)
      -- all three sets are swept next
      rcases key with _ | _ | _ <;> simp
    | cons slot keys =>
      cases hstep
      exact h.pass hph (fun _ _ => ⟨rfl, rfl⟩) (fun _ => ⟨rfl, rfl⟩) (fun _ _ _ _ => trivial)
  | sweepingSlots row active keys =>
    cases keys with
    | nil =>
      cases hstep
      refine h.pass hph (fun _ _ => ⟨rfl, rfl⟩) (fun _ => ⟨rfl, rfl⟩) (fun key slot _ hsett => ?_)
      rcases hsett with hkey | hslot
      · cases hkey
      · exact hslot
    | cons key keys =>
      cases hstep
      exact h.listGone hph
  | restoring row active slots =>
    cases slots with
    | nil =>
      cases hstep
      exact h.pass hph (fun _ _ => ⟨rfl, rfl⟩) (fun _ => ⟨rfl, rfl⟩) nofun
    | cons slot slots =>
      cases hstep
      refine h.pass hph (fun _ _ => ⟨rfl, rfl⟩) (fun _ => ⟨rfl, rfl⟩) (fun _ _ _ hsett => ?_)
      exact mem_cons.mp hsett
  | _ => cases hholds

end CtsEngine
