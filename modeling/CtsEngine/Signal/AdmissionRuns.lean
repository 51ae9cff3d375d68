import CtsEngine.Signal.SlotIndexes

/-!
# Runs of reservations and ending saves

Over any interleaving in which the calls do not meet on a slot, the sets of slots follow the row
sets and the slots with an active row stay within the limit.  The three ways in which calls can meet
on a slot break this.
-/

namespace CtsEngine

open Option Transition Finset SignalPhase

variable {W : Type*} {limit : ℕ} {s t : SignalSystem W}

/-- What the admission of Signal positions is for. -/
structure CapacityKept (limit : ℕ) (s : SignalSystem W) : Prop where
  /-- A slot with rows is in the set of all slots, unless an occupation is between the `SADD` of
  its rows and the one of the slot. -/
  listed : ∀ slot ∈ s.occupied, slot ∈ s.index .all ∨ ∃ w after, s.phase w = .addingSlot slot after
  /-- The slots with an active row stay within the limit. -/
  within : (s.active.image SignalRow.slot).card ≤ limit
  /-- When all calls have finished, the sets of slots hold the slots with rows. -/
  settled : (∀ w, s.phase w = .idle) → ∀ key slot,
    slot ∈ s.index key ↔ key.covers slot = true ∧ slot ∈ s.occupied

/-- The two invariants together. -/
structure SignalInvariant (limit : ℕ) (s : SignalSystem W) : Prop where
  capacity : CapacityInvariant limit s
  slots : SlotInvariant s

lemma signalInvariant_start : SignalInvariant limit (SignalSystem.start : SignalSystem W) where
  capacity :=
    { lease := nofun
      ended := nofun
      holder := fun _ => trivial
      members := nofun
      booked := nofun
      listed := nofun
      room := Nat.zero_le limit }
  slots :=
    { covers := nofun
      listed := nofun
      dropped := fun _ _ _ => rfl
      settled := nofun
      counted := nofun }

lemma SignalInvariant.capacityKept (h : SignalInvariant limit s) : CapacityKept limit s where
  listed slot hslot := by
    rcases h.slots.listed .all slot hslot rfl with hin | ⟨w, hw⟩
    · exact .inl hin
    · refine .inr ⟨w, ?_⟩
      cases hph : s.phase w with
      | addingSlot slot' after =>
        rw [hph] at hw
        obtain rfl : slot' = slot := of_decide_eq_true hw
        exact ⟨after, rfl⟩
      | addingDirection slot' after =>
        rw [hph] at hw
        have hkey : decide (SlotIndex.all ≠ .all ∧ slot' = slot) = true := hw
        exact absurd rfl (of_decide_eq_true hkey).1
      | _ =>
        rw [hph] at hw
        cases hw
  within :=
    (card_le_card (image_subset_image fun r hr => h.capacity.members r hr)).trans
      h.capacity.room
  settled hidle key slot := by
    constructor
    · intro hin
      refine ⟨h.slots.covers key slot hin, ?_⟩
      by_contra hout
      obtain ⟨w, hw⟩ := h.slots.settled key slot hin hout
      rw [hidle w] at hw
      exact hw
    · rintro ⟨hcov, hocc⟩
      rcases h.slots.listed key slot hocc hcov with hin | ⟨w, hw⟩
      · exact hin
      · rw [hidle w] at hw
        cases hw

variable {row : SignalRow} {phase : SignalPhase}

lemma SignalInvariant.occupied_subset_index {w : W} (h : SignalInvariant limit s)
    (hph : s.phase w = .readingCapacity row) : s.occupied ⊆ s.index .all := by
  intro slot hslot
  rcases h.slots.listed .all slot hslot rfl with hin | ⟨v, hv⟩
  · exact hin
  · -- an occupation under way would hold the lease as well
    have hholds : (s.phase w).holdsLease = true := by rw [hph]; rfl
    have hadds := holdsLease_of_addsTo hv
    obtain rfl := h.capacity.eq_of_holdsLease hadds hholds
    rw [hph] at hv
    cases hv

variable [DecidableEq W]

lemma SignalPhase.idle_or_locking (hholds : phase.holdsLease = false)
    (hended : phase.endedRow = none) : phase = .idle ∨ ∃ row, phase = .locking row := by
  cases phase with
  | idle => exact .inl rfl
  | locking row => exact .inr ⟨row, rfl⟩
  | removingRow row stage | countingRows row stage | droppingSlot row stage
  | droppingDirection row stage | endingRow row | leavingIndex row => cases hended
  | _ => cases hholds

variable {w : W} {answer : SignalAnswer}

lemma SlotInvariant.stepQuiet {lease : Option W} {ended : Finset SignalRow}
    (h : SlotInvariant s) (hbef : s.phase w = .idle ∨ ∃ row, s.phase w = .locking row)
    (hafter : ∀ slot, phase.addsSlot slot = false ∧ phase.dropsSlot slot = false) :
    SlotInvariant ({ s with lease := lease, ended := ended }.enter w phase) := by
  rcases hbef with hph | ⟨row, hph⟩
  all_goals
    refine h.pass hph (fun _ _ => ⟨rfl, rfl⟩) hafter (fun _ _ _ hsett => ?_)
    cases hsett

lemma signalInvariant_lock (h : SignalInvariant limit s)
    (hph : s.phase w = .locking row) (hstep : s.command limit w answer = some t) :
    SignalInvariant limit t := by
  simp only [SignalSystem.command, hph] at hstep
  split at hstep
  · rename_i hfree
    cases hstep
    refine ⟨h.capacity.moves ⟨⟨subset_rfl, rfl, subset_rfl, fun _ hr _ => hr⟩, rfl,
      fun v hv => ?_, nofun, fun r _ hr => ?_, fun _ hr _ => hr,
      fun _ hr _ => hr, fun _ hr => .inl hr⟩ trivial,
      h.slots.stepQuiet (.inr ⟨row, hph⟩) fun _ => ⟨rfl, rfl⟩⟩
    · by_cases hvw : v = w
      · rw [hvw]
        rfl
      · have hheld : (Function.update s.phase w (.readingCapacity row) v).holdsLease = true := hv
        rw [Function.update_of_ne hvw] at hheld
        have hlease := h.capacity.lease v hheld
        rw [hfree] at hlease
        cases hlease
    · rw [hph] at hr
      cases hr
  · cases hstep
    refine ⟨h.capacity.enter (fun hholds => ?_) (fun r hr => ?_) (fun r hr => ?_) ?_,
      h.slots.stepQuiet (.inr ⟨row, hph⟩) fun _ => ?_⟩
    · split at hholds <;> cases hholds
    · split at hr <;> cases hr
    · rw [hph] at hr
      cases hr
    · split <;> trivial
    · split <;> exact ⟨rfl, rfl⟩

lemma signalInvariant_command (h : SignalInvariant limit s)
    (hapart : ApartOn s (s.phase w)) (hstep : s.command limit w answer = some t) :
    SignalInvariant limit t := by
  cases hholds : (s.phase w).holdsLease with
  | true =>
    have hcntd : ∀ row, s.phase w = .readingCapacity row → s.occupied ⊆ s.index .all :=
      fun row hph => h.occupied_subset_index hph
    exact ⟨capacityInvariant_holderCommand h.capacity hholds hapart hcntd hstep,
      slotInvariant_holderCommand h.slots h.capacity hholds hapart hstep⟩
  | false =>
    cases hended : (s.phase w).endedRow with
    | some row =>
      exact ⟨capacityInvariant_endCommand h.capacity hended hstep,
        slotInvariant_endCommand h.slots hended hapart hstep⟩
    | none =>
      rcases idle_or_locking hholds hended with hph | ⟨row, hph⟩
      · simp only [SignalSystem.command, hph] at hstep
        cases hstep
      · exact signalInvariant_lock h hph hstep

lemma signalInvariant_endPosition (h : SignalInvariant limit s) (hph : s.phase w = .idle) :
    SignalInvariant limit
      ({ s with ended := insert row s.ended }.enter w (.removingRow row .firstLong)) := by
  have hrec : Receding s
      ({ s with ended := insert row s.ended }.enter w (.removingRow row .firstLong)) :=
    ⟨subset_rfl, rfl, subset_insert row s.ended, fun _ hr _ => hr⟩
  refine ⟨h.capacity.moves ⟨hrec, rfl, h.capacity.lease_update nofun,
    fun r hr => ?_, fun r _ hr => ?_, fun _ hr _ => hr, fun _ hr _ => hr, fun _ hr => .inl hr⟩
    trivial, h.slots.stepQuiet (.inl hph) fun _ => ⟨rfl, rfl⟩⟩
  · cases hr
    exact mem_insert_self ..
  · rw [hph] at hr
    cases hr

lemma signalInvariant_step {a : SignalAction W} (h : SignalInvariant limit s)
    (hapart : CallsApart s a) (hstep : signalStep limit s a = some t) :
    SignalInvariant limit t := by
  cases a with
  | reserve w row =>
    cases hph : s.phase w with
    | idle =>
      simp only [signalStep, hph] at hstep
      split at hstep
      · cases hstep
      · cases hstep
        refine ⟨h.capacity.enter nofun nofun
          (fun r hr => ?_) trivial, h.slots.stepQuiet (.inl hph) fun _ => ⟨rfl, rfl⟩⟩
        rw [hph] at hr
        cases hr
    | _ =>
      simp only [signalStep, hph] at hstep
      cases hstep
  | endPosition w row =>
    cases hph : s.phase w with
    | idle =>
      simp only [signalStep, hph, some.injEq] at hstep
      subst hstep
      exact signalInvariant_endPosition h hph
    | _ =>
      simp only [signalStep, hph] at hstep
      cases hstep
  | command w answer => exact signalInvariant_command h hapart hstep
  | expireVerifyLock =>
    cases hstep
    exact ⟨⟨h.capacity.lease, h.capacity.ended, fun w => (h.capacity.holder w).stable
        ⟨subset_rfl, rfl, subset_rfl, fun _ hr _ => hr⟩,
        h.capacity.members, h.capacity.booked, h.capacity.listed, h.capacity.room⟩,
      ⟨h.slots.covers, h.slots.listed, h.slots.dropped, h.slots.settled, h.slots.counted⟩⟩

/-- **Capacity.** In every interleaving of reservations and ending saves in which the calls do not
meet on a slot, the sets of slots follow the row sets and the slots stay within the limit. -/
theorem signal_capacity_of_callsApart (configuredLimit : Option ℚ) {acts : List (SignalAction W)}
    {t : SignalSystem W}
    (hm : Meets (signalStep (normalizeSignalMaxPositions configuredLimit)) CallsApart .start acts)
    (hr : run (signalStep (normalizeSignalMaxPositions configuredLimit)) .start acts = some t) :
    CapacityKept (normalizeSignalMaxPositions configuredLimit) t :=
  (invariant_of_meets (fun _ _ _ h hapart hstep => signalInvariant_step h hapart hstep)
    signalInvariant_start hm hr).capacityKept

/-- Whether a call meets another one is decided by looking at all workers. -/
instance decidableApartOn {W : Type*} [Fintype W] (s : SignalSystem W) :
    ∀ phase, Decidable (ApartOn s phase)
  | .addingRows slot _ _ => inferInstanceAs (Decidable (∀ v, (s.phase v).dropsSlot slot = false))
  | .countingRows row stage => inferInstanceAs (Decidable (row.slotIn stage.direction ∉ s.occupied →
      ∀ v, (s.phase v).addsSlot (row.slotIn stage.direction) = false))
  | .loading _ (r :: _) _ => inferInstanceAs (Decidable (r ∈ s.stored → r ∉ s.ended))
  | .loading _ [] _ | .idle | .removingRow _ _ | .droppingSlot _ _ | .droppingDirection _ _
  | .endingRow _ | .leavingIndex _ | .locking _ | .readingCapacity _ | .gating _ | .listing _
  | .scanning _ _ | .sweepingRows _ _ _ | .removingStale _ _ _ _ | .sweepingSlots _ _ _
  | .removingGone _ _ _ _ _ | .restoring _ _ _ | .addingSlot _ _ | .addingDirection _ _
  | .finding _ _ | .countingCandidate _ _ | .storingRow _ | .indexingRow _ | .unlocking =>
    isTrue trivial

instance decidableCallsApart {W : Type*} [Fintype W] (s : SignalSystem W) :
    ∀ a, Decidable (CallsApart s a)
  | .command w _ => inferInstanceAs (Decidable (ApartOn s (s.phase w)))
  | .reserve _ _ | .endPosition _ _ | .expireVerifyLock => isTrue trivial

/-- The next `n` commands of a worker. -/
def commandsOf (w : Bool) (n : ℕ) : List (SignalAction Bool) := List.replicate n (.command w {})

/-- A row is reserved, and while its ending save has taken it out of the row set and not counted the
rows, another row is reserved on the slot. -/
def replacedRow : List (SignalAction Bool) :=
  .reserve false ⟨"first", "BTC-USDT", .long⟩ :: commandsOf false 13 ++
  .endPosition true ⟨"first", "BTC-USDT", .long⟩ :: commandsOf true 1 ++
  .reserve false ⟨"second", "BTC-USDT", .long⟩ :: commandsOf false 5 ++ commandsOf true 13 ++
  commandsOf false 8

theorem signal_capacity_of_replacedRow : ∃ t,
    run (signalStep (normalizeSignalMaxPositions (some 2))) .start replacedRow = some t ∧
      CapacityKept (normalizeSignalMaxPositions (some 2)) t ∧
      t.members = {⟨"second", "BTC-USDT", .long⟩} := by
  have hrun : (run (signalStep (normalizeSignalMaxPositions (some 2))) .start replacedRow).map
      SignalSystem.members = some {⟨"second", "BTC-USDT", .long⟩} := by decide +kernel
  obtain ⟨t, hr, hmembers⟩ := map_eq_some_iff.mp hrun
  have hm : Meets (signalStep (normalizeSignalMaxPositions (some 2))) CallsApart .start
      replacedRow := by decide +kernel
  exact ⟨t, hr, signal_capacity_of_callsApart (some 2) hm hr, hmembers⟩

/-! ### Calls that meet on a slot -/

/-- A reservation has added its row and not yet the slot. -/
def halfOccupied : List (SignalAction Bool) :=
  .reserve false ⟨"first", "BTC-USDT", .long⟩ :: commandsOf false 5

/-- A release finds a row set empty, another row is reserved on the slot, and then the release drops
the slot. -/
def overtakenRelease : List (SignalAction Bool) :=
  .reserve false ⟨"first", "BTC-USDT", .long⟩ :: commandsOf false 13 ++
  .endPosition true ⟨"first", "BTC-USDT", .long⟩ :: commandsOf true 2 ++
  .reserve false ⟨"second", "BTC-USDT", .long⟩ :: commandsOf false 13 ++ commandsOf true 14 ++
  .reserve false ⟨"third", "ETH-USDT", .long⟩ :: commandsOf false 13 ++
  .reserve false ⟨"fourth", "SOL-USDT", .long⟩ :: commandsOf false 13

/-- A whole ending save falls between the `SADD` of the rows and the one of the slot, in the second
occupation of a reservation. -/
def overtakenOccupation : List (SignalAction Bool) :=
  .reserve false ⟨"first", "BTC-USDT", .long⟩ :: commandsOf false 10 ++
  .endPosition true ⟨"first", "BTC-USDT", .long⟩ :: commandsOf true 18 ++ commandsOf false 3

/-- A rebuild reads a row whose ending save has left the slot and not written the row, and adds it
again after the save has finished.  The next reservation on the slot, while the verify lock stands,
takes it for an active one. -/
def overtakenRebuild : List (SignalAction Bool) :=
  .reserve false ⟨"first", "BTC-USDT", .long⟩ :: commandsOf false 13 ++
  .reserve false ⟨"second", "ETH-USDT", .long⟩ :: commandsOf false 13 ++
  .endPosition true ⟨"first", "BTC-USDT", .long⟩ :: commandsOf true 4 ++
  .reserve false ⟨"third", "SOL-USDT", .long⟩ :: commandsOf false 13 ++
  .reserve false ⟨"fourth", "XRP-USDT", .long⟩ :: commandsOf false 8 ++ commandsOf true 14 ++
  .command false { keys := [⟨"ETHUSDT", .long⟩, ⟨"SOLUSDT", .long⟩] } :: commandsOf false 28 ++
  .reserve false ⟨"fifth", "BTC-USDT", .long⟩ :: commandsOf false 14

/-- Whether a worker is in no call. -/
def SignalPhase.isIdle : SignalPhase → Bool
  | .idle => true
  | _ => false

lemma SignalPhase.eq_idle_of_isIdle (h : phase.isIdle = true) : phase = .idle := by
  cases phase with
  | idle => rfl
  | _ => cases h

/-- Without the exception and without the condition the sets of slots and the limit are not kept. -/
theorem signal_capacity_not_kept :
    (∃ t, run (signalStep (normalizeSignalMaxPositions (some 2))) .start halfOccupied = some t ∧
      ⟨"BTCUSDT", .long⟩ ∈ t.occupied ∧ ⟨"BTCUSDT", .long⟩ ∉ t.index .all) ∧
    (∃ t, run (signalStep (normalizeSignalMaxPositions (some 2))) .start overtakenRelease = some t ∧
      normalizeSignalMaxPositions (some 2) < (t.active.image SignalRow.slot).card ∧
      (∀ w, t.phase w = .idle) ∧
      ⟨"BTCUSDT", .long⟩ ∈ t.occupied ∧ ⟨"BTCUSDT", .long⟩ ∉ t.index .all) ∧
    (∃ t, run (signalStep (normalizeSignalMaxPositions (some 2))) .start overtakenOccupation =
        some t ∧
      (∀ w, t.phase w = .idle) ∧
      ⟨"BTCUSDT", .long⟩ ∉ t.occupied ∧ ⟨"BTCUSDT", .long⟩ ∈ t.index .all) ∧
    ∃ t, run (signalStep (normalizeSignalMaxPositions (some 2))) .start overtakenRebuild = some t ∧
      normalizeSignalMaxPositions (some 2) < (t.active.image SignalRow.slot).card := by
  have hidle : ∀ t : SignalSystem Bool, (t.phase false).isIdle = true →
      (t.phase true).isIdle = true → ∀ w, t.phase w = .idle := by
    intro t hfalse htrue w
    cases w with
    | false => exact eq_idle_of_isIdle hfalse
    | true => exact eq_idle_of_isIdle htrue
  refine ⟨?_, ?_, ?_, ?_⟩
  · have hrun : (run (signalStep (normalizeSignalMaxPositions (some 2))) .start halfOccupied).map
        (fun t => (t.occupied, t.index .all)) = some ({⟨"BTCUSDT", .long⟩}, ∅) := by
      decide +kernel
    obtain ⟨t, hr, ht⟩ := map_eq_some_iff.mp hrun
    obtain ⟨hoccupied, hindex⟩ := Prod.mk.inj ht
    refine ⟨t, hr, ?_, ?_⟩
    · rw [hoccupied]
      exact mem_singleton_self _
    · rw [hindex]
      exact notMem_empty _
  · have hrun : (run (signalStep (normalizeSignalMaxPositions (some 2))) .start
        overtakenRelease).map (fun t => (decide (normalizeSignalMaxPositions (some 2) <
          (t.active.image SignalRow.slot).card), (t.phase false).isIdle, (t.phase true).isIdle,
          decide (⟨"BTCUSDT", .long⟩ ∈ t.occupied), decide (⟨"BTCUSDT", .long⟩ ∈ t.index .all))) =
        some (true, true, true, true, false) := by decide +kernel
    obtain ⟨t, hr, ht⟩ := map_eq_some_iff.mp hrun
    simp only [Prod.mk.injEq, decide_eq_true_eq, decide_eq_false_iff_not] at ht
    obtain ⟨hlimit, hfalse, htrue, hoccupied, hindex⟩ := ht
    exact ⟨t, hr, hlimit, hidle t hfalse htrue, hoccupied, hindex⟩
  · have hrun : (run (signalStep (normalizeSignalMaxPositions (some 2))) .start
        overtakenOccupation).map (fun t => ((t.phase false).isIdle, (t.phase true).isIdle,
          decide (⟨"BTCUSDT", .long⟩ ∈ t.occupied), decide (⟨"BTCUSDT", .long⟩ ∈ t.index .all))) =
        some (true, true, false, true) := by decide +kernel
    obtain ⟨t, hr, ht⟩ := map_eq_some_iff.mp hrun
    simp only [Prod.mk.injEq, decide_eq_true_eq, decide_eq_false_iff_not] at ht
    obtain ⟨hfalse, htrue, hoccupied, hindex⟩ := ht
    exact ⟨t, hr, hidle t hfalse htrue, hoccupied, hindex⟩
  · have hrun : (run (signalStep (normalizeSignalMaxPositions (some 2))) .start
        overtakenRebuild).map (fun t => (t.active.image SignalRow.slot).card) = some 3 := by
      decide +kernel
    obtain ⟨t, hr, hcard⟩ := map_eq_some_iff.mp hrun
    refine ⟨t, hr, ?_⟩
    rw [hcard]
    decide +kernel

end CtsEngine
