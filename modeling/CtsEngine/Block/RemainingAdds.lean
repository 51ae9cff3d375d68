import CtsEngine.Block.Lifecycle
import CtsEngine.Foundation.Rounding
import CtsEngine.Transition.Runs

/-!
# The adds of a Block ladder

`lib/block-count-state.ts` and `lib/block-volume-ratio.cjs`: every Count of a Block has a target of
its own, measured from the immutable base, and an order adds only what the confirmed fills leave to
the target.  The multiplier of the base and the quantity of an order are rounded to twelve decimals.
In a run the requested targets follow each other in any order, and the venue fills any part of what
is requested.
-/

namespace CtsEngine.BlockAdds

open Transition

def blockVolumeMultiplier (count ratio : ℚ) (steps : Option ℚ) (requestedStep : ℚ) : ℚ :=
  if ¬ (0 < count ∧ 0 < ratio) then 0
  else toFixed12 (1 + ⌊count⌋ * ratio * blockEffectiveIncrementStep count steps requestedStep)

def calculateBlockVolumeIncrementRatio (blockCount volumeRatio : ℚ) (incrementSteps : Option ℚ)
    (requestedStep : ℚ) : ℚ :=
  if ¬ (0 < blockCount ∧ 0 < volumeRatio) then 0
  else toFixed12 (blockVolumeMultiplier blockCount volumeRatio incrementSteps requestedStep - 1)

def calculateBlockAddQuantity (positionBaseQuantity blockCount volumeRatio : ℚ)
    (incrementSteps : Option ℚ) (requestedStep : ℚ) : ℚ :=
  if ¬ (0 < positionBaseQuantity ∧ 0 < blockCount ∧ 0 < volumeRatio) then 0
  else positionBaseQuantity *
    calculateBlockVolumeIncrementRatio blockCount volumeRatio incrementSteps requestedStep

/-- `calculateConfirmedBlockAddQuantity`; the quantity of a leg is `none` when it is not finite. -/
def calculateConfirmedBlockAddQuantity (legs : List (Option ℚ)) : ℚ :=
  legs.foldl (fun sum quantity => sum + if 0 < quantity.getD 0 then quantity.getD 0 else 0) 0

def calculateBlockRemainingAddQuantity (positionBaseQuantity blockCount volumeRatio
    confirmedBlockAddQuantity : ℚ) (incrementSteps : Option ℚ) (requestedStep : ℚ) : ℚ :=
  let targetAdditionalQuantity := calculateBlockAddQuantity positionBaseQuantity blockCount
    volumeRatio incrementSteps requestedStep
  if targetAdditionalQuantity ≤ 0 then 0
  else if confirmedBlockAddQuantity < 0 then 0
  else
    let remaining := targetAdditionalQuantity - confirmedBlockAddQuantity
    let tolerance := max (1 / 10 ^ 12) (targetAdditionalQuantity * (1 / 10 ^ 9))
    if tolerance < remaining then toFixed12 remaining else 0

/-- The volume settings of a Block: the immutable base, the ratio and the number of levels. -/
structure BlockVolume where
  base : ℚ
  ratio : ℚ
  steps : Option ℚ

/-- A requested Count at a level, and what the venue fills of the order. -/
structure BlockAdd where
  count : ℚ
  level : ℚ
  fill : ℚ

/-- The confirmed legs, and the largest target that was requested. -/
structure LadderState where
  legs : List (Option ℚ) := []
  largest : ℚ := 0
deriving DecidableEq

namespace BlockVolume

variable (volume : BlockVolume)

def target (add : BlockAdd) : ℚ :=
  calculateBlockAddQuantity volume.base add.count volume.ratio volume.steps add.level

/-- What is requested for an add when the legs are confirmed. -/
def requested (legs : List (Option ℚ)) (add : BlockAdd) : ℚ :=
  calculateBlockRemainingAddQuantity volume.base add.count volume.ratio
    (calculateConfirmedBlockAddQuantity legs) volume.steps add.level

/-- An add, of which the venue confirms any part. -/
def step (s : LadderState) (add : BlockAdd) : Option LadderState :=
  if 0 ≤ add.fill ∧ add.fill ≤ volume.requested s.legs add then
    some ⟨s.legs ++ [some add.fill], max s.largest (volume.target add)⟩
  else none

end BlockVolume

/-- The exact increment of a Count at a level. -/
def exactIncrement (volume : BlockVolume) (add : BlockAdd) : ℚ :=
  ⌊add.count⌋ * volume.ratio * blockEffectiveIncrementStep add.count volume.steps add.level

lemma onGrid_toFixed12 {x : ℚ} (h : toFixed12 x ≠ x) : OnGrid (toFixed12 x) := by
  unfold toFixed12 toFixedNonneg at h ⊢
  split_ifs at h ⊢ with hneg hlarge hsmall
  · have hgrid : OnGrid ((⌊-x * gridScale + 1 / 2⌋ : ℤ) / gridScale) := ⟨_, rfl⟩
    simpa using onGrid_zero.sub hgrid
  · exact absurd (neg_neg x) h
  · exact ⟨_, rfl⟩
  · exact absurd rfl h

lemma abs_increment_sub_le {volume : BlockVolume} {add : BlockAdd} (hcnt : 0 < add.count)
    (hratio : 0 < volume.ratio) :
    |calculateBlockVolumeIncrementRatio add.count volume.ratio volume.steps add.level -
      exactIncrement volume add| ≤ 1 / (2 * gridScale) := by
  have hboth : ¬ ¬ (0 < add.count ∧ 0 < volume.ratio) := not_not.mpr ⟨hcnt, hratio⟩
  unfold calculateBlockVolumeIncrementRatio blockVolumeMultiplier
  rw [if_neg hboth, if_neg hboth]
  change |toFixed12 (toFixed12 (1 + exactIncrement volume add) - 1) - exactIncrement volume add| ≤ _
  generalize exactIncrement volume add = x
  by_cases hlarge : toFixed12 (1 + x) = 1 + x
  · rw [hlarge, add_sub_cancel_left]
    exact abs_toFixed12_sub_le x
  · -- The multiplier was rounded, so it lies on the grid, and so does the increment.
    have hone : OnGrid 1 := by exact_mod_cast onGrid_intCast 1
    have hgrid : OnGrid (toFixed12 (1 + x)) := onGrid_toFixed12 hlarge
    rw [toFixed12_of_onGrid (hgrid.sub hone), sub_sub]
    exact abs_toFixed12_sub_le (1 + x)

lemma confirmed_append (legs : List (Option ℚ)) {fill : ℚ} (hfill : 0 ≤ fill) :
    calculateConfirmedBlockAddQuantity (legs ++ [some fill]) =
      calculateConfirmedBlockAddQuantity legs + fill := by
  unfold calculateConfirmedBlockAddQuantity
  rw [List.foldl_append, List.foldl_cons, List.foldl_nil]
  split_ifs with hpos
  · rfl
  · rw [hfill.antisymm (not_lt.mp hpos)]

lemma remaining_eq_zero_of_le {base count ratio confirmed level : ℚ} {steps : Option ℚ}
    (h : calculateBlockAddQuantity base count ratio steps level ≤ confirmed) :
    calculateBlockRemainingAddQuantity base count ratio confirmed steps level = 0 := by
  unfold calculateBlockRemainingAddQuantity
  dsimp only
  split_ifs with hnone hnegat hopen
  · rfl
  · rfl
  · have hle := le_max_left (1 / 10 ^ 12 : ℚ)
      (calculateBlockAddQuantity base count ratio steps level * (1 / 10 ^ 9))
    linarith
  · rfl

lemma remaining_le (base count ratio confirmed level : ℚ) (steps : Option ℚ) :
    calculateBlockRemainingAddQuantity base count ratio confirmed steps level = 0 ∨
      calculateBlockRemainingAddQuantity base count ratio confirmed steps level ≤
        calculateBlockAddQuantity base count ratio steps level - confirmed +
          1 / (2 * gridScale) := by
  unfold calculateBlockRemainingAddQuantity
  dsimp only
  split_ifs with hnone hnegat hopen
  · exact .inl rfl
  · exact .inl rfl
  · have hrnd := abs_le.mp (abs_toFixed12_sub_le
      (calculateBlockAddQuantity base count ratio steps level - confirmed))
    exact .inr (by linarith)
  · exact .inl rfl

/-- The confirmed quantity stays below the largest target requested so far, up to half a step of the
twelfth decimal. -/
def LadderState.WithinTarget (s : LadderState) : Prop :=
  calculateConfirmedBlockAddQuantity s.legs ≤ s.largest + 1 / (2 * gridScale)

lemma step_withinTarget (volume : BlockVolume) (s : LadderState) (add : BlockAdd)
    (t : LadderState) (hs : s.WithinTarget) (hstep : volume.step s add = some t) :
    t.WithinTarget := by
  simp only [BlockVolume.step, Option.ite_none_right_eq_some, Option.some.injEq] at hstep
  obtain ⟨⟨hnn, hfill⟩, rfl⟩ := hstep
  unfold LadderState.WithinTarget at hs ⊢
  rw [confirmed_append s.legs hnn]
  rcases remaining_le volume.base add.count volume.ratio
    (calculateConfirmedBlockAddQuantity s.legs) add.level volume.steps with hzero | hle
  · -- Nothing was requested, so nothing was filled.
    have hnone : add.fill = 0 := (hfill.trans hzero.le).antisymm hnn
    rw [hnone, add_zero]
    exact hs.trans (by gcongr; exact le_max_left ..)
  · have hmax := le_max_right s.largest (volume.target add)
    have hreach : add.fill ≤ volume.target add - calculateConfirmedBlockAddQuantity s.legs +
        1 / (2 * gridScale) := hfill.trans hle
    linarith

lemma abs_target_sub_le (volume : BlockVolume) {add : BlockAdd} (hbase : 0 < volume.base)
    (hcnt : 0 < add.count) (hratio : 0 < volume.ratio) :
    |volume.target add - volume.base * exactIncrement volume add| ≤
      volume.base * (1 / (2 * gridScale)) := by
  unfold BlockVolume.target calculateBlockAddQuantity
  rw [if_neg (not_not.mpr ⟨hbase, hcnt, hratio⟩), ← mul_sub, abs_mul, abs_of_pos hbase]
  exact mul_le_mul_of_nonneg_left (abs_increment_sub_le hcnt hratio) hbase.le

/-- **Block adds.** After every run of requested targets and partial fills the confirmed quantity
exceeds the largest target requested so far by at most half a step of the twelfth decimal, and a
target that is reached asks for nothing more. -/
theorem run_withinTarget (volume : BlockVolume) {adds : List BlockAdd} {s : LadderState}
    (hrun : run volume.step {} adds = some s) :
    calculateConfirmedBlockAddQuantity s.legs ≤ s.largest + 1 / (2 * 10 ^ 12) ∧
      (∀ add, volume.target add ≤ calculateConfirmedBlockAddQuantity s.legs →
        volume.requested s.legs add = 0) ∧
      ∀ add, 0 < volume.base → 0 < add.count → 0 < volume.ratio →
        |volume.target add - volume.base * (⌊add.count⌋ * volume.ratio *
          blockEffectiveIncrementStep add.count volume.steps add.level)| ≤
          volume.base * (1 / (2 * 10 ^ 12)) := by
  have hstart : LadderState.WithinTarget {} := by
    exact le_add_of_nonneg_right (by unfold gridScale; positivity)
  have hwithin := invariant_of_step (step_withinTarget volume) hstart hrun
  exact ⟨hwithin, fun add h => remaining_eq_zero_of_le h,
    fun add hbase hcount hratio => abs_target_sub_le volume hbase hcount hratio⟩

/-- Two Counts of a base of three, the first one filled in part. -/
theorem run_withinTarget_partial :
    calculateConfirmedBlockAddQuantity [some 2, some 4] ≤ 6 + 1 / (2 * 10 ^ 12) ∧
      (∀ add, BlockVolume.target ⟨3, 1, some 1⟩ add ≤
          calculateConfirmedBlockAddQuantity [some 2, some 4] →
        BlockVolume.requested ⟨3, 1, some 1⟩ [some 2, some 4] add = 0) ∧
      ∀ add : BlockAdd, (0 : ℚ) < 3 → 0 < add.count → (0 : ℚ) < 1 →
        |BlockVolume.target ⟨3, 1, some 1⟩ add - 3 * (⌊add.count⌋ * 1 *
          blockEffectiveIncrementStep add.count (some 1) add.level)| ≤ 3 * (1 / (2 * 10 ^ 12)) :=
  @run_withinTarget ⟨3, 1, some 1⟩ [⟨1, 1, 2⟩, ⟨2, 1, 4⟩] ⟨[some 2, some 4], 6⟩ (by decide +kernel)

/-- A target of one and a half steps of the twelfth decimal is filled with two. -/
theorem not_run_below_target : ¬ ∀ (volume : BlockVolume) (adds : List BlockAdd) (s : LadderState),
    run volume.step {} adds = some s →
      calculateConfirmedBlockAddQuantity s.legs ≤ s.largest := by
  intro h
  have hle := h ⟨15 / 10 ^ 13, 1, none⟩ [⟨1, 1, 2 / 10 ^ 12⟩] ⟨[some (2 / 10 ^ 12)], 15 / 10 ^ 13⟩
    (by decide +kernel)
  revert hle
  decide +kernel

end CtsEngine.BlockAdds
