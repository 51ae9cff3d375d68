import CtsEngine.Block.Lifecycle

/-!
# The recovery level of a lane

From no state on, the results settled on a lane raise its level by one for every `C` of them in a
row that are not positive, up to the step bound, and a positive result puts it back to one.
-/

namespace CtsEngine

open Option

/-- The level that a lane holds; without a state it is the first. -/
def heldLevel (lane : Option BlockCountLifecycle) : ℚ := (lane.map (·.incrementStep)).getD 1

/-- The count of results that a lane holds. -/
def heldCount (lane : Option BlockCountLifecycle) : ℚ := (lane.map (·.nonPositiveCount)).getD 0

/-- The lane after results, newest first, each with the count `C` and the step bound `S` and with an
executed level that was not above the level held. -/
inductive Recovery (C S : ℤ) : List LifecycleInput → Option BlockCountLifecycle → Prop
  | start : Recovery C S [] none
  | settle {inputs : List LifecycleInput} {lane : Option BlockCountLifecycle}
      (past : Recovery C S inputs lane) (input : LifecycleInput) (hcount : input.blockCount = C)
      (hsteps : input.incrementSteps = S)
      (hexecuted : input.executedIncrementStep ≤ heldLevel lane) :
      Recovery C S (input :: inputs) (some (advanceBlockCountLifecycle (lane.map (·.toLane)) input))

/-- The number of results since the last positive one. -/
def losses : List LifecycleInput → ℕ
  | [] => 0
  | input :: inputs => if 0 < input.netPnl then 0 else losses inputs + 1

/-- The level and the count of a lane after `k` results that are not positive. -/
structure LevelAt (C S : ℤ) (k : ℕ) (lane : Option BlockCountLifecycle) : Prop where
  level : heldLevel lane = (min S (1 + k / C) : ℤ)
  count : ∃ m : ℤ, heldCount lane = m ∧ 0 ≤ m ∧ m ≤ C ∧ (1 + k / C < S → m = k % C)

variable {C S : ℤ} {k : ℕ} {lane : Option BlockCountLifecycle} {input : LifecycleInput}
  {inputs : List LifecycleInput}

lemma normalizeBlockIncrementSteps_of_mem (hS : 1 ≤ S) (hS' : S ≤ 6) :
    normalizeBlockIncrementSteps (some (S : ℚ)) = S := by
  rw [normalizeBlockIncrementSteps, getD_some, Int.floor_intCast, blockIncrementStepsMin,
    blockIncrementStepsMax, min_eq_right hS', max_eq_right hS]

lemma numOrConst_le {q d : ℚ} (hd : 1 ≤ d) (hq : q ≤ d) : numOrConst (some q) 1 ≤ d := by
  unfold numOrConst numOr
  dsimp only
  split
  · exact hd
  · exact hq

/-- An executed level that is not above the level held has no effect. -/
lemma blockEffectiveIncrementStep_held (hC : 1 ≤ C) (hS : 1 ≤ S) (hS' : S ≤ 6) {level : ℤ}
    (hone : 1 ≤ level) (hle : level ≤ S) {previous : Option ℚ}
    (hprev : numOrConst previous 1 = level) {executed : ℚ} (hexec : executed ≤ level) :
    blockEffectiveIncrementStep C (some (S : ℚ))
      (max (numOrConst previous 1) (numOrConst (some executed) 1)) = level := by
  have hone' : (1 : ℚ) ≤ level := by exact_mod_cast hone
  have hpos : ¬ (C : ℚ) ≤ 0 := by exact_mod_cast not_le.mpr (by omega)
  have hheld : numOrConst (some (level : ℚ)) 1 = level := by
    rw [numOrConst, numOr, if_neg (by linarith), getD_some]
  rw [hprev, max_eq_left (numOrConst_le hone' hexec), blockEffectiveIncrementStep,
    if_neg hpos, hheld, Int.floor_intCast, normalizeBlockIncrementSteps_of_mem hS hS',
    max_eq_right hone, min_eq_left hle]

lemma advance_held (hC : 1 ≤ C) (hS : 1 ≤ S) (hS' : S ≤ 6) (hcnt : input.blockCount = C)
    (hsteps : input.incrementSteps = S) (hexec : input.executedIncrementStep ≤ heldLevel lane)
    {level m : ℤ} (hlvl : heldLevel lane = level) (hone : 1 ≤ level) (hle : level ≤ S)
    (hm : heldCount lane = m) :
    let next := advanceBlockCountLifecycle (lane.map (·.toLane)) input
    next.incrementStep = (if 0 < input.netPnl then 1
        else if C ≤ m + 1 ∧ level < S then level + 1 else level : ℤ) ∧
      next.nonPositiveCount = (if 0 < input.netPnl then 0
        else if C ≤ m + 1 ∧ level < S then 0 else min C (m + 1) : ℤ) := by
  have hheld : numOrConst ((lane.map (·.toLane)).bind LaneState.incrementStep) 1 = level := by
    have hne : (level : ℚ) ≠ 0 := by exact_mod_cast (by omega : level ≠ 0)
    cases lane with
    | none => exact hlvl
    | some l =>
      rw [← hlvl] at hne
      exact (congrArg (getD · 1) (if_neg hne)).trans hlvl
  have hnon : numOrConst ((lane.map (·.toLane)).bind LaneState.nonPositiveCount) 0 = m := by
    cases lane with
    | none => exact hm
    | some l =>
      by_cases hzero : l.nonPositiveCount = 0
      · exact (congrArg (getD · 0) (if_pos hzero)).trans (hzero.symm.trans hm)
      · exact (congrArg (getD · 0) (if_neg hzero)).trans hm
  have hcur := blockEffectiveIncrementStep_held hC hS hS' hone hle hheld (hexec.trans_eq hlvl)
  have hreach : (C : ℚ) ≤ m + 1 ↔ C ≤ m + 1 := by exact_mod_cast Iff.rfl
  unfold advanceBlockCountLifecycle
  dsimp only
  rw [hsteps, normalizeBlockIncrementSteps_of_mem hS hS', hcnt, Int.floor_intCast,
    max_eq_right hC, hcur, hnon]
  by_cases hgain : 0 < input.netPnl
  · simp [hgain]
  · by_cases hadvan : C ≤ m + 1 ∧ level < S
    · simp [hgain, hreach, hadvan, Int.add_one_le_of_lt hadvan.2]
    · have hstays : (decide (C ≤ m + 1) && decide (level < S)) = false := by simpa using hadvan
      simp [hgain, hreach, hadvan, hstays, hle]

/-- The last of `C` results begins the next `C`, each other one is counted. -/
lemma quotient_succ {m : ℤ} (hC : 1 ≤ C) (hm : m = k % C) :
    ((k + 1 : ℕ) : ℤ) / C = k / C + (if C ≤ m + 1 then 1 else 0) ∧
      ((k + 1 : ℕ) : ℤ) % C = if C ≤ m + 1 then 0 else m + 1 := by
  have hdiv := Int.mul_ediv_add_emod k C
  have hnn := Int.emod_nonneg k (by omega : C ≠ 0)
  have hlt := Int.emod_lt_of_pos k (by omega : 0 < C)
  rw [Int.ediv_emod_unique (by omega : 0 < C)]
  split
  · have hlast : m = C - 1 := by omega
    exact ⟨by push_cast; linarith, le_rfl, by omega⟩
  · exact ⟨by push_cast; linarith, by omega, by omega⟩

lemma LevelAt.settle (h : LevelAt C S k lane) (hC : 1 ≤ C) (hS : 1 ≤ S) (hS' : S ≤ 6)
    (hcnt : input.blockCount = C) (hsteps : input.incrementSteps = S)
    (hexec : input.executedIncrementStep ≤ heldLevel lane) :
    LevelAt C S (if 0 < input.netPnl then 0 else k + 1)
      (some (advanceBlockCountLifecycle (lane.map (·.toLane)) input)) := by
  obtain ⟨m, hm, hm0, hmC, hmod⟩ := h.count
  have hquot : 0 ≤ (k : ℤ) / C := Int.ediv_nonneg (by omega) (by omega)
  obtain ⟨hlvl, hheld⟩ := advance_held hC hS hS' hcnt hsteps hexec h.level (by omega)
    (min_le_left _ _) hm
  by_cases hgain : 0 < input.netPnl
  · rw [if_pos hgain] at hlvl hheld
    rw [if_pos hgain]
    exact ⟨by simp [heldLevel, hlvl, hS], 0, hheld, le_rfl, by omega, fun _ => rfl⟩
  · rw [if_neg hgain] at hlvl hheld
    rw [if_neg hgain]
    have hnext : 1 + (k : ℤ) / C < S → 1 + ((k + 1 : ℕ) : ℤ) / C =
        1 + k / C + (if C ≤ m + 1 then 1 else 0) ∧
        ((k + 1 : ℕ) : ℤ) % C = if C ≤ m + 1 then 0 else m + 1 := by
      intro hbelow
      obtain ⟨hquoti, hrem⟩ := quotient_succ hC (hmod hbelow)
      exact ⟨by omega, hrem⟩
    have hmono : (k : ℤ) / C ≤ ((k + 1 : ℕ) : ℤ) / C := Int.ediv_le_ediv (by omega) (by omega)
    refine ⟨hlvl.trans ?_, _, hheld, ?_⟩
    · norm_cast
      split <;> omega
    · split <;> omega

/-- The level after a run of results is that of the results since the last positive one. -/
lemma Recovery.levelAt (h : Recovery C S inputs lane) (hC : 1 ≤ C) (hS : 1 ≤ S) (hS' : S ≤ 6) :
    LevelAt C S (losses inputs) lane := by
  induction h with
  | start => exact ⟨by simp [heldLevel, losses, hS], 0, rfl, le_rfl, by omega, fun _ => rfl⟩
  | settle past input hcount hsteps hexecuted ih =>
    exact ih.settle hC hS hS' hcount hsteps hexecuted

/-- **Recovery levels.**  After any run of results, the level of a lane counts the `C`s of results
since the last positive one, and the lane pauses exactly when that is the last result. -/
theorem recovery_law {C S : ℤ} (hC : 1 ≤ C) (hS : 1 ≤ S) (hS' : S ≤ 6) {input : LifecycleInput}
    {inputs : List LifecycleInput} {lane : BlockCountLifecycle}
    (h : Recovery C S (input :: inputs) (some lane)) :
    (1 ≤ lane.incrementStep ∧ lane.incrementStep ≤ S) ∧
      (0 ≤ lane.nonPositiveCount ∧ lane.nonPositiveCount ≤ C) ∧
      (0 < lane.remaining ↔ 0 < input.netPnl) ∧
      (0 < lane.remaining → lane.incrementStep = 1 ∧ lane.recovering = false) ∧
      lane.incrementStep = (min S (1 + losses (input :: inputs) / C) : ℤ) := by
  obtain ⟨hlevel, m, hm, hm0, hmC, -⟩ := h.levelAt hC hS hS'
  have hstep : lane.incrementStep = (min S (1 + losses (input :: inputs) / C) : ℤ) := hlevel
  have hcount : lane.nonPositiveCount = m := hm
  have hquot : 0 ≤ (losses (input :: inputs) : ℤ) / C := Int.ediv_nonneg (by omega) (by omega)
  have hpause : (0 < lane.remaining ↔ 0 < input.netPnl) ∧
      (0 < input.netPnl → lane.recovering = false) := by
    cases h
    unfold advanceBlockCountLifecycle
    by_cases hgain : 0 < input.netPnl
    · simp [hgain]
    · simp [hgain]
  have hone : 0 < input.netPnl → lane.incrementStep = 1 := by
    intro hgain
    rw [hstep, losses, if_pos hgain]
    simp [hS]
  refine ⟨?_, ?_, hpause.1, fun h => ⟨hone (hpause.1.mp h), hpause.2 (hpause.1.mp h)⟩, hstep⟩
  · rw [hstep]
    exact_mod_cast (by omega : 1 ≤ min S (1 + (losses (input :: inputs) : ℤ) / C) ∧
      min S (1 + (losses (input :: inputs) : ℤ) / C) ≤ S)
  · rw [hcount]
    exact_mod_cast And.intro hm0 hmC

/-- A result that executed at the first level. -/
def settledLoss : LifecycleInput := ⟨"set", "BTCUSDT", "long", "live", 2, 3, 1, 4, -1, 0⟩

/-- Two losses raise a lane of count two. -/
theorem recovery_law_twoLosses :
    let lane := advanceBlockCountLifecycle
      (some (advanceBlockCountLifecycle none settledLoss).toLane)
      settledLoss
    lane.incrementStep = (min 3 (1 + losses [settledLoss, settledLoss] / 2) : ℤ) ∧
      lane.incrementStep = 2 := by
  have hrun : Recovery 2 3 [settledLoss, settledLoss]
      (some (advanceBlockCountLifecycle (some (advanceBlockCountLifecycle none settledLoss).toLane)
        settledLoss)) :=
    .settle (.settle .start settledLoss rfl rfl (by decide +kernel)) settledLoss rfl rfl
      (by decide +kernel)
  have hlaw := (recovery_law (by decide) (by decide) (by decide) hrun).2.2.2.2
  exact ⟨hlaw, by decide +kernel⟩

end CtsEngine
