import CtsEngine.DirectTrade.Simulation
import CtsEngine.Foundation.Ladder

/-!
# Block legs of a simulated position

`lib/direct-trade-coordination.ts`, `simulateTrades`: all Block counts grow on one list of legs,
with one exit and one counter.  Without DCA no leg is read before the position is closed.  So the
loop walks over the candles as it does for the base position, and the legs are a ladder over the
closes of the candles with a signal.
-/

namespace CtsEngine.DirectTrade

open List OpenPosition Ladder

/-! ## The legs of the Block counts -/

/-- The same simulation with another number of Block counts. -/
def SimulationSettings.withBlockCount (settings : SimulationSettings) (blockCount : ℕ) :
    SimulationSettings :=
  { settings with blockCount := blockCount }

/-- The same position with other legs. -/
def OpenPosition.withLegs (position : OpenPosition) (entryLegs : List EntryLeg)
    (nextBlockCount : ℕ) : OpenPosition :=
  { position with entryLegs := entryLegs, nextBlockCount := nextBlockCount }

/-- The multiplier that a count starts from: one for the first, then that of the count before. -/
def reachedMultiplier (settings : SimulationSettings) (blockCount : ℕ) : ℚ :=
  if blockCount = 0 then 1
  else calculateBlockVolumeMultiplier blockCount settings.blockVolumeRatio
    settings.blockIncrementSteps

/-- The weight that a count adds to the counts before it. -/
def blockAddWeight (settings : SimulationSettings) (blockCount : ℕ) : ℚ :=
  max 0 (reachedMultiplier settings blockCount - reachedMultiplier settings (blockCount - 1))

def AddsLeg (settings : SimulationSettings) (blockCount : ℕ) : Prop :=
  0 < blockAddWeight settings blockCount

instance (settings : SimulationSettings) (blockCount : ℕ) :
    Decidable (AddsLeg settings blockCount) :=
  inferInstanceAs (Decidable (0 < blockAddWeight settings blockCount))

/-- The leg that a count adds at a close. -/
def blockLeg (settings : SimulationSettings) (blockCount : ℕ) (close : ℚ) : EntryLeg :=
  ⟨close, blockAddWeight settings blockCount⟩

/-- The legs that the closes build, the first of them for the given count. -/
abbrev blockLegs (settings : SimulationSettings) : ℕ → List ℚ → List EntryLeg :=
  climb (AddsLeg settings) (blockLeg settings)

/-- The increment step of a count that is asked for one step is one, whatever the setting. -/
lemma blockEffectiveIncrementStep_one {count : ℚ} (hcnt : 0 < count) (steps : Option ℚ) :
    blockEffectiveIncrementStep count steps 1 = 1 := by
  have hsteps : 1 ≤ normalizeBlockIncrementSteps steps := le_max_left _ _
  unfold blockEffectiveIncrementStep
  rw [if_neg (not_le.mpr hcnt)]
  have hone : max 1 ⌊numOrConst (some 1) 1⌋ = 1 := by decide
  rw [hone, min_eq_left hsteps]

section

variable {settings : SimulationSettings}

lemma reachedMultiplier_of_pos (hratio : 0 < settings.blockVolumeRatio) (blockCount : ℕ) :
    reachedMultiplier settings blockCount =
      toFixed12 (1 + blockCount * settings.blockVolumeRatio) := by
  unfold reachedMultiplier calculateBlockVolumeMultiplier
  by_cases hzero : blockCount = 0
  · subst hzero
    rw [Nat.cast_zero, zero_mul, add_zero]
    have hone : toFixed12 1 = 1 := toFixed12_of_onGrid (by exact_mod_cast onGrid_intCast 1)
    exact hone.symm
  · have hpos : 0 < blockCount := Nat.pos_of_ne_zero hzero
    rw [if_neg hzero, if_neg (not_not.mpr ⟨hpos, hratio⟩),
      blockEffectiveIncrementStep_one (by exact_mod_cast hpos), Int.cast_one, mul_one]

lemma addsLeg_of_ratio (hratio : 1 / gridScale ≤ settings.blockVolumeRatio) {blockCount : ℕ}
    (hcnt : 1 ≤ blockCount) :
    AddsLeg settings blockCount := by
  have hpos : 0 < settings.blockVolumeRatio := (one_div_pos.mpr gridScale_pos).trans_le hratio
  obtain ⟨count, rfl⟩ := Nat.exists_eq_add_of_le' hcnt
  have hlt : reachedMultiplier settings count < reachedMultiplier settings (count + 1) := by
    rw [reachedMultiplier_of_pos hpos, reachedMultiplier_of_pos hpos]
    refine toFixed12_lt_toFixed12 (by positivity) ?_
    push_cast
    linarith
  exact lt_max_of_lt_right (sub_pos.mpr hlt)

lemma not_addsLeg_of_ratio (hratio : settings.blockVolumeRatio ≤ 0)
    {blockCount : ℕ} (hcnt : 1 ≤ blockCount) : ¬ AddsLeg settings blockCount := by
  have hreach : ∀ count, count ≠ 0 → reachedMultiplier settings count = 0 := by
    intro count hne
    unfold reachedMultiplier calculateBlockVolumeMultiplier
    rw [if_neg hne, if_pos fun hboth => absurd hboth.2 (not_lt.mpr hratio)]
  have hbef : 0 ≤ reachedMultiplier settings (blockCount - 1) := by
    by_cases hzero : blockCount - 1 = 0
    · rw [hzero]
      exact zero_le_one
    · exact (hreach _ hzero).ge
  unfold AddsLeg blockAddWeight
  rw [hreach blockCount (by omega), zero_sub, max_eq_left (neg_nonpos.mpr hbef)]
  exact lt_irrefl 0

lemma unskipped_of_ratio
    (hratio : settings.blockVolumeRatio ≤ 0 ∨ 1 / gridScale ≤ settings.blockVolumeRatio) (k n : ℕ) :
    Ladder.Unskipped (AddsLeg settings) k n := by
  intro low high hlow hlowk hhigh _ hadds
  obtain hnone | hstep := hratio
  · exact absurd hadds (not_addsLeg_of_ratio hnone (by omega))
  · exact addsLeg_of_ratio hstep hlow

end

/-! ## One candle -/

variable {settings : SimulationSettings} (minutes : ℕ) (candles : List DirectTradeCandle)
  (signals : List Bool)

/-- The position with the best price of the candle. -/
def OpenPosition.marked (settings : SimulationSettings) (candle : DirectTradeCandle)
    (position : OpenPosition) : OpenPosition :=
  { position with
    bestMarketExitPrice := betterExitPrice settings.direction position.bestMarketExitPrice candle }

/-- The position that the exit tactic is asked about: marked, trailed and its drawdown counted. -/
def OpenPosition.tracked (settings : SimulationSettings) (candles : List DirectTradeCandle)
    (cursor : ℕ) (position : OpenPosition) : OpenPosition :=
  let candle := candles.getD cursor default
  countDrawdown settings (trail settings (trailingParameters settings candles cursor)
    (position.marked settings candle) candle) candle

/-- The exit of the candle: by the protection of the position, or else by the tactic. -/
def candleExit (settings : SimulationSettings) (minutes : ℕ) (candles : List DirectTradeCandle)
    (index cursor : ℕ) (position : OpenPosition) : Option Exit :=
  let candle := candles.getD cursor default
  (protectionExit settings (position.marked settings candle) candle).or
    (tacticExit settings (maxHoldCandles settings minutes) candles index cursor
      (position.tracked settings candles cursor))

/-- The position at its exit, or before the legs of the candle. -/
def beforeLegs (settings : SimulationSettings) (candles : List DirectTradeCandle) (cursor : ℕ)
    (position : OpenPosition) : OpenPosition :=
  let candle := candles.getD cursor default
  if (protectionExit settings (position.marked settings candle) candle).isSome then
    position.marked settings candle
  else position.tracked settings candles cursor

/-- Without a ladder, a candle exits or adds one block leg. -/
lemma candleStep_eq (hdca : settings.dcaProfile = none) (index cursor : ℕ)
    (position : OpenPosition) :
    candleStep settings minutes candles signals index cursor position =
      (if (candleExit settings minutes candles index cursor position).isSome then
        beforeLegs settings candles cursor position
      else addBlockLeg settings (signals.getD cursor false)
        (beforeLegs settings candles cursor position) (candles.getD cursor default),
      candleExit settings minutes candles index cursor position) := by
  have hgrown : ∀ initialEntryPrice grown candle,
      addDcaLeg settings initialEntryPrice grown candle = grown := by
    intro initialEntryPrice grown candle
    unfold addDcaLeg
    rw [hdca]
  set candle := candles.getD cursor default
  cases hprotn : protectionExit settings (position.marked settings candle) candle with
  | some exit =>
    have hexit : candleExit settings minutes candles index cursor position = some exit :=
      congrArg (Option.or · _) hprotn
    have hbef : beforeLegs settings candles cursor position = position.marked settings candle :=
      if_pos (congrArg Option.isSome hprotn)
    rw [hexit, hbef]
    unfold candleStep
    dsimp only
    split
    · rename_i exit' hprotn'
      cases hprotn.symm.trans hprotn'
      rfl
    · rename_i hprotn'
      cases hprotn.symm.trans hprotn'
  | none =>
    have hexit : candleExit settings minutes candles index cursor position =
        tacticExit settings (maxHoldCandles settings minutes) candles index cursor
          (position.tracked settings candles cursor) :=
      congrArg (Option.or · _) hprotn
    have hbef : beforeLegs settings candles cursor position =
        position.tracked settings candles cursor :=
      if_neg (by rw [hprotn]; exact Bool.false_ne_true)
    rw [hexit, hbef]
    unfold candleStep
    dsimp only
    split
    · rename_i exit' hprotn'
      cases hprotn.symm.trans hprotn'
    · cases htact : tacticExit settings (maxHoldCandles settings minutes) candles index cursor
          (position.tracked settings candles cursor) with
      | some exit =>
        split
        · rename_i exit' htact'
          cases htact.symm.trans htact'
          rfl
        · rename_i htact'
          cases htact.symm.trans htact'
      | none =>
        split
        · rename_i exit' htact'
          cases htact.symm.trans htact'
        · rw [hgrown]
          rfl

variable (blockCount : ℕ) {nextBlockCount : ℕ} (candle : DirectTradeCandle)
  {position : OpenPosition} {entryLegs : List EntryLeg}

lemma trail_withLegs (parameters : TrailingParameters) :
    trail (settings.withBlockCount blockCount) parameters
        (position.withLegs entryLegs nextBlockCount) candle =
      (trail settings parameters position candle).withLegs entryLegs nextBlockCount := by
  unfold trail SimulationSettings.withBlockCount withLegs
  cases settings.direction <;> dsimp only <;> split_ifs <;> rfl

lemma countDrawdown_withLegs : countDrawdown (settings.withBlockCount blockCount)
        (position.withLegs entryLegs nextBlockCount) candle =
      (countDrawdown settings position candle).withLegs entryLegs nextBlockCount := by
  unfold countDrawdown SimulationSettings.withBlockCount withLegs
  cases settings.direction <;> dsimp only <;> split_ifs <;> rfl

lemma tracked_withLegs (cursor : ℕ) :
    (position.withLegs entryLegs nextBlockCount).tracked (settings.withBlockCount blockCount)
        candles cursor =
      (position.tracked settings candles cursor).withLegs entryLegs nextBlockCount := by
  unfold tracked
  rw [← countDrawdown_withLegs blockCount, ← trail_withLegs blockCount]
  rfl

lemma candleExit_withLegs (index cursor : ℕ) :
    candleExit (settings.withBlockCount blockCount) minutes candles index cursor
        (position.withLegs entryLegs nextBlockCount) =
      candleExit settings minutes candles index cursor position := by
  unfold candleExit
  rw [tracked_withLegs]
  rfl

lemma beforeLegs_withLegs (cursor : ℕ) :
    beforeLegs (settings.withBlockCount blockCount) candles cursor
        (position.withLegs entryLegs nextBlockCount) =
      (beforeLegs settings candles cursor position).withLegs entryLegs nextBlockCount := by
  unfold beforeLegs
  rw [tracked_withLegs, apply_ite fun before : OpenPosition =>
    before.withLegs entryLegs nextBlockCount]
  rfl

lemma addBlockLeg_withLegs (signal : Bool) {count : ℕ} (hcnt : 1 ≤ count) :
    addBlockLeg (settings.withBlockCount blockCount) signal (position.withLegs entryLegs count)
        candle =
      if signal = true ∧ count ≤ blockCount then
        position.withLegs (entryLegs ++ blockLegs settings count [candle.close]) (count + 1)
      else position.withLegs entryLegs count := by
  have hprev : (if count = 1 then 1 else calculateBlockVolumeMultiplier (count - 1)
      settings.blockVolumeRatio settings.blockIncrementSteps) =
      reachedMultiplier settings (count - 1) := by
    unfold reachedMultiplier
    by_cases hone : count = 1
    · rw [if_pos hone, if_pos (by omega)]
    · rw [if_neg hone, if_neg (by omega)]
  have htgt : calculateBlockVolumeMultiplier count settings.blockVolumeRatio
      settings.blockIncrementSteps = reachedMultiplier settings count :=
    (if_neg (by omega)).symm
  have hweig : max 0 (calculateBlockVolumeMultiplier count settings.blockVolumeRatio
      settings.blockIncrementSteps - if count = 1 then 1 else calculateBlockVolumeMultiplier
        (count - 1) settings.blockVolumeRatio settings.blockIncrementSteps) =
      blockAddWeight settings count := by
    rw [hprev, htgt]
    rfl
  have hlegs : (if 0 < blockAddWeight settings count then
      entryLegs ++ [⟨candle.close, blockAddWeight settings count⟩] else entryLegs) =
      entryLegs ++ blockLegs settings count [candle.close] := by
    by_cases hadds : AddsLeg settings count
    · rw [blockLegs, climb, if_pos hadds]
      exact if_pos hadds
    · rw [blockLegs, climb, if_neg hadds, climb, append_nil]
      exact if_neg hadds
  by_cases htaken : signal = true ∧ count ≤ blockCount
  · rw [if_pos htaken, ← hlegs, ← hweig]
    exact if_pos ⟨hcnt.trans htaken.2, htaken⟩
  · rw [if_neg htaken]
    exact if_neg fun hall => htaken hall.2

lemma candleStep_base (hdca : settings.dcaProfile = none) (index cursor : ℕ) :
    candleStep (settings.withBlockCount 0) minutes candles signals index cursor position =
      (beforeLegs settings candles cursor position,
        candleExit settings minutes candles index cursor position) := by
  have hnone : ∀ signal before candle,
      addBlockLeg (settings.withBlockCount 0) signal before candle = before :=
    fun signal before candle => if_neg fun hall => lt_irrefl 0 hall.1
  have hdca0 : (settings.withBlockCount 0).dcaProfile = none := hdca
  rw [candleStep_eq minutes candles signals hdca0, hnone, ite_self]
  rfl

lemma candleStep_withLegs (hdca : settings.dcaProfile = none) (index cursor count : ℕ) :
    let base := candleStep (settings.withBlockCount 0) minutes candles signals index cursor position
    candleStep (settings.withBlockCount blockCount) minutes candles signals index cursor
        (position.withLegs entryLegs count) =
      (if base.2.isSome then base.1.withLegs entryLegs count
        else addBlockLeg (settings.withBlockCount blockCount) (signals.getD cursor false)
          (base.1.withLegs entryLegs count) (candles.getD cursor default), base.2) := by
  have hdca' : (settings.withBlockCount blockCount).dcaProfile = none := hdca
  rw [candleStep_base minutes candles signals hdca, candleStep_eq minutes candles signals hdca',
    candleExit_withLegs, beforeLegs_withLegs]

lemma walk_succ (settings : SimulationSettings) (index steps lastIndex : ℕ) :
    let step := candleStep settings minutes candles signals index (lastIndex + 1) position
    walk settings minutes candles signals index (steps + 1) lastIndex position =
      if step.2.isSome then ⟨step.1, lastIndex + 1, step.2⟩
      else walk settings minutes candles signals index steps (lastIndex + 1) step.1 := by
  rw [walk]
  cases hstep : candleStep settings minutes candles signals index (lastIndex + 1) position with
  | mk next exit =>
    cases exit with
    | none => rfl
    | some exit => rfl

/-- The closes that the position loop offers to the Block counts. -/
def offeredCloses (settings : SimulationSettings) (minutes : ℕ) (candles : List DirectTradeCandle)
    (signals : List Bool) (index : ℕ) : ℕ → ℕ → OpenPosition → List ℚ
  | 0, _, _ => []
  | steps + 1, lastIndex, position =>
    let step := candleStep (settings.withBlockCount 0) minutes candles signals index
      (lastIndex + 1) position
    if step.2.isSome then []
    else
      (if signals.getD (lastIndex + 1) false then [(candles.getD (lastIndex + 1) default).close]
        else []) ++
      offeredCloses settings minutes candles signals index steps (lastIndex + 1) step.1

lemma walk_withLegs (hdca : settings.dcaProfile = none) (blockCount index steps lastIndex : ℕ)
    (position : OpenPosition) (entryLegs : List EntryLeg) {count : ℕ} (hcnt : 1 ≤ count) :
    let base := walk (settings.withBlockCount 0) minutes candles signals index steps lastIndex
      position
    let closes := (offeredCloses settings minutes candles signals index steps lastIndex
      position).take (blockCount + 1 - count)
    walk (settings.withBlockCount blockCount) minutes candles signals index steps lastIndex
        (position.withLegs entryLegs count) =
      ⟨base.position.withLegs (entryLegs ++ blockLegs settings count closes)
        (count + closes.length), base.lastIndex, base.exit⟩ := by
  dsimp only
  induction steps generalizing lastIndex position entryLegs count with
  | zero =>
    rw [offeredCloses, take_nil, blockLegs, climb, append_nil]
    rfl
  | succ steps ih =>
    rw [walk_succ, walk_succ, candleStep_withLegs minutes candles signals _ hdca, offeredCloses]
    set base := candleStep (settings.withBlockCount 0) minutes candles signals index (lastIndex + 1)
      position
    by_cases hexit : base.2.isSome = true
    · rw [if_pos hexit, if_pos hexit, if_pos hexit, if_pos hexit, take_nil, blockLegs,
        climb, append_nil]
      rfl
    · rw [if_neg hexit, if_neg hexit, if_neg hexit, if_neg hexit,
        addBlockLeg_withLegs blockCount _ _ hcnt]
      by_cases hsig : signals.getD (lastIndex + 1) false = true
      · by_cases hleft : count ≤ blockCount
        · have htake : blockCount + 1 - count = blockCount + 1 - (count + 1) + 1 := by omega
          rw [if_pos ⟨hsig, hleft⟩, if_pos hsig, ih _ _ _ (Nat.le_add_left 1 count), htake,
            singleton_append, take_succ_cons, append_assoc, ← climb_cons, length_cons]
          congr 2
          omega
        · have htake : blockCount + 1 - count = 0 := by omega
          rw [if_neg fun hboth => hleft hboth.2, ih _ _ _ hcnt, htake, take_zero, take_zero]
      · rw [if_neg fun hboth => hsig hboth.1, if_neg hsig, ih _ _ _ hcnt, nil_append]

end CtsEngine.DirectTrade
