import CtsEngine.Block.Lifecycle
import CtsEngine.Foundation.TickGrid

/-!
# The stop-loss price that a venue accepts

`allowedStopLossPrice` of `lib/protection-allowed-range.ts`: a stop that is too near to the mark
price or to the liquidation price is moved to the nearer of two bounds and rounded to the tick, away
from the mark unless this leads past the liquidation bound.

A short stop is a long one with the signs of all prices changed.
-/

namespace CtsEngine

open Option

namespace StopLevels

open SignificantDigits TickGrid

/-- `Number(value.toPrecision(15))`. -/
def toPrecision15 (value : ℚ) : ℚ := round 15 value

/-- The part of a tick by which a price may miss the grid. -/
def tickTolerance : ℚ := 1 / 10 ^ 9

/-- `positive`: a number that is missing or not finite counts as zero. -/
def positive (value : Option ℚ) : ℚ :=
  match value with
  | some parsed => if 0 < parsed then parsed else 0
  | none => 0

/-- `long ? a > b : a < b`. -/
def isAbove (direction : Direction) (a b : ℚ) : Prop :=
  match direction with
  | .long => b < a
  | .short => a < b

instance (direction : Direction) (a b : ℚ) : Decidable (isAbove direction a b) :=
  match direction with
  | .long => inferInstanceAs (Decidable (b < a))
  | .short => inferInstanceAs (Decidable (a < b))

/-- `long ? price - gap : price + gap`. -/
def lowered (direction : Direction) (price gap : ℚ) : ℚ :=
  match direction with
  | .long => price - gap
  | .short => price + gap

/-- The modes of `onTick`. -/
inductive TickMode
  | floor
  | ceil

def onTick (value tick : ℚ) (mode : TickMode) : ℚ :=
  if 0 < tick then
    let units := value / tick
    let rounded : ℤ :=
      match mode with
      | .floor => ⌊units + tickTolerance⌋
      | .ceil => ⌈units - tickTolerance⌉
    toPrecision15 (rounded * tick)
  else value

inductive AllowedStopReason
  | within_range
  | mark_distance
  | liquidation
  | crossed
  | unsatisfiable
  | invalid
deriving DecidableEq

/-- `AllowedStopInput`; a number is `none` when it is missing or not finite. -/
structure AllowedStopInput where
  direction : Direction
  entryPrice : Option ℚ
  stopPrice : Option ℚ
  markPrice : Option ℚ := none
  liquidationPrice : Option ℚ := none
  priceTick : Option ℚ := none
  minMarkTicks : Option ℚ := none

structure AllowedStopResult where
  stopPrice : ℚ
  adjusted : Bool
  reason : AllowedStopReason

namespace AllowedStopInput

variable (input : AllowedStopInput)

/-- The ticks that the stop must keep from the mark. -/
def ticks : ℤ := max 1 ⌊numOrConst input.minMarkTicks 2⌋

def markGap : ℚ :=
  let tick := positive input.priceTick
  let mark := positive input.markPrice
  if 0 < tick then input.ticks * tick
  else (if mark ≠ 0 then mark else positive input.entryPrice) * (2 / 10 ^ 4) * input.ticks

/-- `markBound`, which is `NaN` without a mark. -/
def markBound : Option ℚ :=
  let mark := positive input.markPrice
  if 0 < mark then some (lowered input.direction mark input.markGap) else none

/-- `liquidationGap` of a valid liquidation price. -/
def liquidationGap : ℚ :=
  max (2 * positive input.priceTick)
    (|positive input.entryPrice - positive input.liquidationPrice| * (1 / 10))

/-- `liquidationBound`, which is `NaN` without a liquidation price on the right side of the
entry. -/
def liquidationBound : Option ℚ :=
  let liquidation := positive input.liquidationPrice
  if 0 < liquidation ∧ isAbove input.direction (positive input.entryPrice) liquidation then
    some (lowered input.direction liquidation (-input.liquidationGap))
  else none

end AllowedStopInput

/-- The stop moved to the bounds, and the reason of the last move. -/
def moveStop (direction : Direction) (markBound liquidationBound : Option ℚ) (stop : ℚ) :
    ℚ × AllowedStopReason :=
  let moved :=
    match markBound with
    | some bound =>
      if isAbove direction stop bound then (bound, .mark_distance) else (stop, .within_range)
    | none => (stop, .within_range)
  match liquidationBound with
  | some bound => if isAbove direction bound moved.1 then (bound, .liquidation) else moved
  | none => moved

/-- The moved stop on the tick: away from the mark, or towards it where that leads past the
liquidation bound. -/
def roundStop (direction : Direction) (liquidationBound : Option ℚ) (tick next : ℚ) : ℚ :=
  let rounded := onTick next tick (if direction = .long then .floor else .ceil)
  if liquidationBound.any fun bound => isAbove direction bound rounded then
    onTick next tick (if direction = .long then .ceil else .floor)
  else rounded

/-- The bounds leave no room. -/
def boundsCross (direction : Direction) (markBound liquidationBound : Option ℚ) : Bool :=
  markBound.any fun mark => liquidationBound.any fun liquidation =>
    isAbove direction liquidation mark

def allowedStopLossPrice (input : AllowedStopInput) : AllowedStopResult :=
  let stop := positive input.stopPrice
  let mark := positive input.markPrice
  if stop = 0 ∨ positive input.entryPrice = 0 then ⟨stop, false, .invalid⟩
  else if 0 < mark ∧ ¬isAbove input.direction mark stop then ⟨stop, false, .crossed⟩
  else
    let (next, reason) := moveStop input.direction input.markBound input.liquidationBound stop
    if boundsCross input.direction input.markBound input.liquidationBound then
      ⟨stop, false, .unsatisfiable⟩
    else if reason = .within_range then ⟨stop, false, reason⟩
    else
      let rounded :=
        roundStop input.direction input.liquidationBound (positive input.priceTick) next
      if ¬0 < rounded then ⟨stop, false, .invalid⟩
      else ⟨rounded, decide (1 / 10 ^ 12 < |rounded - stop|), reason⟩

/-! ## Signed prices -/

/-- The sign that makes a stop of the direction a long one. -/
def sign (direction : Direction) : ℚ :=
  match direction with
  | .long => 1
  | .short => -1

variable (direction : Direction) (input : AllowedStopInput)

lemma isAbove_iff (a b : ℚ) : isAbove direction a b ↔ sign direction * b < sign direction * a := by
  cases direction <;> simp [isAbove, sign]

lemma sign_mul_lowered (price gap : ℚ) :
    sign direction * lowered direction price gap = sign direction * price - gap := by
  cases direction
  · simp [lowered, sign]
  · simp only [lowered, sign]
    ring

lemma sign_mul_injective {a b : ℚ} (h : sign direction * a = sign direction * b) : a = b := by
  cases direction <;> simpa [sign] using h

lemma tickTolerance_bounds : 0 ≤ tickTolerance ∧ tickTolerance ≤ 1 / 20 := by
  rw [tickTolerance]
  norm_num

lemma sign_mul_onTick {tick : ℚ} (htick : 0 < tick) (value : ℚ) :
    sign direction * onTick value tick (if direction = .long then .floor else .ceil) =
        down 15 tickTolerance tick (sign direction * value) ∧
      sign direction * onTick value tick (if direction = .long then .ceil else .floor) =
        up 15 tickTolerance tick (sign direction * value) := by
  cases direction
  · simp [onTick, htick, sign, toPrecision15, down, up, below, above]
  · have hdown := down_neg 15 tickTolerance tick value
    have hup := up_neg 15 tickTolerance tick value
    simp only [sign, neg_one_mul, hdown, hup]
    simp [onTick, htick, toPrecision15, down, up, below, above]

lemma sign_mul_roundStop (liquidationBound : Option ℚ) {tick : ℚ} (htick : 0 < tick) (next : ℚ) :
    sign direction * roundStop direction liquidationBound tick next =
      within 15 tickTolerance tick (liquidationBound.map (sign direction * ·))
        (sign direction * next) := by
  obtain ⟨hdown, hup⟩ := sign_mul_onTick direction htick next
  rw [roundStop, within, apply_ite (sign direction * ·), hdown, hup, Option.any_map]
  rcases liquidationBound with - | bound
  · rfl
  · simp only [isAbove_iff, hdown]

/-! ## What is returned -/

section

variable {direction : Direction} {markBound liquidationBound : Option ℚ}
  (hroom : boundsCross direction markBound liquidationBound = false) (stop : ℚ)

include hroom stop

lemma moveStop_cases : (moveStop direction markBound liquidationBound stop).2 = .within_range ∨
      ((moveStop direction markBound liquidationBound stop).1 ∈ markBound ∧
        isAbove direction stop (moveStop direction markBound liquidationBound stop).1) ∨
      ((moveStop direction markBound liquidationBound stop).1 ∈ liquidationBound ∧
        isAbove direction (moveStop direction markBound liquidationBound stop).1 stop) := by
  unfold moveStop
  rcases markBound with - | mark <;> rcases liquidationBound with - | liquidation <;>
    simp only [boundsCross] at hroom ⊢ <;>
    grind

lemma moveStop_within : (∀ bound ∈ markBound,
        ¬isAbove direction (moveStop direction markBound liquidationBound stop).1 bound) ∧
      ∀ bound ∈ liquidationBound,
        ¬isAbove direction bound (moveStop direction markBound liquidationBound stop).1 := by
  unfold moveStop
  rcases markBound with - | mark <;> rcases liquidationBound with - | liquidation <;>
    simp only [boundsCross, isAbove_iff] at hroom ⊢ <;>
    grind

end

/-- The returned price is a moved stop on the tick. -/
structure IsMoved (input : AllowedStopInput) (price next : ℚ) : Prop where
  moved : (next ∈ input.markBound ∧ isAbove input.direction (positive input.stopPrice) next) ∨
    (next ∈ input.liquidationBound ∧ isAbove input.direction next (positive input.stopPrice))
  mark : ∀ bound ∈ input.markBound, ¬isAbove input.direction next bound
  liquidation : ∀ bound ∈ input.liquidationBound, ¬isAbove input.direction bound next
  pos : 0 < price
  rounded : price = roundStop input.direction input.liquidationBound (positive input.priceTick) next

lemma allowedStopLossPrice_cases :
    ((allowedStopLossPrice input).stopPrice = positive input.stopPrice ∧
        (allowedStopLossPrice input).adjusted = false) ∨
      ∃ next, IsMoved input (allowedStopLossPrice input).stopPrice next := by
  unfold allowedStopLossPrice
  dsimp only
  split_ifs with hvalid hcros hcross hreas hroun
  · exact .inl ⟨rfl, rfl⟩
  · exact .inl ⟨rfl, rfl⟩
  · exact .inl ⟨rfl, rfl⟩
  · exact .inl ⟨rfl, rfl⟩
  · have hroom := Bool.not_eq_true _ ▸ hcross
    obtain ⟨hmark, hliq⟩ := moveStop_within hroom (positive input.stopPrice)
    exact .inr ⟨_, (moveStop_cases hroom (positive input.stopPrice)).resolve_left hreas, hmark,
      hliq, hroun, rfl⟩
  · exact .inl ⟨rfl, rfl⟩

lemma allowedStopLossPrice_congr {a b : Option ℚ} (h : positive a = positive b) :
    allowedStopLossPrice { input with stopPrice := a } =
      allowedStopLossPrice { input with stopPrice := b } := by
  have hmark : ({ input with stopPrice := a } : AllowedStopInput).markBound =
    ({ input with stopPrice := b } : AllowedStopInput).markBound := rfl
  have hliq : ({ input with stopPrice := a } : AllowedStopInput).liquidationBound =
    ({ input with stopPrice := b } : AllowedStopInput).liquidationBound := rfl
  simp only [allowedStopLossPrice, h, hmark, hliq]

lemma IsMoved.eq {input : AllowedStopInput} {price next next' : ℚ} (h : IsMoved input price next)
    (hnext' : (next' ∈ input.markBound ∧ isAbove input.direction price next') ∨
      (next' ∈ input.liquidationBound ∧ isAbove input.direction next' price)) :
    roundStop input.direction input.liquidationBound (positive input.priceTick) next' = price := by
  rcases lt_or_ge 0 (positive input.priceTick) with htick | htick
  · apply sign_mul_injective input.direction
    have hpr := congrArg (sign input.direction * ·) h.rounded
    simp only [sign_mul_roundStop _ _ htick, isAbove_iff] at hpr hnext' ⊢
    obtain ⟨hε, hε'⟩ := tickTolerance_bounds
    rcases hnext' with ⟨hin', hbeyon⟩ | ⟨hin', hbeyon⟩ <;>
      rcases h.moved with ⟨hin, -⟩ | ⟨hin, -⟩
    · rw [hpr, mem_unique hin hin']
    · have hle := h.mark next' hin'
      rw [isAbove_iff, not_lt] at hle
      rw [mem_def.mp hin] at hpr ⊢
      rw [hpr] at hbeyon ⊢
      exact within_eq_of_lt (by norm_num) htick hε' hε hle hbeyon
    · have hle := h.liquidation next' hin'
      rw [isAbove_iff, not_lt] at hle
      rw [mem_def.mp hin'] at hpr ⊢
      rw [hpr] at hbeyon ⊢
      exact within_eq_of_gt (by norm_num) htick hε' hle hbeyon
    · rw [hpr, mem_unique hin hin']
  · have hpr : price = next := by
      rw [h.rounded, roundStop, onTick, onTick, if_neg htick.not_gt, if_neg htick.not_gt, ite_self]
    rcases hnext' with ⟨hin', hbeyon⟩ | ⟨hin', hbeyon⟩
    · exact absurd (hpr ▸ hbeyon) (h.mark next' hin')
    · exact absurd (hpr ▸ hbeyon) (h.liquidation next' hin')

lemma allowedStopLossPrice_stable : (allowedStopLossPrice
        { input with stopPrice := some (allowedStopLossPrice input).stopPrice }).stopPrice =
      (allowedStopLossPrice input).stopPrice := by
  rcases allowedStopLossPrice_cases input with ⟨hsame, -⟩ | ⟨next, hmoved⟩
  · have hread : positive (some (positive input.stopPrice)) = positive input.stopPrice := by
      rcases input.stopPrice with - | stop
      · rfl
      · simp only [positive]
        split_ifs <;> simp_all
    rw [hsame, allowedStopLossPrice_congr input hread]
    exact hsame
  · generalize (allowedStopLossPrice input).stopPrice = price at hmoved ⊢
    have hread : positive (some price) = price := by simp [positive, hmoved.pos]
    rcases allowedStopLossPrice_cases { input with stopPrice := some price } with
      ⟨hsame, -⟩ | ⟨next', hmoved'⟩
    · rw [hsame, hread]
    · have hnext' := hmoved'.moved
      rw [hread] at hnext'
      rw [hmoved'.rounded]
      exact hmoved.eq hnext'

namespace AllowedStopInput

/-- A price that lies between the bounds. -/
def Admits (input : AllowedStopInput) (price : ℚ) : Prop :=
  (∀ bound ∈ input.markBound, ¬isAbove input.direction price bound) ∧
    ∀ bound ∈ input.liquidationBound, ¬isAbove input.direction bound price

/-- The price of a number of ticks, as the code writes it. -/
def tickPrice (input : AllowedStopInput) (n : ℤ) : ℚ := toPrecision15 (n * positive input.priceTick)

/-- The part of a price by which the grid may be missed. -/
def slack (input : AllowedStopInput) : ℚ := tickTolerance * positive input.priceTick

/-- A price on the tick that keeps its distance to the mark and to the liquidation price, up to the
tolerance and to the digits that are written, and is strictly on the safe side of a liquidation
price whose digits are not coarser than the tick. -/
structure Places (input : AllowedStopInput) (price : ℚ) : Prop where
  on_tick : ∃ n, price = input.tickPrice n
  mark : ∀ bound ∈ input.markBound, ¬isAbove input.direction price
    (toPrecision15 (lowered input.direction bound (-input.slack)))
  liquidation : ∀ bound ∈ input.liquidationBound, ¬isAbove input.direction
    (toPrecision15 (lowered input.direction bound input.slack)) price
  strictly : ∀ bound ∈ input.liquidationBound,
    unit 15 |lowered input.direction bound input.slack| ≤ positive input.priceTick →
    isAbove input.direction price (positive input.liquidationPrice)

end AllowedStopInput

lemma exists_sign_mul_round (tick : ℚ) (n : ℤ) :
    ∃ m : ℤ, sign direction * round 15 (n * tick) = round 15 (m * tick) ∧
      sign direction * round 15 (m * tick) = round 15 (n * tick) := by
  cases direction
  · exact ⟨n, one_mul _, one_mul _⟩
  · refine ⟨-n, ?_, ?_⟩ <;> simp [sign, round_neg]

lemma sign_mul_toPrecision15 (x : ℚ) :
    sign direction * toPrecision15 x = round 15 (sign direction * x) := by
  cases direction <;> simp [sign, toPrecision15, round_neg]

lemma abs_sign_mul (x : ℚ) : |sign direction * x| = |x| := by
  cases direction <;> simp [sign]

/-- A moved stop is placed, where some tick is admitted. -/
lemma IsMoved.places {input : AllowedStopInput} {price next : ℚ} (h : IsMoved input price next)
    (htick : 0 < positive input.priceTick) (hroom : ∃ m, input.Admits (input.tickPrice m)) :
    input.Places price := by
  obtain ⟨hε, -⟩ := tickTolerance_bounds
  obtain ⟨m, hm, hm'⟩ := hroom
  obtain ⟨k, hk, -⟩ := exists_sign_mul_round input.direction (positive input.priceTick) m
  have hpr := congrArg (sign input.direction * ·) h.rounded
  simp only [sign_mul_roundStop _ _ htick] at hpr
  obtain ⟨⟨n, hn⟩, hlow, hup⟩ := @within_bounds 15 tickTolerance
    (positive input.priceTick) (sign input.direction * next) (by norm_num) htick hε
    (input.liquidationBound.map (sign input.direction * ·))
    (input.markBound.map (sign input.direction * ·))
    (by
      intro bound hbd
      obtain ⟨b, hb, rfl⟩ := map_eq_some_iff.mp hbd
      simpa [isAbove_iff] using h.liquidation b hb)
    (by
      intro bound hbd
      obtain ⟨b, hb, rfl⟩ := map_eq_some_iff.mp hbd
      simpa [isAbove_iff] using h.mark b hb)
    ⟨k, by
      intro bound hbd
      obtain ⟨b, hb, rfl⟩ := map_eq_some_iff.mp hbd
      have hle := hm' b hb
      rw [isAbove_iff, not_lt, AllowedStopInput.tickPrice, toPrecision15, hk] at hle
      exact hle, by
      intro bound hbd
      obtain ⟨b, hb, rfl⟩ := map_eq_some_iff.mp hbd
      have hle := hm b hb
      rw [isAbove_iff, not_lt, AllowedStopInput.tickPrice, toPrecision15, hk] at hle
      exact hle⟩
  rw [← hpr] at hn hlow hup
  have hmem : ∀ {o : Option ℚ} {b : ℚ}, b ∈ o →
      sign input.direction * b ∈ o.map (sign input.direction * ·) := by
    intro o b hb
    rw [mem_def.mp hb, map_some, mem_def]
  have hsafe : ∀ bound ∈ input.liquidationBound,
      round 15 (sign input.direction * lowered input.direction bound input.slack) ≤
        sign input.direction * price := by
    intro bound hbd
    rw [sign_mul_lowered]
    exact hlow _ (hmem hbd)
  refine ⟨?_, fun bound hbd => ?_, fun bound hbd => ?_, fun bound hbd hdigs => ?_⟩
  · obtain ⟨i, -, hi'⟩ := exists_sign_mul_round input.direction (positive input.priceTick) n
    refine ⟨i, sign_mul_injective input.direction ?_⟩
    rw [hn, AllowedStopInput.tickPrice, toPrecision15, hi']
  · rw [isAbove_iff, not_lt, sign_mul_toPrecision15, sign_mul_lowered, sub_neg_eq_add]
    exact hup _ (hmem hbd)
  · rw [isAbove_iff, not_lt, sign_mul_toPrecision15]
    exact hsafe bound hbd
  · have hgap : 2 * positive input.priceTick ≤ input.liquidationGap := le_max_left _ _
    have hbd' : sign input.direction * bound =
        sign input.direction * positive input.liquidationPrice + input.liquidationGap := by
      have hvalid := mem_def.mp hbd
      obtain ⟨-, heq⟩ := ite_none_right_eq_some.mp hvalid
      rw [← some.inj heq, sign_mul_lowered, sub_neg_eq_add]
    have hwrote := abs_round_sub_le 15
      (sign input.direction * lowered input.direction bound input.slack)
    rw [abs_sign_mul, abs_le] at hwrote
    have hplace := sign_mul_lowered input.direction bound input.slack
    have hsmall : input.slack ≤ positive input.priceTick := by
      rw [AllowedStopInput.slack, tickTolerance]
      linarith
    rw [isAbove_iff]
    linarith [hsafe bound hbd]

/-- A second call leaves the returned price alone; and where a price of a number of ticks lies
between the bounds, a price that is changed lies on the tick and between the bounds. -/
theorem allowedStopLossPrice_places (input : AllowedStopInput) : (allowedStopLossPrice
        { input with stopPrice := some (allowedStopLossPrice input).stopPrice }).stopPrice =
      (allowedStopLossPrice input).stopPrice ∧
    (0 < positive input.priceTick → (∃ m, input.Admits (input.tickPrice m)) →
      (allowedStopLossPrice input).adjusted = true →
      input.Places (allowedStopLossPrice input).stopPrice) := by
  refine ⟨allowedStopLossPrice_stable input, fun htick hroom hadjusted => ?_⟩
  rcases allowedStopLossPrice_cases input with ⟨-, hsame⟩ | ⟨next, hmoved⟩
  · rw [hsame] at hadjusted
    cases hadjusted
  · exact hmoved.places htick hroom

/-- A long stop one tick below the mark. -/
def nearMark : AllowedStopInput where
  direction := .long
  entryPrice := some 100
  stopPrice := some (994 / 10)
  markPrice := some (9941 / 100)
  liquidationPrice := some 80
  priceTick := some (1 / 100)

theorem allowedStopLossPrice_places_nearMark :
    nearMark.Places (allowedStopLossPrice nearMark).stopPrice :=
  (allowedStopLossPrice_places nearMark).2 (by decide +kernel) ⟨9900, by
      have hprice : nearMark.tickPrice 9900 = 99 := by decide +kernel
      have hmark : nearMark.markBound = some (9939 / 100) := by decide +kernel
      have hliquidation : nearMark.liquidationBound = some 82 := by decide +kernel
      rw [AllowedStopInput.Admits, hprice, hmark, hliquidation]
      norm_num [nearMark, isAbove]⟩
    (by decide +kernel)

/-- A long stop below a mark that lies a ten-billionth of a tick below the grid. -/
def nearGrid : AllowedStopInput where
  direction := .long
  entryPrice := some 110
  stopPrice := some 101
  markPrice := some (102 - 1 / 10 ^ 10)
  priceTick := some 1

/-- The price is taken up to the grid: it keeps a ten-billionth less than two ticks from the
mark. -/
theorem not_places_nearGrid : ¬ ∀ input : AllowedStopInput, 0 < positive input.priceTick →
      (∃ m : ℤ, input.Admits (m * positive input.priceTick)) →
      (allowedStopLossPrice input).adjusted = true →
      (∃ n : ℤ, (allowedStopLossPrice input).stopPrice = n * positive input.priceTick) ∧
        (∀ bound ∈ input.markBound,
          ¬isAbove input.direction (allowedStopLossPrice input).stopPrice bound) ∧
        (∀ bound ∈ input.liquidationBound, isAbove input.direction
          (allowedStopLossPrice input).stopPrice (positive input.liquidationPrice)) := by
  intro h
  have hmark : nearGrid.markBound = some (100 - 1 / 10 ^ 10) := by decide +kernel
  have hprice : (allowedStopLossPrice nearGrid).stopPrice = 100 := by decide +kernel
  have hliquidation : nearGrid.liquidationBound = none := by decide +kernel
  have htick : positive nearGrid.priceTick = 1 := by decide +kernel
  have hkept := (h nearGrid (by decide +kernel) ⟨99, by
    simp only [AllowedStopInput.Admits, hmark, hliquidation, htick, mem_def, reduceCtorEq]
    norm_num [nearGrid, isAbove]⟩ (by decide +kernel)).2.1 _ (by rw [hmark]; rfl)
  rw [hprice] at hkept
  exact hkept (by norm_num [nearGrid, isAbove])

end StopLevels

end CtsEngine
