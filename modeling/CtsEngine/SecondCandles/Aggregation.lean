import CtsEngine.Foundation.Grouping
import Mathlib.Data.List.Dedup
import Mathlib.Data.List.Sort
import Mathlib.Data.Rat.Floor

/-!
# One-second candles

`aggregateTradesTo1sOHLCV` makes the candles of a list of trades in the order in which they arrive.
A price or quantity that is not a finite number is `none`.
-/

namespace CtsEngine

open List Keyed

structure RawTrade where
  timestamp : ℚ
  price : Option ℚ
  quantity : Option ℚ

structure OHLCV1s where
  timestamp : ℤ
  openPrice : ℚ
  high : ℚ
  low : ℚ
  close : ℚ
  volume : ℚ
deriving DecidableEq

/-- What the candles have of a trade: the start of its second, its price and its size. -/
structure Tick where
  second : ℤ
  price : ℚ
  size : ℚ

/-! ## The aggregator -/

/-- The checks at the start of the loop. -/
def acceptTrade (startMs endMs : ℚ) (t : RawTrade) : Option Tick :=
  match t.price, t.quantity with
  | some price, some qty =>
    if t.timestamp < startMs ∨ endMs ≤ t.timestamp then none
    else if price ≤ 0 then none
    else some ⟨⌊t.timestamp / 1000⌋ * 1000, price, |qty|⟩
  | _, _ => none

/-- The candle of the first trade of a second. -/
def newCandle (tick : Tick) : OHLCV1s where
  timestamp := tick.second
  openPrice := tick.price
  high := tick.price
  low := tick.price
  close := tick.price
  volume := tick.size

/-- A candle with a further trade. -/
def updateCandle (existing : OHLCV1s) (tick : Tick) : OHLCV1s :=
  { existing with
    close := tick.price
    high := if existing.high < tick.price then tick.price else existing.high
    low := if tick.price < existing.low then tick.price else existing.low
    volume := existing.volume + tick.size }

/-- One round of the loop. -/
def addTrade (startMs endMs : ℚ) (buckets : List (ℤ × OHLCV1s)) (t : RawTrade) :
    List (ℤ × OHLCV1s) :=
  match acceptTrade startMs endMs t with
  | none => buckets
  | some tick =>
    match get? buckets tick.second with
    | none => put buckets tick.second (newCandle tick)
    | some existing => put buckets tick.second (updateCandle existing tick)

/-- Candles in the order of their seconds. -/
def sortCandles (candles : List OHLCV1s) : List OHLCV1s :=
  candles.insertionSort fun a b => a.timestamp ≤ b.timestamp

def aggregateTradesTo1sOHLCV (trades : List RawTrade) (startMs endMs : ℚ) : List OHLCV1s :=
  if trades = [] ∨ endMs ≤ startMs then []
  else sortCandles ((trades.foldl (addTrade startMs endMs) []).map Prod.snd)

/-- The trades that count in a window. -/
def ticksOf (startMs endMs : ℚ) (trades : List RawTrade) : List Tick :=
  trades.filterMap (acceptTrade startMs endMs)

/-- The trades of one second. -/
def inSecond (second : ℤ) (ticks : List Tick) : List Tick :=
  ticks.filter fun tick => tick.second = second

/-- The candle of a second: its first and last price, the extremes and the sum of the sizes. -/
def secondCandle (second : ℤ) : List Tick → Option OHLCV1s
  | [] => none
  | tick :: rest => some {
      timestamp := second
      openPrice := tick.price
      high := (rest.map Tick.price).foldl max tick.price
      low := (rest.map Tick.price).foldl min tick.price
      close := ((tick :: rest).getLast (cons_ne_nil _ _)).price
      volume := ((tick :: rest).map Tick.size).sum }

/-- The candles of a tape in a window. -/
def trueCandles (startMs endMs : ℚ) (trades : List RawTrade) : List OHLCV1s :=
  let ticks := ticksOf startMs endMs trades
  ((ticks.map Tick.second).dedup.insertionSort (· ≤ ·)).filterMap fun second =>
    secondCandle second (inSecond second ticks)

/-! ## The aggregator makes the candles of each second -/

/-- A candle before its first trade is counted. -/
def emptyCandle (tick : Tick) : OHLCV1s := { newCandle tick with volume := 0 }

lemma updateCandle_emptyCandle (tick : Tick) :
    updateCandle (emptyCandle tick) tick = newCandle tick := by
  simp [updateCandle, emptyCandle, newCandle]

lemma foldl_addTrade (startMs endMs : ℚ) (trades : List RawTrade) :
    trades.foldl (addTrade startMs endMs) [] =
      collect Tick.second emptyCandle updateCandle (ticksOf startMs endMs trades) := by
  rw [collect, ticksOf, foldl_filterMap]
  congr 1
  funext buckets t
  rw [addTrade]
  cases acceptTrade startMs endMs t with
  | none => rfl
  | some tick =>
    dsimp only
    cases get? buckets tick.second with
    | none => rw [Option.getD_none, updateCandle_emptyCandle]
    | some existing => rw [Option.getD_some]

lemma foldl_updateCandle (candle : OHLCV1s) (ticks : List Tick) :
    ticks.foldl updateCandle candle = {
      timestamp := candle.timestamp
      openPrice := candle.openPrice
      high := (ticks.map Tick.price).foldl max candle.high
      low := (ticks.map Tick.price).foldl min candle.low
      close := (ticks.getLast?.map Tick.price).getD candle.close
      volume := candle.volume + (ticks.map Tick.size).sum } := by
  induction ticks generalizing candle with
  | nil => simp
  | cons tick ticks ih =>
    have hhigh : (updateCandle candle tick).high = max candle.high tick.price := by
      rw [updateCandle, max_def_lt]
    have hlow : (updateCandle candle tick).low = min candle.low tick.price := by
      rw [updateCandle, min_comm, min_def_lt]
    have hcl : (((tick :: ticks).getLast?).map Tick.price).getD candle.close =
        ((ticks.getLast?).map Tick.price).getD tick.price := by
      rw [getLast?_cons]
      cases ticks.getLast? with
      | none => rfl
      | some last => rfl
    have hvolum : (updateCandle candle tick).volume + (ticks.map Tick.size).sum =
        candle.volume + ((tick :: ticks).map Tick.size).sum := by
      rw [map_cons, sum_cons, ← add_assoc]
      rfl
    rw [foldl_cons, ih, hhigh, hlow, hcl, hvolum]
    rfl

lemma foldl_emptyCandle (tick : Tick) (rest : List Tick) :
    some ((tick :: rest).foldl updateCandle (emptyCandle tick)) =
      secondCandle tick.second (tick :: rest) := by
  have hcl : (rest.getLast?.map Tick.price).getD tick.price =
      ((tick :: rest).getLast (cons_ne_nil _ _)).price := by
    rcases eq_nil_or_concat rest with rfl | ⟨init, last, rfl⟩
    · rfl
    · simp
  rw [foldl_cons, updateCandle_emptyCandle, foldl_updateCandle, secondCandle, ← hcl]
  rfl

lemma timestamp_of_secondCandle {second : ℤ} {ticks : List Tick} {candle : OHLCV1s}
    (h : secondCandle second ticks = some candle) : candle.timestamp = second := by
  cases ticks with
  | nil => cases h
  | cons tick rest =>
    rw [secondCandle, Option.some_inj] at h
    rw [← h]

section Window

variable (startMs endMs : ℚ) (trades : List RawTrade)

lemma ticksOf_eq_nil (h : endMs ≤ startMs) : ticksOf startMs endMs trades = [] := by
  refine filterMap_eq_nil_iff.mpr fun t _ => ?_
  unfold acceptTrade
  split
  · rw [if_pos]
    rcases lt_or_ge t.timestamp startMs with hlt | hge
    · exact .inl hlt
    · exact .inr (h.trans hge)
  · rfl

lemma aggregate_eq : aggregateTradesTo1sOHLCV trades startMs endMs =
    sortCandles ((firsts Tick.second (ticksOf startMs endMs trades)).map fun tick =>
      (inSecond tick.second (ticksOf startMs endMs trades)).foldl updateCandle
        (emptyCandle tick)) := by
  rw [aggregateTradesTo1sOHLCV]
  split
  case isTrue hemp =>
    have hticks : ticksOf startMs endMs trades = [] := by
      rcases hemp with rfl | hwin
      · rfl
      · exact ticksOf_eq_nil startMs endMs trades hwin
    rw [hticks]
    rfl
  case isFalse =>
    rw [foldl_addTrade, collect_eq, map_map]
    rfl

variable {startMs endMs trades} in
lemma candle_of_mem_firsts {tick : Tick}
    (h : tick ∈ firsts Tick.second (ticksOf startMs endMs trades)) :
    some ((inSecond tick.second (ticksOf startMs endMs trades)).foldl updateCandle
      (emptyCandle tick)) =
        secondCandle tick.second (inSecond tick.second (ticksOf startMs endMs trades)) := by
  have hhead : (inSecond tick.second (ticksOf startMs endMs trades)).head? = some tick :=
    head?_filter_of_mem_firsts Tick.second h
  obtain ⟨rest, hrest⟩ := head?_eq_some_iff.mp hhead
  rw [hrest, foldl_emptyCandle]

lemma mem_aggregate (candle : OHLCV1s) : candle ∈ aggregateTradesTo1sOHLCV trades startMs endMs ↔
      ∃ second, secondCandle second (inSecond second (ticksOf startMs endMs trades)) =
        some candle := by
  rw [aggregate_eq, sortCandles, mem_insertionSort, mem_map]
  constructor
  · rintro ⟨tick, htick, rfl⟩
    exact ⟨tick.second, (candle_of_mem_firsts htick).symm⟩
  · rintro ⟨second, hcand⟩
    have hne : inSecond second (ticksOf startMs endMs trades) ≠ [] := by
      intro hnil
      rw [hnil] at hcand
      cases hcand
    obtain ⟨tick, htick⟩ := exists_mem_of_ne_nil _ hne
    obtain ⟨hmem, hsec⟩ := mem_filter.mp htick
    obtain ⟨first, hfst, hkey⟩ :=
      (firsts_spec Tick.second (ticksOf startMs endMs trades)).2.2 tick hmem
    have hsame : first.second = second := hkey.trans (of_decide_eq_true hsec)
    refine ⟨first, hfst, Option.some_inj.mp ?_⟩
    rw [candle_of_mem_firsts hfst, hsame, hcand]

lemma pairwise_aggregate : (aggregateTradesTo1sOHLCV trades startMs endMs).Pairwise
    fun a b => a.timestamp < b.timestamp := by
  rw [aggregate_eq]
  have hfirs := (firsts_spec Tick.second (ticksOf startMs endMs trades)).2.1
  have hne : (sortCandles ((firsts Tick.second (ticksOf startMs endMs trades)).map
      fun tick => (inSecond tick.second (ticksOf startMs endMs trades)).foldl updateCandle
        (emptyCandle tick))).Pairwise fun a b => a.timestamp ≠ b.timestamp := by
    refine ((perm_insertionSort _ _).pairwise_iff fun h => h.symm).mpr ?_
    rw [pairwise_map]
    refine (pairwise_map.mp hfirs).imp_of_mem fun ha hb hab => ?_
    rw [timestamp_of_secondCandle (candle_of_mem_firsts ha).symm,
      timestamp_of_secondCandle (candle_of_mem_firsts hb).symm]
    exact hab
  exact ((pairwise_insertionSort _ _).and hne).imp fun h => lt_of_le_of_ne h.1 h.2

lemma mem_trueCandles (candle : OHLCV1s) : candle ∈ trueCandles startMs endMs trades ↔
      ∃ second, secondCandle second (inSecond second (ticksOf startMs endMs trades)) =
        some candle := by
  rw [trueCandles, mem_filterMap]
  constructor
  · rintro ⟨second, -, hcand⟩
    exact ⟨second, hcand⟩
  · rintro ⟨second, hcand⟩
    refine ⟨second, ?_, hcand⟩
    have hne : inSecond second (ticksOf startMs endMs trades) ≠ [] := by
      intro hnil
      rw [hnil] at hcand
      cases hcand
    obtain ⟨tick, htick⟩ := exists_mem_of_ne_nil _ hne
    obtain ⟨hmem, hsec⟩ := mem_filter.mp htick
    rw [mem_insertionSort, mem_dedup, mem_map]
    exact ⟨tick, hmem, of_decide_eq_true hsec⟩

lemma pairwise_trueCandles : (trueCandles startMs endMs trades).Pairwise
    fun a b => a.timestamp < b.timestamp := by
  have hlt : (((ticksOf startMs endMs trades).map Tick.second).dedup.insertionSort
      (· ≤ ·)).Pairwise (· < ·) := by
    have hnodup := (perm_insertionSort (· ≤ ·)
      ((ticksOf startMs endMs trades).map Tick.second).dedup).nodup_iff.mpr (nodup_dedup _)
    exact ((pairwise_insertionSort _ _).and hnodup).imp fun h => lt_of_le_of_ne h.1 h.2
  refine List.Pairwise.filterMap _ (fun _ _ hab a ha b hb => ?_) hlt
  rwa [timestamp_of_secondCandle ha, timestamp_of_secondCandle hb]

end Window

/-- The aggregator makes the candles of a tape of other trades when the trades of each second have
the same candle. -/
theorem aggregate_eq_trueCandles_iff (startMs endMs : ℚ) (arrived tape : List RawTrade) :
    aggregateTradesTo1sOHLCV arrived startMs endMs = trueCandles startMs endMs tape ↔
      ∀ second, secondCandle second (inSecond second (ticksOf startMs endMs arrived)) =
        secondCandle second (inSecond second (ticksOf startMs endMs tape)) := by
  constructor
  · intro heq second
    refine Option.ext fun candle => ?_
    have hmem := mem_aggregate startMs endMs arrived candle
    rw [heq, mem_trueCandles] at hmem
    constructor
    · intro h
      obtain ⟨other, hoth⟩ := hmem.mpr ⟨second, h⟩
      rwa [← timestamp_of_secondCandle h, timestamp_of_secondCandle hoth]
    · intro h
      obtain ⟨other, hoth⟩ := hmem.mp ⟨second, h⟩
      rwa [← timestamp_of_secondCandle h, timestamp_of_secondCandle hoth]
  · intro h
    refine (pairwise_aggregate startMs endMs arrived).eq_of_mem_iff
      (pairwise_trueCandles startMs endMs tape) fun candle => ?_
    rw [mem_aggregate, mem_trueCandles]
    exact exists_congr fun second => by rw [h second]

/-- The candle of a second is made of some of its trades as of all of them: the first and the last
price are the same, and the others have no size and no price beyond the rest. -/
structure SecondSurvives (delivered lost whole : List Tick) : Prop where
  opens : delivered.head?.map Tick.price = whole.head?.map Tick.price
  closes : delivered.getLast?.map Tick.price = whole.getLast?.map Tick.price
  size_eq : ∀ tick ∈ lost, tick.size = 0
  exists_ge : ∀ tick ∈ lost, ∃ other ∈ delivered, tick.price ≤ other.price
  exists_le : ∀ tick ∈ lost, ∃ other ∈ delivered, other.price ≤ tick.price

lemma foldl_max_eq_iff {α : Type*} [LinearOrder α] {x y : α} {xs ys zs : List α}
    (h : (y :: ys).Perm (x :: xs ++ zs)) :
    xs.foldl max x = ys.foldl max y ↔ ∀ z ∈ zs, ∃ w ∈ x :: xs, z ≤ w := by
  have hgreat : ∀ (a : α) (l : List α), l.foldl max a ∈ a :: l ∧
      ∀ b ∈ a :: l, b ≤ l.foldl max a := fun a l =>
    max?_eq_some_iff.mp max?_cons'
  obtain ⟨hx, hxs⟩ := hgreat x xs
  obtain ⟨hy, hys⟩ := hgreat y ys
  constructor
  · intro heq z hz
    refine ⟨_, hx, ?_⟩
    rw [heq]
    exact hys z (h.mem_iff.mpr (mem_append_right _ hz))
  · intro hall
    refine le_antisymm (hys _ (h.mem_iff.mpr (mem_append_left _ hx))) ?_
    rcases mem_append.mp (h.mem_iff.mp hy) with hmem | hmem
    · exact hxs _ hmem
    · obtain ⟨w, hw, hle⟩ := hall _ hmem
      exact hle.trans (hxs w hw)

lemma foldl_min_eq_iff {x y : ℚ} {xs ys zs : List ℚ} (h : (y :: ys).Perm (x :: xs ++ zs)) :
    xs.foldl min x = ys.foldl min y ↔ ∀ z ∈ zs, ∃ w ∈ x :: xs, w ≤ z :=
  @foldl_max_eq_iff ℚᵒᵈ _ x y xs ys zs h

lemma sum_eq_zero_iff {ticks : List Tick} (h : ∀ tick ∈ ticks, 0 ≤ tick.size) :
    (ticks.map Tick.size).sum = 0 ↔ ∀ tick ∈ ticks, tick.size = 0 := by
  induction ticks with
  | nil => simp
  | cons tick ticks ih =>
    rw [forall_mem_cons] at h
    have hsum : 0 ≤ (ticks.map Tick.size).sum :=
      sum_nonneg fun size hsize => by
        obtain ⟨other, hoth, rfl⟩ := mem_map.mp hsize
        exact h.2 other hoth
    rw [map_cons, sum_cons, add_eq_zero_iff_of_nonneg h.1 hsum, ih h.2, forall_mem_cons]

/-- **The candle of a second.**  Of trades of a second, those that are delivered have its candle
exactly when the second survives. -/
theorem secondCandle_eq_iff {delivered lost whole : List Tick}
    (hperm : whole.Perm (delivered ++ lost)) (hsize : ∀ tick ∈ whole, 0 ≤ tick.size) (second : ℤ) :
    secondCandle second delivered = secondCandle second whole ↔
      SecondSurvives delivered lost whole := by
  cases delivered with
  | nil =>
    cases whole with
    | nil =>
      have hlost : lost = [] := nil_perm.mp hperm
      subst hlost
      exact ⟨fun _ => ⟨rfl, rfl, by simp, by simp, by simp⟩, fun _ => rfl⟩
    | cons tick rest => exact ⟨nofun, fun h => (by cases h.opens)⟩
  | cons tick rest =>
    cases whole with
    | nil => cases nil_perm.mp hperm
    | cons first others =>
      have hpric : (first.price :: others.map Tick.price).Perm
          (tick.price :: rest.map Tick.price ++ lost.map Tick.price) := by
        have h := hperm.map Tick.price
        rwa [map_append] at h
      have hhigh : (rest.map Tick.price).foldl max tick.price =
          (others.map Tick.price).foldl max first.price ↔
            ∀ other ∈ lost, ∃ kept ∈ tick :: rest, other.price ≤ kept.price := by
        simpa using foldl_max_eq_iff hpric
      have hlow : (rest.map Tick.price).foldl min tick.price =
          (others.map Tick.price).foldl min first.price ↔
            ∀ other ∈ lost, ∃ kept ∈ tick :: rest, kept.price ≤ other.price := by
        simpa using foldl_min_eq_iff hpric
      have hvolum : ((tick :: rest).map Tick.size).sum = ((first :: others).map Tick.size).sum ↔
          ∀ other ∈ lost, other.size = 0 := by
        rw [(hperm.map Tick.size).sum_eq, map_append, sum_append, left_eq_add,
          sum_eq_zero_iff fun other hoth =>
            hsize other (hperm.mem_iff.mpr (mem_append_right _ hoth))]
      have hcl : ((tick :: rest).getLast (cons_ne_nil _ _)).price =
          ((first :: others).getLast (cons_ne_nil _ _)).price ↔
            (tick :: rest).getLast?.map Tick.price = (first :: others).getLast?.map Tick.price := by
        rw [getLast?_eq_some_getLast (cons_ne_nil _ _),
          getLast?_eq_some_getLast (cons_ne_nil _ _), Option.map_some, Option.map_some,
          Option.some_inj]
      rw [secondCandle, secondCandle, Option.some_inj, OHLCV1s.mk.injEq]
      constructor
      · rintro ⟨-, hopen, hmax, hmin, hlast, hsum⟩
        exact ⟨congrArg some hopen, hcl.mp hlast, hvolum.mp hsum, hhigh.mp hmax, hlow.mp hmin⟩
      · intro h
        exact ⟨rfl, Option.some_inj.mp h.opens, hhigh.mpr h.exists_ge, hlow.mpr h.exists_le,
          hcl.mpr h.closes, hvolum.mpr h.size_eq⟩

end CtsEngine
