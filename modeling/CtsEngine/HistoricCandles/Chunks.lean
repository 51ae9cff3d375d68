import CtsEngine.Foundation.JsValue
import CtsEngine.Foundation.Keyed
import Mathlib.Data.List.DropRight
import Mathlib.Data.List.Flatten
import Mathlib.Data.List.Pairwise
import Mathlib.Data.List.Sort

/-!
# Bounded reads of the candle history

The history of a symbol is a list of chunks in Redis, with an index that says of every chunk from
when to when it reaches and how many candles it has.  The readers decide from the index which
chunks they need, read these, and select from them.

A chunk is the value of its JSON text.  Of a candle the readers look at its time only.
-/

open List Keyed

namespace CtsEngine.HistoricCandles

/-- A candle; the readers drop whatever has no positive time. -/
structure HistoricCandle (Bar : Type*) where
  timestamp : ℚ
  bar : Bar
  positive : 0 < timestamp
deriving DecidableEq

/-- The entry of a chunk in the index. -/
structure HistoricChunkRange where
  start : ℚ
  endAt : ℚ
  count : ℕ
deriving DecidableEq

variable {Bar : Type*}

/-! ## Lists and maps -/

def lrange {α : Type*} (list : List α) (start stop : ℕ) : List α :=
  (list.drop start).take (stop + 1 - start)

/-- `list.slice(-count)`, which is the whole list for zero. -/
def sliceFromEnd {α : Type*} (count : ℕ) (list : List α) : List α :=
  if count = 0 then list else list.drop (list.length - count)

/-- The values of a map by time, in the order of their times. -/
def sortedValues (byTimestamp : List (ℚ × HistoricCandle Bar)) : List (HistoricCandle Bar) :=
  (byTimestamp.map Prod.snd).insertionSort fun a b => a.timestamp ≤ b.timestamp

def normalizeHistoricCandles (chunks : List (List (HistoricCandle Bar))) :
    List (HistoricCandle Bar) :=
  sortedValues (chunks.foldl (fun byTimestamp chunk =>
    chunk.foldl (fun byTimestamp candle => put byTimestamp candle.timestamp candle)
      byTimestamp) [])

/-- `Math.max(0, Math.floor(Number(value) || 0))`. -/
def wholeCount (value : Option ℚ) : ℕ := ⌊numOrConst value 0⌋.toNat

variable (ranges : List HistoricChunkRange)

/-- `Math.max(0, Number(ranges[i].count) || 0)`. -/
def countAt (i : ℕ) : ℕ := ((ranges[i]?).map HistoricChunkRange.count).getD 0

/-- The first chunk of a tail: backwards from the last one until the counts suffice. -/
def tailFirst (ranges : List HistoricChunkRange) : ℕ → ℕ → ℕ
  | 0, _ => 0
  | first + 1, remaining =>
    if 0 < remaining then
      if 0 < remaining - max 1 (countAt ranges (first + 1)) then
        tailFirst ranges first (remaining - max 1 (countAt ranges (first + 1)))
      else first + 1
    else first + 1

/-- `getHistoricCandleTail`, without its cache. -/
def getHistoricCandleTail (chunks : List (List (HistoricCandle Bar)))
    (legacy : List (HistoricCandle Bar)) (limit : Option ℚ) : List (HistoricCandle Bar) :=
  let requested := wholeCount limit
  if requested = 0 then []
  else if ranges = [] then sliceFromEnd requested legacy
  else
    let first := tailFirst ranges (ranges.length - 1) requested
    sliceFromEnd requested (normalizeHistoricCandles (lrange chunks first (ranges.length - 1)))

/-- The candles of the range go into the map of the selected ones. -/
def selectChunk (startMs endMs : ℚ) (selected : List (ℚ × HistoricCandle Bar))
    (chunk : List (HistoricCandle Bar)) : List (ℚ × HistoricCandle Bar) :=
  chunk.foldl (fun selected candle =>
    if startMs ≤ candle.timestamp ∧ candle.timestamp ≤ endMs then
      put selected candle.timestamp candle
    else selected) selected

/-- The last chunk of a range: forwards from the first one while the chunks begin in the range. -/
def rangeLast (first : ℕ) (endMs : ℚ) : ℕ :=
  first + ((ranges.drop (first + 1)).takeWhile fun range => range.start ≤ endMs).length

/-- `Math.max(1, Math.min(64, Math.floor(Number(batchChunks) || 8)))`. -/
def batchSize (batchChunks : Option ℚ) : ℕ := (max 1 (min 64 ⌊numOrConst batchChunks 8⌋)).toNat

/-- The batches from a cursor to the last chunk; the fuel is the number of chunks that are left. -/
def readBatches (chunks : List (List (HistoricCandle Bar))) (startMs endMs : ℚ) (batch last : ℕ) :
    ℕ → ℕ → List (ℚ × HistoricCandle Bar) → List (ℚ × HistoricCandle Bar)
  | 0, _, selected => selected
  | fuel + 1, cursor, selected =>
    if cursor ≤ last then
      let batchEnd := min last (cursor + batch - 1)
      readBatches chunks startMs endMs batch last fuel (cursor + batch)
        ((lrange chunks cursor batchEnd).foldl (selectChunk startMs endMs) selected)
    else selected

/-- `getHistoricCandlesForRange`; the bounds may come in either order. -/
def getHistoricCandlesForRange (chunks : List (List (HistoricCandle Bar)))
    (legacy : List (HistoricCandle Bar)) (bound other : ℚ) (batchChunks : Option ℚ) :
    List (HistoricCandle Bar) :=
  let startMs := min bound other
  let endMs := max bound other
  if ranges = [] then
    legacy.filter fun candle => startMs ≤ candle.timestamp ∧ candle.timestamp ≤ endMs
  else
    match ranges.findIdx? fun range => startMs ≤ range.endAt ∧ range.start ≤ endMs with
    | none => []
    | some first =>
      let last := rangeLast ranges first endMs
      sortedValues
        (readBatches chunks startMs endMs (batchSize batchChunks) last (last + 1 - first) first [])

/-! ## A window -/

/-- Which of the pending candles are wanted. -/
inductive PendingOrder
  | earliest
  | latest

structure HistoricWindowOptions where
  afterMs : ℚ
  beforeMs : ℚ
  limit : Option ℚ
  warmup : Option ℚ
  lookahead : Option ℚ
  pendingOrder : PendingOrder

/-- The three parts of a window. -/
structure HistoricWindow (Bar : Type*) where
  warmup : List (HistoricCandle Bar)
  pending : List (HistoricCandle Bar)
  lookahead : List (HistoricCandle Bar)

/-- The first chunk of the latest candles: backwards while a chunk has fewer rows than needed. -/
def latestFirst (ranges : List HistoricChunkRange) : ℕ → ℕ → ℕ
  | 0, _ => 0
  | first + 1, rowsNeeded =>
    if countAt ranges (first + 1) < rowsNeeded then
      latestFirst ranges first (rowsNeeded - max 1 (countAt ranges (first + 1)))
    else first + 1

/-- The first chunk of the warmup of the earliest candles: a chunk is counted when it is left. -/
def earliestFirst (ranges : List HistoricChunkRange) : ℕ → ℕ → ℕ
  | 0, _ => 0
  | first + 1, warmupNeeded =>
    if 0 < warmupNeeded then
      earliestFirst ranges first (warmupNeeded - max 1 (countAt ranges (first + 1)))
    else first + 1

/-- The last chunk of the lookahead, along the chunks from `last` on. -/
def lookaheadLast : List HistoricChunkRange → ℕ → ℕ → ℕ
  | range :: next :: rest, last, lookaheadNeeded =>
    if range.count < lookaheadNeeded then
      lookaheadLast (next :: rest) (last + 1) (lookaheadNeeded - max 1 range.count)
    else last
  | _, last, _ => last

/-- The last chunk of the latest candles: in front of the first one that begins after them. -/
def latestLast (beforeMs : ℚ) : ℕ :=
  match ranges.findIdx? fun range => beforeMs ≤ range.start with
  | none => ranges.length - 1
  | some firstFutureRange => firstFutureRange - 1

/-- The first chunk from `first` on that ends after the window, or else the last one. -/
def reachedFrom (first : ℕ) (beforeMs : ℚ) : ℕ :=
  match (ranges.drop first).findIdx? fun range => beforeMs ≤ range.endAt with
  | none => ranges.length - 1
  | some i => first + i

variable (options : HistoricWindowOptions)

/-- The first and the last chunk that `getHistoricCandleWindow` reads. -/
def windowBounds : ℕ × ℕ :=
  match options.pendingOrder with
  | .latest =>
    let last := latestLast ranges options.beforeMs
    (latestFirst ranges last (wholeCount options.warmup + max 1 (wholeCount options.limit)), last)
  | .earliest =>
    let boundary := (ranges.findIdx? fun range => options.afterMs ≤ range.endAt).getD
      (ranges.length - 1)
    let first := earliestFirst ranges boundary (wholeCount options.warmup)
    let reached := reachedFrom ranges first options.beforeMs
    (first, lookaheadLast (ranges.drop reached) reached (wholeCount options.lookahead))

/-- The candles strictly inside the window. -/
def pendingCandidates (candles : List (HistoricCandle Bar)) : List (HistoricCandle Bar) :=
  candles.filter fun candle =>
    options.afterMs < candle.timestamp ∧ candle.timestamp < options.beforeMs

/-- The pending candles of the window. -/
def pendingOf (candles : List (HistoricCandle Bar)) : List (HistoricCandle Bar) :=
  if wholeCount options.limit = 0 then []
  else match options.pendingOrder with
    | .latest => sliceFromEnd (wholeCount options.limit) (pendingCandidates options candles)
    | .earliest => (pendingCandidates options candles).take (wholeCount options.limit)

/-- The candle comes before the pending ones. -/
def isBefore (pending : List (HistoricCandle Bar)) (candle : HistoricCandle Bar) : Bool :=
  match options.pendingOrder with
  | .latest =>
    candle.timestamp < (pending.head?.map HistoricCandle.timestamp).getD options.afterMs
  | .earliest => candle.timestamp ≤ options.afterMs

/-- The selection of `getHistoricCandleWindow` from the candles that it has read. -/
def selectWindow (candles : List (HistoricCandle Bar)) : HistoricWindow Bar :=
  let pending := pendingOf options candles
  { warmup := sliceFromEnd (wholeCount options.warmup) (candles.filter (isBefore options pending))
    pending := pending
    lookahead := (candles.filter fun candle => options.beforeMs ≤ candle.timestamp).take
      (wholeCount options.lookahead) }

def getHistoricCandleWindow (chunks : List (List (HistoricCandle Bar)))
    (legacy : List (HistoricCandle Bar)) (options : HistoricWindowOptions) : HistoricWindow Bar :=
  if options.beforeMs < options.afterMs then ⟨[], [], []⟩
  else if ranges = [] then selectWindow options legacy
  else
    let bounds := windowBounds ranges options
    selectWindow options (normalizeHistoricCandles (lrange chunks bounds.1 bounds.2))

end CtsEngine.HistoricCandles

namespace CtsEngine.HistoricCandles

variable {Bar : Type*}

/-- A stored history: chunks of candles in the order of their times.  Without any chunk the readers
take the candles of the legacy key. -/
structure History (Bar : Type*) where
  chunks : List (List (HistoricCandle Bar))
  nonempty : ∀ chunk ∈ chunks, chunk ≠ []
  sorted : chunks.flatten.Pairwise fun a b => a.timestamp < b.timestamp
  legacy : List (HistoricCandle Bar)

/-- The exact entry of a chunk in the index. -/
def rangeOf (chunk : List (HistoricCandle Bar)) : HistoricChunkRange where
  start := (chunk.head?.map HistoricCandle.timestamp).getD 0
  endAt := (chunk.getLast?.map HistoricCandle.timestamp).getD 0
  count := chunk.length

/-- The exact index of a history. -/
def History.ranges (history : History Bar) : List HistoricChunkRange := history.chunks.map rangeOf

/-- The whole list of candles. -/
def History.candles (history : History Bar) : List (HistoricCandle Bar) :=
  if history.chunks = [] then history.legacy else history.chunks.flatten

variable {count first last i : ℕ} {candles chunk : List (HistoricCandle Bar)}
  {chunks : List (List (HistoricCandle Bar))} {history : History Bar}

/-- The last elements are those of the end when the end has enough, or when there is nothing
else. -/
lemma rtake_append_iff {α : Type*} {first second : List α} :
    second.rtake count = (first ++ second).rtake count ↔ count ≤ second.length ∨ first = [] := by
  unfold rtake
  constructor
  · intro h
    have hlen := congrArg List.length h
    simp only [length_drop, length_append] at hlen
    rcases first with _ | ⟨head, rest⟩
    · exact .inr rfl
    · rw [length_cons] at hlen
      exact .inl (by omega)
  · rintro (hle | rfl)
    · have hall : first.length ≤ (first ++ second).length - count := by
        rw [length_append]
        omega
      have hrest : (first ++ second).length - count - first.length = second.length - count := by
        rw [length_append]
        omega
      rw [drop_append, drop_of_length_le hall, hrest, nil_append]
    · rfl

/-- The first elements are those of the start when the start has enough, or when there is nothing
else. -/
lemma take_append_iff {α : Type*} {first second : List α} :
    first.take count = (first ++ second).take count ↔ count ≤ first.length ∨ second = [] := by
  constructor
  · intro h
    have hlen := congrArg List.length h
    simp only [length_take, length_append] at hlen
    rcases second with _ | ⟨head, rest⟩
    · exact .inr rfl
    · rw [length_cons] at hlen
      exact .inl (by omega)
  · rintro (hle | rfl)
    · exact (take_append_of_le_length hle).symm
    · rw [append_nil]

lemma sliceFromEnd_of_pos {α : Type*} (h : 0 < count) (list : List α) :
    sliceFromEnd count list = list.rtake count := if_neg h.ne'

lemma nodup_timestamps (h : candles.Pairwise fun a b => a.timestamp < b.timestamp) :
    (candles.map HistoricCandle.timestamp).Nodup := by
  rw [nodup_iff_pairwise_ne, pairwise_map]
  exact h.imp fun hlt => hlt.ne

lemma sortedValues_of_sorted (h : candles.Pairwise fun a b => a.timestamp < b.timestamp) :
    sortedValues (candles.foldl (fun byTimestamp candle =>
      put byTimestamp candle.timestamp candle) []) = candles := by
  have huniq : KeysUnique (candles.map fun candle => (candle.timestamp, candle)) := by
    unfold KeysUnique
    rw [map_map]
    exact nodup_timestamps h
  have hrec := foldl_put_of_unique huniq
  rw [foldl_map] at hrec
  unfold sortedValues
  rw [hrec, map_map]
  have hvals : candles.map (Prod.snd ∘ fun candle => (candle.timestamp, candle)) = candles :=
    map_id _
  rw [hvals]
  exact (h.imp fun hlt => hlt.le).insertionSort_eq

lemma normalizeHistoricCandles_of_sorted
    (h : chunks.flatten.Pairwise fun a b => a.timestamp < b.timestamp) :
    normalizeHistoricCandles chunks = chunks.flatten := by
  unfold normalizeHistoricCandles
  rw [← foldl_flatten]
  exact sortedValues_of_sorted h

/-! ### Chunks -/

lemma History.flatten_eq (history : History Bar) (hle : first ≤ last) :
    history.chunks.flatten = (history.chunks.take first).flatten ++
      (lrange history.chunks first last).flatten ++ (history.chunks.drop (last + 1)).flatten := by
  have hcut : history.chunks = history.chunks.take first ++
      (lrange history.chunks first last ++ history.chunks.drop (last + 1)) := by
    have hrest : (history.chunks.drop first).drop (last + 1 - first) =
        history.chunks.drop (last + 1) := by
      rw [drop_drop]
      congr 1
      omega
    unfold lrange
    rw [← hrest, take_append_drop, take_append_drop]
  conv_lhs => rw [hcut]
  rw [flatten_append, flatten_append, append_assoc]

lemma History.lrange_sorted (history : History Bar) (first last : ℕ) :
    (lrange history.chunks first last).flatten.Pairwise fun a b => a.timestamp < b.timestamp :=
  history.sorted.sublist (((take_sublist _ _).trans (drop_sublist _ _)).flatten)

section

variable (h : chunk.Pairwise fun a b => a.timestamp < b.timestamp) {candle : HistoricCandle Bar}
  (hmem : candle ∈ chunk)

include h hmem

lemma start_le_of_mem : (rangeOf chunk).start ≤ candle.timestamp := by
  rcases chunk with _ | ⟨head, rest⟩
  · exact absurd hmem not_mem_nil
  · rcases mem_cons.mp hmem with rfl | hrest
    · exact le_rfl
    · exact ((pairwise_cons.mp h).1 candle hrest).le

lemma le_endAt_of_mem : candle.timestamp ≤ (rangeOf chunk).endAt := by
  obtain ⟨init, last, rfl⟩ : ∃ init last, chunk = init ++ [last] :=
    ⟨_, _, (dropLast_append_getLast (ne_nil_of_mem hmem)).symm⟩
  have hend : (rangeOf (init ++ [last])).endAt = last.timestamp := by
    simp [rangeOf]
  rw [hend]
  rcases mem_append.mp hmem with hinit | hlast
  · exact ((pairwise_append.mp h).2.2 candle hinit last (mem_singleton_self _)).le
  · rw [mem_singleton.mp hlast]

end

lemma exists_start (h : chunk ≠ []) :
    ∃ candle ∈ chunk, candle.timestamp = (rangeOf chunk).start := by
  rcases chunk with _ | ⟨head, rest⟩
  · exact absurd rfl h
  · exact ⟨head, mem_cons_self, rfl⟩

lemma exists_endAt (h : chunk ≠ []) :
    ∃ candle ∈ chunk, candle.timestamp = (rangeOf chunk).endAt := by
  refine ⟨chunk.getLast h, getLast_mem h, ?_⟩
  simp [rangeOf, getLast?_eq_some_getLast h]

namespace History

variable (history : History Bar)

lemma getElem?_ranges (i : ℕ) : history.ranges[i]? = (history.chunks[i]?).map rangeOf :=
  getElem?_map

lemma length_ranges : history.ranges.length = history.chunks.length := length_map _

variable {history} {i j : ℕ} {chunk other : List (HistoricCandle Bar)}

lemma chunk_sorted (h : history.chunks[i]? = some chunk) :
    chunk.Pairwise fun a b => a.timestamp < b.timestamp :=
  (pairwise_flatten.mp history.sorted).1 chunk (mem_of_getElem? h)

lemma lt_of_chunks (hi : history.chunks[i]? = some chunk) (hj : history.chunks[j]? = some other)
    (hlt : i < j) {a b : HistoricCandle Bar} (ha : a ∈ chunk) (hb : b ∈ other) :
    a.timestamp < b.timestamp := by
  obtain ⟨hi', rfl⟩ := List.getElem?_eq_some_iff.mp hi
  obtain ⟨hj', rfl⟩ := List.getElem?_eq_some_iff.mp hj
  exact pairwise_iff_getElem.mp (pairwise_flatten.mp history.sorted).2 i j hi' hj' hlt a ha b hb

variable {candle : HistoricCandle Bar}

lemma mem_take_flatten {first : ℕ} (h : candle ∈ (history.chunks.take first).flatten) :
    ∃ i chunk, i < first ∧ history.chunks[i]? = some chunk ∧ candle ∈ chunk := by
  obtain ⟨chunk, hchunk, hmem⟩ := mem_flatten.mp h
  obtain ⟨i, hi⟩ := mem_iff_getElem?.mp hchunk
  rw [getElem?_take] at hi
  obtain ⟨hlt, heq⟩ := Option.ite_none_right_eq_some.mp hi
  exact ⟨i, chunk, hlt, heq, hmem⟩

lemma mem_drop_flatten {last : ℕ} (h : candle ∈ (history.chunks.drop (last + 1)).flatten) :
    ∃ i chunk, last < i ∧ history.chunks[i]? = some chunk ∧ candle ∈ chunk := by
  obtain ⟨chunk, hchunk, hmem⟩ := mem_flatten.mp h
  obtain ⟨i, hi⟩ := mem_iff_getElem?.mp hchunk
  rw [getElem?_drop] at hi
  exact ⟨last + 1 + i, chunk, by omega, hi, hmem⟩

section

variable (hi : history.chunks[i]? = some chunk) (hj : history.chunks[j]? = some other)

include hi hj

lemma endAt_lt (hlt : i < j) (hmem : candle ∈ other) :
    (rangeOf chunk).endAt < candle.timestamp := by
  obtain ⟨last, hlast, hend⟩ := exists_endAt (history.nonempty chunk (mem_of_getElem? hi))
  exact hend ▸ lt_of_chunks hi hj hlt hlast hmem

lemma lt_start (hlt : i < j) (hmem : candle ∈ chunk) :
    candle.timestamp < (rangeOf other).start := by
  obtain ⟨head, hhead, hst⟩ := exists_start (history.nonempty other (mem_of_getElem? hj))
  exact hst ▸ lt_of_chunks hi hj hlt hmem hhead

lemma start_le (hle : i ≤ j) (hmem : candle ∈ other) :
    (rangeOf chunk).start ≤ candle.timestamp := by
  rcases hle.eq_or_lt with rfl | hlt
  · obtain rfl := Option.some.inj (hi.symm.trans hj)
    exact start_le_of_mem (chunk_sorted hi) hmem
  · obtain ⟨head, hhead, hst⟩ := exists_start (history.nonempty chunk (mem_of_getElem? hi))
    exact hst ▸ (lt_of_chunks hi hj hlt hhead hmem).le

end

end History

variable {α : Type*} {p : HistoricChunkRange → Bool}

lemma lrange_succ {list : List α} (hle : first ≤ last + 1) {next : α}
    (hnext : list[last + 1]? = some next) :
    lrange list first (last + 1) = lrange list first last ++ [next] := by
  have hlen : last + 1 + 1 - first = last + 1 - first + 1 := by omega
  have hidx : first + (last + 1 - first) = last + 1 := by omega
  unfold lrange
  rw [hlen, take_add_one, getElem?_drop, hidx, hnext]
  rfl

lemma countAt_ranges (h : history.chunks[i]? = some chunk) :
    countAt history.ranges i = chunk.length := by
  unfold countAt
  rw [history.getElem?_ranges, h]
  rfl

lemma tailFirst_le (ranges : List HistoricChunkRange) (last remaining : ℕ) :
    tailFirst ranges last remaining ≤ last := by
  induction last generalizing remaining with
  | zero => exact Nat.zero_le _
  | succ last ih =>
    unfold tailFirst
    split
    · split
      · exact (ih _).trans (Nat.le_succ _)
      · exact le_rfl
    · exact le_rfl

lemma tailFirst_enough (history : History Bar) (hlast : last < history.chunks.length)
    (remaining : ℕ) :
    tailFirst history.ranges last remaining = 0 ∨ remaining ≤
      (lrange history.chunks (tailFirst history.ranges last remaining) last).flatten.length := by
  induction last generalizing remaining with
  | zero => exact .inl rfl
  | succ last ih =>
    obtain ⟨chunk, hchunk⟩ : ∃ chunk, history.chunks[last + 1]? = some chunk :=
      ⟨_, getElem?_eq_getElem hlast⟩
    have hcnt := countAt_ranges hchunk
    have hpos : 1 ≤ chunk.length :=
      length_pos_iff.mpr (history.nonempty chunk (mem_of_getElem? hchunk))
    have hlong : ∀ first ≤ last + 1, (lrange history.chunks first (last + 1)).flatten.length =
        (lrange history.chunks first last).flatten.length + chunk.length := by
      intro first hfst
      rw [lrange_succ hfst hchunk]
      simp
    unfold tailFirst
    split
    · split
      · rcases ih (by omega) (remaining - max 1 (countAt history.ranges (last + 1))) with
          hzero | henough
        · exact .inl hzero
        · rw [hlong _ ((tailFirst_le _ _ _).trans (Nat.le_succ _))]
          omega
      · rw [hlong _ le_rfl]
        omega
    · exact .inr (by omega)

lemma getHistoricCandleTail_eq (history : History Bar) (limit : Option ℚ) :
    getHistoricCandleTail history.ranges history.chunks history.legacy limit =
      history.candles.rtake (wholeCount limit) := by
  unfold getHistoricCandleTail History.candles
  rcases Nat.eq_zero_or_pos (wholeCount limit) with hzero | hpos
  · rw [if_pos hzero, hzero, rtake_zero]
  · rw [if_neg hpos.ne']
    by_cases hemp : history.chunks = []
    · have hrang : history.ranges = [] := by
        unfold History.ranges
        rw [hemp]
        rfl
      rw [if_pos hrang, if_pos hemp, sliceFromEnd_of_pos hpos]
    · have hrang : history.ranges ≠ [] := fun h => hemp (map_eq_nil_iff.mp h)
      have hlen : 0 < history.chunks.length := length_pos_iff.mpr hemp
      rw [if_neg hrang, if_neg hemp, sliceFromEnd_of_pos hpos, history.length_ranges,
        normalizeHistoricCandles_of_sorted (history.lrange_sorted _ _)]
      have hcut := history.flatten_eq
        (tailFirst_le history.ranges (history.chunks.length - 1) (wholeCount limit))
      have hend : history.chunks.drop (history.chunks.length - 1 + 1) = [] :=
        drop_of_length_le (by omega)
      rw [hend, flatten_nil, append_nil] at hcut
      rw [hcut]
      refine rtake_append_iff.mpr ?_
      rcases tailFirst_enough history (Nat.sub_lt hlen Nat.one_pos) (wholeCount limit) with
        hfirst | henough
      · right
        rw [hfirst]
        rfl
      · exact .inl henough

/-! ### Ranges -/

lemma lrange_append (list : List α) {middle : ℕ} (hle : first ≤ middle)
    (hlast : middle ≤ last + 1) (hpos : 0 < middle) :
    lrange list first (middle - 1) ++ lrange list middle last = lrange list first last := by
  have hlen : last + 1 - first = (middle - first) + (last + 1 - middle) := by omega
  have hfst : middle - 1 + 1 - first = middle - first := by omega
  have hdrop : first + (middle - first) = middle := by omega
  unfold lrange
  rw [hlen, take_add, drop_drop, hdrop, hfst]

lemma lrange_of_lt (list : List α) (h : last < first) :
    lrange list first last = [] := by
  have hzero : last + 1 - first = 0 := by omega
  unfold lrange
  rw [hzero, take_zero]

lemma readBatches_eq (chunks : List (List (HistoricCandle Bar))) (startMs endMs : ℚ)
    {batch : ℕ} (hbatch : 0 < batch) (last : ℕ) {fuel cursor : ℕ} (hfuel : last + 1 - cursor ≤ fuel)
    (selected : List (ℚ × HistoricCandle Bar)) :
    readBatches chunks startMs endMs batch last fuel cursor selected =
      (lrange chunks cursor last).foldl (selectChunk startMs endMs) selected := by
  induction fuel generalizing cursor selected with
  | zero =>
    rw [lrange_of_lt chunks (by omega)]
    rfl
  | succ fuel ih =>
    unfold readBatches
    by_cases hmore : cursor ≤ last
    · rw [if_pos hmore]
      rw [ih (by omega)]
      rcases lt_or_ge last (cursor + batch) with hend | hnext
      · -- the last batch
        rw [lrange_of_lt chunks hend, min_eq_left (by omega)]
        rfl
      · have hsplit : lrange chunks cursor (cursor + batch - 1) ++
            lrange chunks (cursor + batch) last = lrange chunks cursor last :=
          lrange_append chunks (Nat.le_add_right cursor batch) (by omega) (by omega)
        rw [min_eq_right (by omega), ← hsplit, foldl_append]
    · rw [if_neg hmore, lrange_of_lt chunks (by omega)]
      rfl

lemma selected_of_sorted (h : chunks.flatten.Pairwise fun a b => a.timestamp < b.timestamp)
    (startMs endMs : ℚ) :
    sortedValues (chunks.foldl (selectChunk startMs endMs) []) = chunks.flatten.filter fun candle =>
        startMs ≤ candle.timestamp ∧ candle.timestamp ≤ endMs := by
  have hfold : chunks.foldl (selectChunk startMs endMs) [] = (chunks.flatten.filter fun candle =>
        startMs ≤ candle.timestamp ∧ candle.timestamp ≤ endMs).foldl
          (fun byTimestamp candle => put byTimestamp candle.timestamp candle) [] := by
    rw [foldl_filter]
    unfold selectChunk
    rw [← foldl_flatten]
    simp only [decide_eq_true_eq]
  rw [hfold]
  exact sortedValues_of_sorted (h.sublist filter_sublist)

lemma getElem?_length_takeWhile {p : α → Bool} {list : List α} {next : α}
    (h : list[(list.takeWhile p).length]? = some next) : p next = false := by
  induction list with
  | nil => exact absurd h (by simp)
  | cons head rest ih =>
    by_cases hhead : p head = true
    · rw [takeWhile_cons_of_pos hhead] at h
      exact ih h
    · rw [takeWhile_cons_of_neg hhead] at h
      cases h
      simpa using hhead

lemma ranges_of_findIdx? (h : history.ranges.findIdx? p = some first) :
    (∃ chunk, history.chunks[first]? = some chunk ∧ p (rangeOf chunk) = true) ∧
      ∀ i < first, ∀ chunk, history.chunks[i]? = some chunk → p (rangeOf chunk) = false := by
  obtain ⟨hlt, hp, hbef⟩ := findIdx?_eq_some_iff_getElem.mp h
  have hlen : first < history.chunks.length := history.length_ranges ▸ hlt
  refine ⟨⟨history.chunks[first], getElem?_eq_getElem hlen, ?_⟩, fun i hi chunk hchunk => ?_⟩
  · simpa [History.ranges] using hp
  · obtain ⟨hlt', rfl⟩ := List.getElem?_eq_some_iff.mp hchunk
    simpa [History.ranges] using hbef i hi

lemma ranges_of_findIdx?_none (h : history.ranges.findIdx? p = none)
    (hchunk : history.chunks[i]? = some chunk) : p (rangeOf chunk) = false := by
  refine findIdx?_eq_none_iff.mp h (rangeOf chunk) ?_
  exact mem_map_of_mem (mem_of_getElem? hchunk)

lemma lt_of_after_rangeLast {endMs : ℚ} {candle : HistoricCandle Bar}
    (h : candle ∈ (history.chunks.drop (rangeLast history.ranges first endMs + 1)).flatten) :
    endMs < candle.timestamp := by
  obtain ⟨i, chunk, hlt, hchunk, hmem⟩ := History.mem_drop_flatten h
  have hlen : i < history.chunks.length := (List.getElem?_eq_some_iff.mp hchunk).1
  obtain ⟨next, hnext⟩ : ∃ next,
      history.chunks[rangeLast history.ranges first endMs + 1]? = some next :=
    ⟨_, getElem?_eq_getElem (by omega)⟩
  have hrange : (history.ranges.drop (first + 1))[((history.ranges.drop (first + 1)).takeWhile
      fun range => range.start ≤ endMs).length]? = some (rangeOf next) := by
    have hidx : first + 1 + ((history.ranges.drop (first + 1)).takeWhile
        fun range => range.start ≤ endMs).length = rangeLast history.ranges first endMs + 1 := by
      unfold rangeLast
      omega
    rw [getElem?_drop, hidx, history.getElem?_ranges, hnext]
    rfl
  have hlate : endMs < (rangeOf next).start := by
    simpa using getElem?_length_takeWhile hrange
  exact hlate.trans_le (History.start_le hnext hchunk (by omega) hmem)

/-- The range read is the filter of all candles. -/
lemma getHistoricCandlesForRange_eq (history : History Bar) (bound other : ℚ)
    (batchChunks : Option ℚ) :
    getHistoricCandlesForRange history.ranges history.chunks history.legacy bound other
        batchChunks =
      history.candles.filter fun candle =>
        min bound other ≤ candle.timestamp ∧ candle.timestamp ≤ max bound other := by
  unfold getHistoricCandlesForRange History.candles
  dsimp only
  by_cases hemp : history.chunks = []
  · have hrang : history.ranges = [] := by
      unfold History.ranges
      rw [hemp]
      rfl
    rw [if_pos hrang, if_pos hemp]
  · have hrang : history.ranges ≠ [] := fun h => hemp (map_eq_nil_iff.mp h)
    have hbatch : 0 < batchSize batchChunks := by
      unfold batchSize
      omega
    rw [if_neg hrang, if_neg hemp]
    split
    · rename_i hnone
      refine (filter_eq_nil_iff.mpr fun candle hcand hin => ?_).symm
      obtain ⟨hst, hend⟩ := of_decide_eq_true hin
      obtain ⟨chunk, hchunk, hmem⟩ := mem_flatten.mp hcand
      obtain ⟨i, hi⟩ := mem_iff_getElem?.mp hchunk
      have hfails := of_decide_eq_false (ranges_of_findIdx?_none hnone hi)
      exact hfails ⟨hst.trans (le_endAt_of_mem (History.chunk_sorted hi) hmem),
        (start_le_of_mem (History.chunk_sorted hi) hmem).trans hend⟩
    · rename_i first hfnd
      have hle : first ≤ rangeLast history.ranges first (max bound other) := Nat.le_add_right _ _
      rw [readBatches_eq _ _ _ hbatch _ le_rfl, selected_of_sorted (history.lrange_sorted _ _),
        history.flatten_eq hle, filter_append, filter_append]
      have hbef : ((history.chunks.take first).flatten.filter fun candle =>
          min bound other ≤ candle.timestamp ∧ candle.timestamp ≤ max bound other) = [] := by
        refine filter_eq_nil_iff.mpr fun candle hcand hin => ?_
        obtain ⟨hst, hend⟩ := of_decide_eq_true hin
        obtain ⟨i, chunk, hlt, hi, hmem⟩ := History.mem_take_flatten hcand
        have hfails := of_decide_eq_false ((ranges_of_findIdx? hfnd).2 i hlt chunk hi)
        exact hfails ⟨hst.trans (le_endAt_of_mem (History.chunk_sorted hi) hmem),
          (start_le_of_mem (History.chunk_sorted hi) hmem).trans hend⟩
      have hafter : ((history.chunks.drop
          (rangeLast history.ranges first (max bound other) + 1)).flatten.filter fun candle =>
            min bound other ≤ candle.timestamp ∧ candle.timestamp ≤ max bound other) = [] := by
        refine filter_eq_nil_iff.mpr fun candle hcand hin => ?_
        exact (of_decide_eq_true hin).2.not_gt (lt_of_after_rangeLast hcand)
      rw [hbef, hafter, nil_append, append_nil]

end CtsEngine.HistoricCandles
