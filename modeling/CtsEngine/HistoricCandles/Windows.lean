import CtsEngine.HistoricCandles.Chunks

/-!
# Windows of the whole list

The counts of the index say which chunks a window gets, although the chunks of its boundaries are
used in part only.  So a window is that of the whole list exactly when the part that it gets is
wide enough (`Enough`).
-/

namespace CtsEngine.HistoricCandles

open Option List History Nat

variable {Bar : Type*}

/-- The pending candles of a window of the whole list. -/
def pendingIn (options : HistoricWindowOptions) (candles : List (HistoricCandle Bar)) :
    List (HistoricCandle Bar) :=
  match options.pendingOrder with
  | .latest => (pendingCandidates options candles).rtake (wholeCount options.limit)
  | .earliest => (pendingCandidates options candles).take (wholeCount options.limit)

/-- The window of the whole list. -/
def windowIn (options : HistoricWindowOptions) (candles : List (HistoricCandle Bar)) :
    HistoricWindow Bar where
  warmup := (candles.filter (isBefore options (pendingIn options candles))).rtake
    (wholeCount options.warmup)
  pending := pendingIn options candles
  lookahead := (candles.filter fun candle => options.beforeMs ≤ candle.timestamp).take
    (wholeCount options.lookahead)

/-! ### Which chunks a window gets -/

/-- Where the first chunk is that begins at a time or later. -/
def History.begins (history : History Bar) (time : ℚ) : ℕ :=
  history.chunks.findIdx fun chunk => time ≤ (rangeOf chunk).start

/-- Where the first chunk is that ends at a time or later; it is the last chunk when there is
none. -/
def History.ends (history : History Bar) (time : ℚ) : ℕ :=
  min (history.chunks.findIdx fun chunk => time ≤ (rangeOf chunk).endAt) (history.chunks.length - 1)

/-- How many candles the chunks of a read have. -/
def History.rows (history : History Bar) (first last : ℕ) : ℕ :=
  (lrange history.chunks first last).flatten.length

/-- The chunks from `first` to `last` are what the counts ask for. -/
def Asked (history : History Bar) (options : HistoricWindowOptions) (first last : ℕ) : Prop :=
  match options.pendingOrder with
  | .latest =>
    last = history.begins options.beforeMs - 1 ∧
      IsGreatest {k | k ≤ last ∧ (k = 0 ∨ wholeCount options.warmup +
        max 1 (wholeCount options.limit) ≤ history.rows k last)} first
  | .earliest =>
    IsGreatest {k | k ≤ history.ends options.afterMs ∧ (k = 0 ∨ wholeCount options.warmup ≤
      history.rows (k + 1) (history.ends options.afterMs))} first ∧
    IsLeast {k | history.ends options.beforeMs ≤ k ∧ (k = history.chunks.length - 1 ∨
      wholeCount options.lookahead ≤ history.rows (history.ends options.beforeMs) k)} last

/-- The candles before the chunks that a window gets, those in them, and those after them. -/
def Parts (history : History Bar) (options : HistoricWindowOptions)
    (before part after : List (HistoricCandle Bar)) : Prop :=
  if history.chunks = [] then before = [] ∧ part = history.legacy ∧ after = []
  else ∃ first last, Asked history options first last ∧
    before = (history.chunks.take first).flatten ∧
    part = (lrange history.chunks first last).flatten ∧
    after = (history.chunks.drop (last + 1)).flatten

/-- The part has what a window wants of the whole list, or there is no more of it outside.  A
warmup of nothing is all there is before the pending candles, so there must be nothing. -/
structure Enough (options : HistoricWindowOptions)
    (before part after : List (HistoricCandle Bar)) : Prop where
  pending : options.pendingOrder = .latest →
    wholeCount options.limit ≤ (pendingCandidates options part).length ∨
      pendingCandidates options before = []
  noWarmup : wholeCount options.warmup = 0 →
    part.filter (isBefore options (pendingIn options (before ++ part ++ after))) = []
  warmup : wholeCount options.warmup ≠ 0 → wholeCount options.warmup ≤
        (part.filter (isBefore options (pendingIn options (before ++ part ++ after)))).length ∨
      before.filter (isBefore options (pendingIn options (before ++ part ++ after))) = []
  lookahead : wholeCount options.lookahead ≤
      (part.filter fun candle => options.beforeMs ≤ candle.timestamp).length ∨ after = []

section Bounds

variable {history : History Bar} {i : ℕ} {chunk : List (HistoricCandle Bar)}

lemma History.rows_cons (h : history.chunks[i]? = some chunk) {last : ℕ} (hle : i ≤ last) :
    history.rows i last = chunk.length + history.rows (i + 1) last := by
  obtain ⟨hlt, rfl⟩ := List.getElem?_eq_some_iff.mp h
  have hlen : last + 1 - i = last + 1 - (i + 1) + 1 := by omega
  unfold rows lrange
  rw [hlen, drop_eq_getElem_cons hlt, take_succ_cons, flatten_cons, length_append]

lemma History.rows_succ (h : history.chunks[i + 1]? = some chunk) {first : ℕ}
    (hle : first ≤ i + 1) :
    history.rows first (i + 1) = history.rows first i + chunk.length := by
  unfold rows
  rw [lrange_succ hle h, flatten_append, length_append, flatten_singleton]

lemma History.rows_of_lt {first last : ℕ} (h : last < first) : history.rows first last = 0 := by
  unfold rows
  rw [lrange_of_lt _ h]
  rfl

lemma latestFirst_isGreatest {last : ℕ} (hlast : last < history.chunks.length) (rows : ℕ) :
    IsGreatest {k | k ≤ last ∧ (k = 0 ∨ rows ≤ history.rows k last)}
      (latestFirst history.ranges last rows) := by
  induction last generalizing rows with
  | zero => exact ⟨⟨le_rfl, .inl rfl⟩, fun k hk => hk.1⟩
  | succ last ih =>
    obtain ⟨chunk, hchunk⟩ : ∃ chunk, history.chunks[last + 1]? = some chunk :=
      ⟨_, getElem?_eq_getElem hlast⟩
    have hpos : 1 ≤ chunk.length :=
      length_pos_iff.mpr (history.nonempty chunk (mem_of_getElem? hchunk))
    have hone : history.rows (last + 1) (last + 1) = chunk.length := by
      rw [rows_succ hchunk le_rfl, rows_of_lt (lt_succ_self _), zero_add]
    unfold latestFirst
    rw [countAt_ranges hchunk]
    split
    · -- the chunk does not suffice
      obtain ⟨⟨hle, henoug⟩, hup⟩ := ih (by omega) (rows - max 1 chunk.length)
      refine ⟨⟨hle.trans (le_succ _), henoug.imp_right fun h => ?_⟩, fun k hk => ?_⟩
      · rw [rows_succ hchunk (hle.trans (le_succ _))]
        omega
      · obtain ⟨hkle, hk⟩ := hk
        rcases hkle.eq_or_lt with rfl | hklt
        · omega
        · refine hup ⟨Nat.lt_succ_iff.mp hklt, hk.imp_right fun h => ?_⟩
          rw [rows_succ hchunk hkle] at h
          omega
    · exact ⟨⟨le_rfl, .inr (by omega)⟩, fun k hk => hk.1⟩

lemma earliestFirst_isGreatest {boundary : ℕ} (hboun : boundary < history.chunks.length)
    (rows : ℕ) :
    IsGreatest {k | k ≤ boundary ∧ (k = 0 ∨ rows ≤ history.rows (k + 1) boundary)}
      (earliestFirst history.ranges boundary rows) := by
  induction boundary generalizing rows with
  | zero => exact ⟨⟨le_rfl, .inl rfl⟩, fun k hk => hk.1⟩
  | succ boundary ih =>
    obtain ⟨chunk, hchunk⟩ : ∃ chunk, history.chunks[boundary + 1]? = some chunk :=
      ⟨_, getElem?_eq_getElem hboun⟩
    have hpos : 1 ≤ chunk.length :=
      length_pos_iff.mpr (history.nonempty chunk (mem_of_getElem? hchunk))
    unfold earliestFirst
    rw [countAt_ranges hchunk]
    split
    · -- some rows are still needed
      obtain ⟨⟨hle, henoug⟩, hup⟩ := ih (by omega) (rows - max 1 chunk.length)
      refine ⟨⟨hle.trans (le_succ _), henoug.imp_right fun h => ?_⟩, fun k hk => ?_⟩
      · rw [rows_succ hchunk (Nat.add_le_add_right hle 1)]
        omega
      · obtain ⟨hkle, hk⟩ := hk
        rcases hkle.eq_or_lt with rfl | hklt
        · rw [rows_of_lt (lt_succ_self _)] at hk
          omega
        · have hksucc : k + 1 ≤ boundary + 1 := hklt
          refine hup ⟨Nat.lt_succ_iff.mp hklt, hk.imp_right fun h => ?_⟩
          rw [rows_succ hchunk hksucc] at h
          omega
    · exact ⟨⟨le_rfl, .inr (by omega)⟩, fun k hk => hk.1⟩

/-- The lookahead ends at the first chunk with enough rows. -/
lemma lookaheadLast_isLeast {reached : ℕ} (hreach : reached < history.chunks.length) (rows : ℕ) :
    IsLeast {k | reached ≤ k ∧ (k = history.chunks.length - 1 ∨ rows ≤ history.rows reached k)}
      (lookaheadLast (history.ranges.drop reached) reached rows) := by
  generalize hrest : history.ranges.drop reached = rest
  induction rest generalizing reached rows with
  | nil =>
    have hall := drop_eq_nil_iff.mp hrest
    rw [history.length_ranges] at hall
    omega
  | cons range rest ih =>
    obtain ⟨chunk, hchunk⟩ : ∃ chunk, history.chunks[reached]? = some chunk :=
      ⟨_, getElem?_eq_getElem hreach⟩
    have hpos : 1 ≤ chunk.length :=
      length_pos_iff.mpr (history.nonempty chunk (mem_of_getElem? hchunk))
    have hrange : range = rangeOf chunk := by
      have hhead : history.ranges[reached]? = some range := by
        rw [← head?_drop, hrest]
        rfl
      rw [history.getElem?_ranges, hchunk] at hhead
      exact (some.inj hhead).symm
    have hnext : history.ranges.drop (reached + 1) = rest := by
      rw [← drop_drop, hrest]
      rfl
    have hone : history.rows reached reached = chunk.length := by
      rw [rows_cons hchunk le_rfl, rows_of_lt (lt_succ_self _), add_zero]
    rcases rest with _ | ⟨next, rest⟩
    · have hall := drop_eq_nil_iff.mp hnext
      rw [history.length_ranges] at hall
      have hlast : reached = history.chunks.length - 1 := by omega
      exact ⟨⟨le_rfl, .inl hlast⟩, fun k hk => hk.1⟩
    · have hcnt : range.count = chunk.length := by rw [hrange]; rfl
      have hlt : reached + 1 < history.chunks.length := by
        rw [← history.length_ranges]
        by_contra hge
        rw [drop_of_length_le (Nat.le_of_not_lt hge)] at hnext
        cases hnext
      unfold lookaheadLast
      rw [hcnt]
      split
      · -- the chunk does not suffice
        obtain ⟨⟨hle, henoug⟩, hlow⟩ := ih hlt (rows - max 1 chunk.length) hnext
        refine ⟨⟨(le_succ _).trans hle, henoug.imp_right fun h => ?_⟩, fun k hk => ?_⟩
        · rw [rows_cons hchunk ((le_succ _).trans hle)]
          omega
        · obtain ⟨hkle, hk⟩ := hk
          rcases hkle.eq_or_lt with rfl | hklt
          · omega
          · refine hlow ⟨hklt, hk.imp_right fun h => ?_⟩
            rw [rows_cons hchunk hkle] at h
            omega
      · exact ⟨⟨le_rfl, .inr (by omega)⟩, fun k hk => hk.1⟩

end Bounds

/-! ### Windows -/

section Selection

variable {options : HistoricWindowOptions}

lemma pendingOf_eq (options : HistoricWindowOptions) (candles : List (HistoricCandle Bar)) :
    pendingOf options candles = pendingIn options candles := by
  unfold pendingOf pendingIn
  rcases Nat.eq_zero_or_pos (wholeCount options.limit) with hzero | hpos
  · rw [hzero]
    cases options.pendingOrder with
    | latest => exact (rtake_zero _).symm
    | earliest => rfl
  · rw [if_neg hpos.ne']
    cases options.pendingOrder with
    | latest => exact sliceFromEnd_of_pos hpos _
    | earliest => rfl

lemma pendingCandidates_append (first second : List (HistoricCandle Bar)) :
    pendingCandidates options (first ++ second) =
      pendingCandidates options first ++ pendingCandidates options second := filter_append _ _

variable {candles before part after : List (HistoricCandle Bar)}

lemma pendingCandidates_of_le (h : ∀ candle ∈ candles, options.beforeMs ≤ candle.timestamp) :
    pendingCandidates options candles = [] :=
  filter_eq_nil_iff.mpr fun candle hcand hin =>
    (of_decide_eq_true hin).2.not_ge (h candle hcand)

lemma pendingCandidates_of_ge (h : ∀ candle ∈ candles, candle.timestamp ≤ options.afterMs) :
    pendingCandidates options candles = [] :=
  filter_eq_nil_iff.mpr fun candle hcand hin =>
    (of_decide_eq_true hin).1.not_ge (h candle hcand)

lemma lt_beforeMs_of_mem_pendingIn {candle : HistoricCandle Bar}
    (h : candle ∈ pendingIn options candles) : candle.timestamp < options.beforeMs := by
  have hmem : candle ∈ pendingCandidates options candles := by
    unfold pendingIn at h
    split at h
    · exact mem_of_mem_drop h
    · exact mem_of_mem_take h
  exact (of_decide_eq_true (mem_filter.mp hmem).2).2

lemma filter_isBefore_of_after {pending : List (HistoricCandle Bar)}
    (hle : options.afterMs ≤ options.beforeMs)
    (hpend : ∀ candle ∈ pending, candle.timestamp < options.beforeMs)
    (hafter : ∀ candle ∈ candles, options.beforeMs ≤ candle.timestamp)
    (hearl : options.pendingOrder = .earliest →
      ∀ candle ∈ candles, options.beforeMs < candle.timestamp) :
    candles.filter (isBefore options pending) = [] := by
  refine filter_eq_nil_iff.mpr fun candle hcand hin => ?_
  unfold isBefore at hin
  cases hord : options.pendingOrder with
  | latest =>
    rw [hord] at hin
    have hlt := of_decide_eq_true hin
    refine hlt.not_ge (le_trans ?_ (hafter candle hcand))
    rcases pending with _ | ⟨head, rest⟩
    · exact hle
    · exact (hpend head mem_cons_self).le
  | earliest =>
    rw [hord] at hin
    exact (hle.trans_lt (hearl hord candle hcand)).not_ge (of_decide_eq_true hin)

lemma sliceFromEnd_eq_iff {α : Type*} {count : ℕ} {first second : List α} :
    sliceFromEnd count second = (first ++ second).rtake count ↔
      (count = 0 → second = []) ∧ (count ≠ 0 → count ≤ second.length ∨ first = []) := by
  rcases Nat.eq_zero_or_pos count with rfl | hpos
  · rw [rtake_zero]
    exact ⟨fun h => ⟨fun _ => h, fun h => absurd rfl h⟩, fun h => h.1 rfl⟩
  · rw [sliceFromEnd_of_pos hpos, rtake_append_iff]
    exact ⟨fun h => ⟨fun hzero => absurd hzero hpos.ne', fun _ => h⟩, fun h => h.2 hpos.ne'⟩

lemma pendingIn_eq_iff (hafter : ∀ candle ∈ after, options.beforeMs ≤ candle.timestamp)
    (hearl : options.pendingOrder = .earliest →
      ∀ candle ∈ before, candle.timestamp ≤ options.afterMs) :
    pendingIn options part = pendingIn options (before ++ part ++ after) ↔
      (options.pendingOrder = .latest →
        wholeCount options.limit ≤ (pendingCandidates options part).length ∨
          pendingCandidates options before = []) := by
  unfold pendingIn
  rw [pendingCandidates_append, pendingCandidates_append, pendingCandidates_of_le hafter,
    append_nil]
  cases hord : options.pendingOrder with
  | latest => exact rtake_append_iff.trans ⟨fun h _ => h, fun h => h rfl⟩
  | earliest =>
    rw [pendingCandidates_of_ge (hearl hord)]
    exact ⟨fun _ h => absurd h (by simp), fun _ => rfl⟩

/-- A window that is selected from a part is the window of the whole list exactly when the part
has enough. -/
lemma selectWindow_eq_iff (hle : options.afterMs ≤ options.beforeMs)
    (hbef : ∀ candle ∈ before, candle.timestamp < options.beforeMs)
    (hafter : ∀ candle ∈ after, options.beforeMs ≤ candle.timestamp)
    (hearl : options.pendingOrder = .earliest →
      (∀ candle ∈ before, candle.timestamp ≤ options.afterMs) ∧
        ∀ candle ∈ after, options.beforeMs < candle.timestamp) :
    selectWindow options part = windowIn options (before ++ part ++ after) ↔
      Enough options before part after := by
  have hpend : pendingIn options part = pendingIn options (before ++ part ++ after) ↔
      (options.pendingOrder = .latest →
        wholeCount options.limit ≤ (pendingCandidates options part).length ∨
          pendingCandidates options before = []) :=
    pendingIn_eq_iff hafter fun hord => (hearl hord).1
  have hlook : (before ++ part ++ after).filter
      (fun candle => options.beforeMs ≤ candle.timestamp) =
        part.filter (fun candle => options.beforeMs ≤ candle.timestamp) ++ after := by
    have hnone : before.filter (fun candle => options.beforeMs ≤ candle.timestamp) = [] :=
      filter_eq_nil_iff.mpr fun candle hcand hin =>
        (hbef candle hcand).not_ge (of_decide_eq_true hin)
    have hall : after.filter (fun candle => options.beforeMs ≤ candle.timestamp) = after :=
      filter_eq_self.mpr fun candle hcand => decide_eq_true (hafter candle hcand)
    rw [filter_append, filter_append, hnone, hall, nil_append]
  have hwarm : (before ++ part ++ after).filter
      (isBefore options (pendingIn options (before ++ part ++ after))) =
        before.filter (isBefore options (pendingIn options (before ++ part ++ after))) ++
          part.filter (isBefore options (pendingIn options (before ++ part ++ after))) := by
    rw [filter_append, filter_append, filter_isBefore_of_after hle
      (fun candle => lt_beforeMs_of_mem_pendingIn) hafter fun hord => (hearl hord).2,
      append_nil]
  unfold selectWindow windowIn
  rw [HistoricWindow.mk.injEq, hwarm, hlook, pendingOf_eq, take_append_iff]
  constructor
  · rintro ⟨hfst, hsame, hlast⟩
    rw [hsame] at hfst
    obtain ⟨hzero, henoug⟩ := sliceFromEnd_eq_iff.mp hfst
    exact ⟨hpend.mp hsame, hzero, henoug, hlast⟩
  · intro h
    have hsame := hpend.mpr h.pending
    rw [hsame]
    exact ⟨sliceFromEnd_eq_iff.mpr ⟨h.noWarmup, h.warmup⟩, rfl, h.lookahead⟩

end Selection

/-! ### The bounds of a window -/

lemma findIdx?_ranges (history : History Bar) (p : HistoricChunkRange → Bool) :
    history.ranges.findIdx? p =
      if (history.chunks.findIdx fun chunk => p (rangeOf chunk)) < history.chunks.length then
        some (history.chunks.findIdx fun chunk => p (rangeOf chunk))
      else none := by
  unfold History.ranges
  rw [findIdx?_map, findIdx?_eq_guard_findIdx_lt]
  simp only [Option.guard, decide_eq_true_eq]
  rfl

section Positions

variable {history : History Bar} {i : ℕ} {chunk : List (HistoricCandle Bar)} {time : ℚ}

section

variable (h : history.chunks[i]? = some chunk)

include h

lemma History.start_lt_of_lt_begins (hlt : i < history.begins time) :
    (rangeOf chunk).start < time := by
  obtain ⟨hi, rfl⟩ := List.getElem?_eq_some_iff.mp h
  exact lt_of_not_ge (of_decide_eq_false (not_of_lt_findIdx hlt))

lemma History.endAt_lt_of_lt_ends (hlt : i < history.ends time) : (rangeOf chunk).endAt < time := by
  obtain ⟨hi, rfl⟩ := List.getElem?_eq_some_iff.mp h
  exact lt_of_not_ge (of_decide_eq_false (not_of_lt_findIdx (hlt.trans_le (min_le_left _ _))))

lemma History.le_of_begins_le (hle : history.begins time ≤ i) {candle : HistoricCandle Bar}
    (hmem : candle ∈ chunk) :
    time ≤ candle.timestamp := by
  have hlt : history.begins time < history.chunks.length :=
    hle.trans_lt (List.getElem?_eq_some_iff.mp h).1
  have hst : time ≤ (rangeOf history.chunks[history.begins time]).start :=
    of_decide_eq_true (findIdx_getElem (w := hlt))
  exact hst.trans (start_le (getElem?_eq_getElem hlt) h hle hmem)

lemma History.lt_of_ends_lt (hgt : history.ends time < i) {candle : HistoricCandle Bar}
    (hmem : candle ∈ chunk) :
    time < candle.timestamp := by
  have hi : i < history.chunks.length := (List.getElem?_eq_some_iff.mp h).1
  have hends : history.ends time =
      history.chunks.findIdx fun chunk => time ≤ (rangeOf chunk).endAt := by
    unfold ends at hgt ⊢
    omega
  have hlt : history.ends time < history.chunks.length := hgt.trans hi
  rw [hends] at hgt hlt
  have hend := of_decide_eq_true (findIdx_getElem (w := hlt))
  exact hend.trans_lt (endAt_lt (getElem?_eq_getElem hlt) h hgt hmem)

end

lemma History.ends_mono {other : ℚ} (h : time ≤ other) :
    history.ends time ≤ history.ends other := by
  have hle : (history.chunks.findIdx fun chunk => time ≤ (rangeOf chunk).endAt) ≤
      history.chunks.findIdx fun chunk => other ≤ (rangeOf chunk).endAt :=
    findIdx_le_findIdx fun chunk _ hlate => decide_eq_true (h.trans (of_decide_eq_true hlate))
  unfold ends
  omega

end Positions

section Asked

variable {history : History Bar} {options : HistoricWindowOptions} {first last : ℕ}

lemma Asked.unique {first' last' : ℕ} (h : Asked history options first last)
    (h' : Asked history options first' last') : first = first' ∧ last = last' := by
  unfold Asked at h h'
  cases hord : options.pendingOrder with
  | latest =>
    rw [hord] at h h'
    obtain ⟨rfl, hgreat⟩ := h
    obtain ⟨rfl, hgreat'⟩ := h'
    exact ⟨hgreat.unique hgreat', rfl⟩
  | earliest =>
    rw [hord] at h h'
    exact ⟨h.1.unique h'.1, h.2.unique h'.2⟩

lemma Asked.first_le_last (hle : options.afterMs ≤ options.beforeMs)
    (h : Asked history options first last) : first ≤ last := by
  unfold Asked at h
  split at h
  · exact h.2.1.1
  · exact h.1.1.1.trans ((ends_mono hle).trans h.2.1.1)

lemma Asked.lt_of_before (hle : options.afterMs ≤ options.beforeMs)
    (h : Asked history options first last) {candle : HistoricCandle Bar}
    (hmem : candle ∈ (history.chunks.take first).flatten) :
    candle.timestamp < options.beforeMs ∧
      (options.pendingOrder = .earliest → candle.timestamp ≤ options.afterMs) := by
  obtain ⟨i, chunk, hlt, hi, hcand⟩ := mem_take_flatten hmem
  unfold Asked at h
  cases hord : options.pendingOrder with
  | latest =>
    rw [hord] at h
    obtain ⟨rfl, ⟨hfst, -⟩, -⟩ := h
    have hbegin : history.begins options.beforeMs ≤ history.chunks.length := findIdx_le_length
    obtain ⟨next, hnext⟩ : ∃ next,
        history.chunks[history.begins options.beforeMs - 1]? = some next :=
      ⟨_, getElem?_eq_getElem (by omega)⟩
    refine ⟨(lt_start hi hnext (by omega) hcand).trans
      (start_lt_of_lt_begins hnext (by omega)), fun h => absurd h (by simp)⟩
  | earliest =>
    rw [hord] at h
    have hend := endAt_lt_of_lt_ends hi (hlt.trans_le h.1.1.1)
    have hearly : candle.timestamp < options.afterMs :=
      (le_endAt_of_mem (chunk_sorted hi) hcand).trans_lt hend
    exact ⟨hearly.trans_le hle, fun _ => hearly.le⟩

lemma Asked.le_of_after (h : Asked history options first last) {candle : HistoricCandle Bar}
    (hmem : candle ∈ (history.chunks.drop (last + 1)).flatten) :
    options.beforeMs ≤ candle.timestamp ∧
      (options.pendingOrder = .earliest → options.beforeMs < candle.timestamp) := by
  obtain ⟨i, chunk, hlt, hi, hcand⟩ := mem_drop_flatten hmem
  unfold Asked at h
  cases hord : options.pendingOrder with
  | latest =>
    rw [hord] at h
    exact ⟨le_of_begins_le hi (by omega) hcand, fun h => absurd h (by simp)⟩
  | earliest =>
    rw [hord] at h
    have hlate := lt_of_ends_lt hi (h.2.1.1.trans_lt hlt) hcand
    exact ⟨hlate.le, fun _ => hlate⟩

lemma latestLast_eq (history : History Bar) (time : ℚ) :
    latestLast history.ranges time = history.begins time - 1 := by
  unfold latestLast
  have hbegin : history.begins time ≤ history.chunks.length := findIdx_le_length
  rw [findIdx?_ranges, history.length_ranges]
  unfold begins at hbegin ⊢
  by_cases hfnd :
      (history.chunks.findIdx fun chunk => time ≤ (rangeOf chunk).start) < history.chunks.length
  · rw [if_pos hfnd]
  · rw [if_neg hfnd, hbegin.antisymm (Nat.le_of_not_lt hfnd)]

lemma getD_ends (history : History Bar) (time : ℚ) :
    (history.ranges.findIdx? fun range => time ≤ range.endAt).getD (history.ranges.length - 1) =
      history.ends time := by
  rw [findIdx?_ranges, history.length_ranges]
  unfold ends
  split
  · rw [getD_some]
    omega
  · rw [getD_none]
    omega

lemma reachedFrom_eq (hle : options.afterMs ≤ options.beforeMs)
    (hfst : first ≤ history.ends options.afterMs) :
    reachedFrom history.ranges first options.beforeMs = history.ends options.beforeMs := by
  have hnone : (history.ranges.take first).findIdx? (fun range => options.beforeMs ≤ range.endAt) =
      none := by
    refine findIdx?_eq_none_iff.mpr fun range hrange => ?_
    obtain ⟨i, hi⟩ := mem_iff_getElem?.mp hrange
    rw [getElem?_take, history.getElem?_ranges] at hi
    obtain ⟨hlt, hsome⟩ := ite_none_right_eq_some.mp hi
    obtain ⟨chunk, hchunk, rfl⟩ := map_eq_some_iff.mp hsome
    have hend := endAt_lt_of_lt_ends hchunk (hlt.trans_le hfst)
    exact decide_eq_false (hend.trans_le hle).not_ge
  have hlen : (history.ranges.take first).length = first := by
    rw [length_take, history.length_ranges]
    unfold ends at hfst
    omega
  unfold reachedFrom
  rw [← getD_ends, ← take_append_drop first history.ranges, findIdx?_append, hnone,
    hlen, take_append_drop]
  cases (history.ranges.drop first).findIdx? fun range => options.beforeMs ≤ range.endAt with
  | none => rfl
  | some i => exact add_comm _ _

lemma asked_windowBounds (hle : options.afterMs ≤ options.beforeMs) (hne : history.chunks ≠ []) :
    Asked history options (windowBounds history.ranges options).1
      (windowBounds history.ranges options).2 := by
  have hlen : 0 < history.chunks.length := length_pos_iff.mpr hne
  unfold Asked windowBounds
  cases hord : options.pendingOrder with
  | latest =>
    dsimp only
    have hbegin : history.begins options.beforeMs ≤ history.chunks.length := findIdx_le_length
    rw [latestLast_eq]
    exact ⟨rfl, latestFirst_isGreatest (by omega) _⟩
  | earliest =>
    dsimp only
    have hends : ∀ time, history.ends time < history.chunks.length := fun time => by
      unfold ends
      omega
    rw [getD_ends]
    have hfst := earliestFirst_isGreatest (hends options.afterMs) (wholeCount options.warmup)
    rw [reachedFrom_eq hle hfst.1.1]
    exact ⟨hfst, lookaheadLast_isLeast (hends options.beforeMs) _⟩

end Asked

/-! ### Agreement -/

/-- What the bounded readers give is what the same selection of the whole list gives. -/
structure Agree (history : History Bar) (limit : Option ℚ) (bound other : ℚ)
    (batchChunks : Option ℚ) (options : HistoricWindowOptions) : Prop where
  tail : getHistoricCandleTail history.ranges history.chunks history.legacy limit =
    history.candles.rtake (wholeCount limit)
  range : getHistoricCandlesForRange history.ranges history.chunks history.legacy bound other
      batchChunks =
    history.candles.filter fun candle =>
      min bound other ≤ candle.timestamp ∧ candle.timestamp ≤ max bound other
  window : options.afterMs ≤ options.beforeMs →
    getHistoricCandleWindow history.ranges history.chunks history.legacy options =
      windowIn options history.candles

section

variable {history : History Bar} {options : HistoricWindowOptions}
  (hle : options.afterMs ≤ options.beforeMs)

include hle

lemma getHistoricCandleWindow_eq_iff_of_empty (hemp : history.chunks = []) :
    getHistoricCandleWindow history.ranges history.chunks history.legacy options =
        windowIn options history.candles ↔ Enough options [] history.legacy [] := by
  have hrang : history.ranges = [] := by
    unfold History.ranges
    rw [hemp]
    rfl
  have hselec : selectWindow options history.legacy =
      windowIn options ([] ++ history.legacy ++ []) ↔ Enough options [] history.legacy [] :=
    selectWindow_eq_iff hle (forall_mem_nil _) (forall_mem_nil _)
      fun _ => ⟨forall_mem_nil _, forall_mem_nil _⟩
  rw [append_nil] at hselec
  unfold getHistoricCandleWindow History.candles
  rw [if_neg hle.not_gt, if_pos hrang, if_pos hemp]
  exact hselec

lemma getHistoricCandleWindow_eq_iff (hne : history.chunks ≠ []) {first last : ℕ}
    (hasked : Asked history options first last) :
    getHistoricCandleWindow history.ranges history.chunks history.legacy options =
        windowIn options history.candles ↔
      Enough options (history.chunks.take first).flatten (lrange history.chunks first last).flatten
        (history.chunks.drop (last + 1)).flatten := by
  have hrang : history.ranges ≠ [] := fun h => hne (map_eq_nil_iff.mp h)
  obtain ⟨hfst, hlast⟩ := (asked_windowBounds hle hne).unique hasked
  unfold getHistoricCandleWindow History.candles
  dsimp only
  rw [if_neg hle.not_gt, if_neg hrang, if_neg hne, hfst, hlast,
    normalizeHistoricCandles_of_sorted (history.lrange_sorted _ _),
    history.flatten_eq (hasked.first_le_last hle)]
  exact selectWindow_eq_iff hle (fun candle hmem => (hasked.lt_of_before hle hmem).1)
    (fun candle hmem => (hasked.le_of_after hmem).1) fun hord =>
      ⟨fun candle hmem => (hasked.lt_of_before hle hmem).2 hord,
        fun candle hmem => (hasked.le_of_after hmem).2 hord⟩

end

/-- **Bounded reads.** Tails and ranges always agree with the whole list.  A window does exactly
when the chunks that the counts ask for have enough. -/
theorem agree_iff_enough (history : History Bar) (limit : Option ℚ) (bound other : ℚ)
    (batchChunks : Option ℚ) (options : HistoricWindowOptions) :
    Agree history limit bound other batchChunks options ↔
      (options.afterMs ≤ options.beforeMs → ∀ before part after,
        Parts history options before part after → Enough options before part after) := by
  have hwindow : options.afterMs ≤ options.beforeMs →
      (getHistoricCandleWindow history.ranges history.chunks history.legacy options =
          windowIn options history.candles ↔
        ∀ before part after, Parts history options before part after →
          Enough options before part after) := by
    intro hle
    unfold Parts
    by_cases hempty : history.chunks = []
    · rw [getHistoricCandleWindow_eq_iff_of_empty hle hempty]
      simp only [if_pos hempty]
      constructor
      · rintro henough before part after ⟨rfl, rfl, rfl⟩
        exact henough
      · exact fun h => h _ _ _ ⟨rfl, rfl, rfl⟩
    · have hasked := asked_windowBounds hle hempty
      rw [getHistoricCandleWindow_eq_iff hle hempty hasked]
      simp only [if_neg hempty]
      constructor
      · rintro henough before part after ⟨first, last, h, rfl, rfl, rfl⟩
        obtain ⟨hfirst, hlast⟩ := h.unique hasked
        rw [hfirst, hlast]
        exact henough
      · exact fun h => h _ _ _ ⟨_, _, hasked, rfl, rfl, rfl⟩
  exact ⟨fun h hle => (hwindow hle).mp (h.window hle), fun h =>
    ⟨getHistoricCandleTail_eq history limit,
      getHistoricCandlesForRange_eq history bound other batchChunks,
      fun hle => (hwindow hle).mpr (h hle)⟩⟩

def candleAt (timestamp : ℚ) (h : 0 < timestamp) : HistoricCandle Unit := ⟨timestamp, (), h⟩

/-- A chunk of one candle and a chunk of two. -/
def threeCandles : History Unit where
  chunks := [[candleAt 1 (by norm_num)], [candleAt 2 (by norm_num), candleAt 3 (by norm_num)]]
  nonempty := by simp
  sorted := by norm_num [candleAt]
  legacy := []

/-- The latest candle before the third one, with a warmup of one. -/
def latestOfThree : HistoricWindowOptions where
  afterMs := 0
  beforeMs := 3
  limit := some 1
  warmup := some 1
  lookahead := none
  pendingOrder := .latest

/-- The chunk of the last two candles counts for two rows, but the second of them is not before the
window's end: the window has no warmup, where the whole list has one. -/
theorem not_agree_threeCandles :
    ¬ ∀ (history : History Unit) (limit : Option ℚ) (bound other : ℚ) (batchChunks : Option ℚ)
      (options : HistoricWindowOptions), Agree history limit bound other batchChunks options := by
  intro h
  have hwindow := (h threeCandles none 0 0 none latestOfThree).window (by decide +kernel)
  have hlength := congrArg (fun window => window.warmup.length) hwindow
  revert hlength
  decide +kernel

end CtsEngine.HistoricCandles
