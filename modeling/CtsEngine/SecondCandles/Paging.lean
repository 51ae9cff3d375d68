import CtsEngine.SecondCandles.Aggregation

/-!
# Candles of trades that come page by page

`build1sOhlcvFromTrades` asks for the newest trades of a window, then for the newest trades before
the oldest of them, and so on, and hands the trades to the aggregator in the order in which they
came.  A page boundary loses the trades that share the millisecond of the oldest trade of a page but
are not in it, and a second that is divided by a boundary gets its opening price from its newest
part and its closing price from its oldest part.
-/

namespace CtsEngine

open List

/-- How the loop ends: the oldest trade of a page is at the start of the window, a page is empty, a
page failed twice, or the iterations are used up. -/
inductive PagingEnd
  | covered
  | exhausted
  | failed
  | capped
deriving DecidableEq

/-- `TradesPaginator`, for one symbol: a call by its number and its two bounds, `none` when it
throws. -/
abbrev TradesPaginator := ℕ → ℚ → ℚ → Option (List RawTrade)

/-- `oldestTs`, with `none` for `Infinity`. -/
def oldestOf (page : List RawTrade) : Option ℚ :=
  page.foldl (fun oldestTs t =>
    if oldestTs.all fun oldest => t.timestamp < oldest then some t.timestamp else oldestTs) none

/-- A page with one retry, and the number of the next call. -/
def fetchPage (paginator : TradesPaginator) (startMs : ℚ) (call : ℕ) (cursorEnd : ℚ) :
    Option (List RawTrade) × ℕ :=
  match paginator call startMs cursorEnd with
  | some page => (some page, call + 1)
  | none => (paginator (call + 1) startMs cursorEnd, call + 2)

/-- The loop, with `allTrades`. -/
def fetchPages (paginator : TradesPaginator) (startMs : ℚ) : ℕ → ℕ → ℚ → PagingEnd × List RawTrade
  | 0, _, _ => (.capped, [])
  | iterations + 1, call, cursorEnd =>
    match fetchPage paginator startMs call cursorEnd with
    | (none, _) => (.failed, [])
    | (some page, next) =>
      match oldestOf page with
      | none => (.exhausted, page)
      | some oldestTs =>
        if oldestTs ≤ startMs then (.covered, page)
        else
          let (ending, older) := fetchPages paginator startMs iterations next oldestTs
          (ending, page ++ older)

def build1sOhlcvFromTrades (paginator : TradesPaginator) (startMs endMs : ℚ)
    (maxIterations : Option ℕ) : List OHLCV1s :=
  aggregateTradesTo1sOHLCV
    (fetchPages paginator startMs (maxIterations.getD 300) 0 endMs).2 startMs endMs

/-! ## Tapes and their pages -/

/-- The trades of a symbol in the order of their times. -/
structure Tape where
  trades : List RawTrade
  sorted : trades.Pairwise fun a b => a.timestamp ≤ b.timestamp

def Tape.window (tape : Tape) (startMs untilMs : ℚ) : List RawTrade :=
  tape.trades.filter fun t => startMs ≤ t.timestamp ∧ t.timestamp < untilMs

/-- The newest trades, as many as a page has. -/
def newestTrades (pageSize : ℕ) (trades : List RawTrade) : List RawTrade :=
  trades.drop (trades.length - pageSize)

/-- The trades before the newest. -/
def tradesBefore (pageSize : ℕ) (trades : List RawTrade) : List RawTrade :=
  trades.take (trades.length - pageSize)

/-- A paginator that returns the newest trades of a window, in some order. -/
structure ServesNewest (paginator : TradesPaginator) (tape : Tape) (pageSize : ℕ) (startMs : ℚ)
    (pageAt : ℚ → List RawTrade) : Prop where
  eq_pageAt : ∀ call untilMs page, paginator call startMs untilMs = some page →
    page = pageAt untilMs
  perm : ∀ untilMs, (pageAt untilMs).Perm (newestTrades pageSize (tape.window startMs untilMs))

section Boundaries

variable (tape : Tape) (pageSize : ℕ) (startMs : ℚ)

/-- The ends of the pages of a window: each page ends where the one before has its oldest trade. -/
def pageEnds : ℕ → ℚ → List ℚ
  | 0, _ => []
  | bound + 1, untilMs =>
    match oldestOf (newestTrades pageSize (tape.window startMs untilMs)) with
    | none => []
    | some oldestTs => untilMs :: pageEnds bound oldestTs

/-- The trades that fall between two pages: they are as old as the oldest trade of the newer page,
but not in it. -/
def betweenPages : ℕ → ℚ → List RawTrade
  | 0, _ => []
  | bound + 1, untilMs =>
    match oldestOf (newestTrades pageSize (tape.window startMs untilMs)) with
    | none => []
    | some oldestTs =>
      (tradesBefore pageSize (tape.window startMs untilMs)).filter (oldestTs ≤ ·.timestamp) ++
        betweenPages bound oldestTs

/-- The trades of a window in the order in which their pages come. -/
def deliveredTrades (pageAt : ℚ → List RawTrade) (endMs : ℚ) : List RawTrade :=
  (pageEnds tape pageSize startMs (tape.window startMs endMs).length endMs).flatMap pageAt

/-- The trades of a window that no page has. -/
def lostTrades (endMs : ℚ) : List RawTrade :=
  betweenPages tape pageSize startMs (tape.window startMs endMs).length endMs

end Boundaries

lemma oldestOf_append_singleton (page : List RawTrade) (t : RawTrade) : oldestOf (page ++ [t]) =
      if (oldestOf page).all fun oldest => t.timestamp < oldest then some t.timestamp
      else oldestOf page := by
  rw [oldestOf, foldl_append]
  rfl

lemma oldestOf_spec (page : List RawTrade) :
    match oldestOf page with
    | none => page = []
    | some oldest => (∃ t ∈ page, t.timestamp = oldest) ∧ ∀ t ∈ page, oldest ≤ t.timestamp := by
  induction page using reverseRecOn with
  | nil => rfl
  | append_singleton page t ih =>
    rw [oldestOf_append_singleton]
    cases hold : oldestOf page with
    | none =>
      rw [hold] at ih
      subst ih
      exact ⟨⟨t, mem_singleton_self t, rfl⟩, by simp⟩
    | some oldest =>
      rw [hold] at ih
      obtain ⟨⟨other, hoth, rfl⟩, hall⟩ := ih
      by_cases hlt : t.timestamp < other.timestamp
      · rw [if_pos (by simpa using hlt)]
        refine ⟨⟨t, by simp, rfl⟩, forall_mem_append.mpr ⟨fun u hu => ?_, by simp⟩⟩
        exact hlt.le.trans (hall u hu)
      · rw [if_neg (by simpa using hlt)]
        refine ⟨⟨other, mem_append_left _ hoth, rfl⟩, forall_mem_append.mpr ⟨hall, ?_⟩⟩
        rw [forall_mem_singleton]
        exact not_lt.mp hlt

variable {page : List RawTrade}

lemma oldestOf_eq_none_iff : oldestOf page = none ↔ page = [] := by
  constructor
  · intro h
    have hspec := oldestOf_spec page
    rwa [h] at hspec
  · rintro rfl
    rfl

lemma oldestOf_eq_some {oldest : ℚ} (h : oldestOf page = some oldest) :
    (∃ t ∈ page, t.timestamp = oldest) ∧ ∀ t ∈ page, oldest ≤ t.timestamp := by
  have hspec := oldestOf_spec page
  rwa [h] at hspec

lemma oldestOf_perm {other : List RawTrade} (h : page.Perm other) :
    oldestOf page = oldestOf other := by
  cases hpage : oldestOf page with
  | none =>
    rw [oldestOf_eq_none_iff.mp hpage] at h
    rw [nil_perm.mp h]
    rfl
  | some oldest =>
    obtain ⟨⟨t, ht, rfl⟩, hall⟩ := oldestOf_eq_some hpage
    cases hoth : oldestOf other with
    | none =>
      rw [oldestOf_eq_none_iff.mp hoth] at h
      rw [perm_nil.mp h] at ht
      cases ht
    | some second =>
      obtain ⟨⟨u, hu, rfl⟩, hsec⟩ := oldestOf_eq_some hoth
      exact congrArg some (le_antisymm (hall u (h.mem_iff.mpr hu)) (hsec t (h.mem_iff.mp ht)))

/-! ## The pages of a window -/

section Pages

variable {tape : Tape} {pageSize : ℕ} {startMs : ℚ}

lemma newestTrades_eq_nil_iff (hsize : 1 ≤ pageSize) {trades : List RawTrade} :
    newestTrades pageSize trades = [] ↔ trades = [] := by
  rw [newestTrades, drop_eq_nil_iff, ← length_eq_zero_iff]
  omega

variable {untilMs oldest : ℚ}

section

variable (holdes : oldestOf (newestTrades pageSize (tape.window startMs untilMs)) = some oldest)

include holdes

lemma window_oldest : startMs ≤ oldest ∧ oldest < untilMs ∧ tape.window startMs oldest =
        (tape.window startMs untilMs).filter fun t => t.timestamp < oldest := by
  obtain ⟨⟨t, ht, rfl⟩, -⟩ := oldestOf_eq_some holdes
  have hmem := (mem_filter.mp (mem_of_mem_drop ht)).2
  rw [decide_eq_true_iff] at hmem
  refine ⟨hmem.1, hmem.2, ?_⟩
  rw [Tape.window, Tape.window, filter_filter]
  refine filter_congr fun u _ => ?_
  rw [← Bool.decide_and, decide_eq_decide]
  constructor
  · exact fun h => ⟨h.2, h.1, h.2.trans hmem.2⟩
  · exact fun h => ⟨h.2.1, h.1⟩

lemma length_window_lt :
    (tape.window startMs oldest).length < (tape.window startMs untilMs).length := by
  obtain ⟨⟨t, ht, rfl⟩, -⟩ := oldestOf_eq_some holdes
  rw [(window_oldest holdes).2.2, length_filter_lt_length_iff_exists]
  exact ⟨t, mem_of_mem_drop ht, by simp⟩

lemma window_perm :
    (tape.window startMs untilMs).Perm (newestTrades pageSize (tape.window startMs untilMs) ++
      ((tradesBefore pageSize (tape.window startMs untilMs)).filter (oldest ≤ ·.timestamp) ++
        tape.window startMs oldest)) := by
  have hpage : (newestTrades pageSize (tape.window startMs untilMs)).filter
      (fun t => t.timestamp < oldest) = [] := by
    refine filter_eq_nil_iff.mpr fun t ht => ?_
    rw [decide_eq_true_iff]
    exact not_lt.mpr ((oldestOf_eq_some holdes).2 t ht)
  have hsplit : tradesBefore pageSize (tape.window startMs untilMs) ++
      newestTrades pageSize (tape.window startMs untilMs) = tape.window startMs untilMs :=
    take_append_drop _ _
  have hrest : tape.window startMs oldest =
      (tradesBefore pageSize (tape.window startMs untilMs)).filter
        fun t => t.timestamp < oldest := by
    rw [(window_oldest holdes).2.2]
    conv_lhs => rw [← hsplit]
    rw [filter_append, hpage, append_nil]
  have hbef : ((tradesBefore pageSize (tape.window startMs untilMs)).filter
      (oldest ≤ ·.timestamp) ++ tape.window startMs oldest).Perm
        (tradesBefore pageSize (tape.window startMs untilMs)) := by
    have h := filter_append_perm (fun t : RawTrade => decide (oldest ≤ t.timestamp))
      (tradesBefore pageSize (tape.window startMs untilMs))
    rw [hrest]
    refine (Perm.of_eq ?_).trans h
    congr 1
    refine filter_congr fun t _ => ?_
    rw [← decide_not, decide_eq_decide, not_le]
  have hwhole : (tape.window startMs untilMs).Perm
      (newestTrades pageSize (tape.window startMs untilMs) ++
        tradesBefore pageSize (tape.window startMs untilMs)) := by
    conv_lhs => rw [← hsplit]
    exact perm_append_comm
  exact hwhole.trans (hbef.symm.append_left _)

end

variable (tape startMs) in
lemma window_perm_pages (hsize : 1 ≤ pageSize) {pageAt : ℚ → List RawTrade}
    (hpage : ∀ untilMs, (pageAt untilMs).Perm (newestTrades pageSize (tape.window startMs untilMs)))
    {bound : ℕ} (hbd : (tape.window startMs untilMs).length ≤ bound) :
    (tape.window startMs untilMs).Perm
      ((pageEnds tape pageSize startMs bound untilMs).flatMap pageAt ++
        betweenPages tape pageSize startMs bound untilMs) := by
  induction bound generalizing untilMs with
  | zero =>
    rw [length_eq_zero_iff.mp (Nat.le_zero.mp hbd)]
    exact Perm.nil
  | succ bound ih =>
    rw [pageEnds, betweenPages]
    cases holdes : oldestOf (newestTrades pageSize (tape.window startMs untilMs)) with
    | none =>
      rw [(newestTrades_eq_nil_iff hsize).mp (oldestOf_eq_none_iff.mp holdes)]
      exact Perm.nil
    | some oldest =>
      have hshort := length_window_lt holdes
      have hrest : (tape.window startMs oldest).Perm
          ((pageEnds tape pageSize startMs bound oldest).flatMap pageAt ++
            betweenPages tape pageSize startMs bound oldest) := ih (by omega)
      have hparts := (hpage untilMs).symm.append (hrest.append_left
        ((tradesBefore pageSize (tape.window startMs untilMs)).filter (oldest ≤ ·.timestamp)))
      dsimp only
      rw [flatMap_cons, append_assoc]
      exact (window_perm holdes).trans (hparts.trans ((perm_append_comm_assoc _ _ _).append_left _))

lemma pageEnds_of_window_eq_nil (h : tape.window startMs untilMs = []) (bound : ℕ) :
    pageEnds tape pageSize startMs bound untilMs = [] := by
  cases bound with
  | zero => rfl
  | succ bound =>
    rw [pageEnds, h, newestTrades, drop_nil]
    rfl

lemma exists_of_fetchPage {paginator : TradesPaginator} {call next : ℕ} {page : List RawTrade}
    (h : fetchPage paginator startMs call untilMs = (some page, next)) :
    ∃ c, paginator c startMs untilMs = some page := by
  unfold fetchPage at h
  split at h
  case h_1 first hfst =>
    exact ⟨call, hfst.trans (Prod.mk.inj h).1⟩
  case h_2 => exact ⟨call + 1, (Prod.mk.inj h).1⟩

/-- The loop hands over the pages of the window when it ends because the window is covered. -/
lemma fetchPages_eq (hsize : 1 ≤ pageSize) {paginator : TradesPaginator}
    {pageAt : ℚ → List RawTrade} (hserv : ServesNewest paginator tape pageSize startMs pageAt)
    {iterations call bound : ℕ} (hbd : (tape.window startMs untilMs).length ≤ bound)
    (hend : (fetchPages paginator startMs iterations call untilMs).1 = .covered ∨
      (fetchPages paginator startMs iterations call untilMs).1 = .exhausted) :
    (fetchPages paginator startMs iterations call untilMs).2 =
      (pageEnds tape pageSize startMs bound untilMs).flatMap pageAt := by
  induction iterations generalizing call bound untilMs with
  | zero => rcases hend with hend | hend <;> cases hend
  | succ iterations ih =>
    rw [fetchPages] at hend ⊢
    rcases hfetch : fetchPage paginator startMs call untilMs with ⟨_ | page, next⟩
    · rw [hfetch] at hend
      rcases hend with hend | hend <;> cases hend
    · rw [hfetch] at hend
      obtain ⟨c, hc⟩ := exists_of_fetchPage hfetch
      obtain rfl := hserv.eq_pageAt c untilMs page hc
      dsimp only at hend ⊢
      have hsame := oldestOf_perm (hserv.perm untilMs)
      cases holdes : oldestOf (pageAt untilMs) with
      | none =>
        rw [holdes] at hsame
        have hemp := (newestTrades_eq_nil_iff hsize).mp (oldestOf_eq_none_iff.mp hsame.symm)
        rw [pageEnds_of_window_eq_nil hemp, oldestOf_eq_none_iff.mp holdes]
        rfl
      | some oldest =>
        rw [holdes] at hsame hend
        have hshort := length_window_lt hsame.symm
        have hne : bound ≠ 0 := by omega
        obtain ⟨bound, rfl⟩ := Nat.exists_eq_succ_of_ne_zero hne
        rw [pageEnds, ← hsame]
        dsimp only at hend ⊢
        rw [flatMap_cons]
        by_cases hst : oldest ≤ startMs
        · have hemp : tape.window startMs oldest = [] := by
            refine filter_eq_nil_iff.mpr fun t _ h => ?_
            rw [decide_eq_true_iff] at h
            exact absurd (h.1.trans_lt h.2) (not_lt.mpr hst)
          rw [if_pos hst, pageEnds_of_window_eq_nil hemp, flatMap_nil, append_nil]
        · rw [if_neg hst] at hend ⊢
          have hlen : (tape.window startMs oldest).length ≤ bound := by omega
          rw [ih hlen hend]

lemma ticksOf_window (tape : Tape) (startMs endMs : ℚ) :
    ticksOf startMs endMs (tape.window startMs endMs) = ticksOf startMs endMs tape.trades := by
  rw [ticksOf, Tape.window, filterMap_filter]
  refine filterMap_congr fun t _ => ?_
  by_cases hin : startMs ≤ t.timestamp ∧ t.timestamp < endMs
  · rw [if_pos (decide_eq_true hin)]
  · rw [if_neg (by rwa [decide_eq_true_iff])]
    unfold acceptTrade
    split
    · rw [if_pos]
      rcases lt_or_ge t.timestamp startMs with hlt | hge
      · exact .inl hlt
      · exact .inr (not_lt.mp fun hlt => hin ⟨hge, hlt⟩)
    · rfl

lemma size_nonneg {startMs endMs : ℚ} {trades : List RawTrade} :
    ∀ tick ∈ ticksOf startMs endMs trades, 0 ≤ tick.size := by
  intro tick htick
  obtain ⟨t, -, haccep⟩ := mem_filterMap.mp htick
  unfold acceptTrade at haccep
  split at haccep
  · split at haccep
    · cases haccep
    split at haccep
    · cases haccep
    rw [← Option.some_inj.mp haccep]
    exact abs_nonneg _
  · cases haccep

end Pages

/-- **Candles of pages.**  A loop that ends because the window is covered makes the candles of the
tape exactly when every second of the window survives its pages. -/
theorem build1s_eq_trueCandles_iff (tape : Tape) {pageSize : ℕ} (hsize : 1 ≤ pageSize)
    {startMs endMs : ℚ} {paginator : TradesPaginator} {pageAt : ℚ → List RawTrade}
    (hserves : ServesNewest paginator tape pageSize startMs pageAt) {maxIterations : Option ℕ}
    (hend : (fetchPages paginator startMs (maxIterations.getD 300) 0 endMs).1 = .covered ∨
      (fetchPages paginator startMs (maxIterations.getD 300) 0 endMs).1 = .exhausted) :
    build1sOhlcvFromTrades paginator startMs endMs maxIterations =
        trueCandles startMs endMs tape.trades ↔
      ∀ second, SecondSurvives (inSecond second (ticksOf startMs endMs
          (deliveredTrades tape pageSize startMs pageAt endMs)))
        (inSecond second (ticksOf startMs endMs (lostTrades tape pageSize startMs endMs)))
        (inSecond second (ticksOf startMs endMs tape.trades)) := by
  have hperm : (tape.window startMs endMs).Perm
      (deliveredTrades tape pageSize startMs pageAt endMs ++
        lostTrades tape pageSize startMs endMs) :=
    window_perm_pages tape startMs hsize hserves.perm le_rfl
  rw [build1sOhlcvFromTrades, fetchPages_eq hsize hserves le_rfl hend, aggregate_eq_trueCandles_iff]
  refine forall_congr' fun second => secondCandle_eq_iff ?_ (fun tick htick =>
    size_nonneg tick (mem_filter.mp htick).1) second
  have hticks := (hperm.filterMap (acceptTrade startMs endMs)).filter
    fun tick => decide (tick.second = second)
  rw [filterMap_append, filter_append] at hticks
  rw [← ticksOf_window]
  exact hticks

def Tape.paginator (tape : Tape) (pageSize : ℕ) : TradesPaginator := fun _ startMs untilMs =>
  some (newestTrades pageSize (tape.window startMs untilMs))

lemma Tape.servesNewest (tape : Tape) (pageSize : ℕ) (startMs : ℚ) :
    ServesNewest (tape.paginator pageSize) tape pageSize startMs fun untilMs =>
      newestTrades pageSize (tape.window startMs untilMs) :=
  ⟨fun _ _ _ h => (Option.some_inj.mp h).symm, fun _ => Perm.refl _⟩

/-- Two trades of one second. -/
def risingSecond : Tape where
  trades := [⟨0, some 1, some 1⟩, ⟨1, some 2, some 1⟩]
  sorted := by decide +kernel

/-- Pages of one trade turn a rising second into a falling one. -/
theorem build1s_risingSecond : (fetchPages (risingSecond.paginator 1) 0 300 0 1000).1 = .covered ∧
      build1sOhlcvFromTrades (risingSecond.paginator 1) 0 1000 none ≠
        trueCandles 0 1000 risingSecond.trades := by decide +kernel

/-- Two trades of two seconds. -/
def twoSeconds : Tape where
  trades := [⟨0, some 1, some 1⟩, ⟨1000, some 2, some 1⟩]
  sorted := by decide +kernel

/-- A second that no page divides survives. -/
theorem secondSurvives_twoSeconds : SecondSurvives
    (inSecond 0 (ticksOf 0 2000 (deliveredTrades twoSeconds 1 0
      (fun untilMs => newestTrades 1 (twoSeconds.window 0 untilMs)) 2000)))
    (inSecond 0 (ticksOf 0 2000 (lostTrades twoSeconds 1 0 2000)))
    (inSecond 0 (ticksOf 0 2000 twoSeconds.trades)) := by
  have hend : (fetchPages (twoSeconds.paginator 1) 0 ((none : Option ℕ).getD 300) 0 2000).1 =
      .covered := by decide +kernel
  exact (build1s_eq_trueCandles_iff twoSeconds le_rfl (twoSeconds.servesNewest 1 0)
    (.inl hend)).mp (by decide +kernel) 0

end CtsEngine
