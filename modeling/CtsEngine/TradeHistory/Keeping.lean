import CtsEngine.Foundation.Keyed
import CtsEngine.Transition.Runs
import Mathlib.Data.List.Count
import Mathlib.Data.List.Induction
import Mathlib.Data.List.Perm.Subperm
import Mathlib.Data.List.Sort
import Mathlib.Data.Rat.Floor

/-!
# Merging the trade history

`mergeTradeHistory` of `lib/trade-history.ts`.  The rows of the venue take over local rows one
after another: each venue row takes the local row with the best score that is still there.  The
score of a row with the same close order is the best there is; other rows score by the window of
their close.  In the end rows with one key are reduced to one.

An identifier that is missing is the empty text.
-/

open List Keyed Prod Transition

namespace CtsEngine

/-- `attribution`. -/
inductive TradeAttribution
  | cts
  | unattributed
  deriving DecidableEq

/-- `TradeHistoryRow`, with the fields that merging reads or sets. -/
structure TradeHistoryRow where
  id : String
  symbol : String
  direction : String
  entryPrice : ℚ
  exitPrice : ℚ
  quantity : ℚ
  volumeUsd : ℚ
  grossPnl : ℚ
  fees : ℚ
  realizedPnl : ℚ
  pnlPct : ℚ
  openedAt : ℚ
  closedAt : ℚ
  holdMinutes : ℚ
  source : String
  environment : String
  attribution : Option TradeAttribution
  closeOrderId : String
  positionId : String
  accountingQuality : Option String
  deriving DecidableEq

namespace TradeHistoryRow

/-- Exact identity: the rows have the same close order. -/
def ClosesWith (exchange row : TradeHistoryRow) : Prop :=
  exchange.closeOrderId ≠ "" ∧ exchange.closeOrderId = row.closeOrderId

instance (exchange row : TradeHistoryRow) : Decidable (exchange.ClosesWith row) :=
  inferInstanceAs (Decidable (_ ∧ _))

/-- The difference of two sizes in relation to the larger one. -/
def deltaRatio (left right : ℚ) : ℚ := |left - right| / max (max left right) (1 / 2 ^ 52)

/-- `rowMatchScore`, with `none` for an infinite one. -/
def rowMatchScore (exchange row : TradeHistoryRow) : Option ℚ :=
  let closedDelta := |exchange.closedAt - row.closedAt|
  let quantityDeltaRatio := deltaRatio exchange.quantity row.quantity
  let priceDeltaRatio := deltaRatio exchange.exitPrice row.exitPrice
  if exchange.ClosesWith row then some 0
  else if exchange.symbol ≠ row.symbol ∨ exchange.direction ≠ row.direction then none
  else if exchange.closedAt ≤ 0 ∨ row.closedAt ≤ 0 then none
  else if 5 * 60000 < closedDelta then none
  else if exchange.positionId ≠ "" ∧ exchange.positionId = row.positionId then some closedDelta
  else if 5 / 1000 < quantityDeltaRatio then none
  else if 5 / 1000 < priceDeltaRatio then none
  else some (closedDelta + quantityDeltaRatio * 60000 + priceDeltaRatio * 60000)

/-- `a || b` on identifiers. -/
def orId (left right : String) : String := if left = "" then right else left

/-- The row that a venue row and its local row make. -/
def mergedWith (exchange row : TradeHistoryRow) : TradeHistoryRow :=
  let venueAccountingRequired := decide (row.accountingQuality = some "exchange_required")
  let accountingVolumeUsd := if venueAccountingRequired then exchange.volumeUsd else row.volumeUsd
  let reconciledClosedAt := max exchange.closedAt row.closedAt
  { row with
    entryPrice := if venueAccountingRequired then exchange.entryPrice else row.entryPrice
    quantity := if venueAccountingRequired then exchange.quantity else row.quantity
    grossPnl := exchange.grossPnl
    fees := exchange.fees
    realizedPnl := exchange.realizedPnl
    volumeUsd := accountingVolumeUsd
    pnlPct :=
      if 0 < accountingVolumeUsd then exchange.realizedPnl / accountingVolumeUsd * 100
      else exchange.pnlPct
    exitPrice := if exchange.exitPrice = 0 then row.exitPrice else exchange.exitPrice
    closedAt := reconciledClosedAt
    holdMinutes :=
      if 0 < row.openedAt ∧ row.openedAt ≤ reconciledClosedAt then
        (reconciledClosedAt - row.openedAt) / 60000
      else row.holdMinutes
    closeOrderId := orId exchange.closeOrderId row.closeOrderId
    positionId := orId exchange.positionId row.positionId
    source := "exchange"
    environment := "exchange"
    accountingQuality := some "local"
    attribution := some .cts }

/-- The key under which a row is kept. -/
def key (row : TradeHistoryRow) : String :=
  if row.closeOrderId = "" then "id:" ++ row.id else "close:" ++ row.closeOrderId

/-- `isAttributedTradeHistoryRow`. -/
def isAttributed (row : TradeHistoryRow) : Bool :=
  match row.attribution with
  | some .unattributed => false
  | some .cts => true
  | none => row.source != "exchange"

end TradeHistoryRow

open TradeHistoryRow

/-- A candidate that scores better than the best so far replaces it. -/
def chooseCandidate (exchange : TradeHistoryRow) (best : Option (TradeHistoryRow × ℕ × ℚ))
    (candidate : TradeHistoryRow × ℕ) : Option (TradeHistoryRow × ℕ × ℚ) :=
  match rowMatchScore exchange candidate.1, best with
  | none, best => best
  | some score, none => some (candidate.1, candidate.2, score)
  | some score, some (row, index, bestScore) =>
    if score < bestScore then some (candidate.1, candidate.2, score)
    else some (row, index, bestScore)

/-- The remaining row that a venue row takes, with its place. -/
def bestCandidate (exchange : TradeHistoryRow) (remainingLocal : List TradeHistoryRow) :
    Option (TradeHistoryRow × ℕ) :=
  (remainingLocal.zipIdx.foldl (chooseCandidate exchange) none).map fun best => (best.1, best.2.1)

/-- The loop over the venue rows: each one with the local row that it takes, and the local rows
that nobody takes. -/
def matchRows : List TradeHistoryRow → List TradeHistoryRow →
    List (TradeHistoryRow × Option TradeHistoryRow) × List TradeHistoryRow
  | [], remainingLocal => ([], remainingLocal)
  | exchange :: rest, remainingLocal =>
    match bestCandidate exchange remainingLocal with
    | none =>
      let (taken, left) := matchRows rest remainingLocal
      ((exchange, none) :: taken, left)
    | some (row, index) =>
      let (taken, left) := matchRows rest (remainingLocal.eraseIdx index)
      ((exchange, some row) :: taken, left)

/-- The row of a venue row. -/
def rowOf : TradeHistoryRow × Option TradeHistoryRow → TradeHistoryRow
  | (exchange, none) => { exchange with attribution := some .unattributed }
  | (exchange, some row) => exchange.mergedWith row

/-- `merged`. -/
def mergedRows (exchangeRows localRows : List TradeHistoryRow) : List TradeHistoryRow :=
  (matchRows exchangeRows localRows).1.map rowOf ++
    (matchRows exchangeRows localRows).2.map fun row => { row with attribution := some .cts }

/-- Keep a row under its key, unless one that closed later is there. -/
def keepRow (deduped : List (String × TradeHistoryRow)) (row : TradeHistoryRow) :
    List (String × TradeHistoryRow) :=
  match get? deduped row.key with
  | none => put deduped row.key row
  | some previous =>
    if previous.closedAt ≤ row.closedAt then put deduped row.key row else deduped

/-- `deduped`. -/
def dedupedRows (rows : List TradeHistoryRow) : List TradeHistoryRow :=
  (rows.foldl keepRow []).map snd

def mergeTradeHistory (exchangeRows localRows : List TradeHistoryRow) (limit : ℚ) :
    List TradeHistoryRow :=
  let ordered := (dedupedRows (mergedRows exchangeRows localRows)).insertionSort
    fun left right => right.closedAt ≤ left.closedAt
  if 0 < ⌊limit⌋ then ordered.take ⌊limit⌋.toNat else ordered

end CtsEngine

namespace CtsEngine

open TradeHistoryRow

/-- What a merge promises: every row of ours is there once, and a venue row whose order closed
local rows is merged with one of them. -/
structure KeepsTrades (exchangeRows localRows : List TradeHistoryRow) : Prop where
  kept : (((mergeTradeHistory exchangeRows localRows 0).filter isAttributed).map (·.id)).Perm
    (localRows.map (·.id))
  byOrder : ∀ pair ∈ (matchRows exchangeRows localRows).1, ∀ row ∈ localRows,
    pair.1.ClosesWith row → ∃ own, pair.2 = some own ∧ pair.1.ClosesWith own

/-! ## Taking rows -/

variable {exchange row previous : TradeHistoryRow} {remaining rows : List TradeHistoryRow}
  {deduped : List (String × TradeHistoryRow)}

lemma foldl_chooseCandidate (candidates : List (TradeHistoryRow × ℕ)) :
    (∀ best, candidates.foldl (chooseCandidate exchange) none = some best →
      (best.1, best.2.1) ∈ candidates) ∧
    (candidates.foldl (chooseCandidate exchange) none = none →
      ∀ candidate ∈ candidates, rowMatchScore exchange candidate.1 = none) := by
  induction candidates using reverseRecOn with
  | nil =>
    constructor
    · intro best hbest
      cases hbest
    · intro _ candidate hcand
      cases hcand
  | append_singleton candidates candidate ih =>
    rw [foldl_append, foldl_cons]
    constructor
    · intro best hbest
      unfold chooseCandidate at hbest
      split at hbest
      · exact mem_append_left _ (ih.1 best hbest)
      · cases hbest
        exact mem_concat_self
      · next previous _ hprev =>
        split at hbest
        · cases hbest
          exact mem_concat_self
        · exact mem_append_left _ (ih.1 best (hprev.trans hbest))
    · intro hnone other hoth
      unfold chooseCandidate at hnone
      split at hnone
      · next hscore =>
        rcases mem_append.mp hoth with hold | hlast
        · exact ih.2 hnone other hold
        · rw [mem_singleton.mp hlast]
          exact hscore
      · cases hnone
      · split at hnone <;> cases hnone

variable (exchangeRows localRows : List TradeHistoryRow) {index : ℕ}

lemma bestCandidate_eq_some (h : bestCandidate exchange remaining = some (row, index)) :
    remaining[index]? = some row := by
  obtain ⟨best, hbest, heq⟩ := Option.map_eq_some_iff.mp h
  have hmem := (foldl_chooseCandidate remaining.zipIdx).1 best hbest
  rw [heq] at hmem
  exact mem_zipIdx_iff_getElem?.mp hmem

lemma bestCandidate_eq_none (h : bestCandidate exchange remaining = none) :
    ∀ row ∈ remaining, ¬exchange.ClosesWith row := by
  intro row hrow hclos
  obtain ⟨index, hidx⟩ := mem_iff_getElem?.mp hrow
  have hscore := (foldl_chooseCandidate remaining.zipIdx).2 (Option.map_eq_none_iff.mp h)
    (row, index) (mem_zipIdx_iff_getElem?.mpr hidx)
  rw [rowMatchScore, if_pos hclos] at hscore
  cases hscore

/-- The rows taken in each round: a row is taken for its time only when none with the order is
left, and never the last one whose order a later venue row has. -/
def TakesByOrder : List TradeHistoryRow → List TradeHistoryRow → Prop
  | [], _ => True
  | exchange :: rest, remaining =>
    match bestCandidate exchange remaining with
    | none => TakesByOrder rest remaining
    | some (row, index) =>
      (exchange.ClosesWith row ∨ ∀ other ∈ remaining, ¬exchange.ClosesWith other) ∧
      (∀ later ∈ rest, later.ClosesWith row →
        ∃ other ∈ remaining.eraseIdx index, later.ClosesWith other) ∧
      TakesByOrder rest (remaining.eraseIdx index)

lemma perm_cons_eraseIdx (h : remaining[index]? = some row) :
    (row :: remaining.eraseIdx index).Perm remaining := by
  obtain ⟨hlt, rfl⟩ := List.getElem?_eq_some_iff.mp h
  exact getElem_cons_eraseIdx_perm hlt

lemma matchRows_spec (exchangeRows remaining : List TradeHistoryRow) :
    (matchRows exchangeRows remaining).1.map fst = exchangeRows ∧
      ((matchRows exchangeRows remaining).1.filterMap snd ++
        (matchRows exchangeRows remaining).2).Perm remaining := by
  induction exchangeRows generalizing remaining with
  | nil => exact ⟨rfl, Perm.refl _⟩
  | cons exchange rest ih =>
    rw [matchRows]
    cases hbest : bestCandidate exchange remaining with
    | none =>
      obtain ⟨hfst, hperm⟩ := ih remaining
      exact ⟨congrArg (exchange :: ·) hfst, hperm⟩
    | some best =>
      obtain ⟨row, index⟩ := best
      obtain ⟨hfst, hperm⟩ := ih (remaining.eraseIdx index)
      refine ⟨congrArg (exchange :: ·) hfst, ?_⟩
      exact (hperm.cons row).trans (perm_cons_eraseIdx (bestCandidate_eq_some hbest))

/-- **Taking.** Venue rows are merged with local rows that they closed exactly when each round takes
by order. -/
lemma takesByOrder_iff (exchangeRows remaining : List TradeHistoryRow) :
    (∀ pair ∈ (matchRows exchangeRows remaining).1, ∀ row ∈ remaining, pair.1.ClosesWith row →
      ∃ own, pair.2 = some own ∧ pair.1.ClosesWith own) ↔
      TakesByOrder exchangeRows remaining := by
  induction exchangeRows generalizing remaining with
  | nil => exact iff_of_true (fun pair hpair => by cases hpair) trivial
  | cons exchange rest ih =>
    rw [matchRows, TakesByOrder]
    cases hbest : bestCandidate exchange remaining with
    | none =>
      rw [← ih remaining]
      simp only [forall_mem_cons]
      refine and_iff_right fun row hrow hclos => ?_
      exact absurd hclos (bestCandidate_eq_none hbest row hrow)
    | some best =>
      obtain ⟨taken, index⟩ := best
      have hperm := perm_cons_eraseIdx (bestCandidate_eq_some hbest)
      obtain ⟨hfst, hlocal⟩ := matchRows_spec rest (remaining.eraseIdx index)
      dsimp only
      rw [← ih (remaining.eraseIdx index)]
      simp only [forall_mem_cons]
      constructor
      · rintro ⟨hhead, htail⟩
        refine ⟨?_, ?_, ?_⟩
        · by_contra hneit
          rw [not_or] at hneit
          refine hneit.2 fun other hoth hclos => hneit.1 ?_
          obtain ⟨own, hown, hclosOwn⟩ := hhead other hoth hclos
          cases hown
          exact hclosOwn
        · intro later hlate hclos
          rw [← hfst] at hlate
          obtain ⟨pair, hpair, rfl⟩ := mem_map.mp hlate
          have htaken := hperm.subset (mem_cons_self ..)
          obtain ⟨own, hown, hclosOwn⟩ := htail pair hpair taken htaken hclos
          refine ⟨own, hlocal.subset (mem_append_left _ ?_), hclosOwn⟩
          exact mem_filterMap.mpr ⟨pair, hpair, hown⟩
        · intro pair hpair row hrow
          exact htail pair hpair row (hperm.subset (mem_cons_of_mem _ hrow))
      · rintro ⟨hrnd, hlast, htail⟩
        refine ⟨?_, ?_⟩
        · intro row hrow hclos
          exact ⟨taken, rfl, hrnd.resolve_right fun hnone => hnone row hrow hclos⟩
        · intro pair hpair row hrow hclos
          rcases mem_cons.mp (hperm.symm.subset hrow) with rfl | hrest
          · have hlate : pair.1 ∈ rest := hfst ▸ mem_map_of_mem hpair
            obtain ⟨other, hoth, hclosOth⟩ := hlast pair.1 hlate hclos
            exact htail pair hpair other hoth hclosOth
          · exact htail pair hpair row hrest hclos

/-! ## Keeping rows -/

/-- Of two rows under one key, the one that gives way is not ours. -/
def SparesOwn (earlier later : TradeHistoryRow) : Prop :=
  earlier.key = later.key →
    if earlier.closedAt ≤ later.closedAt then earlier.isAttributed = false
    else later.isAttributed = false

/-- The rows of ours among some. -/
def ownCount (rows : List TradeHistoryRow) : ℤ :=
  (rows.map fun row => if row.isAttributed then (1 : ℤ) else 0).sum

/-- Of each key one of its latest rows is kept. -/
structure KeepsLatest (rows : List TradeHistoryRow) (deduped : List (String × TradeHistoryRow)) :
    Prop where
  unique : KeysUnique deduped
  stored : ∀ key row, get? deduped key = some row → row ∈ rows ∧ row.key = key ∧
    ∀ other ∈ rows, other.key = key → other.closedAt ≤ row.closedAt
  missing : ∀ key, get? deduped key = none → ∀ row ∈ rows, row.key ≠ key
  subperm : (deduped.map snd).Subperm rows

/-- What has been kept of rows. -/
structure Keeps (rows : List TradeHistoryRow) (deduped : List (String × TradeHistoryRow)) :
    Prop extends KeepsLatest rows deduped where
  own : rows.Pairwise SparesOwn → ∀ row ∈ rows, row.isAttributed = true →
    get? deduped row.key = some row
  count_le : ownCount (deduped.map snd) ≤ ownCount rows
  count_iff : ownCount (deduped.map snd) = ownCount rows ↔ rows.Pairwise SparesOwn

lemma ownCount_append (left right : List TradeHistoryRow) :
    ownCount (left ++ right) = ownCount left + ownCount right := by
  simp [ownCount]

lemma ownCount_singleton (row : TradeHistoryRow) :
    ownCount [row] = if row.isAttributed then 1 else 0 := by
  simp [ownCount]

lemma pairwise_append_singleton : (rows ++ [row]).Pairwise SparesOwn ↔
      rows.Pairwise SparesOwn ∧ ∀ other ∈ rows, SparesOwn other row := by
  rw [pairwise_append]
  simp

lemma subperm_put {K V : Type*} [DecidableEq K] (record : List (K × V)) (key : K) (value : V) :
    ((put record key value).map snd).Subperm (record.map snd ++ [value]) := by
  induction record with
  | nil => exact Subperm.refl _
  | cons entry rest ih =>
    by_cases hkey : entry.1 = key
    · rw [put, if_pos hkey]
      exact (perm_append_singleton value (rest.map snd)).symm.subperm.trans
        (sublist_cons_self entry.2 _).subperm
    · rw [put, if_neg hkey]
      exact (subperm_cons entry.2).mpr ih

/-- A row is written that is not older than the rows of its key. -/
lemma KeepsLatest.put (h : KeepsLatest rows deduped)
    (hlates : ∀ other ∈ rows, other.key = row.key → other.closedAt ≤ row.closedAt) :
    KeepsLatest (rows ++ [row]) (put deduped row.key row) := by
  refine ⟨h.unique.put .., ?_, ?_, (subperm_put ..).trans (h.subperm.append (Subperm.refl _))⟩
  · intro key kept hkept
    by_cases hsame : key = row.key
    · subst hsame
      obtain rfl := Option.some.inj ((get?_put_self ..).symm.trans hkept)
      refine ⟨mem_concat_self, rfl, forall_mem_concat hlates fun _ => le_rfl⟩
    · rw [get?_put_of_ne _ _ hsame] at hkept
      obtain ⟨hmem, hkeptKey, hkeptLates⟩ := h.stored key kept hkept
      exact ⟨mem_append_left _ hmem, hkeptKey,
        forall_mem_concat hkeptLates fun hrow => absurd hrow.symm hsame⟩
  · intro key hmiss
    have hne : key ≠ row.key := by
      rintro rfl
      rw [get?_put_self] at hmiss
      cases hmiss
    rw [get?_put_of_ne _ _ hne] at hmiss
    exact forall_mem_concat (h.missing key hmiss) hne.symm

lemma Keeps.new (h : Keeps rows deduped) (hnone : get? deduped row.key = none) :
    Keeps (rows ++ [row]) (put deduped row.key row) := by
  have hmiss := h.missing row.key hnone
  have hput : (put deduped row.key row).map snd = deduped.map snd ++ [row] := by
    rw [put_of_new, map_append, map_singleton]
    rw [← isSome_get?_iff, hnone]
    exact Bool.false_ne_true
  have hpairs : (rows ++ [row]).Pairwise SparesOwn ↔ rows.Pairwise SparesOwn := by
    rw [pairwise_append_singleton]
    exact and_iff_left fun other hoth hkey => absurd hkey (hmiss other hoth)
  refine ⟨h.toKeepsLatest.put fun other hoth hsame => absurd hsame (hmiss other hoth), ?_, ?_, ?_⟩
  · intro hpair
    refine forall_mem_concat (fun other hold hown => ?_) fun _ => get?_put_self ..
    rw [get?_put_of_ne _ _ (hmiss other hold)]
    exact h.own (hpairs.mp hpair) other hold hown
  · rw [hput, ownCount_append, ownCount_append]
    exact Int.add_le_add_right h.count_le _
  · rw [hput, ownCount_append, ownCount_append, add_left_inj, h.count_iff, hpairs]

/-- A row that closed later takes the place of its key. -/
lemma Keeps.replace (h : Keeps rows deduped) (hsome : get? deduped row.key = some previous)
    (hle : previous.closedAt ≤ row.closedAt) :
    Keeps (rows ++ [row]) (put deduped row.key row) := by
  obtain ⟨hprev, hkey, hlates⟩ := h.stored row.key previous hsome
  have hcnt : ownCount ((put deduped row.key row).map snd) =
      ownCount (deduped.map snd) + (if row.isAttributed then 1 else 0) -
        if previous.isAttributed then 1 else 0 := by
    have htot := total_put (fun kept : TradeHistoryRow =>
      if kept.isAttributed then (1 : ℤ) else 0) deduped row.key row
    rw [hsome] at htot
    simpa [total, ownCount, Function.comp_def] using htot
  have hpairs : (rows ++ [row]).Pairwise SparesOwn ↔
      rows.Pairwise SparesOwn ∧ previous.isAttributed = false := by
    rw [pairwise_append_singleton]
    constructor
    · rintro ⟨hrows, hrow⟩
      have hspare := hrow previous hprev hkey
      rw [if_pos hle] at hspare
      exact ⟨hrows, hspare⟩
    · rintro ⟨hrows, hspar⟩
      refine ⟨hrows, fun other hoth hsame => ?_⟩
      rw [if_pos ((hlates other hoth hsame).trans hle)]
      by_contra hown
      have hkept := h.own hrows other hoth (eq_true_of_ne_false hown)
      rw [hsame, hsome] at hkept
      cases hkept
      exact hown hspar
  refine ⟨h.toKeepsLatest.put fun other hoth hsame => (hlates other hoth hsame).trans hle, ?_, ?_,
    ?_⟩
  · intro hpair
    obtain ⟨hrows, hspar⟩ := hpairs.mp hpair
    refine forall_mem_concat (fun other hold hown => ?_) fun _ => get?_put_self ..
    have hkept := h.own hrows other hold hown
    have hne : other.key ≠ row.key := by
      intro hsame
      rw [hsame, hsome] at hkept
      cases hkept
      rw [hspar] at hown
      cases hown
    rw [get?_put_of_ne _ _ hne]
    exact hkept
  · have hle' := h.count_le
    rw [hcnt, ownCount_append, ownCount_singleton]
    split <;> split <;> omega
  · have hle' := h.count_le
    rw [hcnt, ownCount_append, ownCount_singleton, hpairs, ← h.count_iff]
    cases previous.isAttributed with
    | false => simp
    | true =>
      simp
      omega

/-- A row that closed earlier is dropped. -/
lemma Keeps.drop (h : Keeps rows deduped) (hsome : get? deduped row.key = some previous)
    (hlt : row.closedAt < previous.closedAt) : Keeps (rows ++ [row]) deduped := by
  obtain ⟨hprev, hkey, hlates⟩ := h.stored row.key previous hsome
  have hpairs : (rows ++ [row]).Pairwise SparesOwn ↔
      rows.Pairwise SparesOwn ∧ row.isAttributed = false := by
    rw [pairwise_append_singleton]
    constructor
    · rintro ⟨hrows, hrow⟩
      have hspare := hrow previous hprev hkey
      rw [if_neg (not_le.mpr hlt)] at hspare
      exact ⟨hrows, hspare⟩
    · rintro ⟨hrows, hspar⟩
      refine ⟨hrows, fun other hoth hsame => ?_⟩
      split
      · next hle =>
        by_contra hown
        have hkept := h.own hrows other hoth (eq_true_of_ne_false hown)
        rw [hsame, hsome] at hkept
        cases hkept
        exact absurd hle (not_le.mpr hlt)
      · exact hspar
  refine ⟨⟨h.unique, fun key kept hkept => ?_, fun key hmiss => ?_,
    h.subperm.trans (sublist_append_left ..).subperm⟩, fun hpair => ?_, ?_, ?_⟩
  · obtain ⟨hmem, hkeptKey, hkeptLates⟩ := h.stored key kept hkept
    refine ⟨mem_append_left _ hmem, hkeptKey, forall_mem_concat hkeptLates fun hothKey => ?_⟩
    rw [← hothKey, hsome] at hkept
    cases hkept
    exact hlt.le
  · refine forall_mem_concat (h.missing key hmiss) ?_
    rintro rfl
    rw [hsome] at hmiss
    cases hmiss
  · obtain ⟨hrows, hspar⟩ := hpairs.mp hpair
    refine forall_mem_concat (h.own hrows) fun hown => ?_
    rw [hspar] at hown
    cases hown
  · have hle := h.count_le
    rw [ownCount_append, ownCount_singleton]
    split <;> omega
  · have hle := h.count_le
    rw [ownCount_append, ownCount_singleton, hpairs, ← h.count_iff]
    cases row.isAttributed with
    | false => simp
    | true =>
      simp
      omega

lemma keeps_foldl (rows : List TradeHistoryRow) : Keeps rows (rows.foldl keepRow []) := by
  induction rows using reverseRecOn with
  | nil =>
    exact {
      unique := nodup_nil
      stored := fun key row h => by cases h
      missing := fun key _ row h => by cases h
      subperm := Subperm.refl _
      own := fun _ row h => by cases h
      count_le := le_rfl
      count_iff := iff_of_true rfl List.Pairwise.nil }
  | append_singleton rows row ih =>
    rw [foldl_append, foldl_cons]
    unfold keepRow
    split
    · next hnone => exact ih.new hnone
    · next previous hsome =>
      split
      · next hle => exact ih.replace hsome hle
      · next hlt => exact ih.drop hsome (not_le.mp hlt)

lemma own_mergedRows : (((mergedRows exchangeRows localRows).filter isAttributed).map (·.id)).Perm
      (localRows.map (·.id)) := by
  obtain ⟨-, hperm⟩ := matchRows_spec exchangeRows localRows
  have htaken : ∀ pairs : List (TradeHistoryRow × Option TradeHistoryRow),
      ((pairs.map rowOf).filter isAttributed).map (·.id) =
        (pairs.filterMap snd).map (·.id) := by
    intro pairs
    induction pairs with
    | nil => rfl
    | cons pair pairs ih =>
      obtain ⟨exchange, taken⟩ := pair
      cases taken with
      | none => exact ih
      | some row => exact congrArg (row.id :: ·) ih
  have hleft : ∀ rows : List TradeHistoryRow,
      ((rows.map fun row => { row with attribution := some .cts }).filter isAttributed).map
        (·.id) = rows.map (·.id) := by
    intro rows
    induction rows with
    | nil => rfl
    | cons row rows ih => exact congrArg (row.id :: ·) ih
  rw [mergedRows, filter_append, map_append, htaken, hleft, ← map_append]
  exact hperm.map _

lemma ownCount_eq (rows : List TradeHistoryRow) :
    ownCount rows = (rows.filter isAttributed).length := by
  induction rows with
  | nil => rfl
  | cons row rows ih =>
    have hcons : ownCount (row :: rows) = ownCount [row] + ownCount rows :=
      ownCount_append [row] rows
    rw [hcons, ih, ownCount_singleton, filter_cons]
    split
    · rw [length_cons]
      push_cast
      ring
    · exact zero_add _

/-- **Keeping.** All rows of ours are kept exactly when of two rows with one key the one that gives
way is never ours. -/
lemma kept_iff :
    (((mergeTradeHistory exchangeRows localRows 0).filter isAttributed).map (·.id)).Perm
        (localRows.map (·.id)) ↔
      (mergedRows exchangeRows localRows).Pairwise SparesOwn := by
  have hkeeps := keeps_foldl (mergedRows exchangeRows localRows)
  have hown := own_mergedRows exchangeRows localRows
  have hord : (mergeTradeHistory exchangeRows localRows 0).Perm
      (dedupedRows (mergedRows exchangeRows localRows)) := perm_insertionSort ..
  have hfilt := hord.filter isAttributed
  rw [← hkeeps.count_iff, ownCount_eq, ownCount_eq]
  constructor
  · intro hperm
    have hlen := ((hfilt.map (·.id)).symm.trans (hperm.trans hown.symm)).length_eq
    rw [length_map, length_map] at hlen
    exact_mod_cast hlen
  · intro hcnt
    have hsub : ((dedupedRows (mergedRows exchangeRows localRows)).filter isAttributed).Subperm
        ((mergedRows exchangeRows localRows).filter isAttributed) := hkeeps.subperm.filter _
    have hall := hsub.perm_of_length_le (by exact_mod_cast hcnt.ge)
    exact ((hfilt.trans hall).map _).trans hown

/-- **`mergeTradeHistory`.** A merge keeps its promise exactly when every round of its loop takes by
order and, of two rows with one key, the one that gives way is not ours. -/
theorem mergeTradeHistory_keeps_iff :
    KeepsTrades exchangeRows localRows ↔ TakesByOrder exchangeRows localRows ∧
      (mergedRows exchangeRows localRows).Pairwise SparesOwn := by
  rw [← takesByOrder_iff, ← kept_iff]
  exact ⟨fun h => ⟨h.byOrder, h.kept⟩, fun h => ⟨h.2, h.1⟩⟩

/-- A row of one symbol that closed at a time, with a close order. -/
def sampleTrade (id closeOrderId : String) (closedAt : ℚ) : TradeHistoryRow where
  id := id
  symbol := "BTCUSDT"
  direction := "long"
  entryPrice := 100
  exitPrice := 101
  quantity := 1
  volumeUsd := 100
  grossPnl := 1
  fees := 0
  realizedPnl := 1
  pnlPct := 1
  openedAt := 1000
  closedAt := closedAt
  holdMinutes := 0
  source := "local"
  environment := "exchange"
  attribution := none
  closeOrderId := closeOrderId
  positionId := ""
  accountingQuality := none

/-- Of two trades with one close order only one is kept; and a venue row without a local trade
takes the trade that the next venue row closed, which it does not if it comes second. -/
theorem mergeTradeHistory_losesTrade :
    ((mergeTradeHistory [] [sampleTrade "a" "9" 5000, sampleTrade "b" "9" 6000] 0).map (·.id)) =
        ["b"] ∧
      ¬KeepsTrades [] [sampleTrade "a" "9" 5000, sampleTrade "b" "9" 6000] ∧
      ¬KeepsTrades [sampleTrade "exchange:7" "7" 6000, sampleTrade "exchange:9" "9" 6000]
        [sampleTrade "a" "9" 5000] ∧
      KeepsTrades [sampleTrade "exchange:9" "9" 6000, sampleTrade "exchange:7" "7" 6000]
        [sampleTrade "a" "9" 5000] := by
  refine ⟨by decide +kernel, fun h => ?_, fun h => ?_, ?_⟩
  · exact absurd h.kept (by decide +kernel)
  · obtain ⟨own, hown, -⟩ := h.byOrder (sampleTrade "exchange:9" "9" 6000, none)
      (by decide +kernel) (sampleTrade "a" "9" 5000) (by decide +kernel) (by decide +kernel)
    cases hown
  · have hall : ∀ pair ∈ (matchRows
        [sampleTrade "exchange:9" "9" 6000, sampleTrade "exchange:7" "7" 6000]
        [sampleTrade "a" "9" 5000]).1, ∀ row ∈ [sampleTrade "a" "9" 5000],
        pair.1.ClosesWith row → (pair.2.any fun own => decide (pair.1.ClosesWith own)) = true := by
      decide +kernel
    refine ⟨by decide +kernel, fun pair hpair row hrow hcloses => ?_⟩
    obtain ⟨own, hown, hown_closes⟩ := (Option.any_eq_true ..).mp (hall pair hpair row hrow hcloses)
    exact ⟨own, hown, of_decide_eq_true hown_closes⟩

end CtsEngine
