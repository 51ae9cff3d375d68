import CtsEngine.Foundation.Comparison
import CtsEngine.TradeHistory.StoredPosition

/-!
# The venue's record of a close

`matchVenuePositionClose` of `lib/venue-position-close.ts`: a position that the venue closed without
an order of this system is matched with a record of the venue's history.  Records that fit are
ranked by their distance from the close of the row, and the first one is taken unless the second one
is another position closed within a minute of it.  No other record is compared with the first one,
and records at the same distance are ranked as they come.
-/

namespace CtsEngine.VenueClose

open List Comparison

/-! ## Records -/

structure VenuePositionClose where
  positionId : String
  symbol : String
  side : Direction
  openTime : ℚ
  closeTime : ℚ
  avgPrice : ℚ
  avgClosePrice : ℚ
  realisedProfit : ℚ
  netProfit : ℚ
  closedQuantity : ℚ
deriving DecidableEq

/-- What a match reads of a row. -/
structure ClosedRow where
  symbol : Option String
  direction : Option String
  executedQuantity : StoredValue
  filledAt : StoredValue := .missing
  executedAt : StoredValue := .missing
  createdAt : StoredValue := .missing
  closedAt : StoredValue := .missing

/-- `CLOSE_WINDOW_MS`. -/
def closeWindowMs : ℚ := 15 * 60000

/-- `AMBIGUITY_MS`. -/
def ambiguityMs : ℚ := 60000

section Matching

variable (upperCase : String → String)

def sym (value : Option String) : String :=
  upperCase (String.ofList
    ((strOrEmpty value).toList.filter fun c => !(['-', '_', '/'].contains c)))

variable (row : ClosedRow)

def ClosedRow.side : Direction :=
  if toLowerCase (strOrEmpty row.direction) = "short" then .short else .long

def ClosedRow.fillTime : ℚ :=
  if row.filledAt.finite ≠ 0 then row.filledAt.finite
  else if row.executedAt.finite ≠ 0 then row.executedAt.finite
  else row.createdAt.finite

/-- The record fits the row. -/
def fits (c : VenuePositionClose) : Bool :=
  let qty := row.executedQuantity.finite
  let closedAt := row.closedAt.finite
  c.symbol = sym upperCase row.symbol && c.side = row.side && c.openTime ≤ row.fillTime + 60000 &&
    row.fillTime - 5000 ≤ c.closeTime &&
    qty * (1 - 1 / 10 ^ 6) ≤ c.closedQuantity &&
    (closedAt = 0 || |c.closeTime - closedAt| ≤ closeWindowMs)

/-- The distance of a record from the close of the row, zero when the row does not say when it was
closed. -/
def distance (c : VenuePositionClose) : ℚ :=
  |c.closeTime - if row.closedAt.finite ≠ 0 then row.closedAt.finite else c.closeTime|

/-- Another position of the venue that was closed within a minute. -/
def ambiguous (c d : VenuePositionClose) : Bool :=
  |d.closeTime - c.closeTime| ≤ ambiguityMs && d.positionId ≠ c.positionId

def ranked (closes : List VenuePositionClose) : List VenuePositionClose :=
  sortBy (fun a b => distance row a - distance row b)
    (closes.filter (fits upperCase row))

def matchVenuePositionClose (closes : List VenuePositionClose) : Option VenuePositionClose :=
  if ¬ 0 < row.executedQuantity.finite then none
  else
    match ranked upperCase row closes with
    | [] => none
    | [c] => some c
    | c :: d :: _ => if ambiguous c d then none else some c

/-- A match is unambiguous: no other position of the venue that fits was closed within a minute of
it, and it is found in every order of the records. -/
def Unambiguous (closes : List VenuePositionClose) (c : VenuePositionClose) : Prop :=
  (∀ d ∈ closes, fits upperCase row d = true → d.positionId ≠ c.positionId →
      ambiguityMs < |d.closeTime - c.closeTime|) ∧
    ∀ others, others.Perm closes → matchVenuePositionClose upperCase row others = some c

/-- Whatever is matched, in any order of the records, is unambiguous. -/
def MatchesUnambiguously (closes : List VenuePositionClose) : Prop :=
  ∀ others, others.Perm closes → ∀ c, matchVenuePositionClose upperCase row others = some c →
    Unambiguous upperCase row closes c

/-- Two records that can be ranked first and second: no record that fits is nearer than the first
one, and no other one is nearer than the second one. -/
def CanLead (closes : List VenuePositionClose) (c d : VenuePositionClose) : Prop :=
  ∃ rest, (closes.filter (fits upperCase row)).Perm (c :: d :: rest) ∧
    (∀ x ∈ d :: rest, distance row c ≤ distance row x) ∧
    ∀ x ∈ rest, distance row d ≤ distance row x

/-- The records of a row leave no doubt: whichever two are ranked first are ambiguous, so that
nothing is matched, or the nearest ones are one record, and no record that fits is ambiguous with
it. -/
def LeavesNoDoubt (closes : List VenuePositionClose) : Prop :=
  (∀ c d, CanLead upperCase row closes c d → ambiguous c d = true) ∨
    ∃ c ∈ closes.filter (fits upperCase row), ∀ d ∈ closes.filter (fits upperCase row),
        ambiguous c d = false ∧ (distance row d ≤ distance row c → d = c)

end Matching

/-! ## When matches are unambiguous -/

variable {upperCase : String → String} {row : ClosedRow} {closes : List VenuePositionClose}

variable (upperCase)

lemma ranked_perm (row : ClosedRow)
    (closes : List VenuePositionClose) :
    (ranked upperCase row closes).Perm (closes.filter (fits upperCase row)) :=
  sortBy_perm _ _

lemma isComparison_distance (row : ClosedRow) :
    Comparison.IsComparison fun a b => distance row a - distance row b :=
  Comparison.IsComparison.of_number _

lemma ranked_pairwise (row : ClosedRow)
    (closes : List VenuePositionClose) :
    (ranked upperCase row closes).Pairwise fun a b => distance row a ≤ distance row b :=
  (sortBy_pairwise (isComparison_distance row) _).imp sub_nonpos.mp

variable {upperCase}

variable {c : VenuePositionClose}

lemma matchVenuePositionClose_eq_some : matchVenuePositionClose upperCase row closes = some c ↔
      0 < row.executedQuantity.finite ∧ ∃ rest, ranked upperCase row closes = c :: rest ∧
        ∀ d ∈ rest.head?, ambiguous c d = false := by
  unfold matchVenuePositionClose
  split
  · rename_i hqty
    simp [hqty]
  · rename_i hqty
    rw [not_not] at hqty
    split
    · rename_i hrank
      simp [hrank]
    · rename_i hrank
      simp [hrank, hqty]
    · rename_i hrank
      rw [hrank]
      split <;> rename_i hambig
      · refine iff_of_false nofun ?_
        rintro ⟨-, rest, heq, hrest⟩
        obtain ⟨rfl, rfl⟩ := List.cons.inj heq
        exact Bool.false_ne_true ((hrest _ rfl).symm.trans hambig)
      · refine ⟨?_, ?_⟩
        · rintro ⟨⟩
          refine ⟨hqty, _, rfl, ?_⟩
          rintro d ⟨⟩
          exact eq_false_of_ne_true hambig
        · rintro ⟨-, rest, heq, -⟩
          rw [(List.cons.inj heq).1]

lemma exists_perm_filter {fitting : List VenuePositionClose}
    (hperm : (closes.filter (fits upperCase row)).Perm fitting) :
    ∃ others : List VenuePositionClose,
      others.Perm closes ∧ others.filter (fits upperCase row) = fitting := by
  refine ⟨fitting ++ closes.filter fun c => !fits upperCase row c,
    (hperm.symm.append_right _).trans (filter_append_perm ..), ?_⟩
  rw [filter_append, filter_eq_self.mpr fun c hc =>
    (mem_filter.mp (hperm.mem_iff.mpr hc)).2]
  simp

lemma exists_ranked_cons {rest : List VenuePositionClose}
    (hperm : (closes.filter (fits upperCase row)).Perm (c :: rest))
    (hle : ∀ x ∈ rest, distance row c ≤ distance row x) :
    ∃ others : List VenuePositionClose, others.Perm closes ∧ ranked upperCase row others = c ::
      sortBy (fun a b => distance row a - distance row b) rest := by
  obtain ⟨others, hoths, hfilt⟩ := exists_perm_filter hperm
  refine ⟨others, hoths, ?_⟩
  rw [ranked, hfilt]
  exact sortBy_cons_of_le (isComparison_distance row) fun x hx =>
    sub_nonpos.mpr (hle x hx)

lemma leavesNoDoubt_of_matches (hqty : 0 < row.executedQuantity.finite)
    (h : MatchesUnambiguously upperCase row closes) : LeavesNoDoubt upperCase row closes := by
  refine or_iff_not_imp_left.mpr fun hclear => ?_
  push Not at hclear
  obtain ⟨c, d, ⟨rest, hperm, hc, hd⟩, hambig⟩ := hclear
  obtain ⟨others, hoths, hrank⟩ := exists_ranked_cons hperm hc
  rw [sortBy_cons_of_le (isComparison_distance row) fun x hx =>
    sub_nonpos.mpr (hd x hx)] at hrank
  have hmatch : matchVenuePositionClose upperCase row others = some c := by
    refine matchVenuePositionClose_eq_some.mpr ⟨hqty, _, hrank, ?_⟩
    rintro x ⟨⟩
    exact eq_false_of_ne_true hambig
  obtain ⟨hapart, hsame⟩ := h others hoths c hmatch
  refine ⟨c, hperm.mem_iff.mpr (mem_cons_self ..), fun x hx => ⟨?_, fun hle => ?_⟩⟩
  · obtain ⟨hmem, hfits⟩ := mem_filter.mp hx
    unfold ambiguous
    by_cases hid : x.positionId = c.positionId
    · simp [hid]
    · simp [not_le.mpr (hapart x hmem hfits hid)]
  · -- in some order the other nearest record comes first, and then it is the one that is matched
    obtain ⟨before, after, hsplit⟩ := append_of_mem hx
    have hperm' : (closes.filter (fits upperCase row)).Perm (x :: (before ++ after)) := by
      rw [hsplit]
      exact perm_middle
    have hnear : ∀ y ∈ before ++ after, distance row x ≤ distance row y := by
      intro y hy
      have hmem := hperm.mem_iff.mp (hperm'.mem_iff.mpr (mem_cons_of_mem _ hy))
      rcases mem_cons.mp hmem with rfl | hmem
      · exact hle
      · exact hle.trans (hc y hmem)
    obtain ⟨others', hoths', hrank'⟩ := exists_ranked_cons hperm' hnear
    obtain ⟨-, tail, heq, -⟩ := matchVenuePositionClose_eq_some.mp (hsame others' hoths')
    rw [hrank'] at heq
    exact (List.cons.inj heq).1

section

variable (hqty : 0 < row.executedQuantity.finite) (hmem : c ∈ closes.filter (fits upperCase row))
  (hout : ∀ d ∈ closes.filter (fits upperCase row),
    ambiguous c d = false ∧ (distance row d ≤ distance row c → d = c))

include hqty hmem hout

lemma match_of_standsOut {others : List VenuePositionClose} (hperm : others.Perm closes) :
    matchVenuePositionClose upperCase row others = some c := by
  have hsame := (ranked_perm upperCase row others).trans (hperm.filter _)
  have hsort := ranked_pairwise upperCase row others
  cases hrank : ranked upperCase row others with
  | nil =>
    rw [hrank] at hsame
    cases hsame.mem_iff.mpr hmem
  | cons first rest =>
    rw [hrank] at hsame hsort
    have hfst : first = c := by
      refine (hout first (hsame.mem_iff.mp (mem_cons_self ..))).2 ?_
      rcases mem_cons.mp (hsame.mem_iff.mpr hmem) with rfl | hrest
      · exact le_rfl
      · exact (pairwise_cons.mp hsort).1 c hrest
    subst hfst
    refine matchVenuePositionClose_eq_some.mpr ⟨hqty, rest, hrank, fun d hd => ?_⟩
    exact (hout d (hsame.mem_iff.mp (mem_cons_of_mem _ (mem_of_mem_head? hd)))).1

lemma unambiguous_of_standsOut : Unambiguous upperCase row closes c := by
  refine ⟨fun d hd hfits hid => ?_, fun others hperm => match_of_standsOut hqty hmem hout hperm⟩
  have hclear := (hout d (mem_filter.mpr ⟨hd, hfits⟩)).1
  unfold ambiguous at hclear
  simpa [hid] using hclear

end

/-- **A match is unambiguous exactly when the records leave no doubt**, whichever of them come
first. -/
theorem matchVenuePositionClose_unambiguous_iff (upperCase : String → String) (row : ClosedRow)
    (closes : List VenuePositionClose) :
    MatchesUnambiguously upperCase row closes ↔
      (0 < row.executedQuantity.finite → LeavesNoDoubt upperCase row closes) := by
  refine ⟨fun h hqty => leavesNoDoubt_of_matches hqty h, fun h others hperm c hmatch => ?_⟩
  obtain ⟨hqty, rest, hranked, hclear⟩ := matchVenuePositionClose_eq_some.mp hmatch
  have hsame := (ranked_perm upperCase row others).trans (hperm.filter _)
  have hsorted := ranked_pairwise upperCase row others
  rw [hranked] at hsame hsorted
  rcases h hqty with hdoubt | ⟨c', hmem, hout⟩
  · cases rest with
    | nil =>
      -- the only record that fits
      have honly : closes.filter (fits upperCase row) = [c] := perm_singleton.mp hsame.symm
      refine unambiguous_of_standsOut hqty (honly ▸ mem_singleton_self c) fun d hd => ?_
      rw [honly] at hd
      obtain rfl := mem_singleton.mp hd
      exact ⟨by simp [ambiguous], fun _ => rfl⟩
    | cons d rest =>
      obtain ⟨hfirst, hrest⟩ := pairwise_cons.mp hsorted
      have hlead : CanLead upperCase row closes c d :=
        ⟨rest, hsame.symm, hfirst, (pairwise_cons.mp hrest).1⟩
      exact absurd ((hclear d rfl).symm.trans (hdoubt c d hlead)) Bool.false_ne_true
  · obtain rfl : c = c' := Option.some.inj
      (hmatch.symm.trans (match_of_standsOut hqty hmem hout hperm))
    exact unambiguous_of_standsOut hqty hmem hout

/-- A position of ten hours ago that was closed at 100 000 000. -/
def closedAtNoon : ClosedRow where
  symbol := some "BTC-USDT"
  direction := some "long"
  executedQuantity := .number 1
  filledAt := .number 64000000
  closedAt := .number 100000000

/-- A position of the venue that was closed at the given time. -/
def closeAt (positionId : String) (closeTime : ℚ) : VenuePositionClose where
  positionId
  symbol := "BTCUSDT"
  side := .long
  openTime := 64000000
  closeTime
  avgPrice := 50000
  avgClosePrice := 50500
  realisedProfit := 500
  netProfit := 480
  closedQuantity := 1

/-- The runner-up was closed ninety seconds after the nearest record and the third one thirty
seconds before it: the first one is matched, and is ambiguous. -/
theorem not_matchesUnambiguously_thirdNear : ¬ MatchesUnambiguously id closedAtNoon
      [closeAt "1" 99960000, closeAt "2" 100050000, closeAt "3" 99930000] := by
  intro h
  have hranked : ranked id closedAtNoon
      [closeAt "1" 99960000, closeAt "2" 100050000, closeAt "3" 99930000] =
      [closeAt "1" 99960000, closeAt "2" 100050000, closeAt "3" 99930000] := by
    unfold ranked sortBy
    rw [filter_eq_self.mpr (by decide +kernel)]
    exact mergeSort_of_pairwise (by decide +kernel)
  have hmatch : matchVenuePositionClose id closedAtNoon
      [closeAt "1" 99960000, closeAt "2" 100050000, closeAt "3" 99930000] =
      some (closeAt "1" 99960000) := by
    refine matchVenuePositionClose_eq_some.mpr ⟨by decide +kernel, _, hranked, ?_⟩
    decide +kernel
  have hapart := (h _ (List.Perm.refl _) _ hmatch).1 (closeAt "3" 99930000)
  exact absurd (hapart (by decide +kernel) (by decide +kernel) (by decide +kernel))
    (by decide +kernel)

end CtsEngine.VenueClose
