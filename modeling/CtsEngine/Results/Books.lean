import CtsEngine.Foundation.Grouping
import CtsEngine.Foundation.Tally
import CtsEngine.Results.Ledger
import Mathlib.Algebra.BigOperators.Group.List.Lemmas

/-!
# The result books

`computeResultBook` of `lib/results/ledger.ts` counts the entries of the ledger, those that are
closed and those that are settled, and adds up what the settled ones earned.  `groupResultBooks`
keeps one book for each group of entries.  A counter or a sum of a book is what its entries
contribute, so the books of any grouping add up to the book of the whole list.
-/

namespace CtsEngine

open List Keyed

/-! ## Entries and books -/

/-- The direction of an entry. -/
inductive LedgerDirection
  | long
  | short
  | none
deriving DecidableEq

/-- `LedgerEntry`: what a book reads of it. -/
structure ResultEntry extends LedgerEntry where
  dir : LedgerDirection := .none
  opened : ℚ := 0
  closedAt : ℚ := 0
  notional : ℚ := 0
  fees : ℚ := 0

/-- The trades of one direction. -/
structure DirectionBook where
  trades : ℕ := 0
  net : ℚ := 0

/-- The settled results by the hour of their close. -/
structure HourBook where
  active : ℕ
  profitable : ℕ
  losing : ℕ
  profitableShare : Option ℚ
  closesPerActiveHour : Option ℚ

structure ResultBook where
  executed : ℕ
  openCount : ℕ
  closed : ℕ
  settled : ℕ
  accountingPending : ℕ
  wins : ℕ
  losses : ℕ
  flat : ℕ
  grossProfit : ℚ
  grossLoss : ℚ
  net : ℚ
  fees : ℚ
  profitFactor : Option ℚ
  winRate : Option ℚ
  avgWin : Option ℚ
  avgLoss : Option ℚ
  largestWin : Option ℚ
  largestLoss : Option ℚ
  expectancy : Option ℚ
  volumeUsd : ℚ
  long : DirectionBook
  short : DirectionBook
  under60s : ℕ
  under5m : ℕ
  hours : HourBook

/-- The window of a book. -/
structure ResultWindow where
  since : Option ℚ := none
  untilTime : Option ℚ := none

/-- `inWindow`. -/
def ResultWindow.includes (window : ResultWindow) (e : ResultEntry) : Bool :=
  let time := if e.closed then e.closedAt else e.opened
  window.since.all (fun since => decide (since ≤ time)) &&
    window.untilTime.all fun untilTime => decide (time ≤ untilTime)

/-- The closed entry is settled and has a result. -/
def ResultEntry.isSettled (e : ResultEntry) : Bool := e.settled && e.pnl.isSome

/-- What the loop over the settled entries keeps. -/
structure SettledTotals where
  gp : ℚ := 0
  gl : ℚ := 0
  wins : ℕ := 0
  losses : ℕ := 0
  flat : ℕ := 0
  net : ℚ := 0
  fees : ℚ := 0
  best : Option ℚ := none
  worst : Option ℚ := none
  longB : DirectionBook := {}
  shortB : DirectionBook := {}
  u60 : ℕ := 0
  u5 : ℕ := 0
  netByHour : List (ℤ × ℚ) := []

def DirectionBook.trade (book : DirectionBook) (p : ℚ) : DirectionBook :=
  ⟨book.trades + 1, book.net + p⟩

/-- One round of the loop, for an entry with a result. -/
def SettledTotals.add (t : SettledTotals) (e : ResultEntry) : SettledTotals :=
  let p := e.pnl.getD 0
  let d := e.closedAt - e.opened
  let timed := decide (0 < e.closedAt) && decide (0 < e.opened)
  { gp := if 0 < p then t.gp + p else t.gp
    gl := if 0 < p then t.gl else if p < 0 then t.gl - p else t.gl
    wins := if 0 < p then t.wins + 1 else t.wins
    losses := if 0 < p then t.losses else if p < 0 then t.losses + 1 else t.losses
    flat := if 0 < p then t.flat else if p < 0 then t.flat else t.flat + 1
    net := t.net + p
    fees := t.fees + e.fees
    best := some (t.best.elim p fun best => max best p)
    worst := some (t.worst.elim p fun worst => min worst p)
    longB := if e.dir = .short then t.longB else t.longB.trade p
    shortB := if e.dir = .short then t.shortB.trade p else t.shortB
    u60 := if timed && decide (d < 60000) then t.u60 + 1 else t.u60
    u5 := if timed && decide (d < 300000) then t.u5 + 1 else t.u5
    netByHour :=
      if 0 < e.closedAt then tally t.netByHour ⌊e.closedAt / 3600000⌋ p else t.netByHour }

def computeResultBook (entries : List ResultEntry) (window : ResultWindow) : ResultBook :=
  let rows := entries.filter window.includes
  let closed := rows.filter (·.closed)
  let settled := closed.filter (·.isSettled)
  let t := settled.foldl SettledTotals.add {}
  let decisive := t.wins + t.losses
  let hourlyNets := t.netByHour.map Prod.snd
  let profitableHours := (hourlyNets.filter fun value => decide (0 < value)).length
  { executed := rows.length
    openCount := rows.length - closed.length
    closed := closed.length
    settled := settled.length
    accountingPending := closed.length - settled.length
    wins := t.wins
    losses := t.losses
    flat := t.flat
    grossProfit := t.gp
    grossLoss := t.gl
    net := t.net
    fees := t.fees
    profitFactor := if 0 < t.gl then some (t.gp / t.gl) else none
    winRate := if 0 < decisive then some (t.wins / decisive * 100) else none
    avgWin := if 0 < t.wins then some (t.gp / t.wins) else none
    avgLoss := if 0 < t.losses then some (-(t.gl / t.losses)) else none
    largestWin := t.best.filter fun best => decide (0 < best)
    largestLoss := t.worst.filter fun worst => decide (worst < 0)
    expectancy := if 0 < settled.length then some (t.net / settled.length) else none
    volumeUsd := closed.foldl (fun s e => s + e.notional) 0
    long := t.longB
    short := t.shortB
    under60s := t.u60
    under5m := t.u5
    hours :=
      { active := hourlyNets.length
        profitable := profitableHours
        losing := (hourlyNets.filter fun value => decide (value < 0)).length
        profitableShare := if 0 < hourlyNets.length then
          some (profitableHours / hourlyNets.length * 100) else none
        closesPerActiveHour := if 0 < hourlyNets.length then
          some ((settled.filter fun e => decide (0 < e.closedAt)).length / hourlyNets.length)
          else none } }

/-- `groupResultBooks`: the books of the groups, in the order in which the groups were found. -/
def groupResultBooks (entries : List ResultEntry) (key : ResultEntry → String) :
    List (String × ResultBook) :=
  let groups := collect (fun e => if key e = "" then "-" else key e) (fun _ => [])
    (fun group e => group ++ [e]) entries
  groups.map fun group => (group.1, computeResultBook group.2 {})

/-! ## What an entry contributes -/

/-- The counters and sums of a book that add up. -/
inductive BookTotal
  | executed
  | openCount
  | closed
  | settled
  | accountingPending
  | wins
  | losses
  | flat
  | grossProfit
  | grossLoss
  | net
  | fees
  | volumeUsd
  | longTrades
  | longNet
  | shortTrades
  | shortNet
  | under60s
  | under5m

open BookTotal

/-- The value of a counter or of a sum in a book. -/
def ResultBook.total (book : ResultBook) : BookTotal → ℚ
  | .executed => book.executed
  | .openCount => book.openCount
  | .closed => book.closed
  | .settled => book.settled
  | .accountingPending => book.accountingPending
  | .wins => book.wins
  | .losses => book.losses
  | .flat => book.flat
  | .grossProfit => book.grossProfit
  | .grossLoss => book.grossLoss
  | .net => book.net
  | .fees => book.fees
  | .volumeUsd => book.volumeUsd
  | .longTrades => book.long.trades
  | .longNet => book.long.net
  | .shortTrades => book.short.trades
  | .shortNet => book.short.net
  | .under60s => book.under60s
  | .under5m => book.under5m

/-- What a settled entry adds in the loop. -/
def BookTotal.ofResult (total : BookTotal) (e : ResultEntry) : ℚ :=
  let p := e.pnl.getD 0
  let timed := decide (0 < e.closedAt) && decide (0 < e.opened)
  match total with
  | .wins => if 0 < p then 1 else 0
  | .losses => if p < 0 then 1 else 0
  | .flat => if p = 0 then 1 else 0
  | .grossProfit => max p 0
  | .grossLoss => max (-p) 0
  | .net => p
  | .fees => e.fees
  | .longTrades => if e.dir = .short then 0 else 1
  | .longNet => if e.dir = .short then 0 else p
  | .shortTrades => if e.dir = .short then 1 else 0
  | .shortNet => if e.dir = .short then p else 0
  | .under60s => if timed && decide (e.closedAt - e.opened < 60000) then 1 else 0
  | .under5m => if timed && decide (e.closedAt - e.opened < 300000) then 1 else 0
  | _ => 0

/-- What an entry contributes to a counter or a sum of the book it is in. -/
def BookTotal.contribution (total : BookTotal) (e : ResultEntry) : ℚ :=
  match total with
  | .executed => 1
  | .openCount => if e.closed then 0 else 1
  | .closed => if e.closed then 1 else 0
  | .settled => if e.closed && e.isSettled then 1 else 0
  | .accountingPending => if e.closed && !e.isSettled then 1 else 0
  | .volumeUsd => if e.closed then e.notional else 0
  | total => if e.closed && e.isSettled then total.ofResult e else 0

/-- The counters and the sums of the loop. -/
def SettledTotals.total (t : SettledTotals) : BookTotal → ℚ
  | .wins => t.wins
  | .losses => t.losses
  | .flat => t.flat
  | .grossProfit => t.gp
  | .grossLoss => t.gl
  | .net => t.net
  | .fees => t.fees
  | .longTrades => t.longB.trades
  | .longNet => t.longB.net
  | .shortTrades => t.shortB.trades
  | .shortNet => t.shortB.net
  | .under60s => t.u60
  | .under5m => t.u5
  | _ => 0

variable {A : Type*} (p : A → Bool) (xs : List A) (t : SettledTotals)

lemma SettledTotals.total_add (e : ResultEntry) (total : BookTotal) :
    (t.add e).total total = t.total total + total.ofResult e := by
  simp only [SettledTotals.add, ofResult]
  generalize e.pnl.getD 0 = p
  cases total with
  | wins | losses | flat | grossProfit | grossLoss =>
    -- The branches of the loop are those of the sign of the result.
    rcases lt_trichotomy p 0 with hneg | rfl | hpos
    · simp [SettledTotals.total, hneg, hneg.ne, hneg.not_gt, hneg.le, sub_eq_add_neg]
    · simp [SettledTotals.total]
    · simp [SettledTotals.total, hpos, hpos.ne', hpos.le]
  | longTrades | longNet | shortTrades | shortNet =>
    simp only [SettledTotals.total]
    split_ifs <;> simp [DirectionBook.trade]
  | under60s | under5m =>
    simp only [SettledTotals.total]
    split_ifs <;> simp
  | net | fees => rfl
  | _ => simp [SettledTotals.total]

lemma SettledTotals.total_foldl (settled : List ResultEntry)
    (total : BookTotal) :
    (settled.foldl SettledTotals.add t).total total =
      t.total total + (settled.map total.ofResult).sum := by
  induction settled generalizing t with
  | nil => simp
  | cons e rest ih =>
    rw [foldl_cons, ih, SettledTotals.total_add, map_cons, sum_cons, add_assoc]

lemma sum_map_filter (f : A → ℚ) (xs : List A) :
    ((xs.filter p).map f).sum = (xs.map fun x => if p x then f x else 0).sum := by
  induction xs with
  | nil => rfl
  | cons x xs ih =>
    by_cases h : p x = true
    · rw [filter_cons_of_pos h, map_cons, map_cons, sum_cons, sum_cons, ih, if_pos h]
    · rw [filter_cons_of_neg h, map_cons, sum_cons, ih, if_neg h, zero_add]

lemma length_filter_eq_sum :
    ((xs.filter p).length : ℚ) = (xs.map fun x => if p x then (1 : ℚ) else 0).sum := by
  rw [← sum_map_filter p (fun _ => 1) xs]
  simp

lemma length_sub_length_filter :
    xs.length - (xs.filter p).length = (xs.filter fun x => !p x).length := by
  have hsplit := length_eq_length_filter_add (l := xs) p
  omega

variable (entries : List ResultEntry)

variable (window : ResultWindow) (total : BookTotal)

/-- **Books.** A counter or a sum of a book is what the entries in its window contribute. -/
theorem computeResultBook_total : (computeResultBook entries window).total total =
      ((entries.filter window.includes).map total.contribution).sum := by
  simp only [computeResultBook]
  generalize entries.filter window.includes = rows
  have hsettl : (rows.filter (·.closed)).filter (·.isSettled) =
      rows.filter fun e => e.closed && e.isSettled := by
    rw [filter_filter]
    exact filter_congr fun e _ => Bool.and_comm ..
  -- The fields that the loop makes.
  have hloop : (((rows.filter (·.closed)).filter (·.isSettled)).foldl SettledTotals.add {}).total
      total = (rows.map fun e => if e.closed && e.isSettled then total.ofResult e else 0).sum := by
    rw [SettledTotals.total_foldl, hsettl, sum_map_filter]
    cases total <;> exact zero_add _
  cases total with
  | executed =>
    have hone : contribution .executed = fun _ => 1 := rfl
    simp [ResultBook.total, hone]
  | openCount =>
    simp only [ResultBook.total, length_sub_length_filter, length_filter_eq_sum]
    congr 2
    funext e
    cases hclos : e.closed <;> simp [contribution, hclos]
  | closed => exact length_filter_eq_sum _ rows
  | settled =>
    simp only [hsettl]
    exact length_filter_eq_sum _ rows
  | accountingPending =>
    simp only [ResultBook.total]
    rw [length_sub_length_filter, filter_filter, length_filter_eq_sum]
    congr 2
    funext e
    rw [Bool.and_comm]
    rfl
  | volumeUsd =>
    have hsum := sum_map_filter (·.closed) (·.notional) rows
    rw [sum_eq_foldl, foldl_map] at hsum
    exact hsum
  | _ => exact hloop

lemma computeResultBook_total_all :
    (computeResultBook entries {}).total total = (entries.map total.contribution).sum := by
  have hall : entries.filter (ResultWindow.includes {}) = entries :=
    filter_eq_self.mpr fun _ _ => rfl
  rw [computeResultBook_total, hall]

lemma sum_total_groups (groups : List (String × List ResultEntry)) (total : BookTotal) :
    (groups.map fun group => (computeResultBook group.2 {}).total total).sum =
      (computeResultBook (groups.flatMap Prod.snd) {}).total total := by
  induction groups with
  | nil => rw [computeResultBook_total_all]; rfl
  | cons group groups ih =>
    rw [map_cons, sum_cons, ih, flatMap_cons]
    simp only [computeResultBook_total_all, map_append, sum_append]

lemma computeResultBook_total_perm {entries others : List ResultEntry} (h : entries.Perm others)
    (total : BookTotal) :
    (computeResultBook entries {}).total total = (computeResultBook others {}).total total := by
  rw [computeResultBook_total_all, computeResultBook_total_all]
  exact (h.map _).sum_eq

/-- How the counters and the sums of one book belong together. -/
structure ResultBook.Balanced (book : ResultBook) : Prop where
  decided : book.wins + book.losses + book.flat = book.settled
  executed : book.executed = book.openCount + book.closed
  accounted : book.closed = book.settled + book.accountingPending
  net : book.net = book.grossProfit - book.grossLoss
  directions : book.long.trades + book.short.trades = book.settled
  directionNets : book.long.net + book.short.net = book.net

lemma total_eq_sum (parts : List BookTotal)
    (h : ∀ e, total.contribution e = (parts.map fun part => part.contribution e).sum) :
    (computeResultBook entries window).total total =
      (parts.map (computeResultBook entries window).total).sum := by
  have hparts : parts.map (computeResultBook entries window).total = parts.map fun part =>
      ((entries.filter window.includes).map part.contribution).sum :=
    map_congr_left fun part _ => computeResultBook_total entries window part
  rw [computeResultBook_total, hparts]
  induction entries.filter window.includes with
  | nil => simp
  | cons e rows ih =>
    simp only [map_cons, sum_cons, sum_map_add]
    rw [h e, ih]

lemma grossProfit_contribution (e : ResultEntry) : BookTotal.grossProfit.contribution e =
    BookTotal.net.contribution e + BookTotal.grossLoss.contribution e := by
  change (if e.closed && e.isSettled then max (e.pnl.getD 0) 0 else 0) =
    (if e.closed && e.isSettled then e.pnl.getD 0 else 0) +
      if e.closed && e.isSettled then max (-e.pnl.getD 0) 0 else 0
  split_ifs
  · rw [← max_add_add_left, add_neg_cancel, add_zero, max_comm]
  · rw [add_zero]

lemma computeResultBook_balanced : (computeResultBook entries window).Balanced := by
  have hdec := total_eq_sum entries window .settled [.wins, .losses, .flat] fun e => by
    simp only [contribution, ofResult]
    generalize e.pnl.getD 0 = p
    rcases lt_trichotomy p 0 with hneg | rfl | hpos
    · simp [hneg, hneg.ne, hneg.not_gt]
    · simp
    · simp [hpos, hpos.ne', hpos.not_gt]
  have hexec := total_eq_sum entries window .executed [.openCount, .closed] fun e => by
    cases hclos : e.closed <;> simp [contribution, hclos]
  have hacc := total_eq_sum entries window .closed [.settled, .accountingPending] fun e => by
    cases hclos : e.closed <;> cases hsettl : e.isSettled <;>
      simp [contribution, hsettl]
  have hnet := total_eq_sum entries window .grossProfit [.net, .grossLoss] fun e => by
    simpa using grossProfit_contribution e
  have hdirec := total_eq_sum entries window .settled [.longTrades, .shortTrades] fun e => by
    by_cases hdir : e.dir = .short <;> simp [contribution, ofResult, hdir]
  have hnets := total_eq_sum entries window .net [.longNet, .shortNet] fun e => by
    by_cases hdir : e.dir = .short <;> simp [contribution, ofResult, hdir]
  simp only [map_cons, map_nil, sum_cons, sum_nil, ResultBook.total, add_zero]
    at hdec hexec hacc hnet hdirec hnets
  constructor
  case decided => exact_mod_cast (hdec.trans (add_assoc _ _ _).symm).symm
  case executed => exact_mod_cast hexec
  case accounted => exact_mod_cast hacc
  case net => exact eq_sub_of_add_eq hnet.symm
  case directions => exact_mod_cast hdirec.symm
  case directionNets => exact hnets.symm

/-- **Result books.** For every list of entries and every key the groups have different names, their
books add up, in every counter and every sum, to the book of the whole list, and every book is
balanced, in any window. -/
theorem groupResultBooks_add_up (entries : List ResultEntry) (key : ResultEntry → String) :
    ((groupResultBooks entries key).map Prod.fst).Nodup ∧ (∀ total : BookTotal,
        ((groupResultBooks entries key).map fun group => group.2.total total).sum =
          (computeResultBook entries {}).total total) ∧
      (∀ window, (computeResultBook entries window).Balanced) ∧
      ∀ group ∈ groupResultBooks entries key, group.2.Balanced := by
  refine ⟨?_, fun total => ?_, computeResultBook_balanced entries, fun group hgroup => ?_⟩
  · obtain ⟨-, hnodup, -⟩ := firsts_spec (fun e => if key e = "" then "-" else key e) entries
    simpa [groupResultBooks, collect_eq, Function.comp_def] using hnodup
  · simp only [groupResultBooks, map_map]
    exact (sum_total_groups _ total).trans
      (computeResultBook_total_perm (collect_lists_perm entries) total)
  · obtain ⟨rows, -, rfl⟩ := mem_map.mp hgroup
    exact computeResultBook_balanced rows.2 {}

end CtsEngine
