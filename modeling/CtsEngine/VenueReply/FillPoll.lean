import CtsEngine.Foundation.DeadlineLoop
import CtsEngine.VenueReply.OrderResults

/-!
# Polling an order for its fill

`pollOrderFill` reads an order again and again until it is executed, cancelled or the time is over,
and keeps the largest executed quantity that it has seen.  An order that is cancelled is reported
without it.
-/

namespace CtsEngine.VenueReply

open Option List DeadlineLoop

/-! ## One order -/

/-- `parseFloat(text)`. -/
def parseFloat (text : String) : Double :=
  let (negative, cs) := readSign (text.toList.dropWhile isJsSpace)
  if "Infinity".toList.isPrefixOf cs then .infinity negative
  else match readNumeral 10 10 'e' cs with
    | some (q, _) => .ofRat (signed negative q)
    | none => .nan

/-- A number that is not `NaN`. -/
abbrev Amount := WithBot (WithTop ℚ)

variable (order : Value)

/-- `parseFloat(String(a ?? b ?? c ?? "0")) || 0`. -/
def parsedField (names : List String) : Amount :=
  match parseFloat ((names.map order.get).foldr Value.coalesce (.text "0")).toText with
  | .finite q => ((q : WithTop ℚ) : Amount)
  | .infinity negative => if negative then ⊥ else ⊤
  | .nan => 0

def rawFilledQty : Amount := parsedField order ["filledQty", "executedQty", "cumQty"]

def rawFilledPrice : Amount := parsedField order ["filledPrice", "avgPrice", "price"]

/-- The status of an order as it is returned when the time is over. -/
def orderStatus (order : Value) : Value :=
  ((order.get "status").orElse (order.get "orderStatus")).orElse (.text "unknown")

def statusLower : String := trim (toLowerCase (orderStatus order).toText)

/-- The status says that the order is executed. -/
def isFilled : Bool :=
  statusLower order ∈ ["filled", "deal", "complete", "completed"] ||
    match order.get "status" with
    | .text s => s = "FILLED"
    | _ => false

def isPartialFill : Bool :=
  statusLower order ∈ ["partially_filled", "partial_fill"] && decide (0 < rawFilledQty order)

/-- The status ends the poll without a fill. -/
def isCancelled : Bool := statusLower order ∈ ["cancelled", "canceled", "rejected"]

/-! ## The loop -/

structure PolledFill where
  filled : Bool
  filledQty : Amount
  filledPrice : Amount
  status : Value

structure PollState where
  lastStatus : Value := .text "pending"
  bestPartialQty : Amount := 0
  bestPartialPrice : Amount := 0

/-- What an order does to the state, and what is returned if the poll ends with it. -/
def readOrder (s : PollState) (order : Value) : PollState × Option PolledFill :=
  let qty := rawFilledQty order
  let price := rawFilledPrice order
  let best := decide (s.bestPartialQty < qty)
  ({ lastStatus := orderStatus order
     bestPartialQty := if best then qty else s.bestPartialQty
     bestPartialPrice := if best then price else s.bestPartialPrice },
    if (isFilled order || isPartialFill order) && decide (0 < qty) then
      some ⟨true, qty, price, .text (if isFilled order then "filled" else "partially_filled")⟩
    else if isCancelled order then some ⟨false, 0, 0, .text (statusLower order)⟩
    else none)

/-- What is returned when the time is over. -/
def timedOut (s : PollState) : PolledFill :=
  if 0 < s.bestPartialQty then
    ⟨true, s.bestPartialQty, s.bestPartialPrice, .text "partially_filled"⟩
  else ⟨false, 0, 0, s.lastStatus⟩

/-- The order that a call of `getOrder` gives, if it gives one. -/
def orderOf (reply : ConnectorReply Value) : Option Value :=
  let order := boundedRead reply
  if order.isTruthy then some order else none

/-- `intervals[Math.min(pollIdx, intervals.length - 1)]`. -/
def pollWait (pollIdx : ℕ) : ℕ+ := ([100, 200, 350] : List ℕ+).getD pollIdx 600

variable (polls : ℕ → ConnectorReply Value × ℕ × ℕ) (orderId : String) (timeoutMs : ℤ)

/-- `pollOrderFill`, started at a time: the orders that it reads, and what it returns.  Every call
of `getOrder` has a reply, a duration, and a delay of the timer after it. -/
def pollOrderFill (start : ℤ) : List Value × PolledFill :=
  if orderId = "" then ([], ⟨false, 0, 0, .text "pending"⟩)
  else loop readOrder timedOut pollWait 50
    (fun i => ⟨orderOf (polls i).1, (polls i).2.1, (polls i).2.2⟩) (start + timeoutMs) 0 start {}

/-! ## Faithful polling -/

/-- The quantities that orders report, and 0. -/
def quantities (orders : List Value) : Set Amount := {x | x ∈ 0 :: orders.map rawFilledQty}

/-- A quantity that is reported is not below one that was reported before. -/
def Cumulative (orders : List Value) : Prop :=
  orders.Pairwise fun earlier later =>
    0 < rawFilledQty later → rawFilledQty earlier ≤ rawFilledQty later

/-- The venue will not execute more of the order. -/
def isEnded : Bool := isCancelled order || statusLower order = "expired"

/-- What is returned for the orders that were read. -/
structure Faithful (orders : List Value) (fill : PolledFill) : Prop where
  largest : IsGreatest (quantities orders) fill.filledQty
  filled_iff : fill.filled = true ↔ 0 < fill.filledQty
  complete : fill.status = .text "filled" → ∃ order ∈ orders, isFilled order = true
  ended : ∀ order ∈ orders.getLast?, isEnded order = true → 0 < rawFilledQty order →
    fill.filledQty = rawFilledQty order

abbrev Polled := DeadlineLoop.Run readOrder timedOut

variable {s : PollState} {orders : List Value} {fill : PolledFill}

lemma isFilled_eq : isFilled order =
    decide (statusLower order ∈ ["filled", "deal", "complete", "completed"]) := by
  unfold isFilled
  split
  case h_2 => rw [Bool.or_false]
  case h_1 s hs =>
    by_cases hname : s = "FILLED"
    · have hstat : orderStatus order = .text "FILLED" := by
        rw [orderStatus, hs, hname]
        rfl
      have hlow : statusLower order = "filled" := by
        rw [statusLower, hstat]
        decide
      rw [hlow, hname]
      decide
    · rw [decide_eq_false hname, Bool.or_false]

lemma isFilled_of_status {order : Value} (h : orderStatus order = .text "filled") :
    isFilled order = true := by
  have hlow : statusLower order = "filled" := by
    rw [statusLower, h]
    decide
  rw [isFilled_eq, hlow]
  decide

lemma not_isFilled_of_isCancelled {order : Value} (h : isCancelled order = true) :
    (isFilled order || isPartialFill order) = false := by
  have hlow : statusLower order = "cancelled" ∨ statusLower order = "canceled" ∨
      statusLower order = "rejected" := by simpa [isCancelled] using h
  rw [isFilled_eq, isPartialFill]
  rcases hlow with hlow | hlow | hlow
  all_goals
    rw [hlow]
    simp

lemma readOrder_cases {order : Value} {t : PollState} {result : Option PolledFill}
    (h : readOrder s order = (t, result)) :
    ((isFilled order || isPartialFill order) = true ∧
        0 < rawFilledQty order ∧ result = some ⟨true, rawFilledQty order, rawFilledPrice order,
          .text (if isFilled order then "filled" else "partially_filled")⟩) ∨
      (isCancelled order = true ∧ result = some ⟨false, 0, 0, .text (statusLower order)⟩) ∨
      (isCancelled order = false ∧ result = none ∧ t.lastStatus = orderStatus order ∧
        t.bestPartialQty = max s.bestPartialQty (rawFilledQty order)) := by
  unfold readOrder at h
  simp only [Prod.mk.injEq] at h
  obtain ⟨rfl, rfl⟩ := h
  split
  · rename_i hfill
    rw [Bool.and_eq_true, decide_eq_true_iff] at hfill
    exact .inl ⟨hfill.1, hfill.2, rfl⟩
  · split
    · exact .inr (.inl ⟨‹_›, rfl⟩)
    · refine .inr (.inr ⟨Bool.eq_false_of_not_eq_true ‹_›, rfl, rfl, ?_⟩)
      rw [max_def_lt]
      split <;> simp_all

/-- The poll ends with a cancelled order, and returns nothing of it. -/
lemma Polled.cancelled (h : Polled s orders fill) :
    ∀ order ∈ orders, isCancelled order = true → fill.filledQty = 0 := by
  induction h with
  | timedOut => nofun
  | exit h =>
    intro order hord hcanc
    rw [mem_singleton] at hord
    rw [hord] at hcanc
    obtain ⟨hfille, -⟩ | ⟨-, hfill⟩ | ⟨hnot, -⟩ := readOrder_cases h
    · rw [not_isFilled_of_isCancelled hcanc] at hfille
      cases hfille
    · rw [some.inj hfill]
    · rw [hnot] at hcanc
      cases hcanc
  | next h later ih =>
    intro order hord hcanc
    rcases mem_cons.mp hord with rfl | hlate
    · obtain ⟨-, -, hnone⟩ | ⟨-, hnone⟩ | ⟨hnot, -⟩ := readOrder_cases h
      · cases hnone
      · cases hnone
      · rw [hnot] at hcanc
        cases hcanc
    · exact ih order hlate hcanc

lemma quantities_append (orders : List Value) (order : Value) :
    quantities (orders ++ [order]) = insert (rawFilledQty order) (quantities orders) := by
  ext x
  simp only [quantities, map_append, map_singleton, ← cons_append, Set.mem_ofPred_eq,
    mem_append, mem_singleton, Set.mem_insert_iff]
  exact or_comm

lemma isGreatest_last {earlier : List Value} {order : Value}
    (hcumul : Cumulative (earlier ++ [order])) (hposit : 0 < rawFilledQty order) :
    IsGreatest (quantities (earlier ++ [order])) (rawFilledQty order) := by
  rw [quantities_append]
  refine ⟨Set.mem_insert _ _, ?_⟩
  rintro y (rfl | hy)
  · exact le_rfl
  rcases mem_cons.mp hy with rfl | hy
  · exact hposit.le
  obtain ⟨other, hoth, rfl⟩ := mem_map.mp hy
  exact (pairwise_append.mp hcumul).2.2 other hoth order mem_cons_self hposit

lemma isGreatest_zero (hnot : ∀ order ∈ orders, ¬ 0 < rawFilledQty order) :
    IsGreatest (quantities orders) 0 := by
  refine ⟨mem_cons_self, fun y hy => ?_⟩
  rcases mem_cons.mp hy with rfl | hy
  · exact le_rfl
  obtain ⟨order, hord, rfl⟩ := mem_map.mp hy
  exact not_lt.mp (hnot order hord)

variable (start : ℤ) {seen : List Value}

/-- Unless an order was cancelled after an execution, the largest quantity is returned, also of the
orders that were read before. -/
lemma Polled.largest (h : Polled s orders fill)
    (hbest : IsGreatest (quantities seen) s.bestPartialQty)
    (hcumul : Cumulative (seen ++ orders))
    (hnot : ∀ order ∈ orders, isCancelled order = true →
      ∀ other ∈ seen ++ orders, ¬ 0 < rawFilledQty other) :
    IsGreatest (quantities (seen ++ orders)) fill.filledQty := by
  induction h generalizing seen with
  | timedOut s =>
    rw [append_nil]
    unfold timedOut
    split
    · exact hbest
    · rename_i hnone
      have hzero := hbest.2 (mem_cons_self : (0 : Amount) ∈ quantities seen)
      rwa [le_antisymm (not_lt.mp hnone) hzero] at hbest
  | exit h =>
    obtain ⟨-, hposit, hfill⟩ | ⟨hcanc, hfill⟩ | ⟨-, hnone, -⟩ := readOrder_cases h
    · rw [some.inj hfill]
      exact isGreatest_last hcumul hposit
    · rw [some.inj hfill]
      exact isGreatest_zero (hnot _ mem_cons_self hcanc)
    · cases hnone
  | @next s t order orders fill h later ih =>
    obtain ⟨-, -, hnone⟩ | ⟨-, hnone⟩ | ⟨-, -, -, hmax⟩ := readOrder_cases h
    · cases hnone
    · cases hnone
    have hstep := hbest.insert (rawFilledQty order)
    rw [max_comm, ← hmax, ← quantities_append] at hstep
    rw [append_cons] at hcumul hnot ⊢
    exact ih hstep hcumul fun other hoth => hnot other (mem_cons_of_mem _ hoth)

lemma Polled.filled_iff (h : Polled s orders fill) : fill.filled = true ↔ 0 < fill.filledQty := by
  induction h with
  | timedOut s =>
    unfold timedOut
    split
    · simpa
    · simp
  | exit h =>
    obtain ⟨-, hposit, hfill⟩ | ⟨-, hfill⟩ | ⟨-, hnone, -⟩ := readOrder_cases h
    · simpa [some.inj hfill] using hposit
    · simp [some.inj hfill]
    · cases hnone
  | next h later ih => exact ih

/-- The status of a complete execution comes from an order, or from one before. -/
lemma Polled.complete (h : Polled s orders fill) (hstat : fill.status = .text "filled") :
    s.lastStatus = .text "filled" ∨ ∃ order ∈ orders, isFilled order = true := by
  induction h with
  | timedOut s =>
    unfold timedOut at hstat
    split at hstat
    · exact absurd (Value.text.inj hstat) (by decide)
    · exact .inl hstat
  | @exit s t order fill h =>
    obtain ⟨-, -, hfill⟩ | ⟨hcanc, hfill⟩ | ⟨-, hnone, -⟩ := readOrder_cases h
    · rw [some.inj hfill] at hstat
      by_cases hfille : isFilled order = true
      · exact .inr ⟨order, mem_cons_self, hfille⟩
      · rw [if_neg hfille] at hstat
        exact absurd (Value.text.inj hstat) (by decide)
    · rw [some.inj hfill, Value.text.injEq] at hstat
      rw [isCancelled, hstat] at hcanc
      cases hcanc
    · cases hnone
  | @next s t order orders fill h later ih =>
    obtain ⟨-, -, hnone⟩ | ⟨-, hnone⟩ | ⟨-, -, hlast, -⟩ := readOrder_cases h
    · cases hnone
    · cases hnone
    rcases ih hstat with hearl | ⟨other, hoth, hfille⟩
    · exact .inr ⟨order, mem_cons_self, isFilled_of_status (hlast.symm.trans hearl)⟩
    · exact .inr ⟨other, mem_cons_of_mem _ hoth, hfille⟩

lemma pollOrderFill_polled : Polled ({} : PollState) (pollOrderFill polls orderId timeoutMs start).1
      (pollOrderFill polls orderId timeoutMs start).2 := by
  unfold pollOrderFill
  split
  · exact .timedOut ({} : PollState)
  · exact loop_run ..

/-- **Polling.**  The poll is faithful exactly when no order that it reads is cancelled while one of
them has been executed. -/
theorem pollOrderFill_faithful_iff
    (hcumul : Cumulative (pollOrderFill polls orderId timeoutMs start).1) :
    Faithful (pollOrderFill polls orderId timeoutMs start).1
        (pollOrderFill polls orderId timeoutMs start).2 ↔
      ∀ order ∈ (pollOrderFill polls orderId timeoutMs start).1, isCancelled order = true →
        ∀ other ∈ (pollOrderFill polls orderId timeoutMs start).1, ¬ 0 < rawFilledQty other := by
  have hrun := pollOrderFill_polled polls orderId timeoutMs start
  constructor
  · intro hfait order horder hcanc other hother
    have hle := hfait.largest.2 (mem_cons_of_mem _ (mem_map_of_mem hother))
    rwa [Polled.cancelled hrun order horder hcanc, ← not_lt] at hle
  · intro hnot
    have hlarg : IsGreatest (quantities ([] ++ _)) _ :=
      Polled.largest hrun (isGreatest_zero nofun) hcumul hnot
    refine ⟨hlarg, Polled.filled_iff hrun, fun hstat => ?_, fun order hlast _ hposit => ?_⟩
    · exact (Polled.complete hrun hstat).resolve_left fun h => absurd (Value.text.inj h) (by decide)
    · obtain ⟨earlier, hearl⟩ := getLast?_eq_some_iff.mp hlast
      rw [hearl] at hcumul
      rw [nil_append, hearl] at hlarg
      exact hlarg.unique (isGreatest_last hcumul hposit)

/-- A quantity that is positive was reported, together with the price, by one order. -/
def Reported (orders : List Value) (qty price : Amount) : Prop :=
  qty = 0 ∨ 0 < qty ∧ ∃ order ∈ orders, rawFilledQty order = qty ∧ rawFilledPrice order = price

lemma Polled.reported (h : Polled s orders fill)
    (hbest : Reported seen s.bestPartialQty s.bestPartialPrice) :
    Reported (seen ++ orders) fill.filledQty fill.filledPrice := by
  induction h generalizing seen with
  | timedOut s =>
    rw [append_nil]
    unfold timedOut
    split
    · exact hbest
    · exact .inl rfl
  | exit h =>
    obtain ⟨-, hposit, hfill⟩ | ⟨-, hfill⟩ | ⟨-, hnone, -⟩ := readOrder_cases h
    · rw [some.inj hfill]
      exact .inr ⟨hposit, _, mem_concat_self, rfl, rfl⟩
    · rw [some.inj hfill]
      exact .inl rfl
    · cases hnone
  | @next s t order orders fill h later ih =>
    obtain rfl : (readOrder s order).1 = t := by rw [h]
    rw [append_cons]
    refine ih ?_
    unfold readOrder
    dsimp only
    by_cases hlarger : s.bestPartialQty < rawFilledQty order
    · have hbelow : 0 ≤ s.bestPartialQty := hbest.elim (·.ge) (·.1.le)
      rw [decide_eq_true hlarger]
      exact .inr ⟨hbelow.trans_lt hlarger, order, mem_concat_self, rfl, rfl⟩
    · rw [decide_eq_false hlarger]
      exact hbest.imp_right fun ⟨hposit, other, hoth, hsame⟩ =>
        ⟨hposit, other, mem_append_left _ hoth, hsame⟩

/-- **A poll ends, and invents nothing.**  Whatever is replied, an order is read at most once in 100
milliseconds, and a fill has the quantity and the price of one of the orders that were read. -/
theorem pollOrderFill_reported :
    ((pollOrderFill polls orderId timeoutMs start).1.length : ℤ) * 100 < max 0 timeoutMs + 100 ∧
      Reported (pollOrderFill polls orderId timeoutMs start).1
        (pollOrderFill polls orderId timeoutMs start).2.filledQty
        (pollOrderFill polls orderId timeoutMs start).2.filledPrice ∧
      ((pollOrderFill polls orderId timeoutMs start).2.filled = true ↔
        0 < (pollOrderFill polls orderId timeoutMs start).2.filledQty) := by
  have hrun := pollOrderFill_polled polls orderId timeoutMs start
  have hfrom : Reported ([] ++ _) _ _ := Polled.reported hrun (.inl rfl)
  refine ⟨?_, hfrom, hrun.filled_iff⟩
  have hwait : ∀ i, ((100 : ℕ+) : ℕ) ≤ pollWait i := by
    intro i
    match i with
    | 0 | 1 | 2 => decide
    | i + 3 => exact (by decide : 100 ≤ 600)
  unfold pollOrderFill
  split
  · simp only [length_nil]
    omega
  · have hcount := length_loop_mul_lt readOrder timedOut pollWait 50 hwait
      (fun i => ⟨orderOf (polls i).1, (polls i).2.1, (polls i).2.2⟩) (start + timeoutMs) 0 start {}
    rwa [add_sub_cancel_left] at hcount

variable (status : String)

/-- An order with a status and an executed quantity. -/
def executedAs (executedQty : String) : Value :=
  .object [("status", .text status), ("executedQty", .text executedQty), ("avgPrice", .text "100")]

/-- A new order of which one unit is executed, and then an order with the status and three units. -/
def answers : ℕ → ConnectorReply Value × ℕ × ℕ := fun i =>
  (.returned (if i = 0 then executedAs "NEW" "1" else executedAs status "3"), 20, 0)

lemma rawFilledQty_executedAs {executedQty : String} {q : ℚ}
    (h : parseFloat executedQty = .finite q) :
    rawFilledQty (executedAs status executedQty) = ((q : WithTop ℚ) : Amount) := by
  have hfield : rawFilledQty (executedAs status executedQty) = match parseFloat executedQty with
    | .finite q => ((q : WithTop ℚ) : Amount)
    | .infinity negative => if negative then ⊥ else ⊤
    | .nan => 0 := rfl
  rw [hfield, h]

lemma quantities_answers : rawFilledQty (executedAs "NEW" "1") = 1 ∧
    rawFilledQty (executedAs status "3") = 3 :=
  ⟨rawFilledQty_executedAs _ (by decide +kernel), rawFilledQty_executedAs _ (by decide +kernel)⟩

lemma cumulative_answers : Cumulative [executedAs "NEW" "1", executedAs status "3"] := by
  refine pairwise_pair.mpr fun _ => ?_
  rw [(quantities_answers status).1, (quantities_answers status).2]
  decide

lemma pollOrderFill_answers {fill : PolledFill}
    (h : ∀ s, (readOrder s (executedAs status "3")).2 = some fill) :
    pollOrderFill (answers status) "1" 15000 0 =
      ([executedAs "NEW" "1", executedAs status "3"], fill) := by
  obtain ⟨hfille, hpart, hcanc⟩ : isFilled (executedAs "NEW" "1") = false ∧
      isPartialFill (executedAs "NEW" "1") = false ∧
        isCancelled (executedAs "NEW" "1") = false := by decide +kernel
  obtain ⟨s, hnew⟩ : ∃ s, readOrder {} (executedAs "NEW" "1") = (s, none) := by
    rw [readOrder, hfille, hpart, hcanc]
    exact ⟨_, rfl⟩
  obtain ⟨t, hlast⟩ : ∃ t, readOrder s (executedAs status "3") = (t, some fill) :=
    ⟨(readOrder s (executedAs status "3")).1, by rw [← h s]⟩
  have hzero : answers status 0 = (.returned (executedAs "NEW" "1"), 20, 0) := rfl
  have hone : answers status (0 + 1) = (.returned (executedAs status "3"), 20, 0) := rfl
  have hread : ∀ executedQty status, orderOf (.returned (executedAs status executedQty)) =
      some (executedAs status executedQty) := fun _ _ => rfl
  rw [pollOrderFill, if_neg (by decide), loop, if_pos (by decide)]
  simp only [hzero, hread, hnew]
  rw [if_neg (by decide), loop, if_pos (by decide)]
  simp only [hone, hread, hlast]

/-- The larger quantity of the two orders is returned. -/
theorem pollOrderFill_faithful_filled : Faithful [executedAs "NEW" "1", executedAs "FILLED" "3"]
        (pollOrderFill (answers "FILLED") "1" 15000 0).2 ∧
      (pollOrderFill (answers "FILLED") "1" 15000 0).2.filledQty = 3 := by
  have hlast : ∀ s, (readOrder s (executedAs "FILLED" "3")).2 =
      some ⟨true, 3, rawFilledPrice (executedAs "FILLED" "3"), .text "filled"⟩ := by
    intro s
    unfold readOrder
    rw [(quantities_answers "FILLED").2]
    rfl
  have hiff := pollOrderFill_faithful_iff (answers "FILLED") "1" 15000 0
  rw [pollOrderFill_answers "FILLED" hlast] at hiff ⊢
  refine ⟨(hiff (cumulative_answers _)).mpr fun order horder hcanc => ?_, rfl⟩
  have hnone : ∀ order ∈ [executedAs "NEW" "1", executedAs "FILLED" "3"],
      isCancelled order = false := by decide
  exact absurd hcanc (ne_true_of_eq_false (hnone order horder))

/-- A cancelled order is returned without what was executed of it. -/
theorem not_faithful_canceled :
    ¬ ∀ (polls : ℕ → ConnectorReply Value × ℕ × ℕ) (orderId : String) (timeoutMs start : ℤ),
      Cumulative (pollOrderFill polls orderId timeoutMs start).1 →
      Faithful (pollOrderFill polls orderId timeoutMs start).1
        (pollOrderFill polls orderId timeoutMs start).2 := by
  intro h
  have hfait := h (answers "CANCELED") "1" 15000 0
  rw [pollOrderFill_answers "CANCELED" fun _ => rfl] at hfait
  have hlarg := (hfait (cumulative_answers _)).largest.2
    (mem_cons_of_mem _ (mem_map_of_mem (mem_cons_of_mem _ (mem_singleton_self _))))
  rw [(quantities_answers "CANCELED").2] at hlarg
  exact absurd hlarg (by decide)

end CtsEngine.VenueReply
