import CtsEngine.DirectOrder.Steps
import CtsEngine.OrderControl.Writes

/-!
# Accounting of completed orders

A completed record is accounted for when its fill or its settlement has a quantity and a price.
Whether an order is done is read from its status and its quantity alone, so that an order may be
completed without a price.
-/

namespace CtsEngine.DirectOrder

open Option OrderControl Keyed Bool
open Transition
open VenueReply

variable {backend : Backend} {connector : Connector} {control : Control} {s t : ControlRun}
  {event : Event} {current incoming record : DirectOrderControlRecord}
  {response : List (String × StoredValue)}

/-- `Number(object?.[name]) > 0` of a stored object. -/
def positiveField (object : Option StoredValue) (name : String) : Bool :=
  match object with
  | some (.object fields) =>
    (get? fields name).any fun field => (Double.finite 0).lt (jsNumber field)
  | _ => false

/-- A stored fill has a quantity and a price. -/
def filledBy (fill : Option StoredValue) : Bool :=
  positiveField fill "filledQty" && positiveField fill "filledPrice"

/-- A stored settlement has a quantity and a price. -/
def settledBy (settlement : Option StoredValue) : Bool :=
  positiveField settlement "filledQuantity" && positiveField settlement "averageFillPrice"

/-- The fill or the settlement of a stored response has a quantity and a price. -/
def Accounted (response : List (String × StoredValue)) : Prop :=
  filledBy (get? response "fill") = true ∨ settledBy (settlementOf response) = true

/-- Once the stored record is completed and an execution is reported, the record has a response that
accounts for it. -/
def CompletedAccounted (s : ControlRun) : Prop :=
  ∀ record, s.stored = some record → record.state = .completed → s.reported = true →
    ∃ response, record.response = some response ∧ Accounted response

/-! ### Conditions -/

/-- The stored record has a settlement with a quantity and a price. -/
def storedSettled (s : ControlRun) : Bool := settledBy (s.stored.bind (·.settlement))

/-- The result that ends an order has an executed quantity and an average price, or the settlement
that was read with it has them, or, if there is none, the stored one. -/
def resultAccounts (s : ControlRun) (result : Value) (quantity : ℚ) (settlement : Option Value) :
    Bool :=
  !isTerminalLiveOrderResult result quantity ||
    (decide (0 < (liveFill result).filledQty) && decide (0 < (liveFill result).filledPrice)) ||
    match settlement with
    | some value => settledBy (jsonOf value)
    | none => storedSettled s

/-- What a call has read accounts for the order that it completes. -/
def callAccounts (s : ControlRun) (call : Call) : Bool :=
  match call.phase with
  | .finishing result _ settlement _ _ => resultAccounts s result call.input.quantity settlement
  | .reconciled result settlement => resultAccounts s result call.record.quantity settlement
  | .alreadyClosed _ => storedSettled s
  | .enriched response settlement =>
    settledBy (jsonOf settlement) || filledBy (get? response "fill")
  | _ => true

/-- What a step reads reports an execution of the order. -/
def readReports (connector : Connector) (s : ControlRun) : Event → Bool
  | .placed _ answer => answer.toOption.any reportsExecution
  | .answered i reply => (s.callAt i).any fun call => answerReports call reply
  | .listed i openOrders history => (s.callAt i).any fun call =>
    (matchingRows call.record connector.hasGetOpenOrders openOrders ++
      matchingRows call.record connector.hasGetOrderHistory history).any reportsExecution
  | _ => false

/-- The stored record is completed. -/
def completedIn (s : ControlRun) : Bool := s.stored.any fun record => record.state = .completed

/-- What the call of a write has read accounts for the order. -/
def writesAccounting (s : ControlRun) : Event → Bool
  | .write i _ _ => (s.callAt i).all (callAccounts s)
  | _ => true

/-- After an execution was reported, a call completes the order only with its accounting; and no
execution is reported for the first time when the order is completed already. -/
def AccountedStep (connector : Connector) (s : ControlRun) (event : Event) : Prop :=
  (s.reported = true → writesAccounting s event = true) ∧
    (readReports connector s event = true → s.reported = true ∨ completedIn s = false)

instance (connector : Connector) (s : ControlRun) (event : Event) :
    Decidable (AccountedStep connector s event) :=
  inferInstanceAs (Decidable ((_ → _) ∧ (_ → _ ∨ _)))

/-! ### Responses -/

variable (rest : List (String × Option StoredValue))

lemma get?_literal_of_ne {field : String × Option StoredValue} {name : String}
    (h : field.1 ≠ name) :
    get? (literal (field :: rest)) name = get? (literal rest) name := by
  rcases field with ⟨key, _ | value⟩
  · rfl
  · exact if_neg h

lemma get?_literal_self (name : String) (value : StoredValue) :
    get? (literal ((name, some value) :: rest)) name = some value := if_pos rfl

variable (settlement : Option Value) (input : Input)

lemma fill_finishedResponse (control : Control) (result : Value)
    (exchangeOrderId : String) (position protection : StoredValue) :
    get? (finishedResponse control input result exchangeOrderId settlement position
      protection) "fill" = some (storedFill (liveFill result)) := by
  simp [finishedResponse, orderFields, get?_literal_of_ne, get?_literal_self]

lemma settlement_finishedResponse (control : Control) (result : Value)
    (exchangeOrderId : String) (position protection : StoredValue) :
    settlementOf (finishedResponse control input result exchangeOrderId settlement position
      protection) = some (storedSettlement settlement) := by
  simp [settlementOf, finishedResponse, orderFields, get?_literal_of_ne, get?_literal_self]

variable (record) (control)

lemma fill_reconciledResponse (reconciled : Value) :
    get? (reconciledResponse control input record reconciled settlement) "fill" =
      some (storedFill (liveFill reconciled)) := by
  simp [reconciledResponse, orderFields, get?_literal_of_ne, get?_literal_self]

lemma settlement_reconciledResponse (reconciled : Value) :
    settlementOf (reconciledResponse control input record reconciled settlement) =
      some (storedSettlement settlement) := by
  simp [settlementOf, reconciledResponse, orderFields, get?_literal_of_ne, get?_literal_self]

lemma settlement_closedResponse (details : Value) :
    settlementOf (closedResponse control input record details) = some .null := by
  simp [settlementOf, closedResponse, orderFields, get?_literal_of_ne, get?_literal_self]

variable {control} {record}

lemma filledBy_storedFill {fill : ParsedFill} (hqty : 0 < fill.filledQty)
    (hpr : 0 < fill.filledPrice) : filledBy (some (storedFill fill)) = true := by
  simp [filledBy, positiveField, storedFill, get?, jsNumber, Double.lt, hqty, hpr]

/-! ### Merging -/

lemma isTrue_of_settledBy {settlement : Option StoredValue} (h : settledBy settlement = true) :
    OrderControl.isTrue settlement = true := by
  unfold settledBy positiveField at h
  rcases settlement with _ | value
  · exact absurd h (by simp)
  · cases value with
    | object fields => rfl
    | _ => exact absurd h (by simp)

lemma not_settledBy_none : settledBy none = false := rfl

/-- What a written response brings along is enough for the merged one. -/
def Brings (current : DirectOrderControlRecord) (response : List (String × StoredValue)) : Prop :=
  Accounted response ∨
    isPresent (settlementOf response) = false ∧ settledBy current.settlement = true

lemma accounted_put {settlement : StoredValue} (h : settledBy (some settlement) = true) :
    Accounted (put response "settlement" settlement) :=
  .inr (by rw [settlementOf, get?_put_self]; exact h)

lemma Brings.kept {settlement : StoredValue} (hbrin : Brings current response)
    (hstor : current.settlement = some settlement)
    (hmiss : settledBy (settlementOf response) = false) :
    Accounted (put response "settlement" settlement) := by
  rcases hbrin with (hfill | hsettl) | ⟨-, hsettl⟩
  · exact .inl (by rwa [get?_put_of_ne _ _ (by decide)])
  · exact absurd (hsettl.symm.trans hmiss) (by simp)
  · exact accounted_put (by rwa [hstor] at hsettl)

lemma Brings.accounted (hbrin : Brings current response) (hstor : current.settlement = none) :
    Accounted response :=
  hbrin.resolve_right fun h => by
    rw [hstor, not_settledBy_none] at h
    exact absurd h.2 (by simp)

lemma accounted_mergedResponse (hresp : incoming.response = some response)
    (hbrin : Brings current response) :
    ∃ stored, mergedResponse current incoming = some stored ∧ Accounted stored := by
  unfold mergedResponse
  rw [hresp]
  cases hsett : current.settlement with
  | none => exact ⟨response, rfl, hbrin.accounted hsett⟩
  | some settlement =>
    dsimp only
    by_cases hkeeps : (jsTruthy settlement && !OrderControl.isTrue (settlementOf response)) = true
    · rw [if_pos hkeeps]
      refine ⟨_, rfl, hbrin.kept hsett ?_⟩
      refine eq_false_iff.mpr fun hsettl => ?_
      simp [isTrue_of_settledBy hsettl] at hkeeps
    · rw [if_neg hkeeps]
      refine ⟨response, rfl, hbrin.resolve_right fun h => hkeeps ?_⟩
      have htrut : OrderControl.isTrue current.settlement = true := isTrue_of_settledBy h.2
      have hmiss : OrderControl.isTrue (settlementOf response) = false :=
        eq_false_iff.mpr fun hval =>
          absurd (h.1.symm.trans (isPresent_of_isTrue hval)) false_ne_true
      rw [hsett] at htrut
      rw [hmiss, Bool.not_false, Bool.and_true]
      exact htrut

lemma accounted_luaResponse (hresp : incoming.response = some response)
    (hbrin : Brings current response) :
    ∃ stored, luaResponse current incoming = some stored ∧ Accounted stored := by
  unfold luaResponse
  rw [hresp]
  cases hcur : current.response with
  | none =>
    have hstor : current.settlement = none := by
      rw [DirectOrderControlRecord.settlement, hcur]
      rfl
    exact ⟨response, rfl, hbrin.accounted hstor⟩
  | some stored =>
    dsimp only
    have hstor : current.settlement = settlementOf stored := by
      rw [DirectOrderControlRecord.settlement, hcur]
      rfl
    cases hsett : settlementOf stored with
    | none => exact ⟨response, rfl, hbrin.accounted (hstor.trans hsett)⟩
    | some settlement =>
      dsimp only
      by_cases hkeeps : (isPresent (some settlement) && !isPresent (settlementOf response)) = true
      · rw [if_pos hkeeps]
        refine ⟨_, rfl, hbrin.kept (hstor.trans hsett) ?_⟩
        refine eq_false_iff.mpr fun hsettl => ?_
        simp [isPresent_of_isTrue (isTrue_of_settledBy hsettl)] at hkeeps
      · rw [if_neg hkeeps]
        refine ⟨response, rfl, hbrin.resolve_right fun h => hkeeps ?_⟩
        have hpres : isPresent current.settlement = true :=
          isPresent_of_isTrue (isTrue_of_settledBy h.2)
        rw [hstor, hsett] at hpres
        rw [hpres, h.1]
        rfl

lemma merged_cases (h : merged backend current incoming = some record) :
    record = current ∨ record.state = incoming.state ∧
      (∀ response, incoming.response = some response → Brings current response →
        ∃ stored, record.response = some stored ∧ Accounted stored) := by
  cases backend with
  | inlineLocal =>
    change mergeDirectOrderControlRecord current incoming = some record at h
    unfold mergeDirectOrderControlRecord at h
    split at h
    · cases h
    · split at h
      · exact .inl (some.inj h).symm
      · cases h
        exact .inr ⟨rfl, fun response hresp => accounted_mergedResponse hresp⟩
  | shared =>
    change luaWrite current incoming = some record at h
    unfold luaWrite at h
    split at h
    · cases h
    · split at h
      · exact .inl (some.inj h).symm
      · split at h
        · exact .inl (some.inj h).symm
        · cases h
          exact .inr ⟨rfl, fun response hresp => accounted_luaResponse hresp⟩

/-- What a step does to the stored record: nothing, a claim, a release, or the write of a call. -/
lemma step_stored (h : step backend connector control s event = some t) :
    (t.stored = s.stored ∧ t.reported = (s.reported || readReports connector s event)) ∨
    (∃ input now, s.stored = none ∧ t.stored = some (claimRecord control input now)) ∨
    t.stored = none ∨
    ∃ i ending now call incoming current record, event = .write i ending now ∧
      s.callAt i = some call ∧ outgoing control call now = some incoming ∧
      s.stored = some current ∧ merged backend current incoming = some record ∧
      t.stored = some record ∧ t.reported = s.reported := by
  cases event with
  | enter input now =>
    cases h
    unfold enter
    split
    · exact .inl ⟨rfl, (Bool.or_false _).symm⟩
    · next hnone => exact .inr (.inl ⟨input, now, hnone, rfl⟩)
  | persisted i done =>
    obtain ⟨call, -, h⟩ := bind_eq_some_iff.mp h
    split at h
    · cases h
      cases done <;> exact .inl ⟨rfl, (Bool.or_false _).symm⟩
    · cases h
  | released i =>
    obtain ⟨call, -, h⟩ := bind_eq_some_iff.mp h
    split at h
    · cases h
      exact .inr (.inr (.inl rfl))
    · cases h
  | setUp i failure =>
    obtain ⟨call, -, h⟩ := bind_eq_some_iff.mp h
    split at h
    · cases h
      exact .inl ⟨rfl, (Bool.or_false _).symm⟩
    · cases h
  | placed i answer =>
    obtain ⟨call, -, h⟩ := bind_eq_some_iff.mp h
    split at h
    · cases h
      exact .inl ⟨rfl, rfl⟩
    · cases h
  | answered i reply =>
    obtain ⟨call, hcall, h⟩ := bind_eq_some_iff.mp h
    obtain ⟨next, -, rfl⟩ := map_eq_some_iff.mp h
    exact .inl ⟨rfl, by simp [readReports, hcall]⟩
  | listed i openOrders history =>
    obtain ⟨call, hcall, h⟩ := bind_eq_some_iff.mp h
    split at h
    · cases h
      exact .inl ⟨rfl, by simp [readReports, hcall]⟩
    · cases h
  | prepared i position protection =>
    obtain ⟨call, -, h⟩ := bind_eq_some_iff.mp h
    split at h
    · cases h
      exact .inl ⟨rfl, (Bool.or_false _).symm⟩
    · cases h
  | count i =>
    obtain ⟨call, -, h⟩ := bind_eq_some_iff.mp h
    unfold count at h
    split at h
    · cases h
    · cases h
      exact .inl ⟨rfl, (Bool.or_false _).symm⟩
  | write i ending now =>
    obtain ⟨call, hcall, h⟩ := bind_eq_some_iff.mp h
    unfold write at h
    split at h
    · cases h
    · obtain ⟨incoming, hinc, rfl⟩ := map_eq_some_iff.mp h
      cases hmerg : s.stored.bind fun current => merged backend current incoming with
      | none => cases ending <;> exact .inl ⟨rfl, (Bool.or_false _).symm⟩
      | some record =>
        obtain ⟨current, hcur, hrec⟩ := bind_eq_some_iff.mp hmerg
        cases ending with
        | failed => exact .inl ⟨rfl, (Bool.or_false _).symm⟩
        | _ =>
          exact .inr (.inr (.inr ⟨i, _, now, call, incoming, current, record, rfl, hcall,
            hinc, hcur, hrec, rfl, rfl⟩))
  | stop i =>
    obtain ⟨call, -, rfl⟩ := map_eq_some_iff.mp h
    exact .inl ⟨rfl, (Bool.or_false _).symm⟩
  | otherCount key =>
    cases h
    exact .inl ⟨rfl, (Bool.or_false _).symm⟩
  | countsExpire =>
    cases h
    exact .inl ⟨rfl, (Bool.or_false _).symm⟩

lemma settledBy_storedSettlement {settlement : Value} (h : settledBy (jsonOf settlement) = true) :
    settledBy (some (storedSettlement (some settlement))) = true := by
  change settledBy (some ((jsonOf settlement).getD .null)) = true
  cases hval : jsonOf settlement with
  | none => exact absurd h (by simp [hval, settledBy, positiveField])
  | some stored => simpa [hval] using h

lemma brings_of_resultAccounts {result : Value} {quantity : ℚ} {settlement : Option Value}
    (hcur : s.stored = some current)
    (hacc : resultAccounts s result quantity settlement = true)
    (hterm : stateOf result quantity = .completed)
    (hfill : get? response "fill" = some (storedFill (liveFill result)))
    (hsett : settlementOf response = some (storedSettlement settlement)) :
    Brings current response := by
  have hdone : isTerminalLiveOrderResult result quantity = true := by
    by_contra hnot
    simp [stateOf, hnot] at hterm
  simp only [resultAccounts, hdone, Bool.not_true, Bool.false_or, Bool.or_eq_true,
    Bool.and_eq_true, decide_eq_true_eq] at hacc
  rcases hacc with ⟨hqty, hpr⟩ | hacc
  · exact .inl (.inl (by rw [hfill]; exact filledBy_storedFill hqty hpr))
  · cases settlement with
    | some value =>
      exact .inl (.inr (by rw [hsett]; exact settledBy_storedSettlement hacc))
    | none =>
      refine .inr ⟨by rw [hsett]; rfl, ?_⟩
      rwa [storedSettled, hcur] at hacc

/-- A completion that is counted brings its response. -/
lemma brings_of_callAccounts {call : Call} {now : ℚ} (hcur : s.stored = some current)
    (hacc : callAccounts s call = true) (hinc : outgoing control call now = some incoming)
    (hcompd : incoming.state = .completed) :
    ∃ response, incoming.response = some response ∧ Brings current response := by
  unfold outgoing at hinc
  unfold callAccounts at hacc
  cases hph : call.phase with
  | finishing result orderId settlement position protection =>
    simp only [hph, some.injEq] at hinc hacc
    subst hinc
    dsimp only at hcompd
    exact ⟨_, rfl, brings_of_resultAccounts hcur hacc hcompd
      (fill_finishedResponse ..) (settlement_finishedResponse ..)⟩
  | reconciled result settlement =>
    simp only [hph, some.injEq] at hinc hacc
    subst hinc
    dsimp only at hcompd
    exact ⟨_, rfl, brings_of_resultAccounts hcur hacc hcompd
      (fill_reconciledResponse ..) (settlement_reconciledResponse ..)⟩
  | alreadyClosed details =>
    rw [hph] at hinc hacc
    cases hinc
    refine ⟨_, rfl, .inr ⟨by rw [settlement_closedResponse]; rfl, ?_⟩⟩
    rwa [storedSettled, hcur] at hacc
  | enriched response settlement =>
    rw [hph] at hinc hacc
    cases hinc
    refine ⟨_, rfl, .inl ?_⟩
    rcases or_eq_true_iff.mp hacc with hsettl | hfill
    · exact accounted_put (settledBy_storedSettlement hsettl)
    · exact .inl (by rwa [get?_put_of_ne _ _ (by decide)])
  | acknowledging result =>
    rw [hph] at hinc
    cases hinc
    cases hcompd
  | failing error raw =>
    rw [hph] at hinc
    cases hinc
    cases hcompd
  | deferring orderId details lastError =>
    rw [hph] at hinc
    cases hinc
    cases hcompd
  | _ =>
    rw [hph] at hinc
    cases hinc

lemma CompletedAccounted.step (hacc : CompletedAccounted s)
    (hcond : AccountedStep connector s event)
    (h : step backend connector control s event = some t) : CompletedAccounted t := by
  intro record hrec hcompd hrepor
  rcases step_stored h with ⟨hstor, hreports⟩ | ⟨input, now, -, hclaim⟩ | hnone |
    ⟨i, ending, now, call, incoming, current, written, rfl, hcall, hinc, hcur, hmerg,
      hstor, hreports⟩
  · rw [hstor] at hrec
    rw [hreports] at hrepor
    refine hacc record hrec hcompd ?_
    rcases or_eq_true_iff.mp hrepor with hbef | hreads
    · exact hbef
    · -- the report is the first one only if the record is not completed yet
      refine (hcond.2 hreads).resolve_right fun hnot => ?_
      simp [completedIn, hrec, hcompd] at hnot
  · obtain rfl := some.inj (hclaim.symm.trans hrec)
    cases hcompd
  · exact absurd (hnone.symm.trans hrec) (by simp)
  · obtain rfl := some.inj (hstor.symm.trans hrec)
    rw [hreports] at hrepor
    rcases merged_cases hmerg with rfl | ⟨hstate, hbroug⟩
    · exact hacc _ hcur hcompd hrepor
    · have haccou : callAccounts s call = true := by
        have hwrit := hcond.1 hrepor
        rwa [writesAccounting, hcall] at hwrit
      obtain ⟨response, hresp, hbrin⟩ := brings_of_callAccounts hcur haccou hinc
        (hstate.symm.trans hcompd)
      exact hbroug response hresp hbrin

/-- **Completed means accounted.** In a run in which every order that is completed after a reported
execution is completed with its accounting, and no execution is reported for the first time after
the completion, the stored record of a completed order with a reported execution has a quantity and
a price. -/
theorem completed_accounted (backend : Backend) (connector : Connector) (control : Control)
    (events : List Event)
    (hmeets : Meets (step backend connector control) (AccountedStep connector) {} events)
    (done : List Event) (s : ControlRun) (hdone : done <+: events)
    (hrun : run (step backend connector control) {} done = some s) : CompletedAccounted s := by
  obtain ⟨rest, rfl⟩ := hdone
  refine invariant_of_meets (fun _ _ _ h hcond hstep => h.step hcond hstep) ?_ hmeets.left hrun
  intro record hrecord
  cases hrecord

/-! ### An order that is filled without a price -/

/-- A connector that answers every query. -/
def queryingConnector : Connector := ⟨true, true, false, true, true, true⟩

/-- An entry of one control id. -/
def marketEntry : Control where
  fingerprint := "f"
  connectionId := "bingx-x01"
  clientOrderId := "dtentry1"
  positionId := some "row"
  exchangeClientOrderId := "dtentry1"
  symbol := "BTC-USDT"
  direction := .long
  positionDirection := .long
  reduceOnly := false
  orderType := .market

def unitInput : Input where
  mode := "live"
  quantity := 1
  requestedQuantity := 1
  adjusted := false
  reason := none
  leverage := 1
  requireProtection := false
  updateCounters := true

/-- The owner places an order that the venue says is filled, and reads it with this reply before it
counts the order and completes it without a settlement. -/
def filledRun (reply : ConnectorReply Value) (counts : ℕ) : List Event :=
  [.enter unitInput 1000, .setUp 0 none,
    .placed 0 (.ok (.object [("success", .boolean true), ("orderId", .text "77"),
      ("status", .text "FILLED")])),
    .write 0 .stored 1001, .answered 0 reply, .answered 0 (.threw "timed out"),
    .prepared 0 .null .null] ++ List.replicate counts (.count 0) ++ [.write 0 .stored 1002]

/-- The order as the venue shows it once it is settled. -/
def filledReply : ConnectorReply Value :=
  .returned (.object [("orderId", .text "77"), ("status", .text "FILLED"),
    ("executedQty", .number (.finite 1)), ("avgPrice", .number (.finite 100))])

instance (response : List (String × StoredValue)) : Decidable (Accounted response) :=
  inferInstanceAs (Decidable (_ ∨ _))

/-- The stored record is completed after a reported execution, and this is what accounts for it. -/
def accountedIn (s : ControlRun) : Option Bool :=
  s.stored.bind fun record =>
    if record.state = .completed ∧ s.reported = true then
      some (record.response.any fun response => decide (Accounted response))
    else none

lemma accountedIn_ne_false (h : CompletedAccounted s) : accountedIn s ≠ some false := by
  intro hfalse
  obtain ⟨record, hrec, hval⟩ := bind_eq_some_iff.mp hfalse
  obtain ⟨⟨hcompd, hrepor⟩, hmiss⟩ := ite_none_right_eq_some.mp hval
  obtain ⟨response, hresp, hacc⟩ := h record hrec hcompd hrepor
  simp [hresp, hacc] at hmiss

example : ((run (step .shared queryingConnector marketEntry) {} (filledRun filledReply 2)).bind
    accountedIn) = some true := by decide +kernel

/-- A run in which the order is read with its price. -/
theorem completed_accounted_filledReply :
    Meets (step .shared queryingConnector marketEntry) (AccountedStep queryingConnector) {}
      (filledRun filledReply 2) ∧
    ∀ done s, done <+: filledRun filledReply 2 →
      run (step .shared queryingConnector marketEntry) {} done = some s → CompletedAccounted s := by
  have hmeets : Meets (step .shared queryingConnector marketEntry)
      (AccountedStep queryingConnector) {} (filledRun filledReply 2) := by decide +kernel
  exact ⟨hmeets, completed_accounted _ _ _ _ hmeets⟩

/-- The venue says that the order is filled, and every further read times out. -/
theorem not_completed_accounted_timeouts :
    ¬ ∀ (backend : Backend) (connector : Connector) (control : Control) (events : List Event)
      (s : ControlRun), run (step backend connector control) {} events = some s →
        CompletedAccounted s := by
  intro hall
  have hfalse : ((run (step .shared queryingConnector marketEntry) {}
      (filledRun (.threw "timed out") 1)).bind accountedIn) = some false := by decide +kernel
  obtain ⟨s, hrun, hs⟩ := bind_eq_some_iff.mp hfalse
  exact accountedIn_ne_false (hall _ _ _ _ s hrun) hs

end CtsEngine.DirectOrder
