import CtsEngine.EntryProtection.Arming

/-!
# An entry is protected or fails closed

What a venue has seen when an entry with required protection ends.  An entry that returns has both
controls confirmed for its filled quantity.  One that throws says why: before the protection could
be asked for no order is sent any more, and after a control was refused the position is closed when
its exact ticket is known, and left alone when it is not.
-/

namespace CtsEngine.EntryProtection

open Option List Interaction.Program Bool

open ExposureCeiling (orderQuantityFromPosition)
open VenueReply

/-! ## Events -/

abbrev VenueEvent := Interaction.Event VenueCall Answer

/-- The call only reads. -/
def readsVenue : VenueEvent → Bool
  | ⟨.getOrder _, _⟩ => true
  | ⟨.getOrderSettlement _, _⟩ => true
  | ⟨.positionRows, _⟩ => true
  | ⟨.getPosition, _⟩ => true
  | _ => false

/-- The call closes a quantity. -/
def closesQuantity (quantity : ℚ) : VenueEvent → Bool
  | ⟨.closePositionByTicket _ closed _, _⟩ => closed = quantity
  | ⟨.placeOrder order, _⟩ => order.reduceOnly && order.quantity = quantity
  | _ => false

/-- The call closes a quantity of the position with the ticket. -/
def closesExactly (ticket : ℕ) (quantity : ℚ) : VenueEvent → Bool
  | ⟨.closePositionByTicket closedTicket closed _, _⟩ => closedTicket = ticket && closed = quantity
  | ⟨.placeOrder order, _⟩ =>
    order.reduceOnly && order.quantity = quantity && order.positionTicket = some ticket
  | _ => false

def closeAccepted : VenueEvent → Bool
  | ⟨.closePositionByTicket _ _ _, .returned result⟩ => (result.get "success").isTrue
  | ⟨.placeOrder order, .returned result⟩ => order.reduceOnly && (result.get "success").isTrue
  | _ => false

/-- The venue has accepted a conditional order. -/
def stopPlaced (order : StopOrder) (orderId : String) : VenueEvent → Prop
  | ⟨.placeStopOrder placed, .returned result⟩ =>
    placed = order ∧ stopAccepted result = true ∧ stopOrderId result = orderId
  | _ => False

/-- The venue has refused a conditional order. -/
def stopRefused (order : StopOrder) : VenueEvent → Prop
  | ⟨.placeStopOrder placed, .returned result⟩ => placed = order ∧ stopAccepted result = false
  | _ => False

/-- The placement of a conditional order threw. -/
def stopThrew : VenueEvent → Bool
  | ⟨.placeStopOrder _, .threw _⟩ => true
  | _ => false

/-- The call cancels an order. -/
def cancels : VenueEvent → Option String
  | ⟨.cancelOrder orderId, _⟩ => some orderId
  | _ => none

/-- A position read and what it has come to. -/
def positionRead : VenueEvent → Option (ConnectorReply (List BrokerPosition))
  | ⟨.positionRows, reply⟩ => some reply
  | ⟨.getPosition, reply⟩ => some reply
  | _ => none

/-- The order as it was read last, from what the venue has answered after the placement. -/
def lastResult (entry : ProtectedEntry) (result : Value) (trace : List VenueEvent) : Value :=
  if readsAgain entry result then
    match trace with
    | ⟨.getOrder orderId, reply⟩ :: _ => hydratedResult result orderId reply
    | _ => result
  else result

/-! ## Flattening -/

/-- What an emergency flatten does: with the exact ticket a close of the quantity is attempted, and
it counts as completed only when the venue has accepted one; without the ticket nothing is sent. -/
structure FlattenRun (ticket : Option ℕ) (quantity : ℚ) (trace : List VenueEvent)
    (flattened : Bool) : Prop where
  attempted : ∀ exact ∈ ticket, ∃ event ∈ trace, closesExactly exact quantity event = true
  withheld : ticket = none → trace = [] ∧ flattened = false
  confirmed : flattened = true → ∃ event ∈ trace, closeAccepted event = true
  sent : ∀ event ∈ trace, readsVenue event = true ∨
    ∃ exact, closesExactly exact quantity event = true

lemma FlattenRun.none (quantity : ℚ) : FlattenRun none quantity [] false where
  attempted := by simp
  withheld _ := ⟨rfl, rfl⟩
  confirmed := by simp
  sent := by simp

variable {quantity : ℚ}

lemma FlattenRun.cons {exact : ℕ} {event : VenueEvent} {trace : List VenueEvent}
    {flattened : Bool} (hcl : closesExactly exact quantity event = true)
    (hconf : flattened = true → ∃ e ∈ event :: trace, closeAccepted e = true)
    (hsent : ∀ e ∈ trace, readsVenue e = true ∨ ∃ t, closesExactly t quantity e = true) :
    FlattenRun (some exact) quantity (event :: trace) flattened where
  attempted t ht := by
    obtain rfl : exact = t := some.inj ht
    exact ⟨event, mem_cons_self .., hcl⟩
  withheld h := absurd h (some_ne_none exact)
  confirmed := hconf
  sent := by
    rintro e he
    rcases mem_cons.mp he with rfl | he
    · exact .inr ⟨exact, hcl⟩
    · exact hsent e he

variable (entry : ProtectedEntry)

lemma emergencyFlattenByOrder_ensures (ticket : ℕ) (quantity : ℚ) :
    (emergencyFlattenByOrder entry ticket quantity).Ensures
      (FlattenRun (some ticket) quantity) := by
  intro answer
  have hcl : closesExactly ticket quantity ⟨.placeOrder (closeOrder entry (hedgeSide entry)
      ticket quantity ((entry.controlBase.take 22).toString ++ "ec")), answer⟩ = true := by
    simp [closesExactly, closeOrder]
  cases answer with
  | threw message =>
    exact FlattenRun.cons hcl (fun h => absurd h false_ne_true) (by simp)
  | returned result =>
    refine FlattenRun.cons hcl (fun h => ⟨_, mem_cons_self .., ?_⟩) (by simp)
    simpa [closeAccepted, closeOrder] using h

lemma FlattenRun.retry {ticket : ℕ} {clientOrderId : String}
    {reply : ConnectorReply Value}
    {trace : List VenueEvent} {flattened : Bool}
    (h : FlattenRun (some ticket) quantity trace flattened) :
    FlattenRun (some ticket) quantity
      (⟨.closePositionByTicket ticket quantity clientOrderId, reply⟩ :: trace) flattened := by
  refine FlattenRun.cons (by simp [closesExactly]) (fun hflat => ?_) h.sent
  obtain ⟨event, hevent, hacc⟩ := h.confirmed hflat
  exact ⟨event, mem_cons_of_mem _ hevent, hacc⟩

lemma emergencyFlatten_ensures (ticket : Option ℕ) (quantity : ℚ) :
    (emergencyFlatten entry ticket quantity).Ensures (FlattenRun ticket quantity) := by
  unfold emergencyFlatten
  cases ticket with
  | none => exact FlattenRun.none quantity
  | some ticket =>
    dsimp only
    split
    · intro answer
      cases answer with
      | threw message =>
        exact (emergencyFlattenByOrder_ensures entry ticket quantity).mono fun trace b h => h.retry
      | returned result =>
        dsimp only
        split
        · rename_i hsucc
          exact FlattenRun.cons (by simp [closesExactly])
            (fun _ => ⟨_, mem_cons_self .., by simpa [closeAccepted] using hsucc⟩) (by simp)
        · exact (emergencyFlattenByOrder_ensures entry ticket quantity).mono
            fun trace b h => h.retry
    · exact emergencyFlattenByOrder_ensures entry ticket quantity

lemma checkClosed_ensures (ticket : ℕ) :
    (checkClosed ticket).Ensures fun trace _ => ∀ event ∈ trace, readsVenue event = true := by
  intro answer
  cases answer with
  | threw message => simp [readsVenue]
  | returned rows =>
    dsimp only
    split <;> simp [readsVenue]

lemma closeResultIsVerified_ensures (ticket : ℕ) (result : Value) :
    (closeResultIsVerified ticket result).Ensures fun trace verified =>
      (∀ event ∈ trace, readsVenue event = true) ∧
        (verified = true → (result.get "success").isTrue = true) := by
  unfold closeResultIsVerified
  split
  · exact ⟨by simp, fun h => absurd h false_ne_true⟩
  · rename_i hsucc
    have htrue : (result.get "success").isTrue = true := by simpa using hsucc
    split
    · exact ⟨by simp, fun _ => htrue⟩
    · exact (checkClosed_ensures ticket).mono fun trace _ h => ⟨h, fun _ => htrue⟩

lemma flattenByOrder_ensures (ticket : ℕ) (quantity : ℚ) :
    (flattenByOrder entry ticket quantity).Ensures (FlattenRun (some ticket) quantity) := by
  intro answer
  have hcl : closesExactly ticket quantity ⟨.placeOrder (closeOrder entry none ticket quantity
      ((entry.controlBase.take 22).toString ++ "nf")), answer⟩ = true := by
    simp [closesExactly, closeOrder]
  cases answer with
  | threw message =>
    exact FlattenRun.cons hcl (fun h => absurd h false_ne_true) (by simp)
  | returned result =>
    dsimp only
    split
    · exact FlattenRun.cons hcl (fun h => absurd h false_ne_true) (by simp)
    · rename_i hsucc
      refine (checkClosed_ensures ticket).mono fun trace flattened hreads => ?_
      refine FlattenRun.cons hcl (fun _ => ⟨_, mem_cons_self .., ?_⟩)
        fun e he => .inl (hreads e he)
      simpa [closeAccepted, closeOrder] using hsucc

lemma flattenUnprotectedNativePosition_ensures (quantity : ℚ) (position : Option BrokerPosition) :
    (flattenUnprotectedNativePosition entry quantity position).Ensures
      (FlattenRun (position.bind BrokerPosition.ticket?) quantity) := by
  unfold flattenUnprotectedNativePosition
  cases position.bind BrokerPosition.ticket? with
  | none => exact FlattenRun.none quantity
  | some ticket =>
    dsimp only
    split
    · intro answer
      cases answer with
      | threw message =>
        exact (flattenByOrder_ensures entry ticket quantity).mono fun trace b h => h.retry
      | returned result =>
        refine (closeResultIsVerified_ensures ticket result).bind fun trace verified h => ?_
        obtain ⟨hreads, hverif⟩ := h
        cases verified with
        | true =>
          refine FlattenRun.cons (by simp [closesExactly])
            (fun _ => ⟨_, mem_cons_self .., hverif rfl⟩) fun e he => ?_
          rw [append_nil] at he
          exact .inl (hreads e he)
        | false =>
          refine (flattenByOrder_ensures entry ticket quantity).mono fun trace' flattened h => ?_
          refine FlattenRun.cons (by simp [closesExactly]) (fun hflat => ?_) fun e he => ?_
          · obtain ⟨event, hevent, hacc⟩ := h.confirmed hflat
            exact ⟨event, mem_cons_of_mem _ (mem_append_right _ hevent), hacc⟩
          · rcases mem_append.mp he with he | he
            · exact .inl (hreads e he)
            · exact h.sent e he
    · exact flattenByOrder_ensures entry ticket quantity

/-! ## Arming -/

/-- Both controls are confirmed for the quantity: a position read shows the position with its ticket
and both levels, or the venue has accepted both conditional orders and named them. -/
inductive ControlsConfirmed (entry : ProtectedEntry) (prices : ProtectionPrices)
    (ticket : Option ℕ) (quantity : ℚ) (trace : List VenueEvent) : LiveProtectionResult → Prop
  | native {event : VenueEvent} {rows : List BrokerPosition} {position : BrokerPosition}
      {exact : ℕ} :
    event ∈ trace → positionRead event = some (.returned rows) →
    positionFromSnapshot ticket rows = some position → confirms prices position = true →
    position.ticket? = some exact →
    ControlsConfirmed entry prices ticket quantity trace (.native prices exact)
  | conditional {stopLoss takeProfit : VenueEvent} {stopLossOrderId takeProfitOrderId : String} :
    stopLoss ∈ trace →
    stopPlaced (stopOrder entry .stopLoss prices.stopLossPrice ticket quantity) stopLossOrderId
      stopLoss →
    takeProfit ∈ trace →
    stopPlaced (stopOrder entry .takeProfit prices.takeProfitPrice ticket quantity)
      takeProfitOrderId takeProfit →
    ControlsConfirmed entry prices ticket quantity trace
      (.conditional prices stopLossOrderId takeProfitOrderId)

/-- The position that a read shows. -/
def shownPosition (ticket : Option ℕ) : ConnectorReply (List BrokerPosition) → Option BrokerPosition
  | .threw _ => none
  | .returned rows => positionFromSnapshot ticket rows

/-- Why an entry that was filled is not protected, and what has been done about it. -/
inductive FailsClosed (entry : ProtectedEntry) (prices : ProtectionPrices) (fillPrice : ℚ)
    (ticket : Option ℕ) (quantity : ℚ) : List VenueEvent → Failure → Prop
  /-- The prices do not enclose the fill price: nothing is sent. -/
  | invalid : protectionPricesAreValid entry.positionDirection prices fillPrice = false →
    FailsClosed entry prices fillPrice ticket quantity [] pricesInvalid
  /-- The position of a native broker cannot be read: nothing is sent. -/
  | unverifiable : entry.connector.native = true → entry.connector.hasGetPositions = false →
    entry.connector.hasGetPosition = false →
    FailsClosed entry prices fillPrice ticket quantity [] verificationUnavailable
  /-- There are no conditional orders: nothing is sent. -/
  | noStopOrders : entry.connector.native = false → entry.connector.hasPlaceStopOrder = false →
    FailsClosed entry prices fillPrice ticket quantity [] stopOrdersMissing
  /-- The position read does not confirm the controls: the position that it shows is flattened. -/
  | unverified {read : VenueEvent} {reply : ConnectorReply (List BrokerPosition)}
    {flatten : List VenueEvent}
      {flattened : Bool} (message : String) :
    positionRead read = some reply →
    (∀ position ∈ shownPosition ticket reply, confirms prices position = false) →
    FlattenRun ((shownPosition ticket reply).bind BrokerPosition.ticket?) quantity flatten
      flattened →
    FailsClosed entry prices fillPrice ticket quantity (read :: flatten)
      (verificationFailed message flattened)
  /-- The venue has refused a control: the position of the exact ticket is flattened. -/
  | refused {kind : StopKind} {before flatten : List VenueEvent} {price : ℚ} {flattened : Bool} :
    (∃ event ∈ before, stopRefused (stopOrder entry kind price ticket quantity) event) →
    FlattenRun ticket quantity flatten flattened →
    FailsClosed entry prices fillPrice ticket quantity (before ++ flatten)
      (placementFailed kind flattened)

/-- What has happened when `armRequiredLiveProtection` ends. -/
structure ArmRun (entry : ProtectedEntry) (ticket : Option ℕ) (quantity fillPrice : ℚ)
    (trace : List VenueEvent) (armed : Except Failure LiveProtectionResult) : Prop where
  confirmed : ∀ protection, armed = .ok protection →
    ControlsConfirmed entry (resolveProtectionPrices entry fillPrice) ticket quantity trace
      protection
  /-- No placement of a conditional order has thrown. -/
  failed : (∀ event ∈ trace, stopThrew event = false) → ∀ failure, armed = .error failure →
    FailsClosed entry (resolveProtectionPrices entry fillPrice) fillPrice ticket quantity trace
      failure
  /-- Only the stop loss is cancelled, only after the venue has refused the take profit, and then
  the entry throws. -/
  cancelled : ∀ event ∈ trace, ∀ orderId, cancels event = some orderId →
    (∃ placed ∈ trace, stopPlaced (stopOrder entry .stopLoss
      (resolveProtectionPrices entry fillPrice).stopLossPrice ticket quantity) orderId placed) ∧
    (∃ refused ∈ trace, stopRefused (stopOrder entry .takeProfit
      (resolveProtectionPrices entry fillPrice).takeProfitPrice ticket quantity) refused) ∧
    ∃ flattened, armed = .error (placementFailed .takeProfit flattened)

variable {event : VenueEvent}

lemma cancels_of_readsVenue (h : readsVenue event = true) : cancels event = none := by
  obtain ⟨call, reply⟩ := event
  cases call <;> simp_all [readsVenue, cancels]

lemma cancels_of_closesExactly {ticket : ℕ}
    (h : closesExactly ticket quantity event = true) : cancels event = none := by
  obtain ⟨call, reply⟩ := event
  cases call <;> simp_all [closesExactly, cancels]

lemma FlattenRun.cancels {ticket : Option ℕ} {trace : List VenueEvent}
    {flattened : Bool} (h : FlattenRun ticket quantity trace flattened) (hevent : event ∈ trace) :
    cancels event = Option.none := by
  rcases h.sent event hevent with hreads | ⟨exact, hclos⟩
  · exact cancels_of_readsVenue hreads
  · exact cancels_of_closesExactly hclos

section Arm

variable {entry : ProtectedEntry} {ticket : Option ℕ} {quantity fillPrice : ℚ}

variable {trace : List VenueEvent} {failure : Failure}
  {reply : ConnectorReply (List BrokerPosition)}

lemma ArmRun.ofConfirmed {protection : LiveProtectionResult}
    (h : ControlsConfirmed entry (resolveProtectionPrices entry fillPrice) ticket quantity trace
      protection) (hcanc : ∀ event ∈ trace, cancels event = none) :
    ArmRun entry ticket quantity fillPrice trace (.ok protection) where
  confirmed := fun p hp => by
    obtain rfl : protection = p := Except.ok.inj hp
    exact h
  failed := fun _ _ h => by cases h
  cancelled := fun event hevent orderId hord => by
    rw [hcanc event hevent] at hord
    cases hord

lemma ArmRun.ofFailure
    (h : FailsClosed entry (resolveProtectionPrices entry fillPrice) fillPrice ticket quantity []
      failure) : ArmRun entry ticket quantity fillPrice [] (.error failure) where
  confirmed := fun _ h => by cases h
  failed := fun _ f hf => by
    obtain rfl : failure = f := Except.error.inj hf
    exact h
  cancelled := forall_mem_nil _

lemma ArmRun.ofUncancelled
    (h : FailsClosed entry (resolveProtectionPrices entry fillPrice) fillPrice ticket quantity trace
      failure) (hcanc : ∀ event ∈ trace, cancels event = none) :
    ArmRun entry ticket quantity fillPrice trace (.error failure) where
  confirmed := fun _ h => by cases h
  failed := fun _ f hf => by
    obtain rfl : failure = f := Except.error.inj hf
    exact h
  cancelled := fun event hevent orderId hord => by
    rw [hcanc event hevent] at hord
    cases hord

lemma ArmRun.ofThrown (hthrew : ∃ event ∈ trace, stopThrew event = true)
    (hcanc : ∀ event ∈ trace, EntryProtection.cancels event = none) :
    ArmRun entry ticket quantity fillPrice trace (.error failure) where
  confirmed := fun _ h => by cases h
  failed := fun hnone => by
    obtain ⟨event, hevent, h⟩ := hthrew
    rw [hnone event hevent] at h
    cases h
  cancelled := fun event hevent orderId hord => by
    rw [hcanc event hevent] at hord
    cases hord

lemma failNative_ensures {read : VenueEvent} (hread : positionRead read = some reply)
    (hcanc : cancels read = none) (message : String)
    (hshown : ∀ position ∈ shownPosition ticket reply,
      confirms (resolveProtectionPrices entry fillPrice) position = false) :
    (failNative entry quantity message (shownPosition ticket reply)).Ensures fun trace armed =>
      ArmRun entry ticket quantity fillPrice (read :: trace) armed := by
  refine (flattenUnprotectedNativePosition_ensures entry quantity _).bind
    fun trace flattened h => ?_
  rw [ensures_done, append_nil]
  refine ArmRun.ofUncancelled (.unverified message hread hshown h) fun event hevent => ?_
  rcases mem_cons.mp hevent with rfl | hevent
  · exact hcanc
  · exact h.cancels hevent

lemma verifyNative_ensures {read : VenueEvent} (hread : positionRead read = some reply)
    (hcanc : cancels read = none) :
    (verifyNative entry (resolveProtectionPrices entry fillPrice) ticket quantity reply).Ensures
      fun trace armed => ArmRun entry ticket quantity fillPrice (read :: trace) armed := by
  have hfail : ∀ message, (∀ position ∈ shownPosition ticket reply,
      confirms (resolveProtectionPrices entry fillPrice) position = false) →
      (failNative entry quantity message (shownPosition ticket reply)).Ensures fun trace armed =>
        ArmRun entry ticket quantity fillPrice (read :: trace) armed :=
    fun message hshown => failNative_ensures hread hcanc message hshown
  unfold verifyNative
  cases reply with
  | threw message => exact hfail message (by simp [shownPosition])
  | returned rows =>
    unfold shownPosition at hfail
    dsimp only at hfail ⊢
    cases hpos : positionFromSnapshot ticket rows with
    | none =>
      rw [hpos] at hfail
      exact hfail notConfirmed (by simp)
    | some position =>
      rw [hpos] at hfail
      dsimp only
      by_cases hconf : confirms (resolveProtectionPrices entry fillPrice) position = true
      · have htick : position.ticket?.isSome = true := by
          unfold confirms at hconf
          simp only [and_eq_true] at hconf
          exact hconf.1.1.1
        obtain ⟨exact, hexact⟩ := isSome_iff_exists.mp htick
        rw [if_pos hconf, hexact]
        exact ArmRun.ofConfirmed (.native (mem_cons_self ..) hread hpos hconf hexact)
          (by simpa using hcanc)
      · rw [if_neg hconf]
        exact hfail notConfirmed (by simpa using hconf)

lemma armNative_ensures (hnativ : entry.connector.native = true) :
    (armNative entry (resolveProtectionPrices entry fillPrice) ticket quantity).Ensures
      (ArmRun entry ticket quantity fillPrice) := by
  unfold armNative
  split
  · rename_i hnone
    simp only [and_eq_true, not_eq_true'] at hnone
    exact ArmRun.ofFailure (.unverifiable hnativ hnone.1 hnone.2)
  · split
    · exact fun reply => verifyNative_ensures rfl rfl
    · exact fun reply => verifyNative_ensures rfl rfl

lemma failConditional_ensures (fillPrice : ℚ) {kind : StopKind} {price : ℚ}
    {before : List VenueEvent} (hrefus : ∃ event ∈ before,
      stopRefused (stopOrder entry kind price ticket quantity) event) :
    (failConditional entry kind ticket quantity).Ensures fun trace armed =>
      ∃ flattened, armed = .error (placementFailed kind flattened) ∧
        (∀ event ∈ trace, cancels event = none) ∧
        FailsClosed entry (resolveProtectionPrices entry fillPrice) fillPrice ticket quantity
          (before ++ trace) (placementFailed kind flattened) := by
  refine (emergencyFlatten_ensures entry ticket quantity).bind fun trace flattened h => ?_
  rw [ensures_done, append_nil]
  exact ⟨flattened, rfl, fun event hevent => h.cancels hevent, .refused hrefus h⟩

/-- Once the stop is placed, arming the target keeps to the run. -/
lemma armTakeProfit_ensures {stopLoss : VenueEvent} {stopLossOrderId : String}
    (hplac : stopPlaced (stopOrder entry .stopLoss
      (resolveProtectionPrices entry fillPrice).stopLossPrice ticket quantity) stopLossOrderId
      stopLoss) (hcance : cancels stopLoss = none) :
    (armTakeProfit entry (resolveProtectionPrices entry fillPrice) ticket quantity
      stopLossOrderId).Ensures fun trace armed =>
        ArmRun entry ticket quantity fillPrice (stopLoss :: trace) armed := by
  set prices := resolveProtectionPrices entry fillPrice with hpric
  intro answer
  set takeProfit : VenueEvent :=
    ⟨.placeStopOrder (stopOrder entry .takeProfit prices.takeProfitPrice ticket quantity), answer⟩
    with htakeProf
  have hquiet : ∀ event ∈ [stopLoss, takeProfit], cancels event = none := by
    intro event hevent
    rcases mem_cons.mp hevent with rfl | hevent
    · exact hcance
    · obtain rfl := mem_singleton.mp hevent
      rfl
  cases answer with
  | threw message => exact ArmRun.ofThrown ⟨takeProfit, by simp, rfl⟩ hquiet
  | returned result =>
    dsimp only
    by_cases hacc : stopAccepted result = true
    · rw [if_pos hacc]
      exact ArmRun.ofConfirmed (.conditional (mem_cons_self ..) hplac
        (mem_cons_of_mem _ (mem_cons_self ..)) ⟨rfl, hacc, rfl⟩) hquiet
    · rw [if_neg hacc]
      have hrefus : stopRefused (stopOrder entry .takeProfit prices.takeProfitPrice ticket
          quantity) takeProfit := ⟨rfl, by simpa using hacc⟩
      split
      · intro reply
        set cancel : VenueEvent := ⟨.cancelOrder stopLossOrderId, reply⟩ with hcanc
        have hbef : ∃ event ∈ [stopLoss, takeProfit, cancel], stopRefused (stopOrder entry
            .takeProfit prices.takeProfitPrice ticket quantity) event :=
          ⟨takeProfit, by simp, hrefus⟩
        refine (failConditional_ensures fillPrice hbef).mono fun trace armed h => ?_
        obtain ⟨flattened, rfl, hflat, hfails⟩ := h
        refine ⟨nofun, fun _ failure hfail => ?_, fun event hevent id hid => ?_⟩
        · obtain rfl := Except.error.inj hfail
          exact hfails
        · -- the only cancellation is that of the stop loss
          obtain rfl : stopLossOrderId = id := by
            simp only [mem_cons] at hevent
            rcases hevent with rfl | rfl | rfl | hevent
            · rw [hcance] at hid
              cases hid
            · cases hid
            · exact some.inj hid
            · rw [hflat event hevent] at hid
              cases hid
          exact ⟨⟨stopLoss, by simp, hplac⟩, ⟨takeProfit, by simp, hrefus⟩, flattened, rfl⟩
      · have hbef : ∃ event ∈ [stopLoss, takeProfit], stopRefused (stopOrder entry
            .takeProfit prices.takeProfitPrice ticket quantity) event :=
          ⟨takeProfit, by simp, hrefus⟩
        refine (failConditional_ensures fillPrice hbef).mono fun trace armed h => ?_
        obtain ⟨flattened, rfl, hquiet, hfails⟩ := h
        refine ArmRun.ofUncancelled hfails fun event hevent => ?_
        simp only [mem_cons] at hevent
        rcases hevent with rfl | rfl | hevent
        · exact hcance
        · rfl
        · exact hquiet event hevent

lemma armConditional_ensures (hnativ : entry.connector.native = false) :
    (armConditional entry (resolveProtectionPrices entry fillPrice) ticket quantity).Ensures
      (ArmRun entry ticket quantity fillPrice) := by
  unfold armConditional
  split
  · rename_i hnone
    exact ArmRun.ofFailure (.noStopOrders hnativ (by simpa using hnone))
  · intro answer
    set stopLoss : VenueEvent := ⟨.placeStopOrder (stopOrder entry .stopLoss
      (resolveProtectionPrices entry fillPrice).stopLossPrice ticket quantity), answer⟩
      with hstopLoss
    cases answer with
    | threw message =>
      exact ArmRun.ofThrown ⟨stopLoss, by simp, rfl⟩ (by simp [cancels, hstopLoss])
    | returned result =>
      dsimp only
      by_cases hacc : stopAccepted result = true
      · rw [if_pos hacc]
        exact armTakeProfit_ensures ⟨rfl, hacc, rfl⟩ rfl
      · rw [if_neg hacc]
        have hbef : ∃ event ∈ [stopLoss], stopRefused (stopOrder entry .stopLoss
            (resolveProtectionPrices entry fillPrice).stopLossPrice ticket quantity) event :=
          ⟨stopLoss, by simp, rfl, by simpa using hacc⟩
        refine (failConditional_ensures fillPrice hbef).mono fun trace armed h => ?_
        obtain ⟨flattened, rfl, hquiet, hfails⟩ := h
        refine ArmRun.ofUncancelled hfails fun event hevent => ?_
        rcases mem_cons.mp hevent with rfl | hevent
        · rfl
        · exact hquiet event hevent

lemma armRequiredLiveProtection_ensures
    (hforex : ¬ (entry.forex && !entry.connector.native) = true) :
    (armRequiredLiveProtection entry ticket quantity fillPrice).Ensures
      (ArmRun entry ticket quantity fillPrice) := by
  unfold armRequiredLiveProtection
  by_cases hinval : (!protectionPricesAreValid entry.positionDirection
      (resolveProtectionPrices entry fillPrice) fillPrice) = true
  · rw [if_pos hinval]
    exact ArmRun.ofFailure (.invalid (by simpa using hinval))
  · rw [if_neg hinval, if_neg hforex]
    by_cases hnativ : entry.connector.native = true
    · rw [if_pos hnativ]
      exact armNative_ensures hnativ
    · rw [if_neg hnativ]
      exact armConditional_ensures (by simpa using hnativ)

end Arm

/-! ## The whole entry -/

/-- How an entry ends after the venue has reported success, by what it was read as last. -/
inductive Settles (entry : ProtectedEntry) (last : Value) (trace : List VenueEvent) : Outcome → Prop
  /-- The record of the control has become terminal: its response is returned. -/
  | replayed {response : Value} : entry.control = some (some response) → trace = [] →
    Settles entry last trace (.replayed response)
  /-- There is no terminal fill with a quantity and a price: nothing is sent any more. -/
  | pending : fillIsAuthoritative entry last = false → (∀ event ∈ trace, readsVenue event = true) →
    Settles entry last trace (.threw pendingFill)
  /-- The fill is there: the protection is armed for its quantity, or arming it fails. -/
  | returned {reads arming : List VenueEvent} {protection : LiveProtectionResult} :
    trace = reads ++ arming → (∀ event ∈ reads, readsVenue event = true) →
    fillIsAuthoritative entry last = true →
    ArmRun entry (protectionTicket entry last) (parseOrderFill last 0 0).filledQty
      (parseOrderFill last 0 0).filledPrice arming (.ok protection) →
    Settles entry last trace (.returned protection)
  | threw {reads arming : List VenueEvent} {failure : Failure} :
    trace = reads ++ arming → (∀ event ∈ reads, readsVenue event = true) →
    fillIsAuthoritative entry last = true →
    ArmRun entry (protectionTicket entry last) (parseOrderFill last 0 0).filledQty
      (parseOrderFill last 0 0).filledPrice arming (.error failure) →
    Settles entry last trace (.threw failure)

section Settle

variable {entry : ProtectedEntry} {last : Value}

lemma Settles.cons {read : VenueEvent} {trace : List VenueEvent} {outcome : Outcome}
    (h : Settles entry last trace outcome) (hctrl : ∀ response, outcome ≠ .replayed response)
    (hread : readsVenue read = true) : Settles entry last (read :: trace) outcome := by
  have hreads : ∀ reads : List VenueEvent, (∀ event ∈ reads, readsVenue event = true) →
      ∀ event ∈ read :: reads, readsVenue event = true := by
    intro reads h event hevent
    rcases mem_cons.mp hevent with rfl | hevent
    · exact hread
    · exact h event hevent
  cases h with
  | replayed => exact absurd rfl (hctrl _)
  | pending hfill h => exact .pending hfill (hreads trace h)
  | returned htrace h hfill harm =>
    exact .returned (by rw [htrace, cons_append]) (hreads _ h) hfill harm
  | threw htrace h hfill harm =>
    exact .threw (by rw [htrace, cons_append]) (hreads _ h) hfill harm

/-- The end of an entry that is not a replay. -/
def SettlesFresh (entry : ProtectedEntry) (last : Value) (trace : List VenueEvent)
    (outcome : Outcome) : Prop :=
  Settles entry last trace outcome ∧ ∀ response, outcome ≠ .replayed response

lemma protect_ensures (hforex : ¬ (entry.forex && !entry.connector.native) = true) :
    (protect entry last).Ensures (SettlesFresh entry last) := by
  unfold protect
  cases hfill : fillIsAuthoritative entry last with
  | false =>
    exact ⟨.pending hfill (by simp), by simp⟩
  | true =>
    refine (armRequiredLiveProtection_ensures hforex).bind fun trace armed h => ?_
    cases armed with
    | error failure =>
      rw [ensures_done, append_nil]
      exact ⟨.threw (nil_append _).symm (by simp) hfill h, by simp⟩
    | ok protection =>
      rw [ensures_done, append_nil]
      exact ⟨.returned (nil_append _).symm (by simp) hfill h, by simp⟩

lemma settleAndProtect_ensures (hforex : ¬ (entry.forex && !entry.connector.native) = true)
    (exchangeOrderId : String) :
    (settleAndProtect entry exchangeOrderId last).Ensures (SettlesFresh entry last) := by
  unfold settleAndProtect
  cases settlementRead entry exchangeOrderId last with
  | none =>
    exact protect_ensures hforex
  | some exactOrderId =>
    intro reply
    refine (protect_ensures hforex).mono fun trace outcome h => ?_
    exact ⟨h.1.cons h.2 rfl, h.2⟩

end Settle

lemma afterPlacement_ensures {entry : ProtectedEntry}
    (hforex : ¬ (entry.forex && !entry.connector.native) = true) (result : Value) :
    (afterPlacement entry result).Ensures fun trace outcome =>
      Settles entry (lastResult entry result trace) trace outcome := by
  have hfresh : Interaction.Program.Ensures (if readsAgain entry result then
        .call (.getOrder (liveOrderId result)) fun reply => settleAndProtect entry
          (liveOrderId result) (hydratedResult result (liveOrderId result) reply)
      else settleAndProtect entry (liveOrderId result) result : VenueProgram Outcome)
      fun trace outcome => Settles entry (lastResult entry result trace) trace outcome := by
    unfold lastResult
    cases hagain : readsAgain entry result with
    | false =>
      refine (settleAndProtect_ensures hforex _).mono fun trace outcome h => ?_
      exact h.1
    | true =>
      intro reply
      refine (settleAndProtect_ensures hforex _).mono fun trace outcome h => ?_
      exact h.1.cons h.2 rfl
  unfold afterPlacement
  split
  · rename_i response hctrl
    exact .replayed hctrl rfl
  · exact hfresh

/-- **A protected entry or a closed failure.** When an entry with required protection ends after the
venue has reported success, it returns with both controls confirmed for the filled quantity, or it
throws: after a refused control with a close attempted for the exact ticket, if it is known. -/
theorem settles_of_accepted (entry : ProtectedEntry)
    (venue : Interaction.Environment VenueCall Answer) (result : Value) (rest : List VenueEvent)
    (hplaced : ((placeLiveOrder entry).run venue []).1 =
      ⟨.placeOrder (entryOrder entry), .returned result⟩ :: rest)
    (haccepted : (result.get "success").isTruthy = true) :
    Settles entry (lastResult entry result rest) rest ((placeLiveOrder entry).run venue []).2 := by
  have hensures : (placeLiveOrder entry).Ensures fun trace outcome => ∀ rest,
      trace = ⟨.placeOrder (entryOrder entry), .returned result⟩ :: rest →
      Settles entry (lastResult entry result rest) rest outcome := by
    unfold placeLiveOrder
    dsimp only
    split
    · exact fun rest h => absurd h (cons_ne_nil _ _).symm
    split
    · exact fun rest h => absurd h (cons_ne_nil _ _).symm
    rename_i hforex
    intro answer
    cases answer with
    | threw message =>
      have hne : ∀ rest trace : List VenueEvent,
          (⟨.placeOrder (entryOrder entry), .threw message⟩ : VenueEvent) :: trace ≠
            ⟨.placeOrder (entryOrder entry), .returned result⟩ :: rest := by
        intro rest trace h
        have hanswer := eq_of_heq (Sigma.mk.inj (List.cons.inj h).1).2
        cases hanswer
      split <;> exact fun rest h => absurd h (hne rest [])
    | returned answered =>
      dsimp only
      split
      · refine (afterPlacement_ensures hforex answered).mono fun trace outcome h rest hrest => ?_
        obtain ⟨hevent, rfl⟩ := List.cons.inj hrest
        obtain rfl : answered = result := by
          have hanswer := eq_of_heq (Sigma.mk.inj hevent).2
          exact ConnectorReply.returned.inj hanswer
        exact h
      · rename_i hfailed
        intro rest h
        have hanswer := eq_of_heq (Sigma.mk.inj (List.cons.inj h).1).2
        obtain rfl : answered = result := ConnectorReply.returned.inj hanswer
        exact absurd haccepted hfailed
  exact hensures.run venue [] rest hplaced

/-! ## A refused take profit without a ticket -/

/-- The entry is never left bare: both controls are confirmed, or it throws after a close of the
filled quantity was attempted; and nothing is cancelled before the venue has accepted a close. -/
structure NeverBare (entry : ProtectedEntry) (last : Value) (rest : List VenueEvent)
    (outcome : Outcome) : Prop where
  ends : (∃ protection, outcome = .returned protection ∧
      ControlsConfirmed entry (resolveProtectionPrices entry (parseOrderFill last 0 0).filledPrice)
        (protectionTicket entry last) (parseOrderFill last 0 0).filledQty rest protection) ∨
    ∃ failure, outcome = .threw failure ∧
      ∃ event ∈ rest, closesQuantity (parseOrderFill last 0 0).filledQty event = true
  cancels : ∀ before cancel after, rest = before ++ cancel :: after →
    (cancels cancel).isSome = true → ∃ event ∈ before, closeAccepted event = true

/-- A connector with conditional orders, without tickets. -/
def perpetualConnector : Connector where
  native := false
  hasGetOrder := false
  hasGetOrderSettlement := false
  hasGetPositions := false
  hasGetPosition := false
  hasPlaceStopOrder := true
  hasCancelOrder := true
  hasClosePositionByTicket := false

/-- A long entry of one contract at 100, with a stop at 95 and a target at 110. -/
def perpetualEntry : ProtectedEntry where
  connector := perpetualConnector
  symbol := "ETHUSDT"
  direction := .long
  positionDirection := .long
  quantity := 1
  price := 100
  marketPrice := 100
  limitOrder := false
  reduceOnly := false
  hedgeMode := false
  forex := false
  stopLossPrice := 95
  takeProfitPrice := 110
  protectionStopLossPercent := none
  protectionTakeProfitPercent := none
  positionTicket := none
  clientOrderId := ""
  controlBase := "unprotectedentry1"
  control := none

/-- What the venue says to the entry. -/
def filledEntry : Value := .object [("success", .boolean true), ("orderId", .text "entry-1"),
  ("status", .text "filled"), ("filledQty", .number (.finite 1)),
  ("filledPrice", .number (.finite 100))]

def acceptedOrder (orderId : String) : Value :=
  .object [("success", .boolean true), ("orderId", .text orderId)]

/-- A venue that fills entries, accepts stop losses and cancellations, and rejects take profits. -/
def rejectingVenue : Interaction.Environment VenueCall Answer
  | _, .placeOrder _ => .returned filledEntry
  | _, .getOrder _ => .threw "not found"
  | _, .getOrderSettlement _ => .threw "not found"
  | _, .positionRows => .returned []
  | _, .getPosition => .returned []
  | _, .placeStopOrder order => .returned (match order.kind with
    | .stopLoss => acceptedOrder "stop-1"
    | .takeProfit => .object [("success", .boolean false)])
  | _, .cancelOrder orderId => .returned (acceptedOrder orderId)
  | _, .closePositionByTicket _ _ _ => .returned (acceptedOrder "close-1")

/-- What happens after the entry is filled, in the order of the calls. -/
def rejectedTrace : List VenueEvent :=
  ((placeLiveOrder perpetualEntry).run rejectingVenue []).1.tail

lemma rejectedTrace_spec : ((placeLiveOrder perpetualEntry).run rejectingVenue []).1 =
    ⟨.placeOrder (entryOrder perpetualEntry), .returned filledEntry⟩ :: rejectedTrace := by
  rfl

/-- The exception that ends an entry. -/
def Outcome.failure? : Outcome → Option Failure
  | .threw failure => some failure
  | _ => none

/-- The entry whose take profit is rejected fails closed: its stop loss is cancelled, and no close
is sent. -/
theorem settles_rejectedTakeProfit :
    Settles perpetualEntry (lastResult perpetualEntry filledEntry rejectedTrace) rejectedTrace
        ((placeLiveOrder perpetualEntry).run rejectingVenue []).2 ∧
      ((placeLiveOrder perpetualEntry).run rejectingVenue []).2.failure? =
        some (placementFailed .takeProfit false) :=
  ⟨settles_of_accepted perpetualEntry rejectingVenue filledEntry rejectedTrace rejectedTrace_spec
    (by decide +kernel), by decide +kernel⟩

/-- Without a ticket nothing closes the position, which has lost its stop loss by then. -/
theorem not_neverBare_withoutTicket :
    ¬ ∀ (entry : ProtectedEntry) (venue : Interaction.Environment VenueCall Answer) (result : Value)
      (rest : List VenueEvent),
      ((placeLiveOrder entry).run venue []).1 =
        ⟨.placeOrder (entryOrder entry), .returned result⟩ :: rest →
      (result.get "success").isTruthy = true →
      NeverBare entry (lastResult entry result rest) rest
        ((placeLiveOrder entry).run venue []).2 := by
  intro h
  have hbare := h perpetualEntry rejectingVenue filledEntry rejectedTrace rejectedTrace_spec
    (by decide +kernel)
  have hfailure :
      ((placeLiveOrder perpetualEntry).run rejectingVenue []).2.failure?.isSome = true := by
    decide +kernel
  have hopen : rejectedTrace.any (closesQuantity (parseOrderFill
      (lastResult perpetualEntry filledEntry rejectedTrace) 0 0).filledQty) = false := by
    decide +kernel
  rcases hbare.ends with ⟨protection, houtcome, -⟩ | ⟨failure, -, event, hevent, hcloses⟩
  · rw [houtcome] at hfailure
    cases hfailure
  · rw [any_eq_true.mpr ⟨event, hevent, hcloses⟩] at hopen
    cases hopen

end CtsEngine.EntryProtection
