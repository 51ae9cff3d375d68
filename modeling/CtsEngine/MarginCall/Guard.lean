import CtsEngine.Foundation.JsValue

/-!
# The margin-call guard of one connection

`monitorConnectionMarginCall` and `startNewMarginCallSession` as programs whose steps are single
Redis commands and single readings of the account.  A call reads the stored session under a lease,
waits for the account equity, updates its copy of the session in memory and writes the copy back.

What the exchange and the settings answer (equity, threshold, remaining exposure, failures) is
handed to the steps as input.  The events list and the telemetry of `event` are left out: they are
written in their own `try` and nothing of the guard reads them.
-/

namespace CtsEngine

/-! ## Policy -/

/-- An `Error` of the guard: the message and, for a `riskError`, its `mode`. -/
structure GuardError where
  message : String
  mode : Option String := none

/-- `riskError(message, code)`. -/
def riskError (message : String) (code : String := "margin_call_blocked") : GuardError where
  message := message
  mode := some code

inductive MarginCallStatus
  | active
  | closing
  | closed
deriving DecidableEq

/-- The session record; times are milliseconds of `Date.now()`. -/
structure MarginCallSession where
  sessionId : String
  startedAt : ℤ
  startEquity : ℚ
  currentEquity : ℚ
  lastObservedAt : ℤ
  status : MarginCallStatus
  triggeredAt : Option ℤ := none
  closedAt : Option ℤ := none
  remainingPositions : Option ℕ := none
  remainingOrders : Option ℕ := none
  lastError : Option String := none

/-- `DEFAULT_MARGIN_CALL_EQUITY_PERCENT`. -/
def defaultMarginCallEquityPercent : ℚ := 30

/-- `MARGIN_CALL_OBSERVATION_MS`. -/
def marginCallObservationMs : ℤ := 15000

/-- A stored `equity_percent`. -/
inductive PercentSetting
  | unset
  | notNumeric
  | value (percent : ℚ)

def marginCallPercent : PercentSetting → Except GuardError ℚ
  | .unset => .ok defaultMarginCallEquityPercent
  | .notNumeric => .error
      ⟨"Margin-call equity threshold must be greater than 0 and at most 100 percent", none⟩
  | .value percent =>
    if percent ≤ 0 ∨ 100 < percent then .error
      ⟨"Margin-call equity threshold must be greater than 0 and at most 100 percent", none⟩
    else .ok percent

/-- `marginCallIsBreached`, with the threshold still as it is stored. -/
def marginCallIsBreached (startEquity currentEquity : ℚ) (setting : PercentSetting) :
    Except GuardError Bool :=
  match marginCallPercent setting with
  | .error e => .error e
  | .ok percent =>
    if 0 < startEquity then .ok (decide (currentEquity < startEquity * percent / 100))
    else .error ⟨"A valid session baseline and current equity are required", none⟩

/-- `readSession`: the stored session, refused when it is not well formed. -/
def readSession (stored : Option MarginCallSession) :
    Except GuardError (Option MarginCallSession) :=
  match stored with
  | none => .ok none
  | some state =>
    if state.sessionId = "" ∨ state.startEquity ≤ 0 then
      .error (riskError "Margin-call session is invalid; new entries are blocked")
    else .ok (some state)

variable (state : MarginCallSession)

/-- Whether a session was observed within the last `MARGIN_CALL_OBSERVATION_MS`. -/
def MarginCallSession.isFresh (now : ℤ) : Bool :=
  decide (now - state.lastObservedAt < marginCallObservationMs)

/-- The message that the error path records. -/
def observationMessage (error : GuardError) : String :=
  if hasPrefix "margin_call" (error.mode.getD "") then error.message
  else "Account equity or position observation failed; new entries remain blocked"

/-- The session that a first observation and an operator reset create. -/
def newSession (sessionId : String) (current : ℚ) (now : ℤ) : MarginCallSession where
  sessionId := sessionId
  startedAt := now
  startEquity := current
  currentEquity := current
  lastObservedAt := now
  status := .active

/-! ## Phases of a call -/

/-- The options of `monitorConnectionMarginCall`. -/
structure MonitorOptions where
  startSession : Bool := false
  force : Bool := false

/-- Who waits for the lease. -/
inductive LeaseUse
  | monitor (options : MonitorOptions)
  | startNew

/-- What a call of the monitor does after its current write of the session. -/
inductive AfterSave
  /-- Judge a newly created session at this equity and threshold. -/
  | evaluate (current : ℚ) (percent : PercentSetting)
  | closeAccount
  | finish
  /-- The write was the one of the error path. -/
  | rethrow

/-- Where a call stands between two awaited steps.  The sessions are the copies in memory. -/
inductive GuardPhase
  | idle
  /-- The monitor is about to read the cached session. -/
  | readingCached (options : MonitorOptions)
  /-- The monitor is about to read the fault. -/
  | readingFault (options : MonitorOptions) (cached : Option MarginCallSession)
  /-- Trying `SET NX` on the lease. -/
  | waiting (use : LeaseUse)
  /-- The monitor has the lease and is about to read the session. -/
  | reading (options : MonitorOptions)
  /-- The monitor waits for the account equity. -/
  | observing (session : Option MarginCallSession)
  /-- The monitor is about to write the session. -/
  | saving (session : MarginCallSession) (next : AfterSave)
  /-- In `closeAccount`, mutating the exchange. -/
  | closing (session : MarginCallSession) (failures : List String)
  /-- In `closeAccount`, with the remaining positions counted. -/
  | counting (session : MarginCallSession) (failures : List String)
  /-- The monitor is about to delete the fault. -/
  | clearing (session : MarginCallSession)
  /-- In the error path, about to record the fault. -/
  | failing (session : Option MarginCallSession) (message : String)
  /-- `startNewMarginCallSession` has the lease and checks the account. -/
  | resetting
  /-- `startNewMarginCallSession` is about to write the new session. -/
  | savingNew (session : MarginCallSession)
  /-- `startNewMarginCallSession` is about to delete the fault. -/
  | clearingNew
  /-- About to release the lease. -/
  | returning
  | done

/-- Judge the session in memory after an equity reading. -/
def evaluateSession (current : ℚ) (percent : PercentSetting) (now : ℤ) : GuardPhase :=
  match state.status with
  | .active =>
    match marginCallIsBreached state.startEquity current percent with
    | .error error => .failing (some state) (observationMessage error)
    | .ok true => .saving { state with status := .closing, triggeredAt := some now } .closeAccount
    | .ok false => .saving state .finish
  | .closing => .closing state []
  | .closed => .saving state .finish

/-- `[...new Set(failures)].join(", ")`, or nothing when there was no failure. -/
def joinFailures (failures : List String) : Option String :=
  if failures = [] then none else some (", ".intercalate failures.eraseDups)

/-- The end of `closeAccount`: count what is left and mark the session closed when nothing is. -/
def settleClosure (remainingOrders : ℕ) (failures : List String) (now : ℤ) : MarginCallSession :=
  if state.remainingPositions = some 0 ∧ remainingOrders = 0 then
    { state with
      remainingOrders := some remainingOrders
      status := .closed
      closedAt := some now
      lastError := none }
  else { state with remainingOrders := some remainingOrders, lastError := joinFailures failures }

/-- The steps of a call that neither write the session nor take or give back the lease. -/
inductive GuardEvent
  | callMonitor (options : MonitorOptions)
  | callStartNew
  /-- Read the cached session, if margin control is switched on at all. -/
  | readCached (marginCallActive : Bool)
  | readFault (now : ℤ)
  /-- Give up on a lease that is held by another call. -/
  | giveUp
  | readSession (now : ℤ)
  /-- The equity and the threshold were read; `sessionId` is a fresh random id. -/
  | observe (current : ℚ) (percent : PercentSetting) (sessionId : String) (now : ℤ)
  /-- One mutation of the exchange, after `assertOwnership`. -/
  | mutate (failure : Option String)
  | countPositions (remaining : ℕ)
  | countOrders (remaining : ℕ) (now : ℤ)
  | setFault (now : ℤ)
  | clearFault
  /-- The operator reset found the account flat or not, and read the equity. -/
  | checkReset (flat : Bool) (current : ℚ) (sessionId : String) (now : ℤ)
  /-- An awaited operation of the current phase throws. -/
  | throw (error : GuardError)

/-- What a call sees of the shared state. -/
structure GuardView where
  stored : Option MarginCallSession
  fault : Option String
  /-- `leaseValid` holds and the lease key still has the token of this call. -/
  owned : Bool
  /-- The lease key exists. -/
  locked : Bool

/-- The phase after an error of the current phase: within the `try` of the monitor the error path,
outside of it the end of the call. -/
def GuardPhase.thrown (error : GuardError) : GuardPhase → GuardPhase
  | .observing session => .failing session (observationMessage error)
  | .saving _ .rethrow => .returning
  | .saving session _ => .failing (some session) (observationMessage error)
  | .closing session _ => .failing (some session) (observationMessage error)
  | .counting session _ => .failing (some session) (observationMessage error)
  | .clearing session => .failing (some session) (observationMessage error)
  | .idle => .idle
  | .readingCached _ => .done
  | .readingFault _ _ => .done
  | .waiting _ => .done
  | .done => .done
  | .reading _ => .returning
  | .failing _ _ => .returning
  | .resetting => .returning
  | .savingNew _ => .returning
  | .clearingNew => .returning
  | .returning => .returning

/-- The phase a call moves to. -/
def GuardPhase.advance (view : GuardView) : GuardPhase → GuardEvent → Option GuardPhase
  | .idle, .callMonitor options => some (.readingCached options)
  | .idle, .callStartNew => some (.waiting .startNew)
  | .readingCached options, .readCached active =>
    match active, CtsEngine.readSession view.stored with
    | true, .ok cached => some (.readingFault options cached)
    | _, _ => some .done
  | .readingFault options cached, .readFault now =>
    if options.force then some (.waiting (.monitor options))
    else if view.fault.isSome then some .done
    else if cached.any (·.isFresh now) then some .done
    else some (.waiting (.monitor options))
  | .waiting _, .giveUp => if view.locked then some .done else none
  | .reading options, .readSession now =>
    match CtsEngine.readSession view.stored with
    | .error _ => some .returning
    | .ok none => if options.startSession then some (.observing none) else some .returning
    | .ok (some state) =>
      if state.status = .closed then some .returning
      else if !options.force && state.isFresh now then some .returning
      else if state.status = .closing then
        some (.closing { state with lastObservedAt := now } [])
      else some (.observing (some state))
  | .observing none, .observe current percent sessionId now =>
    if 0 < current then
      some (.saving (newSession sessionId current now) (.evaluate current percent))
    else some (.failing none (observationMessage
      (riskError "Positive equity is required to start a margin-call session")))
  | .observing (some state), .observe current percent _ now =>
    some (evaluateSession
      { state with currentEquity := current, lastObservedAt := now, lastError := none }
      current percent now)
  | .closing state failures, .mutate failure =>
    if view.owned then some (.closing state (failures ++ failure.toList))
    else some (.failing (some state)
      (observationMessage (riskError "Margin-call ownership was lost")))
  | .closing state failures, .countPositions remaining =>
    some (.counting { state with remainingPositions := some remaining } failures)
  | .counting state failures, .countOrders remaining now =>
    some (.saving (settleClosure state remaining failures now) .finish)
  | .clearing _, .clearFault => some .returning
  | .failing (some state) message, .setFault now =>
    some (.saving { state with lastError := some message, lastObservedAt := now } .rethrow)
  | .failing none _, .setFault _ => some .returning
  | .resetting, .checkReset flat current sessionId now =>
    if flat ∧ 0 < current then some (.savingNew (newSession sessionId current now))
    else some .returning
  | .clearingNew, .clearFault => some .returning
  | phase, .throw error => some (phase.thrown error)
  | _, _ => none

/-- The fault key after an event. -/
def faultAfter (phase : GuardPhase) (fault : Option String) : GuardEvent → Option String
  | .setFault _ =>
    match phase with
    | .failing _ message => some message
    | _ => fault
  | .clearFault => none
  | _ => fault

/-- The phase after a write of the session by the monitor. -/
def AfterSave.phase (session : MarginCallSession) (now : ℤ) : AfterSave → GuardPhase
  | .evaluate current percent => evaluateSession session current percent now
  | .closeAccount => .closing session []
  | .finish => .clearing session
  | .rethrow => .returning

/-! ## The calls of one connection -/

/-- The shared keys of a connection and the calls running on it.  `W` names the calls; each call
has its own lease token. -/
structure GuardSystem (W : Type*) where
  stored : Option MarginCallSession
  fault : Option String
  /-- The call whose token the lease key holds. -/
  lease : Option W
  phase : W → GuardPhase
  /-- `leaseValid` of each call. -/
  leaseValid : W → Bool
  /-- The session ids in use so far; `randomUUID` gives none of them again. -/
  usedIds : List String

/-- One step of one call, or an expiry. -/
inductive GuardAction (W : Type*)
  | event (call : W) (event : GuardEvent)
  /-- `SET NX` on the lease succeeds. -/
  | acquire (call : W)
  /-- `saveSession` of the monitor; `persisted` is false when the snapshot could not be kept. -/
  | save (call : W) (persisted : Bool) (now : ℤ)
  /-- `saveSession` of `startNewMarginCallSession`. -/
  | saveNew (call : W) (persisted : Bool)
  /-- The refresh timer finds the lease lost, or fails to renew it. -/
  | renewFails (call : W)
  | release (call : W)
  | expireLease
  | expireFault

variable {W : Type*} [DecidableEq W]

/-- No call has started; the stored session is arbitrary. -/
def GuardSystem.start (stored : Option MarginCallSession) : GuardSystem W where
  stored := stored
  fault := none
  lease := none
  phase := fun _ => .idle
  leaseValid := fun _ => true
  usedIds := (stored.map (·.sessionId)).toList

/-- What the call `w` sees. -/
def GuardSystem.view (s : GuardSystem W) (w : W) : GuardView where
  stored := s.stored
  fault := s.fault
  owned := s.leaseValid w && decide (s.lease = some w)
  locked := s.lease.isSome

/-- Move the call `w`. -/
def GuardSystem.move (s : GuardSystem W) (w : W) (phase : GuardPhase) : GuardSystem W :=
  { s with phase := Function.update s.phase w phase }

/-- The random session id that an event carries. -/
def GuardEvent.sessionId? : GuardEvent → Option String
  | .observe _ _ sessionId _ => some sessionId
  | .checkReset _ _ sessionId _ => some sessionId
  | _ => none

/-- The phase in which a call that got the lease goes on. -/
def LeaseUse.phase : LeaseUse → GuardPhase
  | .monitor options => .reading options
  | .startNew => .resetting

/-- One step of the guard calls of one connection. -/
def guardStep (s : GuardSystem W) : GuardAction W → Option (GuardSystem W)
  | .event w event =>
    if event.sessionId?.any (· ∈ s.usedIds) then none
    else ((s.phase w).advance (s.view w) event).map fun phase =>
      { s.move w phase with
        fault := faultAfter (s.phase w) s.fault event
        usedIds := event.sessionId?.toList ++ s.usedIds }
  | .acquire w =>
    match s.phase w, s.lease with
    | .waiting use, none => some { s.move w use.phase with lease := some w }
    | _, _ => none
  | .save w persisted now =>
    match s.phase w with
    | .saving session next =>
      some { s.move w (if persisted then next.phase session now
          else (s.phase w).thrown (riskError "Could not persist the margin-call session")) with
        stored := some session }
    | _ => none
  | .saveNew w persisted =>
    match s.phase w with
    | .savingNew session =>
      some { s.move w (if persisted then .clearingNew else .returning) with
        stored := some session }
    | _ => none
  | .renewFails w => some { s with leaseValid := Function.update s.leaseValid w false }
  | .release w =>
    match s.phase w with
    | .returning => some { s.move w .done with lease := s.lease.filter (· ≠ w) }
    | _ => none
  | .expireLease => some { s with lease := none }
  | .expireFault => some { s with fault := none }

/-- Whether an action is the session write of `startNewMarginCallSession`. -/
def GuardAction.isSaveNew : GuardAction W → Bool
  | .saveNew _ _ => true
  | _ => false

end CtsEngine
