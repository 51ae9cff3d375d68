import CtsEngine.Foundation.Expiring
import CtsEngine.Refresh.Request

/-!
# The request slot of a connection and its workers

`queueEngineRefreshRequest`, `processQueuedEngineRefreshRequests`, `clearEngineRefreshRequest` and
`recordEngineRefreshRequestFailure` on one connection of a shared Redis.  Every command to Redis is
a step; the scripts are one command each.

A worker reads the request, claims it, acts, and then clears the request or records a failure.  What
it acts on, whether the action throws, and whether the request is too old or of another switch
version come from its surroundings.  The scheduled route clears a request it has read without a
claim, and drops the error of its clear.  The index of connections is left out.
-/

namespace CtsEngine

open Keyed SettingsValue

/-! ## The records that are written -/

/-- The identifier that `queueEngineRefreshRequest` gives a request: the process, `Date.now()` and a
random word. -/
structure RequestId where
  pid : ℕ
  mintedAt : ℕ
  random : String

/-- The text of an identifier. -/
def RequestId.text (id : RequestId) : String :=
  toString id.pid ++ ":" ++ toString id.mintedAt ++ ":" ++ id.random

/-- `a || b` on optional texts. -/
def textOrElse (a : Option String) (b : String) : String :=
  match a with
  | some s => if s = "" then b else s
  | none => b

/-- The request that `queueEngineRefreshRequest` stores.  No caller hands in an identifier. -/
def queuedRequest (request : EngineRefreshRequest) (id : RequestId) (nowText : String) :
    EngineRefreshRequest :=
  { request with
    requestId := some id.text
    refreshQueuedAt :=
      some (textOrElse request.refreshQueuedAt (textOrElse (some request.timestamp) nowText))
    retryCount := some (request.retryCount.getD (.finite 0))
    lastError := some (textOrElse request.lastError "")
    lastErrorAt := some (textOrElse request.lastErrorAt "")
    refreshLastError := some (textOrElse request.refreshLastError (textOrElse request.lastError ""))
    refreshLastAttemptAt :=
      some (textOrElse request.refreshLastAttemptAt (textOrElse request.lastErrorAt ""))
    refreshProcessedAt := some (textOrElse request.refreshProcessedAt "") }

section Records

variable (js : JsTexts)

variable (copy : RequestObject)

/-- `Number.isFinite(retryCount) ? retryCount + 1 : 1`, of `Number(request.retryCount ?? 0)`. -/
def nextRetryCount : Double :=
  match ((get? copy "retryCount").map (·.toNumber js)).getD (.finite 0) with
  | .finite q => .ofRat (q + 1)
  | _ => .finite 1

/-- The record of `recordEngineRefreshRequestFailure`. -/
def failureRecord (lastError nowText : String) : RequestObject :=
  [("retryCount", .number (nextRetryCount js copy)), ("lastError", .text lastError),
    ("lastErrorAt", .text nowText), ("refresh_last_error", .text lastError),
    ("refresh_last_attempt_at", .text nowText)].foldl
      (fun record property => put record property.1 property.2) copy

/-- `String(value)` of a property. -/
def propertyText (key : String) : String :=
  match get? copy key with
  | some value => value.toText js
  | none => "undefined"

/-- Whether `getQueuedEngineRefreshRequests` returns what it read. -/
def isRequest : Bool :=
  (get? copy "connectionId").any isTruthy &&
    (get? copy "timestamp").any isTruthy

/-- The test of the script of `clearEngineRefreshRequest`. -/
def clearScript (hash : RequestHash) (requestId version action timestamp : String) : Bool :=
  if requestId ≠ "" then decide ((get? hash "requestId").getD "" = requestId)
  else
    decide ((get? hash "state_switch_version").getD "" = version) &&
      decide ((get? hash "action").getD "" = action) &&
      decide ((get? hash "timestamp").getD "" = timestamp)

end Records

/-! ## The system -/

/-- Where a worker stands. -/
inductive RefreshPhase
  | idle
  /-- Before the `SET NX` of its claim. -/
  | claiming (copy : RequestObject)
  /-- Its action runs; `claimOwnershipLost`. -/
  | working (copy : RequestObject) (lost : Bool)
  /-- Before the script of its clear, and whether an error of the script is recorded. -/
  | clearing (copy : RequestObject) (recordsError : Bool)
  /-- Before the script of its failure record. -/
  | failing (copy : RequestObject)
  /-- Before the release of its claim. -/
  | releasing
deriving DecidableEq

/-- The request that a worker holds. -/
def RefreshPhase.copy? : RefreshPhase → Option RequestObject
  | .claiming copy | .working copy _ | .clearing copy _ | .failing copy => some copy
  | .idle | .releasing => none

/-- The request hash, the claim, the workers, and the identifiers of the requests that were
enqueued and of those that were cleared. -/
structure RefreshSystem where
  now : ℕ
  row : Option (Expiring RequestHash)
  claim : Option (Expiring ℕ)
  phase : ℕ → RefreshPhase
  enqueued : List String
  cleared : List String

/-- Nothing is stored. -/
def refreshStart : RefreshSystem := ⟨0, none, none, fun _ => .idle, [], []⟩

/-- A step. -/
inductive RefreshAction
  | tick (elapsed : ℕ)
  | enqueue (request : EngineRefreshRequest) (id : RequestId) (nowText : String)
  | read (worker : ℕ)
  | claim (worker : ℕ)
  /-- The scheduled route has done the work of the request. -/
  | acknowledge (worker : ℕ)
  | renewClaim (worker : ℕ)
  /-- The request is too old, or of another switch version. -/
  | discard (worker : ℕ)
  /-- The action returns, `processed` or not. -/
  | finish (worker : ℕ) (processed : Bool)
  | throw (worker : ℕ)
  | clear (worker : ℕ) (wire : Wire)
  | recordFailure (worker : ℕ) (lastError nowText : String) (wire : Wire)
  | releaseClaim (worker : ℕ)

namespace RefreshSystem

variable (s : RefreshSystem)

/-- The hash of a `HGETALL`. -/
def stored : RequestHash := (Expiring.live s.now s.row).getD []

/-- The worker whose claim is stored. -/
def claimant : Option ℕ := Expiring.live s.now s.claim

/-- Move a worker to another phase. -/
def enter (worker : ℕ) (phase : RefreshPhase) : RefreshSystem :=
  { s with phase := Function.update s.phase worker phase }

/-- The hash after the script of a write. -/
def write (ttlMs : ℕ) (written : Option RequestHash) : RefreshSystem :=
  match written with
  | some hash => { s with row := some ⟨hash, s.now + ttlMs⟩ }
  | none => s

/-- The hash after the script of a clear. -/
def remove : RefreshSystem :=
  { s with row := none, cleared := (get? s.stored "requestId").getD "" :: s.cleared }

end RefreshSystem

section Step

variable (js : JsTexts) (collatesAfter : String → String → Bool) (ttlMs : ℕ)

/-- `ENGINE_REFRESH_CLAIM_TTL_MS`. -/
def refreshClaimTtlMs : ℕ := 60000

/-- The script of `persistLatestEngineRefreshRequest` on the request that is enqueued. -/
def enqueueScript (hash : RequestHash) (request : EngineRefreshRequest) (id : RequestId)
    (nowText : String) : Option RequestHash :=
  persistScript collatesAfter hash (request.stateSwitchVersion.toText js) request.action
    request.timestamp (serializeRefreshRequest js (queuedRequest request id nowText).own)

/-- The script of `persistLatestEngineRefreshRequest` on the record of a failure. -/
def failureScript (hash : RequestHash) (copy : RequestObject) (lastError nowText : String) :
    Option RequestHash :=
  persistScript collatesAfter hash (propertyText js copy "state_switch_version")
    (propertyText js copy "action") (textOr js (get? copy "timestamp"))
    (serializeRefreshRequest js (failureRecord js copy lastError nowText))

/-- The clear of a worker's request removes the stored one. -/
def clearsStored (s : RefreshSystem) (copy : RequestObject) : Bool :=
  decide (s.stored ≠ []) &&
    clearScript s.stored (textOr js (get? copy "requestId"))
      (propertyText js copy "state_switch_version") (propertyText js copy "action")
      (propertyText js copy "timestamp")

def refreshStep (s : RefreshSystem) : RefreshAction → Option RefreshSystem
  | .tick elapsed => some { s with now := s.now + elapsed }
  | .enqueue request id nowText =>
    if request.requestId = none ∧ id.text ∉ s.enqueued then
      some { s.write ttlMs (enqueueScript js collatesAfter s.stored request id nowText) with
        enqueued := id.text :: s.enqueued }
    else none
  | .read worker =>
    if s.phase worker = .idle ∧ isRequest (readRequest js s.stored) then
      some (s.enter worker (.claiming (readRequest js s.stored)))
    else none
  | .claim worker =>
    match s.phase worker with
    | .claiming copy =>
      if s.claimant = none then
        some { s.enter worker (.working copy false) with
          claim := some ⟨worker, s.now + refreshClaimTtlMs⟩ }
      else some (s.enter worker .idle)
    | _ => none
  | .acknowledge worker =>
    match s.phase worker with
    | .claiming copy => some (s.enter worker (.clearing copy false))
    | _ => none
  | .renewClaim worker =>
    match s.phase worker with
    | .working copy _ =>
      if s.claimant = some worker then
        some { s with claim := some ⟨worker, s.now + refreshClaimTtlMs⟩ }
      else some (s.enter worker (.working copy true))
    | _ => none
  | .discard worker =>
    match s.phase worker with
    | .working copy _ => some (s.enter worker (.clearing copy true))
    | _ => none
  | .finish worker processed =>
    match s.phase worker with
    | .working copy lost =>
      some (s.enter worker (if processed && !lost then .clearing copy true else .releasing))
    | _ => none
  | .throw worker =>
    match s.phase worker with
    | .working copy _ => some (s.enter worker (.failing copy))
    | _ => none
  | .clear worker wire =>
    match s.phase worker with
    | .clearing copy recordsError =>
      let next := if wire ≠ .answered ∧ recordsError then .failing copy
        else if recordsError then .releasing else .idle
      let after := if wire ≠ .unsent ∧ clearsStored js s copy then s.remove else s
      some (after.enter worker next)
    | _ => none
  | .recordFailure worker lastError nowText wire =>
    match s.phase worker with
    | .failing copy =>
      let after := if wire = .unsent then s
        else s.write ttlMs (failureScript js collatesAfter s.stored copy lastError nowText)
      some (after.enter worker .releasing)
    | _ => none
  | .releaseClaim worker =>
    match s.phase worker with
    | .releasing =>
      some { s.enter worker .idle with
        claim := if s.claimant = some worker then none else s.claim }
    | _ => none

end Step

end CtsEngine
