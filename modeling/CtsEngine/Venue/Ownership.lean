import CtsEngine.Foundation.JsValue

/-!
# Who owns a position or an order

The ownership tests of `system-order-ownership.ts`.  A row of the venue or of the book belongs to a
connection when its connection id and both tracking ids say so; an order belongs to it when its
client order id starts with one of the prefixes of the system and the connection.
-/

namespace CtsEngine

/-- The environment variables that the ownership tests read. -/
structure SystemEnvironment where
  /-- `CTS_SYSTEM_ID`. -/
  systemId : Option String := none
  /-- `CTS_ACCEPT_LEGACY_ORDER_PREFIX`. -/
  acceptLegacyOrderPrefix : Option String := none

/-- `String(value ?? "").trim()`. -/
def text (value : Option String) : String := trim (value.getD "")

variable (env : SystemEnvironment) (connectionId : String)

def connectionTrackingId : String := "conn-" ++ trim connectionId

def systemTrackingPrefix : String := "sys-" ++ trim connectionId ++ "-"

/-- The UTF-16 code units of a character. -/
def utf16Units (c : Char) : List ℕ :=
  if c.toNat < 0x10000 then [c.toNat]
  else [0xD800 + (c.toNat - 0x10000) / 0x400, 0xDC00 + (c.toNat - 0x10000) % 0x400]

/-- A digit to the base `36`. -/
def base36Digit (n : ℕ) : Char := if n < 10 then Char.ofNat (48 + n) else Char.ofNat (87 + n)

/-- `systemOrderHash`: the last six digits of a 32-bit hash. -/
def systemOrderHash : String :=
  let systemId := text env.systemId
  let input := (if systemId = "" then "cts-k-n" else systemId) ++ "|" ++ trim connectionId
  let hash : UInt32 := (input.toList.flatMap utf16Units).foldl
    (fun hash unit => (hash ^^^ UInt32.ofNat unit) * 0x01000193) 0x811c9dc5
  String.ofList ([5, 4, 3, 2, 1, 0].map fun i => base36Digit (hash.toNat / 36 ^ i % 36))

def clientOrderSystemPrefix : String := "kn" ++ systemOrderHash env connectionId

def clientOrderTypedPrefix : String := "kt" ++ systemOrderHash env connectionId

def legacyOrderPrefixAccepted : Bool := text env.acceptLegacyOrderPrefix ≠ "0"

def clientOrderConnectionPrefix : String :=
  let compact := toLowerCase
    (String.ofList (((trim connectionId).toList.filter Char.isAlphanum).take 8))
  "cts" ++ if compact = "" then "x" else compact

/-- `value.length > start.length && value.startsWith(start)`. -/
def properPrefix (start value : String) : Bool :=
  decide (start.length < value.length) && hasPrefix start value

def isConnectionOwnedClientOrderId (clientOrderId : Option String) (connectionId : String) : Bool :=
  let id := toLowerCase (text clientOrderId)
  if id = "" then false
  else if properPrefix (toLowerCase (clientOrderSystemPrefix env connectionId)) id then true
  else if properPrefix (toLowerCase (clientOrderTypedPrefix env connectionId)) id then true
  else if !legacyOrderPrefixAccepted env then false
  else properPrefix (clientOrderConnectionPrefix connectionId) id

/-- The ids by which a row names its owner, each under either of its two names. -/
structure OwnerIds where
  connectionId : Option String := none
  systemTrackingId : Option String := none
  connectionTrackingId : Option String := none

def isExactSystemPositionOwner (position : OwnerIds) (connectionId : String) : Bool :=
  let expected := trim connectionId
  decide (expected ≠ "") && decide (text position.connectionId = expected) &&
    properPrefix (systemTrackingPrefix expected) (text position.systemTrackingId) &&
    decide (text position.connectionTrackingId = CtsEngine.connectionTrackingId expected)

end CtsEngine
