import CtsEngine.Foundation.Keyed
import CtsEngine.Foundation.NumberText
import Mathlib.Data.Finset.Insert

/-!
# Refresh requests

The request hash of a connection, what `getSettings` makes of it, and the writes to it: the Lua
scripts of `persistLatestEngineRefreshRequest` and `clearEngineRefreshRequest`, and the local path
of the former through `shouldReplaceEngineRefreshRequest` and `setSettings`.

The text of a finite number and the values of JSON documents are parameters (`JsTexts`), and so is
the collation of the Redis server, by which Lua compares strings.

The time to live is left out.
-/

namespace CtsEngine

open Keyed

/-! ## Values -/

/-- The conversions that are left open. -/
structure JsTexts where
  /-- `String(x)` of a finite number. -/
  numeral : ℚ → String
  /-- `JSON.parse(document)` does not throw. -/
  parses : String → Bool
  /-- `Number(JSON.parse(document))`. -/
  documentNumber : String → Double
  /-- `String(JSON.parse(document))`. -/
  documentText : String → String
  /-- `JSON.stringify(JSON.parse(document))`. -/
  restringify : String → String

/-- A property of an object that was read from a hash or is written to one.  A document is an array
or object, given by a text that `JSON.parse` reads as it. -/
inductive SettingsValue
  | text (s : String)
  | number (x : Double)
  | boolean (b : Bool)
  | document (s : String)
deriving DecidableEq

section Conversions

variable (js : JsTexts)

/-- `String(x)` of a number. -/
def Double.toText : Double → String
  | .finite q => js.numeral q
  | .infinity negative => if negative then "-Infinity" else "Infinity"
  | .nan => "NaN"

namespace SettingsValue

/-- `String(value)`. -/
def toText : SettingsValue → String
  | .text s => s
  | .number x => x.toText js
  | .boolean b => if b then "true" else "false"
  | .document s => js.documentText s

/-- `Number(value)`. -/
def toNumber : SettingsValue → Double
  | .text s => numberOfString s
  | .number x => x
  | .boolean b => .finite (if b then 1 else 0)
  | .document s => js.documentNumber s

/-- Whether `value` counts as true. -/
def isTruthy : SettingsValue → Bool
  | .text s => decide (s ≠ "")
  | .number x => decide (x ≠ .finite 0 ∧ x ≠ .nan)
  | .boolean b => b
  | .document _ => true

/-- `String(value || "")`. -/
def textOr (value : Option SettingsValue) : String :=
  match value with
  | some v => if v.isTruthy then v.toText js else ""
  | none => ""

/-- A field of `serializeRefreshRequest`: texts as they are, everything else by
`JSON.stringify`. -/
def serialized : SettingsValue → String
  | .text s => s
  | .number (.finite q) => js.numeral q
  | .number _ => "null"
  | .boolean b => if b then "true" else "false"
  | .document s => js.restringify s

/-- A field of `flattenForHmset`: documents by `JSON.stringify`, everything else by
`convertToString`. -/
def flattened : SettingsValue → String
  | .text s => s
  | .number x => x.toText js
  | .boolean b => if b then "1" else "0"
  | .document s => js.restringify s

end SettingsValue

/-! ## Reading a hash -/

/-- Digits and nothing else, at least one. -/
def isDigits (cs : List Char) : Bool := cs ≠ [] && cs.all Char.isDigit

/-- `/^-?\d+$/` or `/^-?\d+\.\d+$/`. -/
def isPlainNumeral (cs : List Char) : Bool :=
  let unsigned := match cs with
    | '-' :: rest => rest
    | _ => cs
  isDigits unsigned || match unsigned.dropWhile Char.isDigit with
    | '.' :: fraction => isDigits (unsigned.takeWhile Char.isDigit) && isDigits fraction
    | _ => false

/-- A text between braces or brackets. -/
def looksLikeJson (cs : List Char) : Bool :=
  (cs.head? == some '\x7b' && cs.getLast? == some '\x7d') ||
    (cs.head? == some '[' && cs.getLast? == some ']')

def parseHashValue (text : String) : SettingsValue :=
  if looksLikeJson text.toList && js.parses text then .document text
  else if text = "1" ∨ text = "true" then .boolean true
  else if text = "0" ∨ text = "false" then .boolean false
  else if isPlainNumeral text.toList then .number (numberOfString text)
  else .text text

/-- A hash of Redis: a missing hash has no fields. -/
abbrev RequestHash := List (String × String)

/-- The own properties of an object. -/
abbrev RequestObject := List (String × SettingsValue)

/-- `getSettings` of a request key; a missing hash is `null`. -/
def readRequest (hash : RequestHash) : RequestObject :=
  hash.map fun field => (field.1, parseHashValue js field.2)

end Conversions

/-- `HSET` of several fields. -/
def hsetFields (hash : RequestHash) (fields : List (String × String)) : RequestHash :=
  fields.foldl (fun h field => put h field.1 field.2) hash

lemma get?_hsetFields (hash : RequestHash) {fields : List (String × String)}
    (huniq : Keyed.KeysUnique fields) (key : String) :
    get? (hsetFields hash fields) key = (get? fields key).or (get? hash key) := by
  induction fields generalizing hash with
  | nil => rfl
  | cons field rest ih =>
    obtain ⟨hnew, hrest⟩ := List.nodup_cons.mp huniq
    have hstep : hsetFields hash (field :: rest) =
        hsetFields (put hash field.1 field.2) rest := rfl
    rw [hstep, ih _ hrest]
    by_cases hkey : field.1 = key
    · have hmiss : get? rest key = none := by
        cases hget : get? rest key with
        | none => rfl
        | some value =>
          exact absurd (List.mem_map_of_mem (f := Prod.fst) (mem_of_get? hget)) (hkey ▸ hnew)
      rw [hmiss, ← hkey]
      simp [get?]
    · rw [get?_put_of_ne _ _ (Ne.symm hkey)]
      simp [get?, hkey]

/-! ## The order of requests -/

/-- `refreshActionPriority`, and `priority` of the script. -/
def refreshActionPriority (action : String) : ℕ :=
  if action = "restart" then 3
  else if action = "start" ∨ action = "stop" then 2
  else 1

/-- `refreshActionPriority` of any value: only texts are equal to texts. -/
def valuePriority : Option SettingsValue → ℕ
  | some (.text action) => refreshActionPriority action
  | _ => 1

section Acceptance

variable (js : JsTexts) (collatesAfter : String → String → Bool)

/-- `tonumber(HGET state_switch_version or '-1') or -1`. -/
def luaGeneration (hash : RequestHash) : Double :=
  ((get? hash "state_switch_version").bind tonumber).getD (.finite (-1))

/-- The stored request is ahead of a proposed one, in the script's order. -/
def luaOutranks (hash : RequestHash) (generation : Double) (action timestamp : String) : Bool :=
  let currentPriority := refreshActionPriority ((get? hash "action").getD "refresh")
  let proposedPriority := refreshActionPriority action
  generation.lt (luaGeneration hash) || (luaGeneration hash).eq generation &&
    (decide (proposedPriority < currentPriority) || decide (currentPriority = proposedPriority) &&
      collatesAfter ((get? hash "timestamp").getD "") timestamp)

/-- The proposed generation as the script reads it, unless it returns for it. -/
def luaProposal (version : String) : Option Double :=
  (tonumber version).filter fun generation => !generation.lt (.finite 0)

/-- The test of the script. -/
def luaAccepts (hash : RequestHash) (version action timestamp : String) : Bool :=
  match luaProposal version with
  | some generation => !luaOutranks collatesAfter hash generation action timestamp
  | none => false

/-- The script of `persistLatestEngineRefreshRequest`: `none` is its `return 0`. -/
def persistScript (hash : RequestHash) (version action timestamp : String)
    (fields : List (String × String)) : Option RequestHash :=
  if luaAccepts collatesAfter hash version action timestamp then some (hsetFields hash fields)
  else none

/-- JavaScript compares texts by their code units. -/
def utf16 (text : String) : List ℕ :=
  text.toList.flatMap fun c =>
    if c.toNat < 0x10000 then [c.toNat]
    else [0xD800 + (c.toNat - 0x10000) / 0x400, 0xDC00 + (c.toNat - 0x10000) % 0x400]

/-- The generation of a stored request as the local path reads it, when it is one. -/
def localGeneration (current : RequestObject) : Option ℕ :=
  (match get? current "state_switch_version" with
    | some value => value.toNumber js
    | none => .finite (-1)).safeNat

/-- The stored request is ahead of a proposed one, in the order of
`shouldReplaceEngineRefreshRequest`. -/
def localOutranks (current : RequestObject) (generation : ℕ) (action timestamp : String) : Bool :=
  match localGeneration js current with
  | none => false
  | some currentGeneration =>
    let currentPriority := valuePriority (get? current "action")
    let proposedPriority := refreshActionPriority action
    decide (generation < currentGeneration) || decide (currentGeneration = generation) &&
      (decide (proposedPriority < currentPriority) || decide (currentPriority = proposedPriority) &&
        decide (utf16 timestamp < utf16 (SettingsValue.textOr js (get? current "timestamp"))))

end Acceptance

/-! ## Requests -/

/-- `EngineRefreshRequest`.  The version is a text or a number by its declaration; a request that
`getSettings` returned may have a boolean there. -/
structure EngineRefreshRequest where
  requestId : Option String
  connectionId : String
  action : String
  stateSwitchVersion : SettingsValue
  reason : String
  timestamp : String
  retryCount : Option Double
  lastError : Option String
  lastErrorAt : Option String
  refreshQueuedAt : Option String
  refreshLastAttemptAt : Option String
  refreshLastError : Option String
  refreshProcessedAt : Option String

variable (request : EngineRefreshRequest)

/-- The properties, `none` for `undefined`. -/
def EngineRefreshRequest.properties : List (String × Option SettingsValue) :=
  [("requestId", request.requestId.map .text), ("connectionId", some (.text request.connectionId)),
    ("action", some (.text request.action)),
    ("state_switch_version", some request.stateSwitchVersion),
    ("reason", some (.text request.reason)),
    ("timestamp", some (.text request.timestamp)),
    ("retryCount", request.retryCount.map .number),
    ("lastError", request.lastError.map .text),
    ("lastErrorAt", request.lastErrorAt.map .text),
    ("refresh_queued_at", request.refreshQueuedAt.map .text),
    ("refresh_last_attempt_at", request.refreshLastAttemptAt.map .text),
    ("refresh_last_error", request.refreshLastError.map .text),
    ("refresh_processed_at", request.refreshProcessedAt.map .text)]

/-- The defined properties. -/
def EngineRefreshRequest.own : RequestObject :=
  request.properties.filterMap fun property => property.2.map (Prod.mk property.1)

lemma map_fst_filterMap_sublist (properties : List (String × Option SettingsValue)) :
    ((properties.filterMap fun property => property.2.map (Prod.mk property.1)).map
      Prod.fst).Sublist (properties.map Prod.fst) := by
  induction properties with
  | nil => exact List.Sublist.slnil
  | cons property rest ih =>
    cases hval : property.2 with
    | none => simpa [hval] using ih.cons property.1
    | some value => simpa [hval] using ih

lemma EngineRefreshRequest.keysUnique_own : Keyed.KeysUnique request.own := by
  have hnodup : (request.properties.map Prod.fst).Nodup := by
    simp only [properties, List.map_cons]
    decide
  exact (map_fst_filterMap_sublist request.properties).nodup hnodup

def serializeRefreshRequest (js : JsTexts) (object : RequestObject) : List (String × String) :=
  object.map fun property => (property.1, property.2.serialized js)

def flattenForHmset (js : JsTexts) (object : RequestObject) : List (String × String) :=
  object.map fun property => (property.1, property.2.flattened js)

lemma keysUnique_serializeRefreshRequest (js : JsTexts) {object : RequestObject}
    (huniq : Keyed.KeysUnique object) :
    Keyed.KeysUnique (serializeRefreshRequest js object) := by
  unfold serializeRefreshRequest Keyed.KeysUnique
  rw [List.map_map]
  exact huniq

lemma keysUnique_flattenForHmset (js : JsTexts) {object : RequestObject}
    (huniq : Keyed.KeysUnique object) : Keyed.KeysUnique (flattenForHmset js object) := by
  unfold flattenForHmset Keyed.KeysUnique
  rw [List.map_map]
  exact huniq

end CtsEngine

namespace CtsEngine

/-- The request hash of a connection, and the index. -/
structure RefreshSlot where
  hash : RequestHash
  index : Finset String

section Paths

variable (js : JsTexts) (collatesAfter : String → String → Bool)

/-- The generation of a proposal as the local path reads it, when it takes it. -/
def localProposal (request : EngineRefreshRequest) : Option ℕ :=
  (request.stateSwitchVersion.toNumber js).safeNat

def shouldReplaceEngineRefreshRequest (current : Option RequestObject)
    (request : EngineRefreshRequest) : Bool :=
  match current with
  | none => true
  | some current =>
    match localProposal js request with
    | none => false
    | some generation =>
      !localOutranks js current generation request.action request.timestamp

/-- `getSettings`, with `null` for a missing hash. -/
def currentRequest (hash : RequestHash) : Option RequestObject :=
  if hash = [] then none else some (readRequest js hash)

/-- The script path, with the reply. -/
def persistByScript (slot : RefreshSlot) (request : EngineRefreshRequest) : Bool × RefreshSlot :=
  match persistScript collatesAfter slot.hash (request.stateSwitchVersion.toText js) request.action
      request.timestamp (serializeRefreshRequest js request.own) with
  | some hash => (true, ⟨hash, insert request.connectionId slot.index⟩)
  | none => (false, slot)

/-- The local path, with its result. -/
def persistLocally (slot : RefreshSlot) (request : EngineRefreshRequest) : Bool × RefreshSlot :=
  if shouldReplaceEngineRefreshRequest js (currentRequest js slot.hash) request then
    (true, ⟨hsetFields slot.hash (flattenForHmset js request.own),
      insert request.connectionId slot.index⟩)
  else (false, slot)

/-! ## When they agree -/

section Readings

variable (hash : RequestHash) (action timestamp : String)

/-- Where the stored generation stands to a proposed one, as the script reads it. -/
def luaOrder (generation : Double) : Ordering :=
  if generation.lt (luaGeneration hash) then .gt
  else if (luaGeneration hash).eq generation then .eq
  else .lt

/-- The same on the local path, where a stored version that is no generation is behind. -/
def localOrder (generation : ℕ) : Ordering :=
  ((localGeneration js (readRequest js hash)).map (compare · generation)).getD .lt

/-- The priority of the stored action, which both paths read alike. -/
def storedPriority : ℕ := refreshActionPriority ((Keyed.get? hash "action").getD "refresh")

/-- The stored text of time is behind a proposed one in the collation of the server. -/
def LuaLater : Prop := collatesAfter ((Keyed.get? hash "timestamp").getD "") timestamp = true

/-- The stored time, read and written as a text again, is behind a proposed one by code units. -/
def LocalLater : Prop :=
  utf16 timestamp < utf16 (SettingsValue.textOr js (Keyed.get? (readRequest js hash) "timestamp"))

/-- Of one generation, the stored request has the higher priority, or the later time. -/
def Prefers (later : Prop) : Prop :=
  refreshActionPriority action < storedPriority hash ∨
    storedPriority hash = refreshActionPriority action ∧ later

/-- Which of the two requests is ahead, by the order of the generations and at the same one by
what follows it. -/
def Ahead (order : Ordering) (prefers : Prop) : Prop := order = .gt ∨ order = .eq ∧ prefers

/-- The readings put the stored request on the same side of the proposed one: they order the
generations alike, and at the same one the times where the priorities are the same; or only one of
them finds the same generation, and prefers the request that is ahead for the other. -/
def SameSide : Ordering → Ordering → Prop
  | .eq, .eq => storedPriority hash = refreshActionPriority action →
      (LuaLater collatesAfter hash timestamp ↔ LocalLater js hash timestamp)
  | .eq, side => Prefers hash action (LuaLater collatesAfter hash timestamp) ↔ side = .gt
  | side, .eq => side = .gt ↔ Prefers hash action (LocalLater js hash timestamp)
  | side, other => side = other

/-- A text of the hash is read as a value of the priority that the script finds. -/
lemma valuePriority_parseHashValue (text : String) :
    valuePriority (some (parseHashValue js text)) = refreshActionPriority text := by
  by_cases hname : text = "restart" ∨ text = "start" ∨ text = "stop"
  · rcases hname with rfl | rfl | rfl <;> rfl
  · obtain ⟨hrestart, hother⟩ := not_or.mp hname
    have hone : refreshActionPriority text = 1 := by
      rw [refreshActionPriority, if_neg hrestart, if_neg hother]
    unfold parseHashValue
    split_ifs
    all_goals first | exact hone.symm | rfl

lemma valuePriority_readRequest :
    valuePriority (Keyed.get? (readRequest js hash) "action") = storedPriority hash := by
  unfold readRequest storedPriority
  rw [Keyed.get?_map_value]
  cases Keyed.get? hash "action" with
  | none => rfl
  | some text => exact valuePriority_parseHashValue js text

/-- The script refuses for a stored request that is ahead. -/
lemma luaOutranks_iff (generation : Double) :
    luaOutranks collatesAfter hash generation action timestamp = true ↔
      Ahead (luaOrder hash generation) (Prefers hash action
        (LuaLater collatesAfter hash timestamp)) := by
  unfold luaOutranks luaOrder Ahead Prefers storedPriority LuaLater
  cases generation.lt (luaGeneration hash) <;> cases (luaGeneration hash).eq generation <;> simp

/-- And so does the local path. -/
lemma localOutranks_iff (generation : ℕ) :
    localOutranks js (readRequest js hash) generation action timestamp = true ↔
      Ahead (localOrder js hash generation) (Prefers hash action
        (LocalLater js hash timestamp)) := by
  unfold localOutranks localOrder Ahead Prefers LocalLater
  rw [valuePriority_readRequest]
  cases localGeneration js (readRequest js hash) with
  | none => simp
  | some current => simp [Nat.compare_eq_gt]

/-- **One side.** The paths judge the stored request alike just if the readings put it on the same
side. -/
lemma outranks_eq_iff (generation : Double) (localGeneration : ℕ) :
    luaOutranks collatesAfter hash generation action timestamp =
        localOutranks js (readRequest js hash) localGeneration action timestamp ↔
      SameSide js collatesAfter hash action timestamp (luaOrder hash generation)
        (localOrder js hash localGeneration) := by
  rw [Bool.eq_iff_iff, luaOutranks_iff, localOutranks_iff]
  unfold Ahead
  cases luaOrder hash generation <;> cases localOrder js hash localGeneration <;>
    simp only [SameSide, reduceCtorEq, false_and, true_and, false_or, or_false, iff_true,
      iff_false, true_iff, false_iff, not_true_eq_false]
  unfold Prefers
  constructor
  · intro hiff hsame
    simpa [hsame] using hiff
  · intro hlater
    exact or_congr_right (and_congr_right hlater)

end Readings

/-- When the paths take the proposal alike, by which of them take its version and how they read the
stored generation, priority and time. -/
def AcceptAlike (hash : RequestHash) (request : EngineRefreshRequest) : Prop :=
  match luaProposal (request.stateSwitchVersion.toText js), localProposal js request with
  | none, none => hash ≠ []
  | some generation, some localGeneration =>
    SameSide js collatesAfter hash request.action request.timestamp (luaOrder hash generation)
      (localOrder js hash localGeneration)
  | some generation, none =>
    hash = [] ∨ Ahead (luaOrder hash generation) (Prefers hash request.action
      (LuaLater collatesAfter hash request.timestamp))
  | none, some localGeneration =>
    hash ≠ [] ∧ Ahead (localOrder js hash localGeneration) (Prefers hash request.action
      (LocalLater js hash request.timestamp))

/-- Both paths write the same text of the value. -/
def SettingsValue.StoresAlike : SettingsValue → Prop
  | .number (.finite _) | .text _ | .document _ => True
  | .number _ | .boolean _ => False

lemma SettingsValue.storesAlike_iff (value : SettingsValue) :
    value.StoresAlike ↔ value.serialized js = value.flattened js := by
  cases value with
  | text s => simp [StoresAlike, serialized, flattened]
  | document s => simp [StoresAlike, serialized, flattened]
  | boolean b => cases b <;> simp [StoresAlike, serialized, flattened]
  | number x =>
    cases x with
    | finite q => simp [StoresAlike, serialized, flattened, Double.toText]
    | infinity negative =>
      cases negative <;> simp [StoresAlike, serialized, flattened, Double.toText]
    | nan => simp [StoresAlike, serialized, flattened, Double.toText]

lemma luaOutranks_nil {version action timestamp : String} {generation : Double}
    (h : luaProposal version = some generation) :
    luaOutranks collatesAfter [] generation action timestamp = false := by
  obtain ⟨-, hnn⟩ := Option.filter_eq_some_iff.mp h
  have hgener : luaGeneration [] = .finite (-1) := rfl
  unfold luaOutranks
  rw [hgener]
  cases generation with
  | finite q =>
    have hq : 0 ≤ q := by simpa [Double.lt] using hnn
    have hlt : ¬ q < -1 := not_lt.mpr (le_trans (by norm_num) hq)
    have hne : (-1 : ℚ) ≠ q := by
      intro heq
      rw [← heq] at hq
      exact absurd hq (by norm_num)
    simp [Double.lt, Double.eq, hlt, hne]
  | infinity negative =>
    have hpos : negative = false := by simpa [Double.lt] using hnn
    simp [Double.lt, Double.eq, hpos]
  | nan => simp [Double.lt, Double.eq]

lemma luaAccepts_eq_shouldReplace_iff (hash : RequestHash) (request : EngineRefreshRequest) :
    luaAccepts collatesAfter hash (request.stateSwitchVersion.toText js) request.action
        request.timestamp =
      shouldReplaceEngineRefreshRequest js (currentRequest js hash) request ↔
    AcceptAlike js collatesAfter hash request := by
  unfold luaAccepts AcceptAlike shouldReplaceEngineRefreshRequest currentRequest
  simp only [← luaOutranks_iff, ← localOutranks_iff, ← outranks_eq_iff]
  by_cases hemp : hash = []
  · subst hemp
    cases hlua : luaProposal (request.stateSwitchVersion.toText js) with
    | none => cases localProposal js request <;> simp
    | some generation =>
      have hnone : localGeneration js (readRequest js []) = none := rfl
      cases localProposal js request <;>
        simp [luaOutranks_nil collatesAfter hlua, localOutranks, hnone]
  · cases luaProposal (request.stateSwitchVersion.toText js) with
    | none => cases localProposal js request <;> simp [hemp]
    | some generation => cases localProposal js request <;> simp [hemp]

lemma hsetFields_eq_iff (hash : RequestHash) {object : RequestObject}
    (huniq : Keyed.KeysUnique object) :
    hsetFields hash (serializeRefreshRequest js object) =
      hsetFields hash (flattenForHmset js object) ↔
    ∀ property ∈ object, property.2.StoresAlike := by
  constructor
  · intro heq property hmem
    rw [SettingsValue.storesAlike_iff js]
    have hser : Keyed.get? (serializeRefreshRequest js object) property.1 =
        some (property.2.serialized js) :=
      Keyed.get?_of_mem (keysUnique_serializeRefreshRequest js huniq) (List.mem_map_of_mem hmem)
    have hflat : Keyed.get? (flattenForHmset js object) property.1 =
        some (property.2.flattened js) :=
      Keyed.get?_of_mem (keysUnique_flattenForHmset js huniq) (List.mem_map_of_mem hmem)
    have hget : Keyed.get? (hsetFields hash (serializeRefreshRequest js object)) property.1 =
        Keyed.get? (hsetFields hash (flattenForHmset js object)) property.1 := by
      rw [heq]
    rw [get?_hsetFields _ (keysUnique_serializeRefreshRequest js huniq),
      get?_hsetFields _ (keysUnique_flattenForHmset js huniq), hser, hflat] at hget
    exact Option.some.inj hget
  · intro halike
    apply congrArg
    apply List.map_congr_left
    intro property hmem
    rw [(SettingsValue.storesAlike_iff js property.2).mp (halike property hmem)]

/-- **Agreement of the two paths.** They reply alike and leave the same record and the same index
exactly when they take the proposal alike and a proposal that is taken has no value of which they
write different texts. -/
theorem persistPaths_agree_iff (slot : RefreshSlot) (request : EngineRefreshRequest) :
    persistByScript js collatesAfter slot request = persistLocally js slot request ↔
      AcceptAlike js collatesAfter slot.hash request ∧
        (luaAccepts collatesAfter slot.hash (request.stateSwitchVersion.toText js) request.action
            request.timestamp = true →
          ∀ property ∈ request.own, property.2.StoresAlike) := by
  rw [← luaAccepts_eq_shouldReplace_iff, ← hsetFields_eq_iff js slot.hash request.keysUnique_own]
  unfold persistByScript persistLocally persistScript
  generalize shouldReplaceEngineRefreshRequest js (currentRequest js slot.hash) request = replaces
  cases luaAccepts collatesAfter slot.hash (request.stateSwitchVersion.toText js) request.action
      request.timestamp with
  | false => cases replaces <;> simp
  | true => cases replaces <;> simp

end Paths

/-- A proposal of generation 2. -/
def reloadOfGenerationTwo : EngineRefreshRequest where
  requestId := some "17:1760000000000:a"
  connectionId := "bingx"
  action := "refresh"
  stateSwitchVersion := .text "2"
  reason := "settings"
  timestamp := "2026-01-01T00:00:00.000Z"
  retryCount := some (.finite 0)
  lastError := none
  lastErrorAt := none
  refreshQueuedAt := none
  refreshLastAttemptAt := none
  refreshLastError := none
  refreshProcessedAt := none

/-- Over a stored version that is no integer the local path writes, and the script does not. -/
theorem persistPaths_disagree :
    ¬ ∀ (js : JsTexts) (collatesAfter : String → String → Bool) (slot : RefreshSlot)
      (request : EngineRefreshRequest),
      persistByScript js collatesAfter slot request = persistLocally js slot request := by
  intro hall
  have hreplies := congrArg Prod.fst (hall ⟨fun q => toString q.num, fun _ => true, fun _ => .nan,
    id, id⟩ (fun s t => decide (t < s)) ⟨[("state_switch_version", "2.5")], {"bingx"}⟩
    reloadOfGenerationTwo)
  exact absurd hreplies (by decide +kernel)

end CtsEngine
