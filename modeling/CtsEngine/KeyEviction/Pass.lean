import CtsEngine.Foundation.Comparison
import CtsEngine.Foundation.StreamedQueues
import CtsEngine.KeyEviction.Store

/-!
# Families of keys

`evictOldRecords` of `lib/redis-db.ts` keeps a number of keys of each family, and leaves protected
keys alone.  The families are those of `classify`, the numbers depend on the number of symbols and
on the environment.

The hashes and the strings go through queues of their
families, then the lists, the positions that have come to an end and the sets of members are cut
down.  While a map is iterated only keys are deleted that the iterator has passed.

The queue of a connection keeps the entries of its positions, and the time of a position is read
when the queue is sorted.  A time that is not a number compares as equal to every other.
-/

namespace CtsEngine.KeyEviction

open Function List Keyed

/-! ## Patterns of keys -/

/-- The texts between the colons of what follows a start. -/
def segmentsAfter (start key : String) : List (List Char) :=
  (key.toList.drop start.toList.length).splitOn ':'

/-- Texts between colons; `none` is `[^:]+`. -/
def matchesSegments : List (Option String) → List (List Char) → Bool
  | [], [] => true
  | some text :: pattern, segment :: rest =>
    decide (segment = text.toList) && matchesSegments pattern rest
  | none :: pattern, segment :: rest => !segment.isEmpty && matchesSegments pattern rest
  | _, _ => false

/-- A start and the texts between the colons after it, to the end of the key. -/
def matchesKey (start : String) (pattern : List (Option String)) (key : String) : Bool :=
  hasPrefix start key && matchesSegments pattern (segmentsAfter start key)

variable (key : String)

/-- `/^indication:[^:]+:config:/`. -/
def isIndicationConfig : Bool :=
  hasPrefix "indication:" key &&
    match segmentsAfter "indication:" key with
    | indicator :: config :: _ :: _ => !indicator.isEmpty && decide (config = "config".toList)
    | _ => false

/-- `key.includes(part)`. -/
def includesText (part key : String) : Bool := decide (part.toList <:+: key.toList)

def startsWithAny (starts : List String) (key : String) : Bool :=
  starts.any fun start => hasPrefix start key

/-- The starts that protect a key. -/
def protectedStarts : List String :=
  ["historic:aggregate:", "historic:aggregate-marker:", "live:position:", "live:positions:",
    "progression:", "connection:", "strategy_count:", "real_pi_acc:", "axis_pos_acc:",
    "strategy_pos_entry_ids:", "strategy_set_entry_counts:", "strategy_set_active_entry_counts:",
    "strategy_set_closed_counts:", "strategy_set_result_ring:",
    "strategy_position_set_memberships:", "strategy_set_keys:", "strategy_active_set_keys:",
    "strategy_closed_set_keys:", "strategy_ledger_totals:", "app_settings", "trade_engine:",
    "_migration", "_schema_version", "market_data:"]

/-- The patterns that protect a key. -/
def protectedPatterns : List (String × List (Option String)) :=
  [("indication:", [none, some "configs", some "index"]),
    ("strategy:", [none, some "config", none]),
    ("prehistoric:", [none]),
    ("prehistoric:", [none, some "symbols"]),
    ("prehistoric:", [none, some "done"]),
    ("prehistoric:", [none, some "firstpass", some "done"]),
    ("strategies:", [none, some "live", some "count"]),
    ("strategies:", [none, none, some "total"])]

/-- The settings, without those that a cycle writes. -/
def isOperatorSetting : Bool :=
  hasPrefix "settings:" key &&
    !startsWithAny ["settings:pseudo_position", "settings:strategies"] key

def isProtected : Bool :=
  isIndicationConfig key || startsWithAny protectedStarts key ||
    (protectedPatterns.any fun pattern => matchesKey pattern.1 pattern.2 key) ||
    isOperatorSetting key

/-- The names of the buckets. -/
inductive Family
  | pseudoPosition
  | settingsPseudoPosition
  | strategies
  | settingsStrategies
  | configSet
  | strategyPositions
  | strategyDetail
  | realStage
  | indication
  | indications
  | indicationSet
  | indicationOutcomesPending
  | axisPosAcc
  | prehistoric
  | liveHistory
  | indicationsText
  | dedup
  | candleCache
  | candles
deriving DecidableEq

/-- `classify`, of a key that is not protected. -/
def classifyUnprotected : Option Family :=
  if hasPrefix "pseudo_position:" key then some .pseudoPosition
  else if hasPrefix "settings:pseudo_position" key then some .settingsPseudoPosition
  else if hasPrefix "settings:strategies" key then some .settingsStrategies
  else if hasPrefix "strategies:" key then
    if startsWithAny ["strategies:all", "strategies:counter", "strategies:metadata"] key then none
    else some .strategies
  else if hasPrefix "indication_set:" key then some .indicationSet
  else if hasPrefix "indication_outcomes_pending:" key then some .indicationOutcomesPending
  else if hasPrefix "axis_pos_acc:" key then some .axisPosAcc
  else if hasPrefix "indication:" key then some .indication
  else if hasPrefix "indications:" key then some .indications
  else if hasPrefix "config_set:" key || includesText ":config_set:" key then some .configSet
  else if hasPrefix "strategy:" key then
    if includesText ":positions" key then some .strategyPositions
    else if includesText ":detail" key then some .strategyDetail
    else none
  else if startsWithAny ["real_stage:", "realstage:"] key then some .realStage
  else if hasPrefix "prehistoric:" key then some .prehistoric
  else if hasPrefix "live_positions:" key && includesText ":history" key then some .liveHistory
  else if hasPrefix "strategy_detail:" key then some .strategyDetail
  else if startsWithAny ["candle_cache:", "market_data_cache:"] key then some .candleCache
  else if hasPrefix "market_data:" key && decide (":candles".toList <:+ key.toList) then
    some .candles
  else if includesText ":exists:" key || includesText ":dedup:" key then some .dedup
  else none

def classify : Option Family :=
  if isProtected key then none else classifyUnprotected key

/-- The family of a string: `indications` has a family of its own. -/
def classifyString : Option Family :=
  (classify key).map fun family => if family = .indications then .indicationsText else family

/-! ## Numbers of keys -/

/-- The variables of the environment. -/
abbrev Environment := String → Option String

variable (environment : Environment)

/-- `finiteEnvNumber`, with whole numbers for the fallback and the bounds. -/
def finiteEnvNumber (name : String) (fallback least most : ℕ) : ℕ :=
  match (environment name).elim .nan numberOfString with
  | .finite q => max least (min most ⌊q⌋.toNat)
  | _ => fallback

/-- `Math.max(1, parseInt(process.env.V0_DEV_SYMBOL_COUNT ?? "1", 10) || 1)`. -/
def symbolCount : ℕ :=
  match parseInt ((environment "V0_DEV_SYMBOL_COUNT").getD "1") with
  | some count => max 1 count.toNat
  | none => 1

def transientCap : ℕ :=
  finiteEnvNumber environment "CTS_REDIS_TRANSIENT_KEYS_PER_SYMBOL" 180 32 1000

/-- `CAPS`. -/
def caps : Family → ℕ
  | .pseudoPosition => symbolCount environment * transientCap environment
  | .settingsPseudoPosition => symbolCount environment * max 32 (transientCap environment / 2)
  | .strategies => max 50 (symbolCount environment * (transientCap environment / 9))
  | .settingsStrategies => max 10 (symbolCount environment * (transientCap environment / 22))
  | .configSet => max 400 (symbolCount environment * 25)
  | .strategyPositions => max 200 (symbolCount environment * 15)
  | .strategyDetail => max 200 (symbolCount environment * 15)
  | .realStage => max 200 (symbolCount environment * 15)
  | .indication => max 100 (symbolCount environment * 25)
  | .indications => max 50 (symbolCount environment * 10)
  | .indicationSet => max 200 (symbolCount environment * 50)
  | .indicationOutcomesPending => max 50 (symbolCount environment * 5)
  | .axisPosAcc => 5
  | .prehistoric => 20
  | .liveHistory => max 200 (symbolCount environment * 15)
  | .indicationsText => max 30 (symbolCount environment * 8)
  | .dedup => max 500 (symbolCount environment * 30)
  | .candleCache => max 10 (symbolCount environment * 3)
  | .candles => max 10 (symbolCount environment * 3)

/-- `SET_MEMBER_CAP`. -/
def setMemberCap : ℕ := finiteEnvNumber environment "CTS_REDIS_PSEUDO_MEMBER_CAP" 800 100 10000

lemma classify_of_isProtected {key : String} (h : isProtected key = true) :
    classify key = none := if_pos h

lemma hasPrefix_comparable {first second key : String} (hfst : hasPrefix first key = true)
    (hsec : hasPrefix second key = true) :
    hasPrefix first second = true ∨ hasPrefix second first = true := by
  simp only [hasPrefix, isPrefixOf_iff_prefix] at *
  exact prefix_or_prefix_of_prefix hfst hsec

lemma isProtected_of_start {start key : String} (hmem : start ∈ protectedStarts)
    (h : hasPrefix start key = true) : isProtected key = true := by
  have hany : startsWithAny protectedStarts key = true := any_eq_true.mpr ⟨start, hmem, h⟩
  rw [isProtected, hany, Bool.or_true, Bool.true_or, Bool.true_or]

lemma isProtected_of_index {key : String} (h : hasPrefix "idx:" key = true) :
    isProtected key = false := by
  have hnot : ∀ start, hasPrefix start "idx:" = false → hasPrefix "idx:" start = false →
      hasPrefix start key = false := by
    intro start hshort hlong
    by_contra hst
    rcases hasPrefix_comparable (eq_true_of_ne_false hst) h with hpref | hpref
    · exact Bool.false_ne_true (hshort.symm.trans hpref)
    · exact Bool.false_ne_true (hlong.symm.trans hpref)
  have hstarts : startsWithAny protectedStarts key = false := by
    refine any_eq_false.mpr fun start hmem => ?_
    rw [Bool.not_eq_true]
    have hall : ∀ start ∈ protectedStarts,
        hasPrefix start "idx:" = false ∧ hasPrefix "idx:" start = false := by decide +kernel
    exact hnot start (hall start hmem).1 (hall start hmem).2
  have hpatt : (protectedPatterns.any fun pattern => matchesKey pattern.1 pattern.2 key) =
      false := by
    refine any_eq_false.mpr fun pattern hmem => ?_
    have hall : ∀ pattern ∈ protectedPatterns,
        hasPrefix pattern.1 "idx:" = false ∧ hasPrefix "idx:" pattern.1 = false := by
      decide +kernel
    rw [matchesKey, hnot pattern.1 (hall pattern hmem).1 (hall pattern hmem).2]
    exact Bool.false_ne_true
  have hindic := hnot "indication:" (by decide +kernel) (by decide +kernel)
  have hsett := hnot "settings:" (by decide +kernel) (by decide +kernel)
  rw [isProtected, isIndicationConfig, isOperatorSetting, hindic, hsett, hstarts, hpatt]
  rfl

/-- The store and the buckets, each with its keys. -/
abbrev Buckets := OrderedStore × List (Family × List String)

/-- One key of a map: a bucket that is full gives up its first key. -/
def visitKey (cap : Family → ℕ) (familyOf : String → Option Family) (state : Buckets)
    (key : String) : Buckets :=
  match familyOf key with
  | none => state
  | some family =>
    let bucket := (get? state.2 family).getD []
    if bucket.length < cap family + 1 then
      (state.1, put state.2 family (bucket ++ [key]))
    else
      (bucket.head?.elim state.1 state.1.deleteKey, put state.2 family bucket.tail)

variable (s : OrderedStore)

/-- `trimBucket`: the store after it and the number of deleted keys. -/
def trimBucket (bucket : List String) (cap : ℕ) : OrderedStore × ℕ :=
  if bucket.length ≤ cap then (s, 0)
  else (s.deleteKeys (bucket.take (bucket.length - cap)), bucket.length - cap)

/-- The pass over the keys of a map and the trimming of the buckets after it. -/
def evictFamilies (cap : Family → ℕ) (familyOf : String → Option Family) (kind : KeyKind)
    (s : OrderedStore) : OrderedStore × ℕ :=
  let visited := (s.keys kind).foldl (visitKey cap familyOf) (s, [])
  visited.2.foldl (fun state entry =>
    let trimmed := trimBucket state.1 entry.2 (cap entry.1)
    (trimmed.1, state.2 + trimmed.2)) (visited.1, 0)

/-- The lists of strategies that are not protected. -/
def isStrategyList : Bool := !isProtected key && hasPrefix "strategies:" key

/-- The lists beyond the fifty newest. -/
def evictLists : OrderedStore × ℕ := trimBucket s ((s.keys .list).filter isStrategyList) 50

/-! ## Positions that have come to an end -/

abbrev PositionHash := String × List (String × String)

/-- `MAX_TERMINAL_POSITIONS`. -/
def maxTerminalPositions : ℕ := 200

/-- `TERMINAL_STATUSES`. -/
def terminalStatuses : List String := ["closed", "rejected", "cancelled", "expired", "error"]

/-- The connection of an identifier `/^live:([^:]+:[^:]+):/`. -/
def connectionOf (id : String) : String :=
  match id.toList.splitOn ':' with
  | live :: venue :: account :: _ :: _ =>
    if live = "live".toList ∧ venue ≠ [] ∧ account ≠ [] then
      String.ofList (venue ++ ':' :: account)
    else "unknown"
  | _ => "unknown"

variable (entry : PositionHash)

/-- The hash is a position that has come to an end. -/
def isTerminalPosition : Bool :=
  hasPrefix "live:position:" entry.1 && !hasPrefix "live:position:tracking:" entry.1 &&
    decide ((get? entry.2 "status").getD "" ∈ terminalStatuses)

/-- The connection of a position that has come to an end. -/
def terminalConnection : Option String :=
  if isTerminalPosition entry then
    some (connectionOf ((get? entry.2 "id").getD entry.1))
  else none

/-- `Number(fields["closedAt"] ?? fields["updatedAt"] ?? 0)`. -/
def positionTime : Double :=
  ((get? entry.2 "closedAt").or (get? entry.2 "updatedAt")).elim (.finite 0)
    numberOfString

/-- The sign of a difference of times. -/
def compareTimes (first second : Double) : ℚ :=
  if first.lt second then -1 else if second.lt first then 1 else 0

variable (positions : List PositionHash)

/-- `arr.sort((a, b) => b[1] - a[1])`. -/
def newestFirst : List PositionHash :=
  Comparison.sortBy (fun a b => compareTimes (positionTime b) (positionTime a)) positions

/-- `positions.sort((a, b) => a[1] - b[1])`. -/
def oldestFirst : List PositionHash :=
  Comparison.sortBy (fun a b => compareTimes (positionTime a) (positionTime b)) positions

/-- The store and the positions of each connection. -/
abbrev Connections := OrderedStore × List (String × List PositionHash)

/-- One hash: a connection that is full gives up its oldest position. -/
def visitPosition (state : Connections) (entry : PositionHash) : Connections :=
  match terminalConnection entry with
  | none => state
  | some connection =>
    let positions := (get? state.2 connection).getD []
    if positions.length < maxTerminalPositions + 1 then
      (state.1, put state.2 connection (positions ++ [entry]))
    else
      let sorted := newestFirst positions
      ((sorted.getLast?.map Prod.fst).elim state.1 state.1.deleteKey,
        put state.2 connection (sorted.dropLast ++ [entry]))

/-- `this.data.hashes.delete(key)`. -/
def deleteHash (key : String) : OrderedStore where
  entries := Function.update s.entries .hash ((s.entries .hash).filter fun entry => entry.1 ≠ key)
  unique kind := by
    by_cases hkind : kind = .hash
    · subst hkind
      rw [update_self]
      exact (s.unique .hash).filter _
    · rw [update_of_ne hkind]
      exact s.unique kind

/-- The positions of a connection that are dropped in the end. -/
def droppedPositions : List PositionHash :=
  if positions.length ≤ maxTerminalPositions then []
  else (oldestFirst positions).take (positions.length - maxTerminalPositions)

/-- The positions beyond the newest of each connection. -/
def evictTerminalPositions : OrderedStore × ℕ :=
  let visited := (s.entries .hash).foldl visitPosition (s, [])
  visited.2.foldl (fun state entry =>
    (droppedPositions entry.2).foldl (fun state position =>
      (deleteHash state.1 position.1, state.2 + 1)) state) (visited.1, 0)

/-- The set is one of the identifiers of pseudo-positions. -/
def isMembershipSet : Bool := startsWithAny ["pseudo_positions:", "real_pseudo_positions:"] key

/-- The number of members that a set loses. -/
def prunedMembers (cap : ℕ) (entry : String × List String) : ℕ :=
  if isMembershipSet entry.1 then entry.2.length - cap else 0

/-- The oldest members of a set that is too large are deleted. -/
def pruneSets (cap : ℕ) (s : OrderedStore) : OrderedStore × ℕ :=
  ({ entries := Function.update s.entries .set
      ((s.entries .set).map fun entry => (entry.1, entry.2.drop (prunedMembers cap entry)))
     unique := fun kind => by
      by_cases hkind : kind = .set
      · subst hkind
        rw [update_self, KeysUnique, map_map]
        exact s.unique .set
      · rw [update_of_ne hkind]
        exact s.unique kind },
    ((s.entries .set).map (prunedMembers cap)).sum)

/-- `evictOldRecords`: the store after it and the number that it returns. -/
def evictOldRecords : OrderedStore × ℕ :=
  let hashes := evictFamilies (caps environment) classify .hash s
  let strings := evictFamilies (caps environment) classifyString .string hashes.1
  let lists := evictLists strings.1
  let positions := evictTerminalPositions lists.1
  let sets := pruneSets (setMemberCap environment) positions.1
  (sets.1, hashes.2 + strings.2 + lists.2 + positions.2 + sets.2)

end CtsEngine.KeyEviction
