import CtsEngine.Foundation.DoubleText
import CtsEngine.Foundation.Keyed
import CtsEngine.Venue.Ownership

/-!
# Parsed candles

`getParsedCandlesCached` keeps the candles that it parsed for a symbol, from the blob of candles or,
without one, from the envelope of the last seconds.  It knows the text again by its length alone,
whichever of the two it was: a text of the same length with other candles goes unnoticed.
-/

namespace CtsEngine.ParsedCandles

open Option List Keyed Function Prod
open JsonText (Value)

/-! ## Texts -/

/-- A stored text with candles. -/
inductive Document
  | blob (text : String)
  | envelope (text : String)
deriving DecidableEq

/-- `text.length`, in code units. -/
def Document.length : Document → ℕ
  | .blob text => (text.toList.flatMap utf16Units).length
  | .envelope text => (text.toList.flatMap utf16Units).length

/-- `object?.[name]`; of several fields the last one counts. -/
def field (name : String) : Value Double → Option (Value Double)
  | .object fields => get? fields.reverse name
  | _ => none

/-- `String(value)`. -/
def textOf : Value Double → String
  | .null => "null"
  | .bool b => if b then "true" else "false"
  | .number x => String.ofList (doubleText x)
  | .text s => s
  | .array items => ",".intercalate (texts items)
  | .object _ => "[object Object]"
where
  /-- The texts of the elements of an array. -/
  texts : List (Value Double) → List String
    | [] => []
    | .null :: items => "" :: texts items
    | item :: items => textOf item :: texts items

/-- `Number(candle?.timestamp ?? 0)`. -/
def timestamp (candle : Value Double) : Double :=
  match field "timestamp" candle with
  | none => .finite 0
  | some .null => .finite 0
  | some (.bool b) => .finite (if b then 1 else 0)
  | some (.number x) => x
  | some value => numberOfString (textOf value)

/-- The candles in the order of time. -/
def sortCandles (candles : List (Value Double)) : List (Value Double) :=
  candles.mergeSort fun a b => !(timestamp b).lt (timestamp a)

/-- `Array.isArray(value) ? value : []`. -/
def elements : Option (Value Double) → List (Value Double)
  | some (.array values) => values
  | _ => []

/-- The candles of a text, unless it cannot be parsed. -/
def Document.candles : Document → Option (List (Value Double))
  | .blob text => (JsonText.parse jsonNumbers text.toList).map fun value =>
      sortCandles (elements (some value))
  | .envelope text => (JsonText.parse jsonNumbers text.toList).map fun value =>
      sortCandles (elements (field "candles" value))

/-! ## The cache -/

structure Entry where
  candles : List (Value Double)
  sig : ℕ
  timestamp : ℚ

/-- Redis, with an empty text for a missing one, and `PARSED_CANDLES_CACHE`.  The text that was
parsed last for a symbol is remembered for the statement only. -/
structure State where
  redis : String → String
  cache : List (String × Entry) := []
  lastParsed : String → Option Document := fun _ => none

/-- The key of the blob of a symbol, under the scope key of the symbol, and of its cache entry. -/
def candlesKey (scope : String) : String := scope ++ ":candles"

def envelopeKey (scope : String) : String := scope ++ ":1s"

/-- The text that is stored for a symbol. -/
def State.stored (s : State) (scope : String) : Option Document :=
  if s.redis (candlesKey scope) ≠ "" then some (.blob (s.redis (candlesKey scope)))
  else if s.redis (envelopeKey scope) ≠ "" then some (.envelope (s.redis (envelopeKey scope)))
  else none

/-- What a read without a cache returns. -/
def State.uncached (s : State) (scope : String) : List (Value Double) :=
  ((s.stored scope).bind Document.candles).getD []

/-- `PARSED_CANDLES_MAX_ENTRIES`. -/
def maxEntries : ℕ := 256

/-- `PARSED_CANDLES_TTL`. -/
def ttl : ℚ := 5 * 60000

/-- The eviction of `_storeParsedCandles`. -/
def evict (cache : List (String × Entry)) (now : ℚ) : List (String × Entry) :=
  if maxEntries < cache.length then
    let fresh := cache.filter fun entry => now - entry.2.timestamp ≤ ttl
    let drop := ((fresh.mergeSort fun a b => a.2.timestamp ≤ b.2.timestamp).take
      (fresh.length - maxEntries)).map fst
    fresh.filter fun entry => entry.1 ∉ drop
  else cache

/-- `getParsedCandlesCached` at a time: what it returns, and the state afterwards. -/
def getParsedCandlesCached (s : State) (scope : String) (now : ℚ) : List (Value Double) × State :=
  let key := candlesKey scope
  match s.stored scope with
  | none => ([], s)
  | some document =>
    let cached := get? s.cache key
    match cached.filter fun entry => entry.sig = document.length with
    | some entry =>
      (entry.candles, { s with cache := put s.cache key { entry with timestamp := now } })
    | none =>
      match document.candles with
      | some candles =>
        (candles, { s with
          cache := evict (put s.cache key ⟨candles, document.length, now⟩) now
          lastParsed := update s.lastParsed key (some document) })
      | none => ((cached.map Entry.candles).getD [], s)

/-- A write to Redis, or a read of the candles of a symbol. -/
inductive Action
  | write (key text : String)
  | read (scope : String) (now : ℚ)

def step (s : State) : Action → State
  | .write key text => { s with redis := update s.redis key text }
  | .read scope now => (getParsedCandlesCached s scope now).2

variable (redis : String → String) (actions : List Action)

def run : State := actions.foldl step { redis }

/-! ## Transparency -/

/-- The cache does not take the stored text for another one: when the entry of the text that was
parsed last is still there and the texts are equally long, their candles are the same. -/
def State.Recognises (s : State) (scope : String) : Prop :=
  ∀ document last, s.stored scope = some document → s.lastParsed (candlesKey scope) = some last →
    candlesKey scope ∈ s.cache.map fst → last.length = document.length →
    last.candles = document.candles

/-- What the cache holds. -/
structure Ok (s : State) : Prop where
  unique : KeysUnique s.cache
  entry : ∀ e ∈ s.cache, ∃ document, s.lastParsed e.1 = some document ∧
    e.2.sig = document.length ∧ document.candles = some e.2.candles

variable {s : State} {scope : String} {now : ℚ}

lemma mem_of_mem_evict {cache : List (String × Entry)} {e : String × Entry}
    (h : e ∈ evict cache now) : e ∈ cache := by
  unfold evict at h
  split at h
  · exact mem_of_mem_filter (mem_of_mem_filter h)
  · exact h

lemma evict_unique {cache : List (String × Entry)} (h : KeysUnique cache) (now : ℚ) :
    KeysUnique (evict cache now) := by
  unfold evict
  split
  · exact (h.filter _).filter _
  · exact h

lemma Ok.read (h : Ok s) (scope : String) (now : ℚ) :
    Ok (getParsedCandlesCached s scope now).2 := by
  unfold getParsedCandlesCached
  dsimp only
  split
  · exact h
  split
  · -- a hit only touches the entry
    rename_i entry hcach
    have hmem := mem_of_get? (filter_eq_some_iff.mp hcach).1
    refine ⟨h.unique.put _ _, fun e he => ?_⟩
    rcases h.unique.mem_put he with rfl | ⟨he, -⟩
    · exact h.entry (candlesKey scope, entry) hmem
    · exact h.entry e he
  split
  · rename_i hcands
    refine ⟨evict_unique (h.unique.put _ _) now, fun e he => ?_⟩
    rcases h.unique.mem_put (mem_of_mem_evict he) with rfl | ⟨he, hne⟩
    · exact ⟨_, update_self .., rfl, hcands⟩
    · obtain ⟨document, hlast, hrest⟩ := h.entry e he
      exact ⟨document, (update_of_ne hne ..).trans hlast, hrest⟩
  · exact h

lemma ok_run : Ok (run redis actions) := by
  unfold run
  induction actions using reverseRecOn with
  | nil => exact ⟨nodup_nil, nofun⟩
  | append_singleton actions action ih =>
    rw [foldl_append]
    cases action with
    | write key text => exact ⟨ih.unique, ih.entry⟩
    | read scope now => exact ih.read scope now

/-- Every text that is stored can be parsed. -/
def Valid (text : String) : Prop := text = "" ∨ (JsonText.parse jsonNumbers text.toList).isSome

lemma candles_of_stored (hvalid : ∀ key, Valid (s.redis key)) {document : Document}
    (h : s.stored scope = some document) : ∃ candles, document.candles = some candles := by
  unfold State.stored at h
  split at h
  case isTrue hne =>
    obtain ⟨value, hval⟩ := isSome_iff_exists.mp ((hvalid _).resolve_left hne)
    rw [← some.inj h, Document.candles, hval]
    exact ⟨_, rfl⟩
  split at h
  case isTrue hne =>
    obtain ⟨value, hval⟩ := isSome_iff_exists.mp ((hvalid _).resolve_left hne)
    rw [← some.inj h, Document.candles, hval]
    exact ⟨_, rfl⟩
  · cases h

/-- A read of a state is transparent when the cache recognises the stored text. -/
lemma Ok.transparent_iff (h : Ok s) (hvalid : ∀ key, Valid (s.redis key)) (scope : String)
    (now : ℚ) : (getParsedCandlesCached s scope now).1 = s.uncached scope ↔
      s.Recognises scope := by
  unfold getParsedCandlesCached State.uncached State.Recognises
  cases hstor : s.stored scope with
  | none => exact iff_of_true rfl nofun
  | some document =>
    obtain ⟨candles, hcands⟩ := candles_of_stored hvalid hstor
    dsimp only
    split
    · rename_i entry hcach
      obtain ⟨hget, hsig⟩ := filter_eq_some_iff.mp hcach
      obtain ⟨last, hlast, hlen, hpars⟩ := h.entry _ (mem_of_get? hget)
      rw [bind_some, hcands, getD_some]
      constructor
      · rintro heq document' last' hdocum hlast' - -
        rw [← some.inj hdocum, ← some.inj (hlast.symm.trans hlast'), hcands]
        exact hpars.trans (congrArg some heq)
      · intro h
        have hmem : candlesKey scope ∈ s.cache.map fst :=
          isSome_get?_iff.mp (isSome_iff_exists.mpr ⟨entry, hget⟩)
        have hsame := h document last rfl hlast hmem (hlen.symm.trans (of_decide_eq_true hsig))
        exact some.inj (hpars.symm.trans (hsame.trans hcands))
    · rename_i hmiss
      rw [hcands]
      refine iff_of_true (by rw [bind_some, hcands]; rfl) ?_
      intro document' last hdocum hlast hmem hlen
      obtain ⟨entry, hget⟩ := isSome_iff_exists.mp (isSome_get?_iff.mpr hmem)
      obtain ⟨last', hlast', hsig, -⟩ := h.entry _ (mem_of_get? hget)
      rw [hget, filter_some, if_pos] at hmiss
      · cases hmiss
      · rw [decide_eq_true_iff, hsig, ← some.inj (hlast.symm.trans hlast'), hlen, some.inj hdocum]

/-- **Transparency.**  A read after any run returns what a read without a cache returns exactly when
the cache does not take the stored text for another one of the same length. -/
theorem getParsedCandlesCached_transparent_iff (scope : String) (now : ℚ)
    (hvalid : ∀ key, Valid ((run redis actions).redis key)) :
    (getParsedCandlesCached (run redis actions) scope now).1 =
        (run redis actions).uncached scope ↔ (run redis actions).Recognises scope :=
  (ok_run redis actions).transparent_iff hvalid scope now

lemma length_evict_le (cache : List (String × Entry)) (now : ℚ) :
    (evict cache now).length ≤ maxEntries := by
  unfold evict
  split
  swap
  · exact not_lt.mp ‹_›
  dsimp only
  set fresh := cache.filter fun entry => now - entry.2.timestamp ≤ ttl
  have hperm := mergeSort_perm fresh fun a b => a.2.timestamp ≤ b.2.timestamp
  rw [← take_append_drop (fresh.length - maxEntries) (fresh.mergeSort _)] at hperm
  rw [← (hperm.filter _).length_eq, filter_append, filter_eq_nil_iff.mpr, nil_append]
  · have hle := length_filter_le (fun entry => entry.1 ∉ ((fresh.mergeSort fun a b =>
      a.2.timestamp ≤ b.2.timestamp).take (fresh.length - maxEntries)).map fst)
      ((fresh.mergeSort fun a b => a.2.timestamp ≤ b.2.timestamp).drop (fresh.length - maxEntries))
    rw [length_drop, length_mergeSort] at hle
    omega
  · intro entry hmem
    simpa using mem_map_of_mem (f := fst) hmem

lemma run_concat (action : Action) :
    run redis (actions ++ [action]) = step (run redis actions) action := foldl_append

/-- What was parsed for a symbol was stored for it. -/
lemma stored_of_lastParsed {document : Document}
    (h : (run redis actions).lastParsed (candlesKey scope) = some document) :
    ∃ earlier, earlier <+: actions ∧ (run redis earlier).stored scope = some document := by
  induction actions using reverseRecOn with
  | nil => cases h
  | append_singleton actions action ih =>
    have hbefore := fun h => (ih h).imp fun earlier hearlier =>
      hearlier.imp_left fun hpre => hpre.trans (prefix_append actions [action])
    rw [run_concat] at h
    cases action with
    | write key text => exact hbefore h
    | read other now =>
      unfold step getParsedCandlesCached at h
      dsimp only at h
      split at h
      · exact hbefore h
      rename_i stored hstored
      split at h
      · exact hbefore h
      split at h
      · by_cases hscope : candlesKey scope = candlesKey other
        · have hsame : scope = other := by simpa [candlesKey] using hscope
          dsimp only at h
          rw [hscope, update_self] at h
          obtain rfl := some.inj h
          exact ⟨actions, prefix_append .., hsame ▸ hstored⟩
        · exact hbefore ((update_of_ne hscope ..).symm.trans h)
      · exact hbefore h

lemma length_cache_le : (run redis actions).cache.length ≤ maxEntries := by
  induction actions using reverseRecOn with
  | nil => exact Nat.zero_le _
  | append_singleton actions action ih =>
    rw [run_concat]
    cases action with
    | write key text => exact ih
    | read scope now =>
      unfold step getParsedCandlesCached
      dsimp only
      split
      · exact ih
      split
      · rename_i hcach
        have hmem := isSome_get?_iff.mp (isSome_of_eq_some (filter_eq_some_iff.mp hcach).1)
        exact (length_put_of_mem _ hmem).trans_le ih
      split
      · exact length_evict_le _ _
      · exact ih

/-- **Bounded, and never of another symbol.**  After any run the cache has at most 256 entries, and
a read returns nothing, or the candles of a text that was stored for the same symbol. -/
theorem getParsedCandlesCached_stored (scope : String) (now : ℚ) :
    (run redis actions).cache.length ≤ maxEntries ∧
      ((getParsedCandlesCached (run redis actions) scope now).1 = [] ∨
        ∃ earlier document, earlier <+: actions ∧ (run redis earlier).stored scope = some document ∧
          document.candles = some (getParsedCandlesCached (run redis actions) scope now).1) := by
  refine ⟨length_cache_le redis actions, ?_⟩
  have hentry : ∀ {entry}, get? (run redis actions).cache (candlesKey scope) = some entry →
      ∃ earlier document, earlier <+: actions ∧ (run redis earlier).stored scope = some document ∧
        document.candles = some entry.candles := by
    intro entry hget
    obtain ⟨document, hlast, -, hcandles⟩ :=
      (ok_run redis actions).entry _ (mem_of_get? hget)
    obtain ⟨earlier, hpre, hstored⟩ := stored_of_lastParsed redis actions hlast
    exact ⟨earlier, document, hpre, hstored, hcandles⟩
  unfold getParsedCandlesCached
  dsimp only
  split
  · exact .inl rfl
  rename_i document hstored
  split
  · rename_i hcach
    exact .inr (hentry (filter_eq_some_iff.mp hcach).1)
  split
  · exact .inr ⟨actions, document, prefix_rfl, hstored, ‹_›⟩
  · cases hget : get? (run redis actions).cache (candlesKey scope) with
    | none => exact .inl rfl
    | some entry => exact .inr (hentry hget)

def idsOf (candles : List (Value Double)) : List String :=
  candles.map fun candle => match field "id" candle with
    | some (.text id) => id
    | _ => ""

/-- Three blobs of one candle. -/
def blobA : String := "[\x7b\"id\":\"a\"\x7d]"

def blobB : String := "[\x7b\"id\":\"b\"\x7d]"

def longerBlob : String := "[\x7b\"id\":\"longer\"\x7d]"

/-- Redis with one blob for every symbol, and another one for `BTC` after a read. -/
def replaced (blob : String) : State :=
  run (fun _ => blobA) [.read "BTC" 0, .write "BTC:candles" blob]

lemma valid_replaced {blob : String} (h : Valid blob) (key : String) :
    Valid ((replaced blob).redis key) := by
  have hread : ∀ s : State, (getParsedCandlesCached s "BTC" 0).2.redis = s.redis := by
    intro s
    unfold getParsedCandlesCached
    dsimp only
    repeat' split
    all_goals rfl
  have hredis : (replaced blob).redis = update (fun _ => blobA) "BTC:candles" blob := by
    simp only [replaced, run, foldl_cons, foldl_nil, step, hread]
  rw [hredis, update_apply]
  split
  · exact h
  · exact .inr (by decide +kernel)

/-- A longer blob is seen. -/
theorem transparent_longerBlob : (getParsedCandlesCached (replaced longerBlob) "BTC" 1).1 =
      (replaced longerBlob).uncached "BTC" := by
  refine (getParsedCandlesCached_transparent_iff (fun _ => blobA)
    [.read "BTC" 0, .write "BTC:candles" longerBlob] "BTC" 1
    (valid_replaced (.inr (by decide +kernel)))).mpr ?_
  rintro document last hdocum hlast - hlen
  have hstor : (replaced longerBlob).stored "BTC" = some (.blob longerBlob) := by decide +kernel
  have hpars : (replaced longerBlob).lastParsed (candlesKey "BTC") = some (.blob blobA) := by
    decide +kernel
  rw [← some.inj (hstor.symm.trans hdocum), ← some.inj (hpars.symm.trans hlast)] at hlen
  exact absurd hlen (by decide +kernel)

/-- A blob that replaced one of the same length is not seen. -/
theorem not_transparent_sameLength :
    ¬ ∀ (redis : String → String) (actions : List Action) (scope : String) (now : ℚ),
      (∀ key, Valid ((run redis actions).redis key)) →
      (getParsedCandlesCached (run redis actions) scope now).1 =
        (run redis actions).uncached scope := by
  intro h
  have hread := h (fun _ => blobA) [.read "BTC" 0, .write "BTC:candles" blobB] "BTC" 1
    (valid_replaced (.inr (by decide +kernel)))
  have hids : idsOf (getParsedCandlesCached (replaced blobB) "BTC" 1).1 =
    idsOf ((replaced blobB).uncached "BTC") := congrArg idsOf hread
  revert hids
  decide +kernel

end CtsEngine.ParsedCandles
