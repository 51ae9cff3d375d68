import CtsEngine.InlineRedis.Commands

/-!
# A Redis store whose keys expire

The store that the in-memory Redis stands for.  A key and its time to live are gone at the instant
at which it expires; a plain `SET` and a `DEL` take the time to live with them; every other write
keeps that of a live key and starts from nothing on any other.
-/

namespace CtsEngine

open Function Option Keyed

/-- The values of a type of key; of a sorted set the scores of its members. -/
abbrev RedisValue : KeyKind → Type
  | .string => String
  | .hash => List (String × String)
  | .set => List String
  | .list => List String
  | .zset => List (String × Double)

/-- A key of the store. -/
structure RedisEntry where
  kind : KeyKind
  value : RedisValue kind
  expiresAt : Option ℚ

/-- The value of a key, when it has the type. -/
def RedisEntry.valueOf (kind : KeyKind) (entry : RedisEntry) : Option (RedisValue kind) :=
  if h : entry.kind = kind then some (h ▸ entry.value) else none

@[simp] lemma RedisEntry.valueOf_mk (kind : KeyKind) (value : RedisValue kind)
    (expiresAt : Option ℚ) : RedisEntry.valueOf kind ⟨kind, value, expiresAt⟩ = some value :=
  dif_pos rfl

/-- The reference store. -/
abbrev RedisStore := String → Option RedisEntry

namespace RedisStore

/-- The key, unless it has expired. -/
def live (r : RedisStore) (now : ℚ) (key : String) : Option RedisEntry :=
  (r key).filter fun entry => entry.expiresAt.all fun expiresAt => now < expiresAt

/-- The value of a live key of a type. -/
def read (r : RedisStore) (now : ℚ) (kind : KeyKind) (key : String) : Option (RedisValue kind) :=
  (r.live now key).bind (RedisEntry.valueOf kind)

/-- Set a key with a time at which it expires. -/
def overwrite (r : RedisStore) (kind : KeyKind) (key : String) (value : RedisValue kind)
    (expiresAt : Option ℚ) : RedisStore :=
  Function.update r key (some ⟨kind, value, expiresAt⟩)

/-- Set a key, which keeps its time to live. -/
def put (r : RedisStore) (now : ℚ) (kind : KeyKind) (key : String) (value : RedisValue kind) :
    RedisStore :=
  r.overwrite kind key value ((r.live now key).bind RedisEntry.expiresAt)

/-- Delete a key. -/
def remove (r : RedisStore) (key : String) : RedisStore := Function.update r key none

/-- The time at which a key set with options expires. -/
def expiryOf (now : ℚ) (options : SetOptions) : Option ℚ :=
  match options.EX with
  | some seconds => some (now + seconds * 1000)
  | none => options.PX.map (now + ·)

/-- Delete the live ones of some keys, with their number. -/
def delKeys (now : ℚ) : RedisStore → List String → RedisStore × ℕ
  | r, [] => (r, 0)
  | r, key :: keys =>
    let (rest, count) := delKeys now (r.remove key) keys
    (rest, if (r.live now key).isSome then count + 1 else count)

/-- `TTL`. -/
def ttlReply (r : RedisStore) (now : ℚ) (key : String) : ℤ :=
  match r.live now key with
  | none => -2
  | some entry => (entry.expiresAt.map fun expiresAt => ⌊(expiresAt - now) / 1000⌋).getD (-1)

/-- A command at a time, with its reply.  A sweep does nothing. -/
def exec (r : RedisStore) (now : ℚ) : RedisCommand → RedisStore × Reply
  | .get key => (r, ((r.read now .string key).map Reply.text).getD .null)
  | .set key value options =>
    let there := (r.read now .string key).isSome
    if (options.NX ∧ there) ∨ (options.XX ∧ ¬there) then (r, .null)
    else (r.overwrite .string key value (expiryOf now options), .ok)
  | .setex key seconds value =>
    (r.overwrite .string key value (some (now + seconds * 1000)), .nothing)
  | .incrby key increment =>
    let newValue := (storedInt (r.read now .string key)).map (· + increment)
    (r.put now .string key (integerText newValue), .number newValue)
  | .del keys => ((delKeys now r keys).1, .number (some (delKeys now r keys).2))
  | .existsKey key => (r, .number (some (if (r.live now key).isSome then 1 else 0)))
  | .typeOf key => (r, .text (((r.live now key).map fun entry => entry.kind.name).getD "none"))
  | .hset key fields =>
    let hash := (r.read now .hash key).getD []
    let data := mergeFields [] fields
    (if data = [] then r else r.put now .hash key (mergeFields hash data),
      .number (some (data.filter fun entry => entry.1 ∉ hash.map Prod.fst).length))
  | .hget key field =>
    (r, (((r.read now .hash key).bind (get? · field)).map Reply.text).getD .null)
  | .hgetall key => (r, .record ((r.read now .hash key).getD []))
  | .hdel key fields =>
    match r.read now .hash key with
    | none => (r, .number (some 0))
    | some hash =>
      let (rest, deleted) := deleteFields hash fields
      (if rest = [] then r.remove key else r.put now .hash key rest, .number (some deleted))
  | .hincrby key field increment =>
    let hash := (r.read now .hash key).getD []
    let newValue := (storedInt (get? hash field)).map (· + increment)
    (r.put now .hash key (Keyed.put hash field (integerText newValue)), .number newValue)
  | .sadd key members =>
    let set := (r.read now .set key).getD []
    let updated := addMembers set members
    (if members = [] then r else r.put now .set key updated,
      .number (some (updated.length - set.length)))
  | .srem key members =>
    match r.read now .set key with
    | none => (r, .number (some 0))
    | some set =>
      let (rest, removed) := deleteMembers set members
      (if rest = [] then r.remove key else r.put now .set key rest, .number (some removed))
  | .smembers key => (r, .list ((r.read now .set key).getD []))
  | .lpush key values =>
    let updated := values.reverse ++ (r.read now .list key).getD []
    (if values = [] then r else r.put now .list key updated, .number (some updated.length))
  | .rpush key values =>
    let updated := (r.read now .list key).getD [] ++ values
    (if values = [] then r else r.put now .list key updated, .number (some updated.length))
  | .lrange key start => (r, .list (sliceFrom ((r.read now .list key).getD []) start))
  | .llen key => (r, .number (some ((r.read now .list key).getD []).length))
  | .zadd key score member =>
    let zset := (r.read now .zset key).getD []
    (r.put now .zset key (Keyed.put zset member score),
      .number (some (if (get? zset member).isSome then 0 else 1)))
  | .zscore key member =>
    (r, (((r.read now .zset key).bind (get? · member)).map Reply.score).getD .null)
  | .zcard key => (r, .number (some ((r.read now .zset key).getD []).length))
  | .expire key seconds =>
    match r.live now key with
    | none => (r, .number (some 0))
    | some entry =>
      (r.overwrite entry.kind key entry.value (some (now + seconds * 1000)), .number (some 1))
  | .persist key =>
    match r.live now key with
    | none => (r, .number (some 0))
    | some entry =>
      if entry.expiresAt = none then (r, .number (some 0))
      else (r.overwrite entry.kind key entry.value none, .number (some 1))
  | .ttl key => (r, .number (some (r.ttlReply now key)))
  | .sweep _ => (r, .nothing)

end RedisStore

/-- A stored value stands for a value of the reference store. -/
def Stands : (kind : KeyKind) → Payload kind → RedisValue kind → Prop
  | .string, payload, value => payload = value
  | .hash, payload, value => payload = value
  | .set, payload, value => payload = value
  | .list, payload, value => payload = value
  | .zset, payload, value => payload.memberIndex = value ∧ payload.entries.length = value.length

/-- A stored value and its time to live stand for a key of the reference store, or its absence. -/
def StandsFor (kind : KeyKind) (payload : Option (Payload kind)) (expireAt : Option ℚ)
    (entry : Option RedisEntry) : Prop :=
  match payload with
  | none => expireAt = none ∧ entry = none
  | some payload => ∃ value, entry = some ⟨kind, value, expireAt⟩ ∧ Stands kind payload value

/-- What holds of one key of a type. -/
structure Matches (kind : KeyKind) (s : InlineStore) (r : RedisStore) (now : ℚ)
    (key : String) : Prop where
  typed : ∀ other, other ≠ kind → s.data other key = none
  instant : s.ttlOf key ≠ some 0
  expired : s.isExpired now key = true → r.live now key = none
  fresh : s.isExpired now key = false →
    StandsFor kind (s.data kind key) (s.ttlOf key) (r.live now key)

/-- **The correspondence** at a time, each key having its type. -/
structure Mirrors (kinds : String → KeyKind) (s : InlineStore) (r : RedisStore) (now : ℚ) :
    Prop where
  unique : Keyed.KeysUnique s.ttl
  keys : ∀ key, Matches (kinds key) s r now key

/-! ## Expiry -/

namespace InlineStore

variable {s : InlineStore} {key : String} {now expireAt : ℚ}

lemma isExpired_iff :
    s.isExpired now key = true ↔ ∃ expireAt, s.ttlOf key = some expireAt ∧ expireAt ≠ 0 ∧
      expireAt ≤ now := by
  rw [isExpired, any_eq_true]
  simp only [decide_eq_true_iff]

lemma isExpired_of_le (hinst : s.ttlOf key ≠ some 0) (hexpirAt : s.ttlOf key = some expireAt)
    (hle : expireAt ≤ now) : s.isExpired now key = true := by
  refine isExpired_iff.mpr ⟨expireAt, hexpirAt, ?_, hle⟩
  rintro rfl
  exact hinst hexpirAt

lemma lt_of_not_isExpired (hinst : s.ttlOf key ≠ some 0) (hfresh : s.isExpired now key = false)
    (hexpirAt : s.ttlOf key = some expireAt) : now < expireAt := by
  by_contra hle
  rw [isExpired_of_le hinst hexpirAt (not_lt.mp hle)] at hfresh
  cases hfresh

lemma isExpired_congr {t : InlineStore} (h : t.ttlOf key = s.ttlOf key) :
    t.isExpired now key = s.isExpired now key := by
  rw [isExpired, isExpired, h]

variable (s) (key)

@[simp] lemma ttlOf_put (kind : KeyKind)
    (value : Option (Payload kind)) (other : String) :
    (s.put kind key value).ttlOf other = s.ttlOf other := rfl

lemma data_put (kind : KeyKind) (value : Option (Payload kind)) :
    (s.put kind key value).data =
      Function.update s.data kind (Function.update (s.data kind) key value) := rfl

@[simp] lemma data_put_self (kind : KeyKind)
    (value : Option (Payload kind)) : (s.put kind key value).data kind key = value := by
  rw [data_put, update_self, update_self]

lemma data_put_of_ne_kind {kind other : KeyKind}
    (value : Option (Payload kind)) (setKey : String) (h : other ≠ kind) :
    (s.put kind key value).data other setKey = s.data other setKey := by
  rw [data_put, update_of_ne h]

variable {key}

lemma data_put_of_ne (kind other : KeyKind) {setKey : String}
    (value : Option (Payload kind)) (h : setKey ≠ key) :
    (s.put kind key value).data other setKey = s.data other setKey := by
  by_cases hkind : other = kind
  · subst hkind
    rw [data_put, update_self, update_of_ne h]
  · exact s.data_put_of_ne_kind key value setKey hkind

@[simp] lemma data_ttlSet (key : String) (expireAt : ℚ) :
    (s.ttlSet key expireAt).data = s.data := rfl

@[simp] lemma ttlOf_ttlSet_self (key : String) (expireAt : ℚ) :
    (s.ttlSet key expireAt).ttlOf key = some expireAt := get?_put_self ..

lemma ttlOf_ttlSet_of_ne {other : String} (expireAt : ℚ) (h : other ≠ key) :
    (s.ttlSet key expireAt).ttlOf other = s.ttlOf other :=
  get?_put_of_ne _ _ h

@[simp] lemma data_ttlDelete (key : String) :
    (s.ttlDelete key).data = s.data := rfl

lemma ttlOf_ttlDelete (key other : String) :
    (s.ttlDelete key).ttlOf other = if other = key then none else s.ttlOf other :=
  get?_filter_ne ..

variable {s}

lemma keysUnique_ttlDelete (h : Keyed.KeysUnique s.ttl) (key : String) :
    Keyed.KeysUnique (s.ttlDelete key).ttl :=
  List.Nodup.sublist ((List.filter_sublist ..).map _) h

lemma has_iff : s.has key = true ↔ ∃ kind, (s.data kind key).isSome = true := by
  rw [has, List.any_eq_true]
  constructor
  · rintro ⟨kind, -, h⟩
    exact ⟨kind, h⟩
  · rintro ⟨kind, h⟩
    exact ⟨kind, by cases kind <;> decide, h⟩

end InlineStore

open InlineStore

variable {r : RedisStore}

lemma RedisStore.live_eq_some {now : ℚ} {key : String} {entry : RedisEntry} :
    r.live now key = some entry ↔
      r key = some entry ∧ ∀ expiresAt ∈ entry.expiresAt, now < expiresAt := by
  rw [RedisStore.live, filter_eq_some_iff, all_eq_true]
  simp only [decide_eq_true_iff, mem_def]

lemma RedisStore.live_of_not_mem {now now' : ℚ} {key : String} (hle : now ≤ now')
    (h : r.live now key = none) : r.live now' key = none := by
  rw [eq_none_iff_forall_ne_some] at h ⊢
  intro entry hent
  obtain ⟨hkey, hlive⟩ := live_eq_some.mp hent
  exact h entry (live_eq_some.mpr ⟨hkey, fun t ht => hle.trans_lt (hlive t ht)⟩)

/-- **Time.** The correspondence does not depend on the time at which it is looked at. -/
lemma Mirrors.later {kinds : String → KeyKind} {s : InlineStore} {now now' : ℚ}
    (h : Mirrors kinds s r now) (hle : now ≤ now') : Mirrors kinds s r now' := by
  refine ⟨h.unique, fun key => ?_⟩
  obtain ⟨htyped, hinst, hexpir, hfresh⟩ := h.keys key
  refine ⟨htyped, hinst, fun hnow' => ?_, fun hnow' => ?_⟩
  · obtain ⟨expireAt, hexpirAt, -, hpast⟩ := isExpired_iff.mp hnow'
    cases hnow : s.isExpired now key with
    | true => exact RedisStore.live_of_not_mem hle (hexpir hnow)
    | false =>
      have hstand := hfresh hnow
      unfold StandsFor at hstand
      split at hstand
      · rw [hexpirAt] at hstand
        cases hstand.1
      · obtain ⟨value, hent, -⟩ := hstand
        have hkey := (RedisStore.live_eq_some.mp hent).1
        rw [RedisStore.live, hkey, hexpirAt]
        simp [hpast.not_gt]
  · have hnow : s.isExpired now key = false := by
      by_contra hexp
      obtain ⟨expireAt, hexpirAt, hne, hpast⟩ := isExpired_iff.mp (eq_true_of_ne_false hexp)
      rw [isExpired_iff.mpr ⟨expireAt, hexpirAt, hne, hpast.trans hle⟩] at hnow'
      cases hnow'
    have hstand := hfresh hnow
    unfold StandsFor at hstand ⊢
    split at hstand
    · exact ⟨hstand.1, RedisStore.live_of_not_mem hle hstand.2⟩
    · obtain ⟨value, hent, hval⟩ := hstand
      refine ⟨value, RedisStore.live_eq_some.mpr ⟨(RedisStore.live_eq_some.mp hent).1, ?_⟩, hval⟩
      intro expireAt hexpirAt
      exact lt_of_not_isExpired hinst hnow' hexpirAt

/-- **Changes.** A change of one key keeps the correspondence when it keeps it for that key. -/
lemma Mirrors.change {kinds : String → KeyKind} {s s' : InlineStore} {r' : RedisStore} {now : ℚ}
    (h : Mirrors kinds s r now) {key : String}
    (hdata : ∀ kind other, other ≠ key → s'.data kind other = s.data kind other)
    (httl : ∀ other, other ≠ key → s'.ttlOf other = s.ttlOf other)
    (huniq : Keyed.KeysUnique s'.ttl) (href : ∀ other, other ≠ key → r' other = r other)
    (hkey : Matches (kinds key) s' r' now key) : Mirrors kinds s' r' now := by
  refine ⟨huniq, fun other => ?_⟩
  by_cases hoth : other = key
  · rw [hoth]
    exact hkey
  · obtain ⟨htyped, hinst, hexp, hfresh⟩ := h.keys other
    have hlive : r'.live now other = r.live now other := by
      rw [RedisStore.live, RedisStore.live, href other hoth]
    refine ⟨fun kind hkind => ?_, ?_, ?_, ?_⟩
    · rw [hdata kind other hoth]
      exact htyped kind hkind
    · rw [httl other hoth]
      exact hinst
    · rw [isExpired_congr (httl other hoth), hlive]
      exact hexp
    · rw [isExpired_congr (httl other hoth), hlive, hdata _ other hoth, httl other hoth]
      exact hfresh

end CtsEngine
