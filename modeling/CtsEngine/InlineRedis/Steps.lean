import CtsEngine.Foundation.Tally
import CtsEngine.InlineRedis.Simulation
import CtsEngine.Transition.Runs

/-!
# Commands on both stores

The conditions on a command and the store before it: `KeepsStore`, under which the two stores
correspond again afterwards, and `RepliesAlike`, under which its reply is the one of the reference
store.

Each command, on stores that correspond and under its conditions: the stores correspond afterwards,
and the replies are equal exactly when `RepliesAlike` holds.
-/

open List Prod

namespace CtsEngine

/-- The command uses its key with the type of the key. -/
def RedisCommand.WellTyped (kinds : String → KeyKind) : RedisCommand → Prop
  | .get key | .set key _ _ | .setex key _ _ | .incrby key _ => kinds key = .string
  | .hset key _ | .hget key _ | .hgetall key | .hdel key _ | .hincrby key _ _ => kinds key = .hash
  | .sadd key _ | .srem key _ | .smembers key => kinds key = .set
  | .lpush key _ | .rpush key _ | .lrange key _ | .llen key => kinds key = .list
  | .zadd key _ _ | .zscore key _ | .zcard key => kinds key = .zset
  | .del _ | .existsKey _ | .typeOf _ | .expire _ _ | .persist _ | .ttl _ | .sweep _ => True

/-- A write of many things at once: on a key that has not expired; if there is nothing to write, on
a key that is there or has expired. -/
def WritesLive {α : Type} (s : InlineStore) (now : ℚ) (key : String) (values : List α) : Prop :=
  if values = [] then s.isExpired now key = true ∨ s.has key = true
  else s.isExpired now key = false

/-- What the options of `set` make of the time to live is what they say. -/
def SetsTtl (s : InlineStore) (now : ℚ) (key : String) (options : SetOptions) : Prop :=
  match options.EX, options.PX with
  | some seconds, _ => seconds ≠ 0 ∧ now + seconds * 1000 ≠ 0
  | none, some milliseconds => 0 < milliseconds ∧ now + milliseconds ≠ 0
  | none, none => s.ttlOf key = none

/-- What is left of a key is not nothing, unless it has no time to live or has expired. -/
def LeavesNoTtl {α : Type} (s : InlineStore) (now : ℚ) (key : String) (rest : List α) : Prop :=
  rest = [] → s.isExpired now key = true ∨ s.ttlOf key = none

/-- **The condition on the store.** -/
def KeepsStore (localeCompare : String → String → ℤ) (s : InlineStore) (now : ℚ) :
    RedisCommand → Prop
  | .set key _ options =>
    (s.set now key "" options).2 = .ok → SetsTtl s now key options
  | .setex _ seconds _ => now + seconds * 1000 ≠ 0
  | .incrby key _ | .hincrby key _ _ => s.isExpired now key = false
  | .del keys => ∀ key ∈ keys, s.has key = true → s.NotIndexed key
  | .hset key fields => WritesLive s now key fields
  | .sadd key members => WritesLive s now key members ∧ "" ∉ members
  | .lpush key values | .rpush key values => WritesLive s now key values
  | .hdel key fields =>
    ∀ hash, s.data .hash key = some hash → LeavesNoTtl s now key (deleteFields hash fields).1
  | .srem key members =>
    ∀ set, s.data .set key = some set → LeavesNoTtl s now key (deleteMembers set members).1
  | .zadd key _ member =>
    s.isExpired now key = false ∧
      atOwnPlace localeCompare ((s.data .zset key).getD {}) member = true
  | .expire key seconds =>
    s.has key = true → s.isExpired now key = false ∧ now + seconds * 1000 ≠ 0
  | .sweep limit => ∀ key ∈ s.sweptKeys now limit, s.NotIndexed key
  | _ => True

/-- **The condition on the reply.** -/
def RepliesAlike (s : InlineStore) (now : ℚ) : RedisCommand → Prop
  | .del keys => ∀ key ∈ keys, s.has key = true → s.isExpired now key = false
  | .existsKey key => s.has key = true → s.isExpired now key = false
  | .hset key fields =>
    ∀ hash, s.data .hash key = some hash → ∀ entry ∈ fields, entry.1 ∉ hash.map fst
  | .hdel key fields =>
    s.isExpired now key = true → ∀ hash, s.data .hash key = some hash →
      (deleteFields hash fields).2 = 0
  | .srem key members =>
    s.isExpired now key = true → ∀ set, s.data .set key = some set →
      (deleteMembers set members).2 = 0
  | .lpush key values | .rpush key values =>
    values = [] → s.isExpired now key = true → (s.data .list key).getD [] = []
  | _ => True

open InlineStore

variable {kinds : String → KeyKind} {kind : KeyKind} {s : InlineStore} {r : RedisStore} {now : ℚ}
  {key : String}

/-- The stores correspond afterwards, and the replies are equal when a condition holds. -/
structure Conforms (kinds : String → KeyKind) (now : ℚ) (result : InlineStore × Reply)
    (reference : RedisStore × Reply) (alike : Prop) : Prop where
  corresponds : Mirrors kinds result.1 reference.1 now
  replies : result.2 = reference.2 ↔ alike

lemma Mirrors.conforms_read (h : Mirrors kinds s r now) {reply other : Reply}
    (hreply : reply = other) : Conforms kinds now (s, reply) (r, other) True :=
  ⟨h, iff_of_true hreply trivial⟩

/-! ## Reading -/

lemma eq_of_rel {α : Type} {a b : Option α} (h : Option.Rel (· = ·) a b) : a = b := by
  cases h with
  | none => rfl
  | some heq => rw [heq]

lemma Matches.read_string (h : Matches .string s r now key) :
    s.read now .string key = r.read now .string key := eq_of_rel h.read_rel

lemma Matches.read_hash (h : Matches .hash s r now key) :
    s.read now .hash key = r.read now .hash key := eq_of_rel h.read_rel

lemma Matches.read_set (h : Matches .set s r now key) :
    s.read now .set key = r.read now .set key := eq_of_rel h.read_rel

lemma Matches.read_list (h : Matches .list s r now key) :
    s.read now .list key = r.read now .list key := eq_of_rel h.read_rel

lemma Matches.read_zset (h : Matches .zset s r now key) :
    (s.read now .zset key).map SortedSetData.memberIndex = r.read now .zset key ∧
      ((s.read now .zset key).getD {}).entries.length =
        ((r.read now .zset key).getD []).length := by
  generalize hs : s.read now .zset key = payload
  generalize hr : r.read now .zset key = value
  have hrel : Option.Rel (Stands .zset) payload value := by
    rw [← hs, ← hr]
    exact h.read_rel
  cases hrel with
  | none => exact ⟨rfl, rfl⟩
  | some hstands => exact ⟨congrArg some hstands.1, hstands.2⟩

section

variable (h : Matches kind s r now key)

include h

lemma Matches.eq_kind {other : KeyKind}
    (hoth : (s.data other key).isSome = true) : other = kind := by
  by_contra hkind
  rw [h.typed other hkind] at hoth
  cases hoth

lemma Matches.typeName_eq :
    s.typeName now key = ((r.live now key).map fun entry => entry.kind.name).getD "none" := by
  cases hexp : s.isExpired now key with
  | true =>
    rw [typeName, hexp, h.expired hexp]
    rfl
  | false =>
    have hhas := h.has_eq hexp
    rw [typeName, hexp]
    cases hfind : KeyKind.all.find? fun kind => (s.data kind key).isSome with
    | none =>
      have hnone : s.has key = false := by
        rw [has, any_eq_false]
        exact find?_eq_none.mp hfind
      rw [hnone] at hhas
      rw [Option.isSome_eq_false_iff.mp hhas.symm |> Option.isNone_iff_eq_none.mp]
      rfl
    | some other =>
      have hoth := find?_some hfind
      obtain rfl := h.eq_kind hoth
      rw [has_iff.mpr ⟨other, hoth⟩] at hhas
      obtain ⟨entry, hent⟩ := Option.isSome_iff_exists.mp hhas.symm
      obtain ⟨-, -, payload, value, -, hlive, -⟩ := h.live_kind hent
      rw [hlive]
      rfl

lemma Matches.live_of_not_has (hhas : s.has key = false) :
    r.live now key = none := by
  cases hexp : s.isExpired now key with
  | true => exact h.expired hexp
  | false =>
    rw [h.has_eq hexp] at hhas
    exact Option.isNone_iff_eq_none.mp (Option.isSome_eq_false_iff.mp hhas)

lemma Matches.ttlReply_eq : s.ttlReply now key = r.ttlReply now key := by
  cases hexp : s.isExpired now key with
  | true =>
    obtain ⟨expireAt, hexpirAt, -, hpast⟩ := isExpired_iff.mp hexp
    rw [InlineStore.ttlReply, RedisStore.ttlReply, hexpirAt, h.expired hexp]
    exact if_pos hpast
  | false =>
    have hstand := h.fresh hexp
    have hhas := h.has_eq hexp
    unfold StandsFor at hstand
    split at hstand
    · rw [hstand.2] at hhas
      rw [InlineStore.ttlReply, RedisStore.ttlReply, hstand.1, hstand.2, hhas]
      rfl
    · obtain ⟨value, hlive, -⟩ := hstand
      rw [hlive] at hhas
      rw [InlineStore.ttlReply, RedisStore.ttlReply, hlive, hhas]
      cases hexpirAt : s.ttlOf key with
      | none => rfl
      | some expireAt =>
        exact if_neg (lt_of_not_isExpired h.instant hexp hexpirAt).not_ge

lemma Matches.has_iff_live :
    s.has key = (r.live now key).isSome ↔ (s.has key = true → s.isExpired now key = false) := by
  cases hexp : s.isExpired now key with
  | true =>
    rw [h.expired hexp]
    cases s.has key <;> simp
  | false => exact iff_of_true (h.has_eq hexp) fun _ => rfl

end

namespace Mirrors

variable (h : Mirrors kinds s r now)

include h

lemma set (hkind : kinds key = .string) (value : String) (options : SetOptions)
    (hkeeps : (s.set now key "" options).2 = .ok → SetsTtl s now key options) :
    Conforms kinds now (s.set now key value options)
      (r.exec now (.set key value options)) True := by
  have hread := (h.matches_key hkind).read_string
  have hthere : (!s.isExpired now key && (s.data .string key).isSome) =
      (r.read now .string key).isSome := by
    rw [← hread, InlineStore.read]
    cases s.isExpired now key <;> rfl
  rw [InlineStore.set] at hkeeps ⊢
  rw [RedisStore.exec]
  dsimp only at hkeeps ⊢
  rw [hthere] at hkeeps ⊢
  split
  · exact h.conforms_read rfl
  case isFalse hwrit =>
    rw [if_neg hwrit] at hkeeps
    have hsets : SetsTtl s now key options := by
      apply hkeeps
      split
      · rfl
      · split <;> rfl
    obtain ⟨EX, PX, NX, XX⟩ := options
    cases EX with
    | some seconds =>
      dsimp only [Option.getD] at hsets ⊢
      rw [if_pos hsets.1]
      exact ⟨h.writeExpiring hkind hsets.2 rfl, iff_of_true rfl trivial⟩
    | none =>
      cases PX with
      | some milliseconds =>
        dsimp only [Option.getD] at hsets ⊢
        rw [if_pos hsets.1]
        exact ⟨h.writeExpiring hkind hsets.2 rfl, iff_of_true rfl trivial⟩
      | none =>
        exact ⟨h.writeKept hkind hsets rfl, iff_of_true rfl trivial⟩

lemma incrby (hkind : kinds key = .string) (increment : ℤ) (hfresh : s.isExpired now key = false) :
    Conforms kinds now (s.incrby now key increment) (r.exec now (.incrby key increment)) True := by
  rw [InlineStore.incrby, if_neg (by rw [hfresh]; exact Bool.false_ne_true), RedisStore.exec,
    ← (h.matches_key hkind).read_string, read_of_fresh hfresh]
  exact ⟨h.write hkind hfresh rfl, iff_of_true rfl trivial⟩

/-! ## Hashes, sets and lists -/

lemma writeNothing (hkind : kinds key = kind) (payload : Payload kind)
    (hdef : ∀ stored, s.data kind key = some stored → stored = payload)
    (hthere : s.isExpired now key = true ∨ s.has key = true) :
    Mirrors kinds (s.put kind key (some payload)) r now := by
  rcases hthere with hexp | hhas
  · exact h.writeExpired hkind hexp _
  · obtain ⟨other, hoth⟩ := has_iff.mp hhas
    obtain rfl := (h.matches_key hkind).eq_kind hoth
    obtain ⟨stored, hstor⟩ := Option.isSome_iff_exists.mp hoth
    have hsame : s.put other key (some payload) = s := by
      rw [← hdef stored hstor, ← hstor, put, Function.update_eq_self, Function.update_eq_self]
    rwa [hsame]

end Mirrors

variable (localeCompare : String → String → ℤ)

lemma length_insertEntry (entries : List (String × Double)) (entry : String × Double) :
    (insertEntry localeCompare entries entry).length = entries.length + 1 := by
  rw [insertEntry, length_append, length_cons, ← Nat.add_assoc, ← length_append, take_append_drop]

/-- **The sorted set after `zadd`**, when the binary search finds the place of a member that is
there, has the score of the member, and one entry more if the member is new. -/
lemma addEntry_stands {zset : SortedSetData} {value : List (String × Double)} (score : Double)
    {member : String} (hstand : Stands .zset zset value)
    (hplace : atOwnPlace localeCompare zset member = true) :
    Stands .zset (addEntry localeCompare zset score member).1 (Keyed.put value member score) ∧
      (addEntry localeCompare zset score member).2 = !(Keyed.get? value member).isSome := by
  obtain ⟨rfl, hlen⟩ := hstand
  have hsear := hplace
  rw [atOwnPlace] at hsear
  rw [addEntry]
  cases hget : Keyed.get? zset.memberIndex member with
  | none =>
    refine ⟨⟨rfl, ?_⟩, rfl⟩
    have hnew : member ∉ zset.memberIndex.map fst :=
      Keyed.isSome_get?_iff.not.mp (by rw [hget]; exact Bool.false_ne_true)
    rw [length_insertEntry, hlen, Keyed.put_of_new score hnew, length_append]
    rfl
  | some existing =>
    rw [hget] at hsear
    refine ⟨⟨rfl, ?_⟩, rfl⟩
    obtain ⟨entry, hent, -⟩ := (Option.any_eq_true ..).mp hsear
    obtain ⟨hidx, -⟩ := List.getElem?_eq_some_iff.mp hent
    have hthere : member ∈ zset.memberIndex.map fst :=
      Keyed.isSome_get?_iff.mp (by rw [hget]; rfl)
    dsimp only
    rw [if_pos hplace, length_insertEntry, length_eraseIdx_of_lt hidx,
      Keyed.length_put_of_mem score hthere, ← hlen]
    exact Nat.sub_add_cancel (Nat.one_le_of_lt hidx)

lemma mergeFields_eq_nil {fields : List (String × String)} :
    mergeFields [] fields = [] ↔ fields = [] := by
  constructor
  · intro hemp
    refine eq_nil_iff_forall_not_mem.mpr fun entry hent => ?_
    have hmem := (mem_keys_mergeFields [] fields entry.1).mpr (.inr (mem_map_of_mem hent))
    rw [hemp] at hmem
    exact not_mem_nil hmem
  · rintro rfl
    rfl

namespace Mirrors

variable (h : Mirrors kinds s r now)

include h

lemma hset (hkind : kinds key = .hash) (fields : List (String × String))
    (hwrit : WritesLive s now key fields) :
    Conforms kinds now (s.hset key fields) (r.exec now (.hset key fields))
      (RepliesAlike s now (.hset key fields)) := by
  rw [InlineStore.hset, RedisStore.exec]
  dsimp only [RepliesAlike]
  unfold WritesLive at hwrit
  by_cases hflds : fields = []
  · subst hflds
    refine ⟨h.writeNothing hkind _ (fun stored hstor => ?_) hwrit, iff_of_true rfl nofun⟩
    rw [hstor]
    rfl
  · rw [if_neg hflds] at hwrit
    rw [if_neg (mt mergeFields_eq_nil.mp hflds), ← (h.matches_key hkind).read_hash,
      read_of_fresh hwrit]
    refine ⟨h.write hkind hwrit rfl, ?_⟩
    rw [Reply.number.injEq, Option.some_inj, Nat.cast_inj, eq_comm, length_filter_eq_length_iff]
    simp only [decide_eq_true_iff]
    cases s.data .hash key with
    | none => exact iff_of_true (fun _ _ => not_mem_nil) nofun
    | some hash =>
      have hkeys : ∀ field, field ∈ (mergeFields [] fields).map fst ↔
          field ∈ fields.map fst := fun field =>
        (mem_keys_mergeFields [] fields field).trans (or_iff_right not_mem_nil)
      rw [Option.getD_some, ← forall_mem_map (P := fun field => field ∉ hash.map fst)]
      simp only [hkeys, forall_mem_map, Option.some_inj, forall_eq']

lemma hdel (hkind : kinds key = .hash) (fields : List String)
    (hleav : ∀ hash, s.data .hash key = some hash →
      LeavesNoTtl s now key (deleteFields hash fields).1) :
    Conforms kinds now (s.hdel key fields) (r.exec now (.hdel key fields))
      (RepliesAlike s now (.hdel key fields)) := by
  have hread := (h.matches_key hkind).read_hash
  rw [InlineStore.hdel, RedisStore.exec]
  dsimp only [RepliesAlike]
  rw [← hread, InlineStore.read]
  cases hdata : s.data .hash key with
  | none =>
    rw [ite_self]
    exact ⟨h, iff_of_true rfl fun _ _ hnone => absurd hnone (Option.some_ne_none _).symm⟩
  | some hash =>
    have hleave := hleav hash hdata
    cases hexp : s.isExpired now key with
    | true =>
      refine ⟨h.writeExpired hkind hexp _, ?_⟩
      simp
    | false =>
      rw [if_neg Bool.false_ne_true]
      dsimp only
      refine ⟨?_, iff_of_true rfl fun hfalse => absurd hfalse Bool.false_ne_true⟩
      split
      case isTrue hrest => exact h.clear hkind (hleave hrest)
      case isFalse => exact h.write hkind hexp rfl

lemma srem (hkind : kinds key = .set) (members : List String)
    (hleav : ∀ set, s.data .set key = some set →
      LeavesNoTtl s now key (deleteMembers set members).1) :
    Conforms kinds now (s.srem key members) (r.exec now (.srem key members))
      (RepliesAlike s now (.srem key members)) := by
  have hread := (h.matches_key hkind).read_set
  rw [InlineStore.srem, RedisStore.exec]
  dsimp only [RepliesAlike]
  rw [← hread, InlineStore.read]
  cases hdata : s.data .set key with
  | none =>
    rw [ite_self]
    exact ⟨h, iff_of_true rfl fun _ _ hnone => absurd hnone (Option.some_ne_none _).symm⟩
  | some set =>
    have hleave := hleav set hdata
    cases hexp : s.isExpired now key with
    | true =>
      refine ⟨h.writeExpired hkind hexp _, ?_⟩
      simp
    | false =>
      rw [if_neg Bool.false_ne_true]
      dsimp only
      refine ⟨?_, iff_of_true rfl fun hfalse => absurd hfalse Bool.false_ne_true⟩
      split
      case isTrue hrest => exact h.clear hkind (hleave hrest)
      case isFalse => exact h.write hkind hexp rfl

lemma hincrby (hkind : kinds key = .hash) (field : String) (increment : ℤ)
    (hfresh : s.isExpired now key = false) :
    Conforms kinds now (s.hincrby key field increment) (r.exec now (.hincrby key field increment))
      True := by
  rw [RedisStore.exec, ← (h.matches_key hkind).read_hash, read_of_fresh hfresh]
  exact ⟨h.write hkind hfresh rfl, iff_of_true rfl trivial⟩

lemma sadd (hkind : kinds key = .set) (members : List String)
    (hwrit : WritesLive s now key members) (hmems : "" ∉ members) :
    Conforms kinds now (s.sadd key members) (r.exec now (.sadd key members)) True := by
  have hall : members.filter (· ≠ "") = members :=
    filter_eq_self.mpr fun member hmem => decide_eq_true fun hemp =>
      hmems (hemp ▸ hmem)
  rw [InlineStore.sadd, RedisStore.exec, hall]
  unfold WritesLive at hwrit
  by_cases hemp : members = []
  · subst hemp
    refine ⟨h.writeNothing hkind _ (fun stored hstor => ?_) hwrit, iff_of_true ?_ trivial⟩
    · rw [hstor]
      rfl
    · simp [addMembers]
  · rw [if_neg hemp] at hwrit
    rw [if_neg hemp, ← (h.matches_key hkind).read_set, read_of_fresh hwrit]
    exact ⟨h.write hkind hwrit rfl, iff_of_true rfl trivial⟩

/-- **`lpush` and `rpush`**, which leave a list as it is when there is nothing to push. -/
lemma push (hkind : kinds key = .list) (values : List String) (join : List String → List String)
    (hjoin : values = [] → join = id) (hwrit : WritesLive s now key values) :
    Conforms kinds now (s.push key join)
      (if values = [] then r else r.put now .list key (join ((r.read now .list key).getD [])),
        .number (some (join ((r.read now .list key).getD [])).length))
      (values = [] → s.isExpired now key = true → (s.data .list key).getD [] = []) := by
  have hread := (h.matches_key hkind).read_list
  rw [InlineStore.push]
  unfold WritesLive at hwrit
  by_cases hemp : values = []
  · rw [if_pos hemp] at hwrit
    rw [if_pos hemp, hjoin hemp]
    refine ⟨h.writeNothing hkind _ (fun stored hstor => ?_) hwrit, ?_⟩
    · rw [hstor]
      rfl
    · rw [← hread, InlineStore.read]
      cases hexp : s.isExpired now key with
      | true =>
        simp [hemp]
      | false => exact iff_of_true rfl fun _ hfalse => absurd hfalse Bool.false_ne_true
  · rw [if_neg hemp] at hwrit
    rw [if_neg hemp, ← hread, read_of_fresh hwrit]
    exact ⟨h.write hkind hwrit rfl, iff_of_true rfl fun hnone => absurd hnone hemp⟩

/-- **`zadd`**, when the binary search finds the place of a member that is there. -/
lemma zadd (localeCompare : String → String → ℤ) (hkind : kinds key = .zset) (score : Double)
    (member : String) (hfresh : s.isExpired now key = false)
    (hplace : atOwnPlace localeCompare ((s.data .zset key).getD {}) member = true) :
    Conforms kinds now (InlineStore.zadd localeCompare s key score member)
      (r.exec now (.zadd key score member)) True := by
  have hread := (h.matches_key hkind).read_zset
  rw [read_of_fresh hfresh] at hread
  have hidx : ((s.data .zset key).getD {}).memberIndex = (r.read now .zset key).getD [] := by
    rw [← hread.1]
    cases s.data .zset key <;> rfl
  have hadd := addEntry_stands localeCompare score ⟨hidx, hread.2⟩ hplace
  rw [InlineStore.zadd, RedisStore.exec]
  refine ⟨h.write hkind hfresh hadd.1, iff_of_true ?_ trivial⟩
  dsimp only
  rw [hadd.2]
  cases (Keyed.get? ((r.read now .zset key).getD []) member).isSome <;> rfl

lemma expire (seconds : ℚ)
    (hkeeps : s.has key = true → s.isExpired now key = false ∧ now + seconds * 1000 ≠ 0) :
    Conforms kinds now (s.expire now key seconds) (r.exec now (.expire key seconds)) True := by
  have hkey := h.keys key
  rw [InlineStore.expire, RedisStore.exec]
  by_cases hhas : s.has key = true
  · obtain ⟨hfresh, hexpirAt⟩ := hkeeps hhas
    rw [hkey.has_eq hfresh] at hhas
    obtain ⟨entry, hent⟩ := Option.isSome_iff_exists.mp hhas
    rw [hkey.has_eq hfresh, hent]
    exact ⟨h.expireKey hent hexpirAt, iff_of_true rfl trivial⟩
  · rw [if_neg hhas, hkey.live_of_not_has (eq_false_of_ne_true hhas)]
    exact h.conforms_read rfl

lemma persist : Conforms kinds now (s.persist now key) (r.exec now (.persist key)) True := by
  have hkey := h.keys key
  rw [InlineStore.persist, RedisStore.exec]
  cases hexp : s.isExpired now key with
  | true =>
    rw [hkey.expired hexp]
    exact h.conforms_read rfl
  | false =>
    cases hlive : r.live now key with
    | none =>
      have hhas : s.has key = false := by rw [hkey.has_eq hexp, hlive]; rfl
      rw [if_pos (.inr (.inl hhas))]
      exact h.conforms_read rfl
    | some entry =>
      have hhas : s.has key = true := by rw [hkey.has_eq hexp, hlive]; rfl
      have httl := (hkey.live_kind hlive).2.1
      dsimp only
      rw [hhas, httl]
      by_cases hnone : s.ttlOf key = none
      · rw [if_pos (.inr (.inr hnone)), if_pos hnone]
        exact h.conforms_read rfl
      · rw [if_neg (by simp [hnone]), if_neg hnone]
        exact ⟨h.persistKey hlive, iff_of_true rfl trivial⟩

end Mirrors

lemma InlineStore.sweepExamined_sublist (s : InlineStore) (limit : Option ℚ) :
    (s.sweepExamined limit).Sublist s.ttl := by
  unfold sweepExamined
  split
  · exact List.Sublist.refl _
  · exact (take_sublist ..).trans (drop_sublist ..)

lemma Mirrors.isExpired_of_swept (h : Mirrors kinds s r now) {limit : Option ℚ}
    (hkey : key ∈ s.sweptKeys now limit) : s.isExpired now key = true := by
  obtain ⟨entry, hent, rfl⟩ := mem_map.mp hkey
  obtain ⟨hmem, hpast⟩ := mem_filter.mp hent
  have httl : s.ttlOf entry.1 = some entry.2 :=
    Keyed.get?_of_mem h.unique ((s.sweepExamined_sublist limit).subset hmem)
  exact isExpired_of_le (h.keys entry.1).instant httl (of_decide_eq_true hpast)

lemma Mirrors.congr (h : Mirrors kinds s r now) {s' : InlineStore}
    (hdata : s'.data = s.data) (httl : s'.ttl = s.ttl) : Mirrors kinds s' r now := by
  have httl_of : ∀ key, s'.ttlOf key = s.ttlOf key := fun key => by rw [ttlOf, ttlOf, httl]
  refine ⟨by rw [httl]; exact h.unique, fun key => ?_⟩
  obtain ⟨htyped, hinst, hexp, hfresh⟩ := h.keys key
  rw [← isExpired_congr (httl_of key)] at hexp hfresh
  rw [← httl_of key] at hinst hfresh
  rw [← hdata] at htyped hfresh
  exact ⟨htyped, hinst, hexp, hfresh⟩

lemma Mirrors.cleanupExpiredKeys (h : Mirrors kinds s r now) (limit : Option ℚ)
    (hidxd : ∀ key ∈ s.sweptKeys now limit, s.NotIndexed key) :
    Mirrors kinds (s.cleanupExpiredKeys now limit) r now := by
  have huniq : (s.sweptKeys now limit).Nodup :=
    List.Nodup.sublist ((filter_sublist.trans (s.sweepExamined_sublist limit)).map _) h.unique
  have hswept := h.sweep _ huniq fun key hkey => ⟨h.isExpired_of_swept hkey, hidxd key hkey⟩
  rw [InlineStore.cleanupExpiredKeys]
  dsimp only
  split
  · exact hswept.congr rfl rfl
  · split
    · exact hswept.congr rfl rfl
    · exact hswept.congr rfl rfl

/-- **One command.** Under its condition a command keeps the correspondence, and its reply is the
one of the reference store exactly when `RepliesAlike` holds. -/
theorem exec_conforms (h : Mirrors kinds s r now) {command : RedisCommand}
    (htyped : command.WellTyped kinds) (hkeeps : KeepsStore localeCompare s now command) :
    Conforms kinds now (s.exec localeCompare now command) (r.exec now command)
      (RepliesAlike s now command) := by
  cases command with
  | get key =>
    refine h.conforms_read ?_
    rw [(h.matches_key htyped).read_string]
  | set key value options => exact h.set htyped value options hkeeps
  | setex key seconds value =>
    exact ⟨h.writeExpiring htyped hkeeps rfl, iff_of_true rfl trivial⟩
  | incrby key increment => exact h.incrby htyped increment hkeeps
  | del keys =>
    obtain ⟨hcorr, -, hcnt⟩ := h.delKeys keys hkeeps
    refine ⟨hcorr, Iff.trans ?_ hcnt⟩
    rw [InlineStore.exec, RedisStore.exec, Reply.number.injEq, Option.some_inj, Nat.cast_inj]
  | existsKey key =>
    refine ⟨h, Iff.trans ?_ (h.keys key).has_iff_live⟩
    rw [InlineStore.exec, RedisStore.exec]
    cases s.has key <;> cases (r.live now key).isSome <;> simp
  | typeOf key =>
    refine h.conforms_read ?_
    rw [(h.keys key).typeName_eq]
  | hset key fields => exact h.hset htyped fields hkeeps
  | hget key field =>
    refine h.conforms_read ?_
    rw [(h.matches_key htyped).read_hash]
  | hgetall key =>
    refine h.conforms_read ?_
    rw [(h.matches_key htyped).read_hash]
  | hdel key fields => exact h.hdel htyped fields hkeeps
  | hincrby key field increment => exact h.hincrby htyped field increment hkeeps
  | sadd key members => exact h.sadd htyped members hkeeps.1 hkeeps.2
  | srem key members => exact h.srem htyped members hkeeps
  | smembers key =>
    refine h.conforms_read ?_
    rw [(h.matches_key htyped).read_set]
  | lpush key values =>
    refine h.push htyped values _ ?_ hkeeps
    rintro rfl
    rfl
  | rpush key values =>
    refine h.push htyped values (· ++ values) ?_ hkeeps
    rintro rfl
    exact funext append_nil
  | lrange key start =>
    refine h.conforms_read ?_
    rw [(h.matches_key htyped).read_list]
  | llen key =>
    refine h.conforms_read ?_
    rw [(h.matches_key htyped).read_list]
  | zadd key score member => exact h.zadd localeCompare htyped score member hkeeps.1 hkeeps.2
  | zscore key member =>
    refine h.conforms_read ?_
    rw [← (h.matches_key htyped).read_zset.1]
    cases s.read now .zset key <;> rfl
  | zcard key =>
    refine h.conforms_read ?_
    rw [(h.matches_key htyped).read_zset.2]
  | expire key seconds => exact h.expire seconds hkeeps
  | persist key => exact h.persist
  | ttl key =>
    refine h.conforms_read ?_
    rw [(h.keys key).ttlReply_eq]
  | sweep limit => exact ⟨h.cleanupExpiredKeys limit hkeeps, iff_of_true rfl trivial⟩

end CtsEngine

/-! ## Runs of commands -/

namespace CtsEngine

open InlineStore Transition

/-- The store after a command, which is always possible. -/
def InlineStore.step (localeCompare : String → String → ℤ) (s : InlineStore)
    (command : ℚ × RedisCommand) : Option InlineStore :=
  some (s.exec localeCompare command.1 command.2).1

/-- The replies of a run of commands. -/
def InlineStore.replies (localeCompare : String → String → ℤ) :
    InlineStore → List (ℚ × RedisCommand) → List Reply
  | _, [] => []
  | s, (now, command) :: commands =>
    (s.exec localeCompare now command).2 ::
      replies localeCompare (s.exec localeCompare now command).1 commands

/-- The replies of the reference store. -/
def RedisStore.replies : RedisStore → List (ℚ × RedisCommand) → List Reply
  | _, [] => []
  | r, (now, command) :: commands =>
    (r.exec now command).2 :: RedisStore.replies (r.exec now command).1 commands

/-- Times do not decrease, and every key is used with its type. -/
structure WellFormed (kinds : String → KeyKind) (commands : List (ℚ × RedisCommand)) : Prop where
  times : (commands.map fst).Pairwise (· ≤ ·)
  typed : ∀ command ∈ commands, command.2.WellTyped kinds

lemma mirrors_empty (kinds : String → KeyKind) (now : ℚ) : Mirrors kinds {} (fun _ => none) now :=
  ⟨nodup_nil, fun _ => .of_absent (fun _ => rfl) rfl rfl⟩

lemma Mirrors.replies_iff {kinds : String → KeyKind} {s : InlineStore} {r : RedisStore}
    {start : ℚ} (localeCompare : String → String → ℤ) {commands : List (ℚ × RedisCommand)}
    (h : Mirrors kinds s r start) (hst : ∀ command ∈ commands, start ≤ command.1)
    (hform : WellFormed kinds commands)
    (hkeeps : Meets (InlineStore.step localeCompare)
      (fun s command => KeepsStore localeCompare s command.1 command.2) s commands) :
    s.replies localeCompare commands = r.replies commands ↔ Meets (InlineStore.step localeCompare)
        (fun s command => RepliesAlike s command.1 command.2) s commands := by
  induction commands generalizing s r start with
  | nil => exact iff_of_true rfl trivial
  | cons command commands ih =>
    obtain ⟨htimes, htyped⟩ := hform
    rw [map_cons, pairwise_cons, forall_mem_map] at htimes
    rw [forall_mem_cons] at htyped hst
    rw [meets_cons_of_eq_some rfl] at hkeeps ⊢
    obtain ⟨hcorr, hreply⟩ := exec_conforms localeCompare (h.later hst.1) htyped.1 hkeeps.1
    have hrest := ih hcorr htimes.1 ⟨htimes.2, htyped.2⟩ hkeeps.2
    rw [InlineStore.replies, RedisStore.replies, List.cons.injEq, hreply, hrest]

/-- **Refinement.** In a run from the empty store whose steps all meet the condition on the store,
the replies are those of the reference store exactly when all steps meet the condition on the
reply. -/
theorem replies_eq_iff (localeCompare : String → String → ℤ) (kinds : String → KeyKind)
    (commands : List (ℚ × RedisCommand)) (hformed : WellFormed kinds commands)
    (hkeeps : Meets (InlineStore.step localeCompare)
      (fun s command => KeepsStore localeCompare s command.1 command.2) {} commands) :
    InlineStore.replies localeCompare {} commands = RedisStore.replies (fun _ => none) commands ↔
      Meets (InlineStore.step localeCompare)
        (fun s command => RepliesAlike s command.1 command.2) {} commands := by
  cases commands with
  | nil => exact iff_of_true rfl trivial
  | cons command commands =>
    refine (mirrors_empty kinds command.1).replies_iff localeCompare ?_ hformed hkeeps
    have htimes := hformed.times
    rw [map_cons, pairwise_cons, forall_mem_map] at htimes
    exact forall_mem_cons.mpr ⟨le_rfl, htimes.1⟩

/-- A counter with a time to live, which is swept after it has expired. -/
def sweptCounter : List (ℚ × RedisCommand) :=
  [(1000, .setex "k" 10 "1"), (2000, .incrby "k" 2), (12000, .get "k"), (12000, .sweep none)]

lemma InlineStore.notIndexed_of_find? {s : InlineStore} {key : String}
    (h : secondaryIndexes.find? (fun index => hasPrefix index.1 key) = none) :
    s.NotIndexed key := by
  intro setKey
  rw [cleanupSet, h]

theorem replies_sweptCounter : InlineStore.replies (fun _ _ => 0) {} sweptCounter =
        RedisStore.replies (fun _ => none) sweptCounter ↔
      Meets (InlineStore.step fun _ _ => 0)
        (fun s command => RepliesAlike s command.1 command.2) {} sweptCounter := by
  refine replies_eq_iff (fun _ _ => 0) (fun _ => .string) sweptCounter
    ⟨by decide +kernel, by simp [sweptCounter, RedisCommand.WellTyped]⟩ ?_
  refine (meets_cons_of_eq_some rfl).mpr ⟨by norm_num [KeepsStore], ?_⟩
  refine (meets_cons_of_eq_some rfl).mpr ⟨?_, ?_⟩
  · change InlineStore.isExpired _ _ _ = false
    decide +kernel
  refine (meets_cons_of_eq_some rfl).mpr ⟨trivial, ?_⟩
  refine (meets_cons_of_eq_some rfl).mpr ⟨fun key hkey => notIndexed_of_find? ?_, trivial⟩
  revert key
  decide +kernel

/-- A counter that is written after it has expired. -/
def expiredCounter : List (ℚ × RedisCommand) :=
  [(1000, .setex "k" 1 "1"), (5000, .incrby "k" 1), (5001, .get "k")]

/-- **The stale time to live.** The increment of an expired counter is lost at once. -/
theorem replies_expiredCounter :
    ¬ ∀ (localeCompare : String → String → ℤ) (kinds : String → KeyKind)
      (commands : List (ℚ × RedisCommand)), WellFormed kinds commands →
        InlineStore.replies localeCompare {} commands =
          RedisStore.replies (fun _ => none) commands := by
  intro h
  have hreplies := h (fun _ _ => 0) (fun _ => .string) expiredCounter
    ⟨by decide +kernel, by simp [expiredCounter, RedisCommand.WellTyped]⟩
  exact absurd hreplies (by decide +kernel)

end CtsEngine
