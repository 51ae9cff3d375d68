import CtsEngine.Foundation.Comparison
import CtsEngine.Foundation.IndexRange
import CtsEngine.Foundation.PartitionPoint
import CtsEngine.InlineRedis.Correspondence

/-!
# Sorted sets

The entries of a sorted set stand in the order of scores and, for equal scores, of members; the
index has the score of each member.  Additions and removals find their places by halving.  While the
entries are in order and agree with the index every halving finds the right place, so both stay so.
-/

namespace CtsEngine

open Option List PartitionPoint Keyed Double

/-- `a <= b`. -/
def Double.le (a b : Double) : Bool := lt a b || eq a b

/-- A bound of a range of scores. -/
inductive ScoreBound
  | number (value : Double)
  | text (value : String)

def parseSortedSetScore (value : ScoreBound) (fallbackInfinity : Double) : Double :=
  let parsed :=
    match value with
    | .number value => value
    | .text value =>
      if value = "-inf" then .infinity true
      else if value = "+inf" then .infinity false
      else numberOfString value
  if parsed = .nan then fallbackInfinity else parsed

/-- The lower bound of a range. -/
def minValue (min : ScoreBound) : Double := parseSortedSetScore min (.infinity true)

/-- The upper bound of a range. -/
def maxValue (max : ScoreBound) : Double := parseSortedSetScore max (.infinity false)

def lowerBoundByScore (entries : List (String × Double)) (score : Double) : ℕ :=
  search (fun entry => entry.2.lt score) entries

def upperBoundByScore (entries : List (String × Double)) (score : Double) : ℕ :=
  search (fun entry => entry.2.le score) entries

/-- The sorted set without a slice of its entries that begins at a place. -/
def SortedSetData.splice (zset : SortedSetData) (start : ℕ) (removed : List (String × Double)) :
    SortedSetData where
  entries := zset.entries.take start ++ zset.entries.drop (start + removed.length)
  memberIndex := removed.foldl (fun memberIndex entry =>
    memberIndex.filter fun other => other.1 ≠ entry.1) zset.memberIndex

namespace InlineStore

/-- Store what remains of a sorted set, or delete its key. -/
def storeRest (s : InlineStore) (key : String) (rest : SortedSetData) : InlineStore :=
  s.put .zset key (if rest.entries.length = 0 then none else some rest)

def zremrangebyscore (s : InlineStore) (key : String) (min max : ScoreBound) : InlineStore × ℕ :=
  match s.data .zset key with
  | none => (s, 0)
  | some zset =>
    let start := lowerBoundByScore zset.entries (minValue min)
    let stop := upperBoundByScore zset.entries (maxValue max)
    let removed := (zset.entries.take stop).drop start
    if removed.length = 0 then (s, 0)
    else (s.storeRest key (zset.splice start removed), removed.length)

def zremrangebyrank (s : InlineStore) (key : String) (start stop : ℤ) : InlineStore × ℕ :=
  match s.data .zset key with
  | none => (s, 0)
  | some zset =>
    let length : ℤ := zset.entries.length
    let first := if start < 0 then max 0 (length + start) else max 0 start
    let last := if stop < 0 then length + stop else min (length - 1) stop
    if length = 0 ∨ last < first ∨ length ≤ first then (s, 0)
    else
      let removed := (zset.entries.take (last + 1).toNat).drop first.toNat
      (s.storeRest key (zset.splice first.toNat removed), removed.length)

def zrangebyscore (s : InlineStore) (now : ℚ) (key : String) (min max : ScoreBound) : List String :=
  let entries := ((s.read now .zset key).getD {}).entries
  ((entries.take (upperBoundByScore entries (maxValue max))).drop
    (lowerBoundByScore entries (minValue min))).map Prod.fst

def zcount (s : InlineStore) (now : ℚ) (key : String) (min max : ScoreBound) : ℤ :=
  let entries := ((s.read now .zset key).getD {}).entries
  (upperBoundByScore entries (maxValue max) : ℤ) - lowerBoundByScore entries (minValue min)

end InlineStore

/-- A change of a sorted set. -/
inductive SortedSetCommand
  | zadd (key : String) (score : Double) (member : String)
  | zremrangebyscore (key : String) (min max : ScoreBound)
  | zremrangebyrank (key : String) (start stop : ℤ)

section Runs

variable (localeCompare : String → String → ℤ)

/-- The store after a change. -/
def SortedSetCommand.perform (s : InlineStore) : SortedSetCommand → InlineStore
  | .zadd key score member => (InlineStore.zadd localeCompare s key score member).1
  | .zremrangebyscore key min max => (s.zremrangebyscore key min max).1
  | .zremrangebyrank key start stop => (s.zremrangebyrank key start stop).1

/-- The store after changes of an empty one. -/
def afterCommands (commands : List SortedSetCommand) : InlineStore :=
  commands.foldl (SortedSetCommand.perform localeCompare) {}

end Runs

/-- An entry of a member among `members` with a finite score. -/
def Listed (members : Set String) (entry : String × Double) : Prop :=
  entry.1 ∈ members ∧ ∃ q, entry.2 = .finite q

/-- A change that adds finite scores of members among `members` only. -/
def SortedSetCommand.AddsListed (members : Set String) : SortedSetCommand → Prop
  | .zadd _ score member => Listed members (member, score)
  | _ => True

/-- The entries stand in order, and the index has exactly their scores. -/
structure SortedAndIndexed (localeCompare : String → String → ℤ) (members : Set String)
    (zset : SortedSetData) : Prop where
  sorted : zset.entries.Pairwise fun a b => entryBefore localeCompare a b = true
  indexed : ∀ member score,
    (member, score) ∈ zset.entries ↔ get? zset.memberIndex member = some score
  unique : KeysUnique zset.memberIndex
  listed : ∀ entry ∈ zset.entries, Listed members entry

namespace StrictlyOrders

variable {localeCompare : String → String → ℤ} {members : Set String} {a b c : String × Double}

section

variable (h : StrictlyOrders localeCompare members) (ha : Listed members a)

include h ha

lemma before_irrefl : ¬entryBefore localeCompare a a = true := by
  obtain ⟨hmem, q, hq⟩ := ha
  simpa [entryBefore, hq] using h.irrefl _ hmem

lemma before_trans (hb : Listed members b) (hc : Listed members c)
    (hab : entryBefore localeCompare a b = true)
    (hbc : entryBefore localeCompare b c = true) : entryBefore localeCompare a c = true := by
  obtain ⟨hma, p, hp⟩ := ha
  obtain ⟨hmb, q, hq⟩ := hb
  obtain ⟨hmc, r, hr⟩ := hc
  have htrans := h.trans _ hma _ hmb _ hmc
  simp only [entryBefore, hp, hq, hr] at hab hbc ⊢
  grind

lemma before_total (hb : Listed members b) (hne : a.1 ≠ b.1) :
    entryBefore localeCompare a b = true ∨ entryBefore localeCompare b a = true := by
  obtain ⟨hma, p, hp⟩ := ha
  obtain ⟨hmb, q, hq⟩ := hb
  have htot := h.total _ hma _ hmb hne
  simp only [entryBefore, hp, hq]
  rcases lt_trichotomy p q with hlt | rfl | hlt
  · exact .inl (by rw [if_neg hlt.ne]; simpa using hlt)
  · simpa using htot
  · exact .inr (by rw [if_neg hlt.ne]; simpa using hlt)

end

end StrictlyOrders

/-! ## The place of an entry -/

section Places

variable {localeCompare : String → String → ℤ} {members : Set String}
  {entries : List (String × Double)} {entry : String × Double}

variable (entries) (localeCompare) (entry)

lemma insertionIndexFrom_eq
    (fuel low high : ℕ) : insertionIndexFrom localeCompare entries entry fuel low high =
      searchFrom (fun other => entryBefore localeCompare other entry) entries fuel low high := by
  induction fuel generalizing low high with
  | zero => rfl
  | succ fuel ih =>
    rw [insertionIndexFrom, searchFrom]
    dsimp only
    rw [ih, ih]

lemma insertionIndex_eq :
    insertionIndex localeCompare entries entry =
      search (fun other => entryBefore localeCompare other entry) entries :=
  insertionIndexFrom_eq ..

variable {entry} {localeCompare} {entries}

section

variable (h : StrictlyOrders localeCompare members)
  (hsort : entries.Pairwise fun a b => entryBefore localeCompare a b = true)
  (hlist : ∀ other ∈ entries, Listed members other) (hent : Listed members entry)

include h hsort hlist hent

lemma partitioned_before :
    Partitioned (fun other => entryBefore localeCompare other entry) entries :=
  hsort.imp_of_mem fun ha hb hab hbef =>
    h.before_trans (hlist _ ha) (hlist _ hb) hent hab hbef

lemma insertEntry_eq : insertEntry localeCompare entries entry =
      (entries.filter fun other => entryBefore localeCompare other entry) ++
        entry :: entries.filter fun other => !entryBefore localeCompare other entry := by
  have hpart := partitioned_before h hsort hlist hent
  rw [insertEntry, insertionIndex_eq, hpart.take_search, hpart.drop_search]

end

lemma insertionIndex_append (h : StrictlyOrders localeCompare members)
    {before after : List (String × Double)}
    (hsort : (before ++ entry :: after).Pairwise fun a b => entryBefore localeCompare a b = true)
    (hlist : ∀ other ∈ before ++ entry :: after, Listed members other) :
    insertionIndex localeCompare (before ++ entry :: after) entry = before.length := by
  have hent := hlist entry (by simp)
  have hbef := (pairwise_append.mp hsort).2.2
  rw [insertionIndex_eq, (partitioned_before h hsort hlist hent).search_eq,
    takeWhile_append_of_pos fun other hoth => hbef other hoth entry (by simp),
    takeWhile_cons_of_neg (p := fun other => entryBefore localeCompare other entry)
      (h.before_irrefl hent), append_nil]

lemma mem_insertEntry (localeCompare : String → String → ℤ) (entries : List (String × Double))
    (entry other : String × Double) :
    other ∈ insertEntry localeCompare entries entry ↔ other = entry ∨ other ∈ entries := by
  rw [insertEntry, mem_append, mem_cons, or_left_comm, ← mem_append, take_append_drop]

lemma sorted_insertEntry (h : StrictlyOrders localeCompare members)
    (hsort : entries.Pairwise fun a b => entryBefore localeCompare a b = true)
    (hlist : ∀ other ∈ entries, Listed members other) (hent : Listed members entry)
    (hnew : ∀ other ∈ entries, other.1 ≠ entry.1) :
    (insertEntry localeCompare entries entry).Pairwise
      fun a b => entryBefore localeCompare a b = true := by
  have hafter : ∀ other ∈ entries.filter fun other => !entryBefore localeCompare other entry,
      entryBefore localeCompare entry other = true := by
    intro other hoth
    obtain ⟨hmem, hnot⟩ := mem_filter.mp hoth
    refine (h.before_total hent (hlist other hmem) (hnew other hmem).symm).resolve_right ?_
    simpa using hnot
  rw [insertEntry_eq h hsort hlist hent, pairwise_append, pairwise_cons]
  refine ⟨hsort.sublist filter_sublist, ⟨hafter, hsort.sublist filter_sublist⟩, ?_⟩
  intro a ha b hb
  obtain ⟨hmem, hbef⟩ := mem_filter.mp ha
  rcases mem_cons.mp hb with rfl | hb
  · exact hbef
  · exact h.before_trans (hlist a hmem) hent (hlist b (mem_of_mem_filter hb)) hbef (hafter b hb)

end Places

namespace SortedAndIndexed

variable {localeCompare : String → String → ℤ} {members : Set String} {zset : SortedSetData}

lemma empty (localeCompare : String → String → ℤ) (members : Set String) :
    SortedAndIndexed localeCompare members {} where
  sorted := List.Pairwise.nil
  indexed _ _ := by simp [get?]
  unique := nodup_nil
  listed _ h := absurd h not_mem_nil

section

variable (h : SortedAndIndexed localeCompare members zset)

include h

lemma nodup (hstric : StrictlyOrders localeCompare members) : zset.entries.Nodup := by
  refine List.Pairwise.imp_of_mem ?_ h.sorted
  rintro entry _ hent - hbef rfl
  exact hstric.before_irrefl (h.listed entry hent) hbef

lemma eq_of_member {a b : String × Double}
    (ha : a ∈ zset.entries) (hb : b ∈ zset.entries) (heq : a.1 = b.1) : a = b := by
  have hscore := (h.indexed a.1 a.2).mp ha
  rw [heq, (h.indexed b.1 b.2).mp hb, some.injEq] at hscore
  exact Prod.ext heq hscore.symm

lemma perm (hstric : StrictlyOrders localeCompare members) :
    zset.entries.Perm zset.memberIndex := by
  refine (perm_ext_iff_of_nodup (h.nodup hstric)
    (List.Nodup.of_map Prod.fst h.unique)).mpr fun entry => ?_
  rw [h.indexed entry.1 entry.2]
  exact ⟨mem_of_get?, get?_of_mem h.unique⟩

lemma insert (hstric : StrictlyOrders localeCompare members) {rest : List (String × Double)}
    {member : String} {score : Double} (hent : Listed members (member, score))
    (hsub : rest.Sublist zset.entries)
    (hrest : ∀ other ∈ zset.entries, other ∈ rest ↔ other.1 ≠ member) :
    SortedAndIndexed localeCompare members
      ⟨insertEntry localeCompare rest (member, score), put zset.memberIndex member score⟩ := by
  have hlist : ∀ other ∈ rest, Listed members other := fun other hoth =>
    h.listed other (hsub.subset hoth)
  have hnew : ∀ other ∈ rest, other.1 ≠ member := fun other hoth =>
    (hrest other (hsub.subset hoth)).mp hoth
  refine ⟨sorted_insertEntry hstric (h.sorted.sublist hsub) hlist hent hnew, ?_,
    h.unique.put member score, ?_⟩
  · intro other value
    rw [mem_insertEntry]
    by_cases hoth : other = member
    · subst hoth
      rw [get?_put_self, some.injEq, Prod.mk.injEq, eq_comm (a := score)]
      exact ⟨fun hmem => hmem.elim And.right fun hmem => absurd rfl (hnew _ hmem),
        fun heq => .inl ⟨rfl, heq⟩⟩
    · rw [get?_put_of_ne _ _ hoth, ← h.indexed]
      refine ⟨fun hmem => hmem.elim (fun heq => absurd (congrArg Prod.fst heq) hoth)
        fun hmem => hsub.subset hmem, fun hmem => .inr ((hrest _ hmem).mpr hoth)⟩
  · intro other hoth
    rcases (mem_insertEntry ..).mp hoth with rfl | hmem
    · exact hent
    · exact hlist other hmem

lemma addEntry (hstric : StrictlyOrders localeCompare members) {member : String} {score : Double}
    (hent : Listed members (member, score)) :
    SortedAndIndexed localeCompare members (addEntry localeCompare zset score member).1 := by
  rw [CtsEngine.addEntry]
  rcases hget : get? zset.memberIndex member with - | existing
  · refine h.insert hstric hent (List.Sublist.refl _) fun other hmem => ?_
    refine iff_of_true hmem fun heq => ?_
    have hscore := (h.indexed other.1 other.2).mp hmem
    rw [heq, hget] at hscore
    cases hscore
  · obtain ⟨before, after, hsplit⟩ := append_of_mem ((h.indexed member existing).mpr hget)
    have hplace : insertionIndex localeCompare zset.entries (member, existing) = before.length := by
      rw [hsplit]
      exact insertionIndex_append hstric (hsplit ▸ h.sorted) (hsplit ▸ h.listed)
    have hown : atOwnPlace localeCompare zset member = true := by
      rw [atOwnPlace, hget]
      dsimp only
      rw [hplace, hsplit]
      simp
    have herase : zset.entries.eraseIdx before.length = before ++ after := by
      rw [hsplit, eraseIdx_append_of_length_le le_rfl, Nat.sub_self, eraseIdx_zero, tail_cons]
    dsimp only
    rw [if_pos hown, hplace, herase]
    have hnodup := h.nodup hstric
    rw [hsplit, perm_middle.nodup_iff, nodup_cons] at hnodup
    refine h.insert hstric hent ?_ fun other hmem => ?_
    · rw [hsplit]
      exact (sublist_cons_self _ _).append_left _
    · refine ⟨fun hrest heq => ?_, fun hne => ?_⟩
      · have hsame := h.eq_of_member hmem ((h.indexed member existing).mpr hget) heq
        subst hsame
        exact hnodup.1 hrest
      · rw [hsplit] at hmem
        simp only [mem_append, mem_cons] at hmem ⊢
        rcases hmem with hmem | rfl | hmem
        · exact .inl hmem
        · exact absurd rfl hne
        · exact .inr hmem

end

end SortedAndIndexed

/-! ## Runs -/

variable (removed : List (String × Double))

lemma mem_foldl_filter (memberIndex : List (String × Double))
    (entry : String × Double) :
    entry ∈ removed.foldl (fun memberIndex gone =>
        memberIndex.filter fun other => other.1 ≠ gone.1) memberIndex ↔
      entry ∈ memberIndex ∧ ∀ gone ∈ removed, entry.1 ≠ gone.1 := by
  induction removed generalizing memberIndex with
  | nil => simp
  | cons gone removed ih =>
    rw [foldl_cons, ih, mem_filter, forall_mem_cons, and_assoc, decide_eq_true_eq]

lemma keysUnique_foldl_filter {memberIndex : List (String × Double)} (h : KeysUnique memberIndex) :
    KeysUnique (removed.foldl (fun memberIndex gone =>
      memberIndex.filter fun other => other.1 ≠ gone.1) memberIndex) := by
  induction removed generalizing memberIndex with
  | nil => exact h
  | cons gone removed ih => exact ih (h.sublist (filter_sublist.map Prod.fst))

namespace SortedAndIndexed

variable {localeCompare : String → String → ℤ} {members : Set String} {zset : SortedSetData}

lemma splice (h : SortedAndIndexed localeCompare members zset)
    (hstric : StrictlyOrders localeCompare members) (start stop : ℕ) :
    SortedAndIndexed localeCompare members
      (zset.splice start ((zset.entries.take stop).drop start)) := by
  have hparts := IndexRange.take_append_slice_append_drop zset.entries start stop
  generalize (zset.entries.take stop).drop start = removed at hparts ⊢
  have hnodup := h.nodup hstric
  have hsub : (zset.splice start removed).entries.Sublist zset.entries := by
    have hinner := sublist_append_right removed (zset.entries.drop (start + removed.length))
    have houter := hinner.append_left (zset.entries.take start)
    rwa [hparts] at houter
  have hmem : ∀ entry, entry ∈ (zset.splice start removed).entries ↔
      entry ∈ zset.entries ∧ entry ∉ removed := by
    intro entry
    rw [← hparts, nodup_append, nodup_append] at hnodup
    have hall : entry ∈ zset.entries ↔ entry ∈ zset.entries.take start ∨ entry ∈ removed ∨
        entry ∈ zset.entries.drop (start + removed.length) := by
      conv_lhs => rw [← hparts]
      rw [mem_append, mem_append]
    rw [hall, SortedSetData.splice, mem_append]
    obtain ⟨-, ⟨-, -, hright⟩, hleft⟩ := hnodup
    constructor
    · rintro (hin | hin)
      · exact ⟨.inl hin, fun hgone => hleft _ hin _ (mem_append_left _ hgone) rfl⟩
      · exact ⟨.inr (.inr hin), fun hgone => hright _ hgone _ hin rfl⟩
    · tauto
  refine ⟨h.sorted.sublist hsub, fun member score => ?_, keysUnique_foldl_filter removed h.unique,
    fun entry hent => h.listed entry (hsub.subset hent)⟩
  have huniq := keysUnique_foldl_filter removed h.unique
  have hget : get? (zset.splice start removed).memberIndex member = some score ↔
      (member, score) ∈ (zset.splice start removed).memberIndex :=
    ⟨mem_of_get?, get?_of_mem huniq⟩
  have hold : (member, score) ∈ zset.memberIndex ↔ (member, score) ∈ zset.entries :=
    ((h.perm hstric).mem_iff).symm
  have hgone : ∀ gone ∈ removed, gone ∈ zset.entries := by
    intro gone hin
    rw [← hparts]
    exact mem_append_right _ (mem_append_left _ hin)
  rw [hget, hmem, SortedSetData.splice, mem_foldl_filter, hold]
  refine and_congr_right fun hent => ⟨fun hnot gone hin heq => ?_, fun hne hin => hne _ hin rfl⟩
  have hsame := h.eq_of_member hent (hgone gone hin) heq
  exact hnot (hsame ▸ hin)

end SortedAndIndexed

/-- The sorted sets of a store are in order, and nothing in it expires. -/
structure StoreInOrder (localeCompare : String → String → ℤ) (members : Set String)
    (s : InlineStore) : Prop where
  inOrder : ∀ key zset, s.data .zset key = some zset → SortedAndIndexed localeCompare members zset
  ttl_nil : s.ttl = []

namespace StoreInOrder

variable {localeCompare : String → String → ℤ} {members : Set String} {s : InlineStore}

lemma empty (localeCompare : String → String → ℤ) (members : Set String) :
    StoreInOrder localeCompare members {} where
  inOrder _ _ h := by cases h
  ttl_nil := rfl

section

variable (h : StoreInOrder localeCompare members s)

include h

lemma getD (key : String) :
    SortedAndIndexed localeCompare members ((s.data .zset key).getD {}) := by
  rcases hdata : s.data .zset key with - | zset
  · exact SortedAndIndexed.empty localeCompare members
  · exact h.inOrder key zset hdata

lemma put (key : String) {value : Option SortedSetData}
    (hval : ∀ zset, value = some zset → SortedAndIndexed localeCompare members zset) :
    StoreInOrder localeCompare members (s.put .zset key value) where
  inOrder other zset hdata := by
    by_cases hoth : other = key
    · subst hoth
      rw [InlineStore.data_put_self] at hdata
      exact hval zset hdata
    · rw [InlineStore.data_put_of_ne _ _ _ _ hoth] at hdata
      exact h.inOrder other zset hdata
  ttl_nil := h.ttl_nil

lemma storeRest (key : String) {rest : SortedSetData}
    (hrest : SortedAndIndexed localeCompare members rest) :
    StoreInOrder localeCompare members (s.storeRest key rest) := by
  refine h.put key fun zset hzset => ?_
  split_ifs at hzset
  exact some.inj hzset ▸ hrest

lemma perform (hstric : StrictlyOrders localeCompare members) {command : SortedSetCommand}
    (hadds : command.AddsListed members) :
    StoreInOrder localeCompare members (command.perform localeCompare s) := by
  cases command with
  | zadd key score member =>
    refine h.put key fun zset hzset => ?_
    exact some.inj hzset ▸ (h.getD key).addEntry hstric hadds
  | zremrangebyscore key min max =>
    rw [SortedSetCommand.perform, InlineStore.zremrangebyscore]
    rcases hdata : s.data .zset key with - | zset
    · exact h
    dsimp only
    split_ifs
    · exact h
    · exact h.storeRest key ((h.inOrder key zset hdata).splice hstric _ _)
  | zremrangebyrank key start stop =>
    rw [SortedSetCommand.perform, InlineStore.zremrangebyrank]
    rcases hdata : s.data .zset key with - | zset
    · exact h
    have hrest := fun start stop => h.storeRest key
      ((h.inOrder key zset hdata).splice hstric start stop)
    dsimp only
    split_ifs
    all_goals first | exact h | exact hrest _ _

end

lemma afterCommands (hstric : StrictlyOrders localeCompare members)
    {commands : List SortedSetCommand} (hadds : ∀ command ∈ commands, command.AddsListed members) :
    StoreInOrder localeCompare members (afterCommands localeCompare commands) := by
  have hrun : ∀ s, StoreInOrder localeCompare members s → StoreInOrder localeCompare members
        (commands.foldl (SortedSetCommand.perform localeCompare) s) := by
    induction commands with
    | nil => exact fun s hs => hs
    | cons command commands ih =>
      intro s hs
      obtain ⟨hfst, hrest⟩ := forall_mem_cons.mp hadds
      exact ih hrest _ (hs.perform hstric hfst)
  exact hrun {} (empty localeCompare members)

lemma read_eq (h : StoreInOrder localeCompare members s) (now : ℚ) (key : String) :
    s.read now .zset key = s.data .zset key := by
  rw [InlineStore.read, InlineStore.isExpired, InlineStore.ttlOf, h.ttl_nil]
  rfl

end StoreInOrder

/-! ## Queries -/

/-- `min <= score && score <= max`. -/
def inScoreRange (min max : ScoreBound) (entry : String × Double) : Bool :=
  (minValue min).le entry.2 && entry.2.le (maxValue max)

/-- What a sorted set and its queries say: the entries are those of the index in order, and every
query is read off the index. -/
structure AnswersFromIndex (localeCompare : String → String → ℤ) (s : InlineStore) (now : ℚ)
    (key : String) (zset : SortedSetData) (min max : ScoreBound) : Prop where
  sorted : zset.entries.Pairwise fun a b => entryBefore localeCompare a b = true
  perm : zset.entries.Perm zset.memberIndex
  unique : KeysUnique zset.memberIndex
  range : s.zrangebyscore now key min max =
    (zset.entries.filter (inScoreRange min max)).map Prod.fst
  range_perm : (s.zrangebyscore now key min max).Perm
    ((zset.memberIndex.filter (inScoreRange min max)).map Prod.fst)
  count : s.zcount now key min max = (zset.memberIndex.filter (inScoreRange min max)).length
  score : ∀ member, (s.exec localeCompare now (.zscore key member)).2 =
    ((get? zset.memberIndex member).map Reply.score).getD .null
  card : (s.exec localeCompare now (.zcard key)).2 = .number (some zset.memberIndex.length)

section Queries

variable {localeCompare : String → String → ℤ} {members : Set String} {zset : SortedSetData}

lemma parseSortedSetScore_ne_nan (value : ScoreBound) {fallback : Double} (h : fallback ≠ .nan) :
    parseSortedSetScore value fallback ≠ .nan := by
  unfold parseSortedSetScore
  dsimp only
  split_ifs with hpars <;> assumption

lemma tests_of_le {p q : ℚ} (h : p ≤ q) (bound : Double) :
    ((finite q).lt bound = true → (finite p).lt bound = true) ∧
      ((finite q).le bound = true → (finite p).le bound = true) := by
  rcases bound with r | negative | -
  · simp only [le, lt, eq, Bool.or_eq_true, decide_eq_true_eq]
    exact ⟨h.trans_lt, fun hle => (h.trans (hle.elim le_of_lt le_of_eq)).lt_or_eq⟩
  · exact ⟨id, id⟩
  · exact ⟨id, id⟩

/-- A finite score is not below a bound exactly when the bound is at most the score. -/
lemma not_lt_eq_le {bound : Double} (h : bound ≠ .nan) (q : ℚ) :
    (!(finite q).lt bound) = bound.le (.finite q) := by
  rcases bound with p | negative | -
  · simp only [lt, le, eq]
    rcases lt_trichotomy p q with hlt | rfl | hlt
    · simp [hlt, hlt.le]
    · simp
    · simp [hlt, hlt.not_gt, hlt.ne']
  · cases negative <;> rfl
  · exact absurd rfl h

/-- A finite score is above a bound exactly when it is not at most the bound. -/
lemma not_le_eq_lt {bound : Double} (h : bound ≠ .nan) (q : ℚ) :
    (!(finite q).le bound) = bound.lt (.finite q) := by
  rcases bound with p | negative | -
  · simp only [lt, le, eq]
    rcases lt_trichotomy p q with hlt | rfl | hlt
    · simp [hlt, hlt.not_gt, hlt.ne']
    · simp
    · simp [hlt, hlt.le]
  · cases negative <;> rfl
  · exact absurd rfl h

section

variable (h : SortedAndIndexed localeCompare members zset)

include h

lemma SortedAndIndexed.partitioned (bound : Double) :
    Partitioned (fun entry => entry.2.lt bound) zset.entries ∧
      Partitioned (fun entry => entry.2.le bound) zset.entries := by
  have hscor : zset.entries.Pairwise fun a b =>
      ∃ p q : ℚ, a.2 = .finite p ∧ b.2 = .finite q ∧ p ≤ q := by
    refine List.Pairwise.imp_of_mem (fun {a b} ha hb hbef => ?_) h.sorted
    obtain ⟨-, p, hp⟩ := h.listed a ha
    obtain ⟨-, q, hq⟩ := h.listed b hb
    refine ⟨p, q, hp, hq, ?_⟩
    simp only [entryBefore, hp, hq] at hbef
    split_ifs at hbef with heq
    · exact heq.le
    · exact (of_decide_eq_true hbef).le
  constructor <;> refine hscor.imp ?_ <;> rintro a b ⟨p, q, hp, hq, hle⟩ <;> dsimp only <;>
    rw [hp, hq]
  · exact (tests_of_le hle bound).1
  · exact (tests_of_le hle bound).2

lemma SortedAndIndexed.drop_take (min max : ScoreBound) :
    (zset.entries.take (upperBoundByScore zset.entries (maxValue max))).drop
        (lowerBoundByScore zset.entries (minValue min)) =
      zset.entries.filter (inScoreRange min max) := by
  rw [upperBoundByScore, lowerBoundByScore,
    (h.partitioned (minValue min)).1.drop_take_search (h.partitioned (maxValue max)).2]
  refine filter_congr fun entry hent => ?_
  obtain ⟨-, q, hq⟩ := h.listed entry hent
  rw [inScoreRange, hq, minValue, not_lt_eq_le (parseSortedSetScore_ne_nan min (by decide))]

lemma SortedAndIndexed.sub_eq (min max : ScoreBound) :
    (upperBoundByScore zset.entries (maxValue max) : ℤ) -
        lowerBoundByScore zset.entries (minValue min) =
      ((zset.entries.filter (inScoreRange min max)).length : ℤ) - (zset.entries.filter fun entry =>
          entry.2.lt (minValue min) && (maxValue max).lt entry.2).length := by
  rw [upperBoundByScore, lowerBoundByScore,
    (h.partitioned (minValue min)).1.sub_search (h.partitioned (maxValue max)).2]
  congr 3
  all_goals
    refine filter_congr fun entry hent => ?_
    obtain ⟨-, q, hq⟩ := h.listed entry hent
  · rw [inScoreRange, hq, minValue, not_lt_eq_le (parseSortedSetScore_ne_nan min (by decide))]
  · rw [hq, maxValue, not_le_eq_lt (parseSortedSetScore_ne_nan max (by decide))]

end

end Queries

/-- After every run, a sorted set and its queries are read off the index exactly when no member's
score lies above the upper bound and below the lower one. -/
theorem answersFromIndex_iff {localeCompare : String → String → ℤ} {members : Set String}
    (hstrict : StrictlyOrders localeCompare members) {commands : List SortedSetCommand}
    (hadds : ∀ command ∈ commands, command.AddsListed members) (now : ℚ) (key : String)
    (min max : ScoreBound) :
    AnswersFromIndex localeCompare (afterCommands localeCompare commands) now key
        (((afterCommands localeCompare commands).data .zset key).getD {}) min max ↔
      ∀ entry ∈ (((afterCommands localeCompare commands).data .zset key).getD {}).memberIndex,
        ¬((maxValue max).lt entry.2 = true ∧ entry.2.lt (minValue min) = true) := by
  have hstore := StoreInOrder.afterCommands hstrict hadds
  have hread := hstore.read_eq now key
  have hset := hstore.getD key
  generalize afterCommands localeCompare commands = s at hread hset ⊢
  generalize hzset : (s.data .zset key).getD {} = zset at hset ⊢
  have hperm := hset.perm hstrict
  have hrange : s.zrangebyscore now key min max =
      (zset.entries.filter (inScoreRange min max)).map Prod.fst := by
    rw [InlineStore.zrangebyscore, hread, hzset]
    exact congrArg _ (hset.drop_take min max)
  have hcount : s.zcount now key min max =
      ((zset.memberIndex.filter (inScoreRange min max)).length : ℤ) -
        (zset.memberIndex.filter fun entry =>
          entry.2.lt (minValue min) && (maxValue max).lt entry.2).length := by
    rw [InlineStore.zcount, hread, hzset, ← (hperm.filter _).length_eq, ←
      (hperm.filter _).length_eq]
    exact hset.sub_eq min max
  constructor
  · intro h entry hentry hcross
    have hzero := h.count
    rw [hcount, sub_eq_self, Nat.cast_eq_zero, length_eq_zero_iff, filter_eq_nil_iff] at hzero
    exact hzero entry hentry (by rw [hcross.1, hcross.2]; rfl)
  · intro h
    refine ⟨hset.sorted, hperm, hset.unique, hrange, ?_, ?_, ?_, ?_⟩
    · rw [hrange]
      exact (hperm.filter _).map _
    · rw [hcount, sub_eq_self, Nat.cast_eq_zero, length_eq_zero_iff, filter_eq_nil_iff]
      intro entry hentry hcross
      exact h entry hentry (Bool.and_eq_true_iff.mp hcross).symm
    · intro member
      rw [InlineStore.exec, hread]
      rcases hdata : s.data .zset key with - | found
      · rw [hdata] at hzset
        simp [← hzset, get?]
      · rw [hdata, getD_some] at hzset
        simp [hzset]
    · rw [InlineStore.exec, hread, hzset, hperm.length_eq]

theorem answersFromIndex_iff_twoMembers : AnswersFromIndex codeOrder
        (afterCommands codeOrder [.zadd "k" (.finite 2) "b", .zadd "k" (.finite 1) "a"]) 0 "k"
        (((afterCommands codeOrder
          [.zadd "k" (.finite 2) "b", .zadd "k" (.finite 1) "a"]).data .zset "k").getD {})
        (.number (.finite 1)) (.text "+inf") ↔
      ∀ entry ∈ (((afterCommands codeOrder
          [.zadd "k" (.finite 2) "b", .zadd "k" (.finite 1) "a"]).data .zset "k").getD
            {}).memberIndex,
        ¬((maxValue (.text "+inf")).lt entry.2 = true ∧
          entry.2.lt (minValue (.number (.finite 1))) = true) :=
  answersFromIndex_iff strictlyOrders_codeOrder (by
      intro command hcommand
      simp only [mem_cons, not_mem_nil, or_false] at hcommand
      rcases hcommand with rfl | rfl
      · exact ⟨Set.mem_univ _, 2, rfl⟩
      · exact ⟨Set.mem_univ _, 1, rfl⟩) 0 "k" (.number (.finite 1)) (.text "+inf")

/-- A member of score `1` is below the lower bound `2` and above the upper bound `0`: the number of
members between the two is `-1`. -/
theorem not_answersFromIndex_crossedBounds :
    ¬ ∀ (localeCompare : String → String → ℤ) (members : Set String),
      StrictlyOrders localeCompare members → ∀ commands : List SortedSetCommand,
      (∀ command ∈ commands, command.AddsListed members) → ∀ now key min max,
      AnswersFromIndex localeCompare (afterCommands localeCompare commands) now key
        (((afterCommands localeCompare commands).data .zset key).getD {}) min max := by
  intro h
  have hanswers := h codeOrder Set.univ strictlyOrders_codeOrder [.zadd "k" (.finite 1) "a"]
    (fun command hcommand => mem_singleton.mp hcommand ▸ ⟨Set.mem_univ _, 1, rfl⟩)
    0 "k" (.number (.finite 2)) (.number (.finite 0))
  have hnegative := hanswers.count
  revert hnegative
  decide +kernel

end CtsEngine
