import CtsEngine.History.PosHistory

/-!
# The batched writer and the single writer

What a list of commands does to a key is summed up by what it adds to each counter and by the
records it pushes.  Both writers are summed up this way, and so the two leave the same history
exactly when, under every key, they add the same totals and push the same last records.
-/

namespace CtsEngine

open Option List PosClosedEntry HistoryStore

/-! ## Summing up commands -/

/-- A counter after increments that add up to `n`: a counter that is not there stays away when
nothing is added. -/
def bump (old : Option ℤ) (n : ℕ) : Option ℤ := if n = 0 then old else some (old.getD 0 + n)

@[simp] lemma bump_zero (old : Option ℤ) : bump old 0 = old := rfl

lemma bump_bump (old : Option ℤ) (m n : ℕ) : bump (bump old m) n = bump old (m + n) := by
  unfold bump
  by_cases hn : n = 0
  · rw [if_pos hn, hn, Nat.add_zero]
  · by_cases hm : m = 0
    · rw [if_pos hm, hm, Nat.zero_add, if_neg hn]
    · rw [if_neg hn, if_neg hm, if_neg (by omega), getD_some]
      push_cast
      rw [add_assoc]

lemma bump_inj {old : Option ℤ} {m n : ℕ} : bump old m = bump old n ↔ m = n := by
  refine ⟨fun h => ?_, fun h => by rw [h]⟩
  unfold bump at h
  cases old with
  | none =>
    split at h
    · split at h
      · omega
      · cases h
    · split at h
      · cases h
      · have hsum := some_inj.mp h
        omega
  | some value =>
    split at h
    · split at h
      · omega
      · have hsum := some_inj.mp h
        rw [getD_some] at hsum
        omega
    · split at h
      · have hsum := some_inj.mp h
        rw [getD_some] at hsum
        omega
      · have hsum := some_inj.mp h
        omega

/-- One record is pushed, and the ring is trimmed. -/
def pushRecord (ring : List String) (record : String) : List String := (record :: ring).take ringCap

/-- The commands add these amounts to the counters and push these records, key by key. -/
def Writes (commands : List HistoryCommand) (amounts : String → HistoryField → ℕ)
    (records : String → List String) : Prop :=
  ∀ (s : HistoryStore) (key : String),
    (∀ field, (commands.foldl exec s).hashes key field =
      bump (s.hashes key field) (amounts key field)) ∧
    (commands.foldl exec s).rings key = (records key).foldl pushRecord (s.rings key)

namespace Writes

lemma nil : Writes [] (fun _ _ => 0) (fun _ => []) := fun _ _ => ⟨fun _ => rfl, rfl⟩

variable {cs ds : List HistoryCommand} {amounts amounts' : String → HistoryField → ℕ}
  {records records' : String → List String}

lemma congr (h : Writes cs amounts records) (hamoun : ∀ key field, amounts key field =
    amounts' key field) (hrecs : ∀ key, records key = records' key) :
    Writes cs amounts' records' := by
  obtain rfl : amounts = amounts' := funext fun key => funext fun field => hamoun key field
  obtain rfl : records = records' := funext hrecs
  exact h

lemma append (hc : Writes cs amounts records) (hd : Writes ds amounts' records') :
    Writes (cs ++ ds) (fun key field => amounts key field + amounts' key field)
      (fun key => records key ++ records' key) := by
  intro s key
  obtain ⟨hhash, hrings⟩ := hc s key
  obtain ⟨hhash', hrings'⟩ := hd (cs.foldl exec s) key
  rw [foldl_append]
  refine ⟨fun field => ?_, ?_⟩
  · rw [hhash', hhash, bump_bump]
  · rw [hrings', hrings, foldl_append]

lemma flatMap {A : Type*} {xs : List A} {commands : A → List HistoryCommand}
    {amounts : A → String → HistoryField → ℕ} {records : A → String → List String}
    (h : ∀ x ∈ xs, Writes (commands x) (amounts x) (records x)) :
    Writes (xs.flatMap commands) (fun key field => (xs.map (amounts · key field)).sum)
      (fun key => xs.flatMap (records · key)) := by
  induction xs with
  | nil => exact nil
  | cons x xs ih =>
    have hfst := h x (mem_cons_self ..)
    have hrest := ih fun y hy => h y (mem_cons_of_mem x hy)
    exact hfst.append hrest

lemma hincrby (key : String) (field : HistoryField) {n : ℕ} (hn : 0 < n) :
    Writes [.hincrby key field n] (fun k f => if key = k ∧ field = f then n else 0)
      (fun _ => []) := by
  intro s k
  refine ⟨fun f => ?_, rfl⟩
  by_cases hk : key = k
  · by_cases hf : field = f
    · simp [exec, bump, hk, hf, hn.ne']
    · have hne : f ≠ field := fun heq => hf heq.symm
      simp [exec, hk, hf, hne]
  · have hne : k ≠ key := fun heq => hk heq.symm
    simp [exec, hk, hne]

lemma hincrbyPositive (key : String) (field : HistoryField) (n : ℕ) :
    Writes (CtsEngine.hincrbyPositive key field n)
      (fun k f => if key = k ∧ field = f then n else 0) (fun _ => []) := by
  unfold CtsEngine.hincrbyPositive
  split
  · rename_i hn
    exact hincrby key field hn
  · have hzero : n = 0 := by omega
    refine nil.congr (fun k f => ?_) (fun _ => rfl)
    rw [hzero, ite_self]

end Writes

lemma take_cons_take {α : Type*} (n : ℕ) (x : α) (l : List α) :
    (x :: l.take n).take n = (x :: l).take n := by
  cases n with
  | zero => rfl
  | succ n => rw [take_succ_cons, take_succ_cons, take_take, Nat.min_eq_left (by omega)]

lemma foldl_pushRecord (ring : List String) {records : List String} (hne : records ≠ []) :
    records.foldl pushRecord ring = (records.reverse ++ ring).take ringCap := by
  induction records using reverseRecOn with
  | nil => exact absurd rfl hne
  | append_singleton records record ih =>
    rw [foldl_append, foldl_cons, foldl_nil, reverse_append,
      reverse_singleton, singleton_append, cons_append]
    by_cases hnil : records = []
    · rw [hnil]
      rfl
    · rw [ih hnil, pushRecord, take_cons_take]

lemma foldl_pushRecord_inj {ring records records' : List String}
    (hlen : records.length = records'.length) :
    records.foldl pushRecord ring = records'.foldl pushRecord ring ↔
      records.reverse.take ringCap = records'.reverse.take ringCap := by
  by_cases hnil : records = []
  · have hnil' : records' = [] := by
      rw [hnil] at hlen
      exact length_eq_zero_iff.mp hlen.symm
    rw [hnil, hnil']
    exact iff_of_true rfl rfl
  · have hnil' : records' ≠ [] := by
      intro heq
      rw [heq] at hlen
      exact hnil (length_eq_zero_iff.mp hlen)
    rw [foldl_pushRecord ring hnil, foldl_pushRecord ring hnil', take_append,
      take_append, length_reverse, length_reverse, hlen]
    refine ⟨fun h => ?_, fun h => by rw [h]⟩
    refine append_inj_left h ?_
    rw [length_take, length_take, length_reverse, length_reverse, hlen]

lemma Writes.push (key : String) {records : List String} (hne : records ≠ []) :
    Writes [.lpush key records, .ltrim key ringCap] (fun _ _ => 0)
      (fun k => if key = k then records else []) := by
  intro s k
  by_cases hk : key = k
  · dsimp only
    rw [if_pos hk, foldl_pushRecord _ hne, ← hk]
    simp [exec]
  · have hoth : k ≠ key := fun heq => hk heq.symm
    simp [exec, hk, hoth]

/-! ## Totals -/

/-- What a list of entries adds to a counter, for the outcome that a writer reads off them. -/
def totalOf (outcome : PosClosedEntry → ℚ) (entries : List PosClosedEntry) (field : HistoryField) :
    ℕ :=
  (entries.map (increment outcome · field)).sum

lemma totalOf_append (outcome : PosClosedEntry → ℚ) (xs ys : List PosClosedEntry)
    (field : HistoryField) :
    totalOf outcome (xs ++ ys) field = totalOf outcome xs field + totalOf outcome ys field := by
  unfold totalOf
  rw [map_append, sum_append]

lemma totalOf_flatMap {A : Type*} (outcome : PosClosedEntry → ℚ) (xs : List A)
    (entriesOf : A → List PosClosedEntry) (field : HistoryField) :
    totalOf outcome (xs.flatMap entriesOf) field =
      (xs.map fun x => totalOf outcome (entriesOf x) field).sum := by
  induction xs with
  | nil => rfl
  | cons x xs ih => rw [flatMap_cons, totalOf_append, ih, map_cons, sum_cons]

/-- Commands that do under each key what a list of entries asks for. -/
def WritesEntries (outcome : PosClosedEntry → ℚ) (commands : List HistoryCommand)
    (entriesOf : String → List PosClosedEntry) : Prop :=
  Writes commands (fun key => totalOf outcome (entriesOf key))
    (fun key => (entriesOf key).map ringRecord)

lemma WritesEntries.append {outcome : PosClosedEntry → ℚ} {cs ds : List HistoryCommand}
    {xs ys : String → List PosClosedEntry} (hc : WritesEntries outcome cs xs)
    (hd : WritesEntries outcome ds ys) :
    WritesEntries outcome (cs ++ ds) (fun key => xs key ++ ys key) := by
  refine Writes.congr (Writes.append hc hd) (fun key field => ?_) (fun key => ?_)
  · exact (totalOf_append outcome (xs key) (ys key) field).symm
  · exact (map_append ..).symm

lemma WritesEntries.flatMap {A : Type*} {outcome : PosClosedEntry → ℚ} {xs : List A}
    {commands : A → List HistoryCommand} {entriesOf : A → String → List PosClosedEntry}
    (h : ∀ x ∈ xs, WritesEntries outcome (commands x) (entriesOf x)) :
    WritesEntries outcome (xs.flatMap commands) (fun key => xs.flatMap (entriesOf · key)) := by
  refine Writes.congr (Writes.flatMap h) (fun key field => ?_) (fun key => ?_)
  · exact (totalOf_flatMap outcome xs (entriesOf · key) field).symm
  · exact (map_flatMap ..).symm

/-- The entries that the single writer books under a key. -/
def writtenSingly (connectionId : String) (entry : PosClosedEntry) (key : String) :
    List PosClosedEntry :=
  (if entryKey connectionId entry = key then [entry] else []) ++
    if overallKey connectionId = key then [entry] else []

lemma countEntry_writes (key : String) (entry : PosClosedEntry) : Writes (countEntry key entry)
      (fun k field => if key = k then increment outcome entry field else 0)
      (fun _ => []) := by
  have hcnt := Writes.hincrby key .count Nat.one_pos
  have hsign := Writes.hincrby key (if 0 < entry.outcome then .wins else .losses) Nat.one_pos
  have hprof := Writes.hincrbyPositive key .pfNumX1000 (scaled1000 entry.outcome)
  have hloss := Writes.hincrbyPositive key .pfDenX1000 (scaled1000 (-entry.outcome))
  have hddt := Writes.hincrbyPositive key .ddtNumX10 (ddtX10 entry)
  refine Writes.congr ((((hcnt.append hsign).append hprof).append hloss).append hddt)
    (fun k field => ?_) (fun _ => rfl)
  by_cases hk : key = k
  · by_cases hwin : 0 < entry.outcome <;> cases field <;> simp [increment, hwin]
  · simp [hk]

lemma recordPosClosed_writes {connectionId : String} (hconn : connectionId ≠ "")
    {entry : PosClosedEntry} (hdir : normalizeTradeDirection entry.direction ≠ none) :
    WritesEntries outcome (recordPosClosed connectionId entry)
      (writtenSingly connectionId entry) := by
  have hbuck := countEntry_writes (entryKey connectionId entry) entry
  have hover := countEntry_writes (overallKey connectionId) entry
  have hring := Writes.push (entryKey connectionId entry) (cons_ne_nil (ringRecord entry) [])
  have hringAll := Writes.push (overallKey connectionId) (cons_ne_nil (ringRecord entry) [])
  unfold recordPosClosed
  rw [if_neg (not_or.mpr ⟨hconn, hdir⟩)]
  refine Writes.congr ((hbuck.append hover).append (hring.append hringAll))
    (fun key field => ?_) (fun key => ?_)
  · unfold writtenSingly totalOf
    split <;> split <;> simp
  · unfold writtenSingly
    split <;> split <;> simp

lemma flatMap_recordPosClosed (connectionId : String) (entries : List PosClosedEntry) :
    entries.flatMap (recordPosClosed connectionId) =
      (countedEntries entries).flatMap (recordPosClosed connectionId) := by
  induction entries with
  | nil => rfl
  | cons entry entries ih =>
    unfold countedEntries at ih ⊢
    by_cases hdir : normalizeTradeDirection entry.direction = none
    · rw [flatMap_cons, filter_cons_of_neg (by simp [hdir]), ← ih]
      unfold recordPosClosed
      rw [if_pos (.inr hdir), nil_append]
    · rw [flatMap_cons, filter_cons_of_pos (by simp [hdir]), flatMap_cons, ih]

/-! ## The batched writer -/

/-- The counters of an aggregate. -/
def PosHistoryAggregate.field (aggregate : PosHistoryAggregate) : HistoryField → ℕ
  | .count => aggregate.count
  | .wins => aggregate.wins
  | .losses => aggregate.losses
  | .pfNumX1000 => aggregate.grossProfitX1000
  | .pfDenX1000 => aggregate.grossLossX1000
  | .ddtNumX10 => aggregate.ddtX10

lemma foldl_addClosedPosition (entries : List PosClosedEntry) (aggregate : PosHistoryAggregate) :
    (entries.foldl addClosedPositionToAggregate aggregate).key = aggregate.key ∧
      (∀ field, (entries.foldl addClosedPositionToAggregate aggregate).field field =
        aggregate.field field + totalOf pnl entries field) ∧
      (entries.foldl addClosedPositionToAggregate aggregate).ringRecords =
        aggregate.ringRecords ++ entries.map ringRecord := by
  induction entries generalizing aggregate with
  | nil => exact ⟨rfl, fun _ => rfl, (append_nil _).symm⟩
  | cons entry entries ih =>
    obtain ⟨hkey, hfield, hrecs⟩ := ih (addClosedPositionToAggregate aggregate entry)
    rw [foldl_cons]
    refine ⟨hkey, fun field => ?_, ?_⟩
    · have hone : (addClosedPositionToAggregate aggregate entry).field field =
          aggregate.field field + increment pnl entry field := by
        by_cases hwin : 0 < entry.pnl <;> cases field <;>
          simp [addClosedPositionToAggregate, PosHistoryAggregate.field, increment, hwin]
      rw [hfield, hone, totalOf, totalOf, map_cons, sum_cons, Nat.add_assoc]
    · rw [hrecs]
      simp [addClosedPositionToAggregate]

/-- The queued batch writes its entries under its own key. -/
lemma queue_writes (key : String) (entries : List PosClosedEntry) :
    WritesEntries pnl (queuePosHistoryBatchAggregate false
        (entries.foldl addClosedPositionToAggregate { key := key }))
      (fun k => if key = k then entries else []) := by
  obtain ⟨hkey, hfield, hrecs⟩ := foldl_addClosedPosition entries { key := key }
  generalize entries.foldl addClosedPositionToAggregate { key := key } = aggregate at *
  have htot : ∀ field, aggregate.field field = totalOf pnl entries field := by
    intro field
    rw [hfield field]
    cases field <;> exact Nat.zero_add _
  have hcnt : aggregate.count = entries.length := by
    have heq : aggregate.count = totalOf pnl entries .count := htot .count
    rw [heq]
    simp [totalOf, increment]
  unfold queuePosHistoryBatchAggregate
  split
  · rename_i hzero
    have hnil : entries = [] := length_eq_zero_iff.mp (hcnt.symm.trans hzero)
    refine Writes.congr Writes.nil (fun k field => ?_) (fun k => ?_)
    · dsimp only
      rw [hnil, ite_self]
      rfl
    · dsimp only
      rw [hnil, ite_self]
      rfl
  · rename_i hne
    have hpos : 0 < aggregate.count := Nat.pos_of_ne_zero hne
    have hnonem : aggregate.ringRecords ≠ [] := by
      rw [hrecs]
      intro hnil
      rw [map_eq_nil_iff.mp hnil] at hcnt
      exact hne hcnt
    have hincr := ((((Writes.hincrby aggregate.key .count hpos).append
      (Writes.hincrbyPositive aggregate.key .wins aggregate.wins)).append
      (Writes.hincrbyPositive aggregate.key .losses aggregate.losses)).append
      (Writes.hincrbyPositive aggregate.key .pfNumX1000 aggregate.grossProfitX1000)).append
      (Writes.hincrbyPositive aggregate.key .pfDenX1000 aggregate.grossLossX1000)
    have hall := (hincr.append (Writes.hincrbyPositive aggregate.key .ddtNumX10
      aggregate.ddtX10)).append (Writes.push aggregate.key hnonem)
    refine Writes.congr hall (fun k field => ?_) (fun k => ?_)
    · rw [hkey]
      dsimp only
      by_cases hk : key = k
      · rw [if_pos hk, ← htot field]
        cases field <;> simp [hk, PosHistoryAggregate.field]
      · simp [hk, totalOf]
    · rw [hkey, hrecs]
      by_cases hk : key = k
      · simp [hk]
      · simp [hk]

/-- The entries that the batched writer books under a key: the buckets in the order of their first
entries, each under the key of its first entry, and then all entries under the overall key. -/
def writtenByBatch (connectionId : String) (counted : List PosClosedEntry) (key : String) :
    List PosClosedEntry :=
  ((Keyed.firsts bucketKey counted).flatMap fun first =>
    if entryKey connectionId first = key then counted.filter (bucketKey · = bucketKey first)
    else []) ++
    if overallKey connectionId = key then counted else []

lemma recordPosClosedBatch_writes {connectionId : String} (hconn : connectionId ≠ "")
    (entries : List PosClosedEntry) :
    WritesEntries pnl (recordPosClosedBatch connectionId entries false)
      (writtenByBatch connectionId (countedEntries entries)) := by
  unfold recordPosClosedBatch
  rw [if_neg hconn]
  dsimp only
  rw [Keyed.collect_eq, flatMap_map]
  refine WritesEntries.append (WritesEntries.flatMap fun first _ => ?_) (queue_writes _ _)
  exact queue_writes (entryKey connectionId first) _

/-- Two lists of entries leave the same under a key: read by `pnl` the first one adds to every
counter what the second one adds read by its outcomes, and their last records agree. -/
structure SameHistory (batched singly : List PosClosedEntry) : Prop where
  totals : ∀ field, totalOf pnl batched field = totalOf outcome singly field
  records : (batched.map ringRecord).reverse.take ringCap =
    (singly.map ringRecord).reverse.take ringCap

/-- **The batched writer and the single one.** From any hashes and rings the two leave the same
counters and the same rings, exactly when under every key the batch books entries that leave the
same as those of the single writer. -/
theorem recordPosClosedBatch_refines_iff (connectionId : String) (entries : List PosClosedEntry)
    (s : HistoryStore) :
    (∀ key, (∀ field, ((recordPosClosedBatch connectionId entries false).foldl
            exec s).hashes key field =
          ((entries.flatMap (recordPosClosed connectionId)).foldl
            exec s).hashes key field) ∧
        ((recordPosClosedBatch connectionId entries false).foldl exec s).rings key =
          ((entries.flatMap (recordPosClosed connectionId)).foldl exec s).rings key) ↔
      connectionId = "" ∨ ∀ key, SameHistory
        (writtenByBatch connectionId (countedEntries entries) key)
        ((countedEntries entries).flatMap (writtenSingly connectionId · key)) := by
  by_cases hconnection : connectionId = ""
  · refine iff_of_true (fun key => ?_) (.inl hconnection)
    have hsingle : entries.flatMap (recordPosClosed connectionId) = [] := by
      refine flatMap_eq_nil_iff.mpr fun entry _ => ?_
      unfold recordPosClosed
      rw [if_pos (.inl hconnection)]
    have hbatch : recordPosClosedBatch connectionId entries false = [] := by
      unfold recordPosClosedBatch
      rw [if_pos hconnection]
    rw [hsingle, hbatch]
    exact ⟨fun _ => rfl, rfl⟩
  · have hbatch := recordPosClosedBatch_writes hconnection entries
    have hsingle : WritesEntries outcome (entries.flatMap (recordPosClosed connectionId))
        (fun key => (countedEntries entries).flatMap (writtenSingly connectionId · key)) := by
      rw [flatMap_recordPosClosed]
      refine WritesEntries.flatMap fun entry hentry => ?_
      exact recordPosClosed_writes hconnection (of_decide_eq_true (mem_filter.mp hentry).2)
    rw [or_iff_right hconnection]
    refine forall_congr' fun key => ?_
    obtain ⟨hhashes, hrings⟩ := hbatch s key
    obtain ⟨hhashes', hrings'⟩ := hsingle s key
    rw [hrings, hrings']
    have hcounters : (∀ field, ((recordPosClosedBatch connectionId entries false).foldl
          exec s).hashes key field =
        ((entries.flatMap (recordPosClosed connectionId)).foldl
          exec s).hashes key field) ↔
        ∀ field, totalOf pnl (writtenByBatch connectionId (countedEntries entries) key) field =
          totalOf outcome
            ((countedEntries entries).flatMap (writtenSingly connectionId · key)) field := by
      refine forall_congr' fun field => ?_
      rw [hhashes, hhashes']
      exact bump_inj
    rw [hcounters]
    -- equal counts make the lists of records equally long
    have hlength : (∀ field, totalOf pnl
          (writtenByBatch connectionId (countedEntries entries) key) field =
        totalOf outcome
          ((countedEntries entries).flatMap (writtenSingly connectionId · key)) field) →
        ((writtenByBatch connectionId (countedEntries entries) key).map ringRecord).length =
          (((countedEntries entries).flatMap
            (writtenSingly connectionId · key)).map ringRecord).length := by
      intro h
      have hcount := h .count
      unfold totalOf increment at hcount
      simpa using hcount
    constructor
    · rintro ⟨htotals, hring⟩
      exact ⟨htotals, (foldl_pushRecord_inj (hlength htotals)).mp hring⟩
    · rintro ⟨htotals, hrecords⟩
      exact ⟨htotals, (foldl_pushRecord_inj (hlength htotals)).mpr hrecords⟩

/-- A long close on a symbol with an indication type. -/
def longClose (symbol indicationType : String) (pnl : ℚ) (pnlPct : Option ℚ) : PosClosedEntry where
  symbol := some symbol
  indicationType := some indicationType
  direction := some "long"
  pnl := pnl
  pnlPct := pnlPct

/-- A close that is a win by `pnl` and a loss by `pnlPct` is counted as either.  Two buckets whose
keys agree, since a symbol and a type contain a colon, share a ring that the batch does not fill in
the order of the closes. -/
theorem recordPosClosedBatch_differs :
    let empty : HistoryStore := ⟨fun _ _ => none, fun _ => []⟩
    let closes := [longClose "BTCUSDT" "trend" 5 (some (-1))]
    let shared := [longClose "A:B" "C" 1 none, longClose "A" "B:C" 2 none,
      longClose "A:B" "C" 3 none]
    (((recordPosClosedBatch "x02" closes false).foldl exec empty).hashes
        "x02:BTCUSDT:trend:long" .wins = some 1 ∧
      ((closes.flatMap (recordPosClosed "x02")).foldl exec empty).hashes
        "x02:BTCUSDT:trend:long" .wins = none) ∧
    ((recordPosClosedBatch "x02" shared false).foldl exec empty).rings
        "x02:A:B:C:long" ≠
      ((shared.flatMap (recordPosClosed "x02")).foldl exec empty).rings
        "x02:A:B:C:long" := by
  decide +kernel

end CtsEngine
