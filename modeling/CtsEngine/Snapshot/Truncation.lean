import CtsEngine.Snapshot.RoundTrip

/-!
# Snapshots that are cut off

A file with a line that is torn or that is no record leaves the store as it is.  A file that ends
with a whole line does not: the restore takes the lines that there are for the whole snapshot.  So a
snapshot is restored as a whole or not at all only when it has at most one record.
-/

namespace CtsEngine

open List Nat
open JsonText (Value Exact IsComposite)

/-! ## The lines of a file -/

lemma streamLines_eq {lines : List (List Char)} {tail : List Char}
    (hlines : ∀ line ∈ lines, '\n' ∉ line) (htail : '\n' ∉ tail) {pending : List Char}
    (hpend : '\n' ∉ pending) {chunks : List (List Char)}
    (h : pending ++ chunks.flatten = framed lines ++ tail) :
    streamLines pending chunks =
      lines.map chompReturn ++ if tail = [] then [] else [chompReturn tail] := by
  induction chunks generalizing pending lines with
  | nil =>
    have hframe : framed [] ++ pending = framed lines ++ tail := (append_nil _).symm.trans h
    obtain ⟨rfl, rfl⟩ := framed_inj (forall_mem_nil _) hlines hpend htail hframe
    rfl
  | cons chunk chunks ih =>
    obtain ⟨first, rest, hfst, hfstLines, hrest⟩ := exists_framed (pending ++ chunk)
    obtain ⟨second, rest', hsec, hsecLines, hrest'⟩ := exists_framed (rest ++ chunks.flatten)
    have hsplit : framed (first ++ second) ++ rest' = framed lines ++ tail := by
      rw [← h, flatten_cons, ← append_assoc, hfst, append_assoc, hsec, framed_append, append_assoc]
    have hall : ∀ line ∈ first ++ second, '\n' ∉ line := fun line hline =>
      (mem_append.mp hline).elim (hfstLines line) (hsecLines line)
    obtain ⟨rfl, rfl⟩ := framed_inj hall hlines hrest' htail hsplit
    rw [streamLines, hfst, splitOn_framed hfstLines hrest, dropLast_concat,
      getLast?_concat, Option.getD_some, ih hsecLines hrest hsec, map_append,
      append_assoc]

lemma chompReturn_eq {line : List Char} (h : '\r' ∉ line) : chompReturn line = line := by
  rw [chompReturn, if_neg]
  intro hlast
  exact h (mem_of_getLast? hlast)

variable {localeCompare : String → String → ℤ}

namespace SnapshotSource

variable (source : SnapshotSource localeCompare)

variable {line : List Char} {chunks : List (List Char)}

lemma printable_lines (h : line ∈ source.lines) {c : Char} (hc : c ∈ line) : 0x20 ≤ c.toNat := by
  obtain ⟨value, hexact, -, rfl⟩ := source.exists_value h
  exact JsonText.printable_write value hexact c hc

lemma newline_not_mem (h : line ∈ source.lines) : '\n' ∉ line := fun hmem =>
  absurd (source.printable_lines h hmem) (by decide)

lemma map_chompReturn {lines : List (List Char)} (h : ∀ line ∈ lines, line ∈ source.lines) :
    lines.map chompReturn = lines := by
  refine (map_congr_left fun line hline => ?_).trans (map_id _)
  exact chompReturn_eq fun hmem => absurd (source.printable_lines (h line hline) hmem) (by decide)

lemma stageLine_torn (h : line ∈ source.lines) {bytes : ℕ} (hpos : 0 < bytes)
    (hless : bytes < utf8Bytes line) (staging : Staging) :
    stageLine localeCompare staging (truncatedText line bytes) = .error .syntaxError := by
  obtain ⟨value, hexact, hcomp, rfl⟩ := source.exists_value h
  have hparse := jsonParse_truncatedText hexact hcomp hless
  obtain ⟨c, cs, heq, hc⟩ := JsonText.exists_head_composite jsonNumbers hcomp
  have hsize : c.utf8Size = 1 := by rcases hc with rfl | rfl <;> decide
  have hblank : isBlank (truncatedText (stringify value) bytes) = false := by
    rw [stringify, heq, truncatedText.eq_3 _ _ _ hpos.ne', if_pos (hsize ▸ hpos)]
    exact isBlank_cons (by rcases hc with rfl | rfl <;> decide)
  rw [stageLine, hblank, if_neg Bool.false_ne_true, hparse]

variable (store : LocalRedis)

/-- Everything is restored, or nothing. -/
def AllOrNothing (after : LocalRedis) : Prop :=
  SameContent after.data source.data.kept ∨ after.data = store.data

/-- A record of a snapshot: a type, a key and a value that the type can have. -/
def IsRecord : Value Double → Prop
  | .array (.text type :: .text _ :: rest) =>
    type = "s" ∨ (type = "h" ∧ ∃ fields, rest.head? = some (.object fields)) ∨
      (type ∈ ["S", "l", "z"] ∧ ∃ values, rest.head? = some (.array values)) ∨
        (type = "t" ∧ ∃ value q, rest.head? = some value ∧ jsNumber value = .finite q)
  | _ => False

/-- A line that can not stand at a place of a snapshot. -/
structure IsMalformed (place : ℕ) (line : List Char) : Prop where
  oneLine : '\n' ∉ line
  notBlank : isBlank (chompReturn line) = false
  malformed : ∀ value, jsonParse (chompReturn line) = some value →
    if place = 0 then headerOf value = none else ¬ IsRecord value

/-- **Restored as a whole or not at all**: the file of a snapshot gives its content, and a file that
was cut off at some byte, or in which a line is malformed, gives the content or leaves the store as
it is. -/
structure RestoresWhole (store : LocalRedis) : Prop where
  complete : ∀ chunks : List (List Char), chunks.flatten = source.file →
    ∃ after, applySnapshotV2File localeCompare store chunks = (.ok (some true), after) ∧
      SameContent after.data source.data.kept
  truncated : ∀ bytes < utf8Bytes source.file, ∀ chunks : List (List Char),
    chunks.flatten = truncatedText source.file bytes →
      source.AllOrNothing store (applySnapshotV2File localeCompare store chunks).2
  malformed : ∀ place < source.lines.length, ∀ line, IsMalformed place line →
    ∀ chunks : List (List Char), chunks.flatten = framed (source.lines.set place line) →
      source.AllOrNothing store (applySnapshotV2File localeCompare store chunks).2

lemma applySnapshotV2File_take {count : ℕ}
    (h : streamLines [] chunks = source.lines.take (count + 1)) :
    ∃ version, applySnapshotV2File localeCompare store chunks = (.ok (some true),
      ⟨((snapshotRecords source.data).take count).foldl SnapshotRecord.stage {}, version⟩) := by
  rw [applySnapshotV2File, h, source.stageLines_take]
  exact ⟨_, rfl⟩

lemma applySnapshotV2File_error {stop : RestoreStop}
    (h : stageLines localeCompare {} (streamLines [] chunks) = .error stop) :
    (applySnapshotV2File localeCompare store chunks).2 = store := by
  rw [applySnapshotV2File, h]
  cases stop <;> rfl

lemma isRecord_of_stageRecord {staged staged' : RedisData} {lineNumber : ℕ} {value : Value Double}
    (h : stageRecord localeCompare staged lineNumber value = .ok staged') : IsRecord value := by
  unfold stageRecord at h
  split at h
  case h_1 type key rest =>
    have harray : (∃ values, rest.head? = some (.array values)) → type ∈ ["S", "l", "z"] →
        IsRecord (.array (.text type :: .text key :: rest)) :=
      fun hvals htype => .inr (.inr (.inl ⟨htype, hvals⟩))
    split_ifs at h with hstr hhash hset hlist hzset httl
    · exact .inl hstr
    · split at h
      · next fields hrest => exact .inr (.inl ⟨hhash, fields, hrest⟩)
      · cases h
    · split at h
      · next values hrest => exact harray ⟨values, hrest⟩ (by rw [hset]; decide)
      · cases h
    · split at h
      · next values hrest => exact harray ⟨values, hrest⟩ (by rw [hlist]; decide)
      · cases h
    · split at h
      · next values hrest => exact harray ⟨values, hrest⟩ (by rw [hzset]; decide)
      · cases h
    · split at h
      · next q hnum =>
        cases hrest : rest.head? with
        | none =>
          rw [hrest] at hnum
          cases hnum
        | some value =>
          rw [hrest] at hnum
          exact .inr (.inr (.inr ⟨httl, value, q, hrest, hnum⟩))
      · cases h
  case h_2 => cases h

lemma stageLine_malformed {place : ℕ} (h : IsMalformed place line) {staging : Staging}
    (hplace : staging.lineNumber = place) :
    ∃ stop, stageLine localeCompare staging (chompReturn line) = .error stop := by
  rw [stageLine, h.notBlank, if_neg Bool.false_ne_true]
  cases hparse : jsonParse (chompReturn line) with
  | none => exact ⟨_, rfl⟩
  | some value =>
    have hval := h.malformed value hparse
    dsimp only
    by_cases hfst : place = 0
    · rw [if_pos hfst] at hval
      rw [if_pos (by omega), hval]
      exact ⟨_, rfl⟩
    · rw [if_neg hfst] at hval
      rw [if_neg (by omega)]
      cases hrec : stageRecord localeCompare staging.data (staging.lineNumber + 1) value with
      | error stop => exact ⟨_, rfl⟩
      | ok staged => exact absurd (isRecord_of_stageRecord hrec) hval

lemma stageLines_malformed {place : ℕ} (h : IsMalformed place line)
    (hplace : place < source.lines.length) :
    ∃ stop, stageLines localeCompare {}
      ((source.lines.set place line).map chompReturn) = .error stop := by
  have hset : source.lines.set place line =
      source.lines.take place ++ line :: source.lines.drop (place + 1) :=
    set_eq_take_append_cons_drop.trans (if_pos hplace)
  have hbef : ∃ staging, stageLines localeCompare {} (source.lines.take place) = .ok staging ∧
      staging.lineNumber = place := by
    cases place with
    | zero => exact ⟨_, rfl, rfl⟩
    | succ count =>
      refine ⟨_, source.stageLines_take count, ?_⟩
      have hlen : source.lines.length = (snapshotRecords source.data).length + 1 := by
        rw [lines, snapshotV2Lines, length_cons, length_map]
      dsimp only
      rw [length_take]
      omega
  obtain ⟨staging, hstag, hnum⟩ := hbef
  obtain ⟨stop, hstop⟩ := stageLine_malformed h hnum
  refine ⟨stop, ?_⟩
  rw [hset, map_append, map_cons,
    source.map_chompReturn fun other hoth => mem_of_mem_take hoth, stageLines_append,
    hstag]
  dsimp only
  rw [stageLines, hstop]

/-- The restore of a file that was cut off: it stops, it finds nothing, or it takes the first lines
for the snapshot. -/
lemma restore_truncated {bytes : ℕ} (h : bytes < utf8Bytes source.file)
    (hchun : chunks.flatten = truncatedText source.file bytes) (store : LocalRedis) :
    (applySnapshotV2File localeCompare store chunks).2 = store ∨
      ∃ count < source.lines.length, streamLines [] chunks = source.lines.take (count + 1) := by
  obtain ⟨count, line, hline, bytes', hle, heq⟩ := truncatedText_framed h
  obtain ⟨hcnt, hget⟩ := List.getElem?_eq_some_iff.mp hline
  have hmem : line ∈ source.lines := mem_of_getElem? hline
  have htake : ∀ other ∈ source.lines.take count, other ∈ source.lines := fun _ hoth =>
    mem_of_mem_take hoth
  have htorn : ∀ c ∈ truncatedText line bytes', c ∈ line ∨ c = '\ufffd' := fun c hc =>
    mem_truncatedText hc
  have hnewl : '\n' ∉ truncatedText line bytes' := fun hc =>
    (htorn _ hc).elim (source.newline_not_mem hmem) (by decide)
  have hretur : '\r' ∉ truncatedText line bytes' := fun hc =>
    (htorn _ hc).elim (fun hin => absurd (source.printable_lines hmem hin) (by decide)) (by decide)
  have hstrea := streamLines_eq (fun other hoth => source.newline_not_mem (htake other hoth))
    hnewl not_mem_nil (hchun.trans heq)
  rw [source.map_chompReturn htake, chompReturn_eq hretur] at hstrea
  rcases Nat.eq_zero_or_pos bytes' with rfl | hpos
  · -- The file ends with a line break.
    have hemp : truncatedText line 0 = [] := by cases line <;> rfl
    rw [hemp, if_pos rfl, append_nil] at hstrea
    cases count with
    | zero =>
      left
      rw [applySnapshotV2File, hstrea]
      rfl
    | succ count => exact .inr ⟨count, lt_of_succ_lt hcnt, hstrea⟩
  · rcases lt_or_eq_of_le hle with hless | rfl
    · -- The last line is torn.
      left
      have hne : truncatedText line bytes' ≠ [] := by
        intro hnil
        have herror := source.stageLine_torn hmem hpos hless {}
        rw [hnil] at herror
        cases herror
      rw [if_neg hne] at hstrea
      have hstops : stageLines localeCompare {} (streamLines [] chunks) = .error .syntaxError := by
        have hbef : ∃ staging,
            stageLines localeCompare {} (source.lines.take count) = .ok staging := by
          cases count with
          | zero => exact ⟨_, rfl⟩
          | succ count => exact ⟨_, source.stageLines_take count⟩
        obtain ⟨staging, hstag⟩ := hbef
        rw [hstrea, stageLines_append, hstag]
        dsimp only
        rw [stageLines, source.stageLine_torn hmem hpos hless]
      exact applySnapshotV2File_error store hstops
    · -- The last line is whole and has no line break.
      right
      have hne : line ≠ [] := by
        rintro rfl
        exact absurd hpos (lt_irrefl _)
      rw [truncatedText_utf8Bytes, if_neg hne] at hstrea
      refine ⟨count, hcnt, hstrea.trans ?_⟩
      rw [take_add_one, hline]
      rfl

/-! ## The exact condition -/

lemma length_lines : source.lines.length = (snapshotRecords source.data).length + 1 := by
  rw [lines, snapshotV2Lines, length_cons, length_map]

lemma streamLines_take (count : ℕ) (h : chunks.flatten = framed (source.lines.take count)) :
    streamLines [] chunks = source.lines.take count := by
  have htake : ∀ line ∈ source.lines.take count, line ∈ source.lines := fun _ hline =>
    mem_of_mem_take hline
  have hfile : [] ++ chunks.flatten = framed (source.lines.take count) ++ [] := by
    rw [h, append_nil, nil_append]
  rw [streamLines_eq (fun line hline => source.newline_not_mem (htake line hline))
    not_mem_nil not_mem_nil hfile, source.map_chompReturn htake, if_pos rfl,
    append_nil]

lemma RestoresWhole.take {store : LocalRedis} (h : source.RestoresWhole store) (count : ℕ)
    (hcnt : count < (snapshotRecords source.data).length) :
    SameContent (((snapshotRecords source.data).take count).foldl SnapshotRecord.stage {})
        source.data.kept ∨
      ((snapshotRecords source.data).take count).foldl SnapshotRecord.stage {} = store.data := by
  have hsplit : source.file =
      framed (source.lines.take (count + 1)) ++ framed (source.lines.drop (count + 1)) := by
    rw [← framed_append, take_append_drop, file]
  have hrest : 0 < utf8Bytes (framed (source.lines.drop (count + 1))) := by
    have hlen : 0 < (source.lines.drop (count + 1)).length := by
      rw [length_drop, length_lines]
      omega
    obtain ⟨line, rest, hdrop⟩ := exists_cons_of_length_pos hlen
    have hframe : framed (line :: rest) = line ++ '\n' :: framed rest := by
      rw [framed, flatMap_cons, append_assoc]
      rfl
    rw [hdrop, hframe, utf8Bytes_append]
    exact Nat.add_pos_right _ (Nat.add_pos_left (Char.utf8Size_pos _) _)
  have hcut : truncatedText source.file (utf8Bytes (framed (source.lines.take (count + 1)))) =
      framed (source.lines.take (count + 1)) := by
    rw [hsplit, truncatedText_append le_rfl, Nat.sub_self]
    cases framed (source.lines.drop (count + 1)) <;> exact append_nil _
  have hless : utf8Bytes (framed (source.lines.take (count + 1))) < utf8Bytes source.file := by
    rw [hsplit, utf8Bytes_append]
    omega
  have hflat : [framed (source.lines.take (count + 1))].flatten =
      framed (source.lines.take (count + 1)) := flatten_singleton
  obtain ⟨version, hresto⟩ :=
    source.applySnapshotV2File_take store (source.streamLines_take _ hflat)
  have hwhole := h.truncated _ hless _ (hflat.trans hcut.symm)
  rw [hresto] at hwhole
  exact hwhole

lemma size_stage_empty (record : SnapshotRecord) : (record.stage {}).size = 1 := by
  cases record <;> rfl

/-- **Restored as a whole or not at all.** A snapshot is, exactly if its expiries are finite and it
has no record, or one record and the store that it is restored into has nothing. -/
theorem restoresWhole_iff (store : LocalRedis) : source.RestoresWhole store ↔
    source.FiniteExpiries ∧ (snapshotRecords source.data = [] ∨
      (snapshotRecords source.data).length = 1 ∧ store.data = {}) := by
  have hall : (snapshotRecords source.data).take (snapshotRecords source.data).length =
      snapshotRecords source.data := take_length
  have hfile : source.lines.take ((snapshotRecords source.data).length + 1) = source.lines := by
    rw [← length_lines, take_length]
  have hcomplete : ∀ chunks : List (List Char), chunks.flatten = source.file →
      ∃ version, applySnapshotV2File localeCompare store chunks =
        (.ok (some true), ⟨source.restored, version⟩) := by
    intro chunks hchunks
    have hstream := source.streamLines_take ((snapshotRecords source.data).length + 1)
      (by rw [hfile, hchunks, file])
    obtain ⟨version, hrestore⟩ := source.applySnapshotV2File_take store hstream
    rw [hall, source.foldl_stage] at hrestore
    exact ⟨version, hrestore⟩
  constructor
  · intro h
    obtain ⟨after, hafter, hsame⟩ := h.complete [source.file] flatten_singleton
    obtain ⟨version, hrestore⟩ := hcomplete [source.file] flatten_singleton
    obtain ⟨-, rfl⟩ := Prod.ext_iff.mp (hafter.symm.trans hrestore)
    refine ⟨source.sameContent_restored_iff.mp hsame, ?_⟩
    cases hrecords : snapshotRecords source.data with
    | nil => exact .inl rfl
    | cons record records =>
      right
      have hfirst := h.take source 0 (by rw [hrecords]; exact succ_pos _)
      have hempty : {} = store.data := by
        refine hfirst.resolve_left fun hsame => ?_
        have hsize := hsame.size_eq
        rw [size_kept, hrecords] at hsize
        cases hsize
      refine ⟨?_, hempty.symm⟩
      cases records with
      | nil => rfl
      | cons second records =>
        have htake := h.take source 1 (by rw [hrecords]; exact succ_lt_succ (succ_pos _))
        rw [hrecords] at htake
        rcases htake with hsame | hstore
        · have hsize := hsame.size_eq
          rw [size_kept, hrecords] at hsize
          have hone := size_stage_empty record
          simp only [take_succ_cons, take_zero, foldl_cons, foldl_nil, length_cons] at hsize
          omega
        · have hone := size_stage_empty record
          have hsize := congrArg RedisData.size (hstore.trans hempty.symm)
          simp only [take_succ_cons, take_zero, foldl_cons, foldl_nil, hone]
            at hsize
          cases hsize
  · rintro ⟨hfinite, hrecords⟩
    have hsame := source.sameContent_restored_iff.mpr hfinite
    refine ⟨fun chunks hchunks => ?_, fun bytes hbytes chunks hchunks => ?_,
      fun place hplace line hline chunks hchunks => ?_⟩
    · obtain ⟨version, hrestore⟩ := hcomplete chunks hchunks
      exact ⟨_, hrestore, hsame⟩
    · rcases source.restore_truncated hbytes hchunks store with hstore | ⟨count, hcount, hstream⟩
      · exact .inr (congrArg LocalRedis.data hstore)
      obtain ⟨version, hrestore⟩ := source.applySnapshotV2File_take store hstream
      rw [hrestore]
      rw [length_lines] at hcount
      rcases lt_or_eq_of_le (le_of_lt_succ hcount) with hless | rfl
      · -- Only the header is there, and the store has nothing.
        rcases hrecords with hnone | ⟨hone, hempty⟩
        · rw [hnone] at hless
          exact absurd hless (not_lt_zero _)
        · obtain rfl : count = 0 := by omega
          exact .inr hempty.symm
      · rw [hall, source.foldl_stage]
        exact .inl hsame
    · obtain ⟨stop, hstop⟩ := source.stageLines_malformed hline hplace
      have hlines : ∀ other ∈ source.lines.set place line, '\n' ∉ other := fun other hother =>
        (mem_or_eq_of_mem_set hother).elim (fun hmem => source.newline_not_mem hmem)
          fun heq => heq ▸ hline.oneLine
      have hchunks' : [] ++ chunks.flatten = framed (source.lines.set place line) ++ [] := by
        rw [hchunks, append_nil, nil_append]
      have hstream := streamLines_eq hlines not_mem_nil not_mem_nil hchunks'
      rw [if_pos rfl, append_nil] at hstream
      have herror : stageLines localeCompare {} (streamLines [] chunks) = .error stop := by
        rw [hstream, hstop]
      exact .inr (congrArg LocalRedis.data (applySnapshotV2File_error store herror))

end SnapshotSource

lemma isExact_one : (Double.finite 1).IsExact := ⟨1, rfl, by decide +kernel⟩

lemma isExact_two : (Double.finite 2).IsExact := ⟨2, rfl, by decide +kernel⟩

def twoStrings : SnapshotSource fun _ _ => 0 where
  data := { strings := [("a", "1"), ("b", "2")] }
  savedAt := .finite 1
  snapshotVersion := .finite 2
  strings_unique := nodup_cons.mpr
    ⟨fun h => absurd (mem_singleton.mp h) (by decide), nodup_singleton _⟩
  hashes_unique := nodup_nil
  sets_unique := nodup_nil
  lists_unique := nodup_nil
  sorted_sets_unique := nodup_nil
  ttl_unique := nodup_nil
  fields_unique := forall_mem_nil _
  fields_exact := forall_mem_nil _
  members_nodup := forall_mem_nil _
  entries_unique := forall_mem_nil _
  scores_exact := forall_mem_nil _
  entries_sorted := forall_mem_nil _
  indexed := forall_mem_nil _
  expiries := forall_mem_nil _
  savedAt_exact := isExact_one
  snapshotVersion_exact := isExact_two

/-- A file that was cut off behind its first record replaces what the store has by this record. -/
theorem not_restoresWhole_twoStrings :
    ¬ twoStrings.RestoresWhole { data := { strings := [("c", "3")] } } := by
  intro h
  have hrecords : snapshotRecords twoStrings.data = [.string "a" "1", .string "b" "2"] := by
    have hkept : keptEntries twoStrings.data.strings = [("a", "1"), ("b", "2")] := by
      decide +kernel
    rw [snapshotRecords, hkept]
    rfl
  have htake := h.take twoStrings 1 (by rw [hrecords]; decide)
  rcases htake with hsame | hstore
  · have hsize := hsame.size_eq
    rw [size_kept, hrecords] at hsize
    cases hsize
  · have hstrings := congrArg RedisData.strings hstore
    revert hstrings
    decide +kernel

end CtsEngine
