import CtsEngine.Foundation.JsonText
import Mathlib.Tactic.IntervalCases

/-!
# Reading what was written

`parse_write`: the text of a value whose numbers are exact is read as that value.
-/

namespace JsonText

open Option List Nat Char

/-! ## Texts -/

variable (c : Char)

/-- What is read of a character that was written. -/
def pieceOf : Piece :=
  if c.toNat < 0x20 ∧ (escapes.find? fun escape => escape.2 = c) = none then .unit c.toNat
  else .char c

variable {n fuel : ℕ} {rest : List Char}

lemma readPiece_control (hn : n < 0x20) (rest : List Char) :
    readPiece (writeChar (ofNat n) ++ rest) = some (pieceOf (ofNat n), rest) := by
  interval_cases n <;> rfl

lemma readPiece_writeChar (rest : List Char) :
    readPiece (writeChar c ++ rest) = some (pieceOf c, rest) := by
  by_cases hctrl : c.toNat < 0x20
  · have h := readPiece_control hctrl rest
    rwa [ofNat_toNat] at h
  · by_cases hquote : c = '"'
    · subst hquote
      rfl
    · by_cases hslash : c = '\\'
      · subst hslash
        rfl
      · rw [writeChar, if_neg (by simp [hquote, hslash, hctrl]), pieceOf,
          if_neg fun h => hctrl h.1, List.singleton_append, readPiece.eq_def]
        dsimp only
        rw [if_neg hslash, if_neg hctrl]

lemma joinPieces_unit (hn : n < 0xD800) (pieces : List Piece) :
    joinPieces (.unit n :: pieces) = ofNat n :: joinPieces pieces := by
  have hlead : isLeading n = false := by simp [isLeading, hn]
  have htrail : isTrailing n = false := by
    rw [isTrailing, decide_eq_false (by omega), Bool.false_and]
  cases pieces with
  | nil => simp [joinPieces, hlead, htrail]
  | cons piece pieces => cases piece <;> simp [joinPieces, hlead, htrail]

lemma joinPieces_map (cs : List Char) : joinPieces (cs.map pieceOf) = cs := by
  induction cs with
  | nil => rfl
  | cons c cs ih =>
    rw [List.map_cons, pieceOf]
    split
    case isTrue hunit =>
      rw [joinPieces_unit (by omega), ih, ofNat_toNat]
    case isFalse => rw [joinPieces, ih]

lemma head?_writeChar_ne (rest : List Char) : (writeChar c ++ rest).head? ≠ some '"' := by
  rw [writeChar]
  split
  · split <;> simp
  case isFalse hplain =>
    intro h
    exact hplain (.inl (some.inj h))

lemma writeChar_ne_nil : writeChar c ≠ [] := by
  rw [writeChar]
  split
  · split
    · exact cons_ne_nil _ _
    · exact cons_ne_nil _ _
  · exact cons_ne_nil _ _

lemma readPieces_write (cs rest : List Char) (hfuel : (cs.flatMap writeChar).length < fuel) :
    readPieces fuel (cs.flatMap writeChar ++ '"' :: rest) = some (cs.map pieceOf, rest) := by
  induction cs generalizing fuel with
  | nil =>
    obtain ⟨fuel, rfl⟩ := exists_eq_succ_of_ne_zero (ne_of_gt hfuel)
    rfl
  | cons c cs ih =>
    rw [List.flatMap_cons, List.length_append] at hfuel
    have hlen := List.length_pos_of_ne_nil (writeChar_ne_nil c)
    obtain ⟨fuel, rfl⟩ := exists_eq_succ_of_ne_zero (ne_of_gt (zero_lt_of_lt hfuel))
    have hrest : (cs.flatMap writeChar).length < fuel := by omega
    rw [List.flatMap_cons, List.append_assoc, readPieces, if_neg (head?_writeChar_ne _ _),
      readPiece_writeChar, Option.bind_some]
    dsimp only
    rw [ih hrest]
    rfl

lemma readText_write (s : String) (rest : List Char)
    (hfuel : (s.toList.flatMap writeChar).length < fuel) :
    readText fuel (s.toList.flatMap writeChar ++ '"' :: rest) = some (s, rest) := by
  rw [readText, readPieces_write s.toList rest hfuel, map_some]
  dsimp only
  rw [joinPieces_map, String.ofList_toList]

/-! ## Values -/

section Values

variable {N : Type} (format : NumberFormat N)

mutual

/-- All numbers of a value are exact. -/
def Exact : Value N → Prop
  | .number n => format.Exact n
  | .array values => ExactElements values
  | .object fields => ExactFields fields
  | _ => True

/-- All numbers of values are exact. -/
def ExactElements : List (Value N) → Prop
  | [] => True
  | value :: values => Exact value ∧ ExactElements values

/-- All numbers of fields are exact. -/
def ExactFields : List (String × Value N) → Prop
  | [] => True
  | (_, value) :: fields => Exact value ∧ ExactFields fields

end

/-- A character with which a text continues after a number. -/
def EndsNumber (rest : List Char) : Prop := ∀ c ∈ rest.head?, isNumberChar c = false

variable {format}

lemma takeWhile_token {token rest : List Char} {p : Char → Bool} (htoken : ∀ c ∈ token, p c = true)
    (hrest : ∀ c ∈ rest.head?, p c = false) :
    (token ++ rest).takeWhile p = token ∧ (token ++ rest).dropWhile p = rest := by
  rw [takeWhile_append_of_pos htoken, dropWhile_append_of_pos htoken]
  cases rest with
  | nil => exact ⟨append_nil _, rfl⟩
  | cons c rest =>
    have hc := hrest c rfl
    rw [takeWhile_cons_of_neg (by simp [hc]), dropWhile_cons_of_neg (by simp [hc])]
    exact ⟨append_nil _, rfl⟩

lemma isNumberChar_of_isSpace {c : Char} (h : isSpace c = true) : isNumberChar c = false := by
  simp only [isSpace, mem_cons, not_mem_nil, or_false, decide_eq_true_iff] at h
  rcases h with rfl | rfl | rfl | rfl <;> decide

lemma skipSpace_cons {c : Char} (cs : List Char) (h : isSpace c = false) :
    skipSpace (c :: cs) = c :: cs := dropWhile_cons_of_neg (by simp [h])

lemma exists_head_write {value : Value N} (hexact : Exact format value) :
    ∃ c cs, write format value = c :: cs ∧ isSpace c = false ∧ c ≠ ']' := by
  cases value with
  | null => exact ⟨'n', _, rfl, by decide, by decide⟩
  | bool b => cases b <;> exact ⟨_, _, rfl, by decide, by decide⟩
  | number n =>
    obtain ⟨c, cs, hcs⟩ := exists_cons_of_ne_nil (format.write_ne_nil hexact)
    have hc := format.isNumberChar_of_mem hexact c (hcs ▸ mem_cons_self ..)
    refine ⟨c, cs, hcs, eq_false_of_ne_true fun hspace => ?_, ?_⟩
    · rw [isNumberChar_of_isSpace hspace] at hc
      cases hc
    · rintro rfl
      exact absurd hc (by decide)
  | text s => exact ⟨'"', _, rfl, by decide, by decide⟩
  | array values => cases values <;> exact ⟨'[', _, rfl, by decide, by decide⟩
  | object fields => cases fields <;> exact ⟨'\x7b', _, rfl, by decide, by decide⟩

lemma endsNumber_writeElements (values : List (Value N)) (rest : List Char) :
    EndsNumber (writeElements format values ++ rest) := by
  cases values <;> simp [writeElements, EndsNumber, isNumberChar]

lemma endsNumber_writeFields (fields : List (String × Value N)) (rest : List Char) :
    EndsNumber (writeFields format fields ++ rest) := by
  cases fields <;> simp [writeFields, EndsNumber, isNumberChar]

lemma readValue_number {n : N} (hexact : format.Exact n) (hrest : EndsNumber rest) (fuel : ℕ) :
    readValue format (fuel + 1) (format.write n ++ rest) = some (.number n, rest) := by
  have hall := format.isNumberChar_of_mem hexact
  obtain ⟨c, cs, hcs⟩ := List.exists_cons_of_ne_nil (format.write_ne_nil hexact)
  have hc : isNumberChar c = true := hall c (hcs ▸ List.mem_cons_self ..)
  have hspace : isSpace c = false := by
    refine eq_false_of_ne_true fun hspace => ?_
    rw [isNumberChar_of_isSpace hspace] at hc
    cases hc
  obtain ⟨htake, hdrop⟩ := takeWhile_token hall hrest
  have hread := format.read_write hexact
  rw [hcs, List.cons_append] at htake hdrop ⊢
  rw [hcs] at hread
  rw [readValue, skipSpace_cons _ hspace]
  dsimp only
  rw [htake, hdrop, hread, if_neg, if_neg, if_neg, if_pos hc]
  · rfl
  all_goals
    rintro rfl
    exact absurd hc (by decide)

lemma readValue_bracket (h : (skipSpace rest).head? ≠ some ']') (fuel : ℕ) :
    readValue format (fuel + 1) ('[' :: rest) =
      (readValue format fuel rest).bind fun (value, rest) =>
        (readElements format fuel rest).map fun (values, rest) =>
          (.array (value :: values), rest) := by
  rw [readValue, skipSpace_cons _ (by decide)]
  dsimp only
  rw [if_pos rfl, if_neg h]

lemma readValue_brace (h : (skipSpace rest).head? ≠ some '\x7d') (fuel : ℕ) :
    readValue format (fuel + 1) ('\x7b' :: rest) =
      (readField format fuel rest).bind fun (field, rest) =>
        (readFields format fuel rest).map fun (fields, rest) =>
          (.object (field :: fields), rest) := by
  rw [readValue, skipSpace_cons _ (by decide)]
  dsimp only
  rw [if_neg (by decide), if_pos rfl, if_neg h]

lemma readValue_quote (rest : List Char) (fuel : ℕ) : readValue format (fuel + 1) ('"' :: rest) =
      (readText fuel rest).map fun (s, rest) => (.text s, rest) := by
  rw [readValue, skipSpace_cons _ (by decide)]
  dsimp only
  rw [if_neg (by decide), if_neg (by decide), if_pos rfl]

lemma writeText_append (s : String) (rest : List Char) :
    writeText s ++ rest = '"' :: (s.toList.flatMap writeChar ++ '"' :: rest) := by
  rw [writeText, cons_append, append_assoc, singleton_append]

lemma readField_write (name : String) {value : Value N} (hfuel : (writeText name).length < fuel + 1)
    (hval : readValue format fuel (write format value ++ rest) = some (value, rest)) :
    readField format (fuel + 1) (writeText name ++ ':' :: (write format value ++ rest)) =
      some ((name, value), rest) := by
  have hname : (name.toList.flatMap writeChar).length < fuel := by
    rw [writeText, length_cons, length_append] at hfuel
    exact lt_of_succ_lt_succ (lt_of_le_of_lt (le_add_right _ _) hfuel)
  rw [writeText_append, readField, skipSpace_cons _ (by decide)]
  dsimp only
  rw [readText_write name _ hname, bind_some]
  rw [skipSpace_cons _ (by decide), tail_cons, hval]
  rfl

mutual

/-- **Round trip** of a value in front of other text. -/
theorem readValue_write : ∀ (value : Value N) (rest : List Char) (fuel : ℕ),
    Exact format value → EndsNumber rest → (write format value).length < fuel →
      readValue format fuel (write format value ++ rest) = some (value, rest)
  | _, _, 0, _, _, hfuel => absurd hfuel (not_lt_zero _)
  | .null, rest, fuel + 1, _, _, _ => rfl
  | .bool true, rest, fuel + 1, _, _, _ => rfl
  | .bool false, rest, fuel + 1, _, _, _ => rfl
  | .number n, rest, fuel + 1, hexact, hrest, _ => by
    rw [write]
    exact readValue_number hexact hrest fuel
  | .text s, rest, fuel + 1, _, _, hfuel => by
    rw [write, writeText, length_cons, length_append] at hfuel
    have htext : (s.toList.flatMap writeChar).length < fuel := by
      exact lt_of_succ_lt_succ (lt_of_le_of_lt (le_add_right _ _) hfuel)
    rw [write, writeText_append, readValue_quote, readText_write s rest htext]
    rfl
  | .array [], rest, fuel + 1, _, _, _ => rfl
  | .array (value :: values), rest, fuel + 1, hexact, _, hfuel => by
    obtain ⟨c, cs, hcs, hspace, hcl⟩ := exists_head_write hexact.1
    rw [write, length_cons, length_append] at hfuel
    rw [write, cons_append, append_assoc, readValue_bracket,
      readValue_write value _ fuel hexact.1 (endsNumber_writeElements _ _) (by omega),
      bind_some]
    · dsimp only
      rw [readElements_write values rest fuel hexact.2 (by omega)]
      rfl
    · rw [hcs, cons_append, skipSpace_cons _ hspace]
      exact fun h => hcl (some.inj h)
  | .object [], rest, fuel + 1, _, _, _ => rfl
  | .object ((name, value) :: fields), rest, 1, hexact, _, hfuel => by
    rw [write, length_cons] at hfuel
    exact absurd (lt_of_succ_lt_succ hfuel) (not_lt_zero _)
  | .object ((name, value) :: fields), rest, fuel + 2, hexact, _, hfuel => by
    rw [write, length_cons, length_append, length_cons, length_append] at hfuel
    have hval := readValue_write value (writeFields format fields ++ rest) fuel hexact.1
      (endsNumber_writeFields _ _) (by omega)
    have hflds := readFields_write fields rest (fuel + 1) hexact.2 (by omega)
    have hname : (writeText name).length < fuel + 1 := by omega
    rw [write, cons_append, append_assoc, cons_append, append_assoc,
      readValue_brace, readField_write name hname hval, bind_some]
    · dsimp only
      rw [hflds]
      rfl
    · rw [writeText_append, skipSpace_cons _ (by decide)]
      exact fun h => absurd (some.inj h) (by decide)

/-- Round trip of the elements of an array after the first. -/
theorem readElements_write : ∀ (values : List (Value N)) (rest : List Char) (fuel : ℕ),
    ExactElements format values → (writeElements format values).length < fuel →
      readElements format fuel (writeElements format values ++ rest) = some (values, rest)
  | _, _, 0, _, hfuel => absurd hfuel (not_lt_zero _)
  | [], rest, fuel + 1, _, _ => rfl
  | value :: values, rest, fuel + 1, hexact, hfuel => by
    rw [writeElements, length_cons, length_append] at hfuel
    rw [writeElements, cons_append, append_assoc, readElements, skipSpace_cons _ (by decide)]
    dsimp only
    rw [if_neg (by decide), if_pos rfl,
      readValue_write value _ fuel hexact.1 (endsNumber_writeElements _ _) (by omega),
      bind_some]
    dsimp only
    rw [readElements_write values rest fuel hexact.2 (by omega)]
    rfl

/-- Round trip of the fields of an object after the first. -/
theorem readFields_write : ∀ (fields : List (String × Value N)) (rest : List Char) (fuel : ℕ),
    ExactFields format fields → (writeFields format fields).length < fuel →
      readFields format fuel (writeFields format fields ++ rest) = some (fields, rest)
  | _, _, 0, _, hfuel => absurd hfuel (not_lt_zero _)
  | [], rest, fuel + 1, _, _ => rfl
  | (name, value) :: fields, rest, 1, hexact, hfuel => by
    rw [writeFields, length_cons] at hfuel
    exact absurd (lt_of_succ_lt_succ hfuel) (not_lt_zero _)
  | (name, value) :: fields, rest, fuel + 2, hexact, hfuel => by
    rw [writeFields, length_cons, length_append, length_cons, length_append] at hfuel
    have hval := readValue_write value (writeFields format fields ++ rest) fuel hexact.1
      (endsNumber_writeFields _ _) (by omega)
    have hflds := readFields_write fields rest (fuel + 1) hexact.2 (by omega)
    have hname : (writeText name).length < fuel + 1 := by omega
    rw [writeFields, cons_append, append_assoc, cons_append, append_assoc,
      readFields, skipSpace_cons _ (by decide)]
    dsimp only
    rw [if_neg (by decide), if_pos rfl, readField_write name hname hval, bind_some]
    dsimp only
    rw [hflds]
    rfl

end

/-! ## Control characters -/

/-- A text has no control character. -/
def Printable (cs : List Char) : Prop := ∀ c ∈ cs, 0x20 ≤ c.toNat

variable {cs : List Char}

lemma printable_append {ds : List Char} :
    Printable (cs ++ ds) ↔ Printable cs ∧ Printable ds := forall_mem_append

lemma printable_cons {c : Char} :
    Printable (c :: cs) ↔ 0x20 ≤ c.toNat ∧ Printable cs := forall_mem_cons

lemma printable_of_all (h : cs.all (fun c => 0x20 ≤ c.toNat) = true) :
    Printable cs := fun c hc => of_decide_eq_true (all_eq_true.mp h c hc)

lemma printable_writeChar : Printable (writeChar c) := by
  have hlette : escapes.all fun escape => decide (0x20 ≤ escape.1.toNat) := by decide
  have hdigs : ∀ n, 0x20 ≤ (hexDigit n).toNat := by
    intro n
    rw [hexDigit]
    rcases lt_or_ge n 16 with hn | hn
    · interval_cases n <;> decide
    · rw [getD_eq_getElem?_getD, getElem?_eq_none (by exact hn)]
      decide
  rw [writeChar]
  split
  case isTrue =>
    split
    case h_1 letter _ hfind =>
      have hmem := mem_of_find?_eq_some hfind
      have hlett := of_decide_eq_true (all_eq_true.mp hlette _ hmem)
      exact printable_cons.mpr ⟨by decide, printable_cons.mpr ⟨hlett, forall_mem_nil _⟩⟩
    case h_2 =>
      intro d hd
      simp only [mem_cons, not_mem_nil, or_false] at hd
      rcases hd with rfl | rfl | rfl | rfl | rfl | rfl
      · decide
      · decide
      · decide
      · decide
      · exact hdigs _
      · exact hdigs _
  case isFalse hplain =>
    push Not at hplain
    exact fun d hd => mem_singleton.mp hd ▸ hplain.2.2

lemma printable_writeText (s : String) : Printable (writeText s) := by
  rw [writeText, printable_cons, printable_append]
  refine ⟨by decide, fun c hc => ?_, printable_of_all rfl⟩
  obtain ⟨d, -, hd⟩ := mem_flatMap.mp hc
  exact printable_writeChar d c hd

lemma printable_of_isNumberChar (h : ∀ c ∈ cs, isNumberChar c = true) : Printable cs := by
  intro c hc
  by_contra hlow
  have hdigit : c.isDigit = false := by
    rw [isDigit, Bool.and_eq_false_iff]
    refine .inl (decide_eq_false fun hle => hlow ?_)
    exact le_trans (by decide) (UInt32.le_iff_toNat_le.mp hle)
  have hnum := h c hc
  rw [isNumberChar, hdigit] at hnum
  have hmem : c ∈ ['-', '+', '.', 'e', 'E'] := of_decide_eq_true hnum
  simp only [mem_cons, not_mem_nil, or_false] at hmem
  rcases hmem with rfl | rfl | rfl | rfl | rfl <;> exact hlow (by decide)

mutual

/-- The text of a value has no control character. -/
theorem printable_write : ∀ value : Value N, Exact format value → Printable (write format value)
  | .null, _ => printable_of_all rfl
  | .bool true, _ => printable_of_all rfl
  | .bool false, _ => printable_of_all rfl
  | .number n, hexact => by
    rw [write]
    exact printable_of_isNumberChar (format.isNumberChar_of_mem hexact)
  | .text s, _ => by
    rw [write]
    exact printable_writeText s
  | .array [], _ => printable_of_all rfl
  | .array (value :: values), hexact => by
    rw [write, printable_cons, printable_append]
    exact ⟨by decide, printable_write value hexact.1, printable_writeElements values hexact.2⟩
  | .object [], _ => printable_of_all rfl
  | .object ((name, value) :: fields), hexact => by
    rw [write, printable_cons, printable_append, printable_cons, printable_append]
    exact ⟨by decide, printable_writeText name, by decide, printable_write value hexact.1,
      printable_writeFields fields hexact.2⟩

/-- Neither have the elements of an array. -/
theorem printable_writeElements : ∀ values : List (Value N), ExactElements format values →
    Printable (writeElements format values)
  | [], _ => printable_of_all rfl
  | value :: values, hexact => by
    rw [writeElements, printable_cons, printable_append]
    exact ⟨by decide, printable_write value hexact.1, printable_writeElements values hexact.2⟩

/-- Neither have the fields of an object. -/
theorem printable_writeFields : ∀ fields : List (String × Value N), ExactFields format fields →
    Printable (writeFields format fields)
  | [], _ => printable_of_all rfl
  | (name, value) :: fields, hexact => by
    rw [writeFields, printable_cons, printable_append, printable_cons, printable_append]
    exact ⟨by decide, printable_writeText name, by decide, printable_write value hexact.1,
      printable_writeFields fields hexact.2⟩

end

/-- **Round trip** of a whole text. -/
theorem parse_write {value : Value N} (hexact : Exact format value) :
    parse format (write format value) = some value := by
  have hread := readValue_write value [] ((write format value).length + 1) hexact nofun
    (lt_succ_self _)
  rw [append_nil] at hread
  rw [parse, hread]
  rfl

end Values

end JsonText
