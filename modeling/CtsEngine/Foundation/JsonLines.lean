import CtsEngine.Foundation.DoubleText
import CtsEngine.Foundation.JsonTruncation
import CtsEngine.Foundation.Keyed

/-!
# JSON values and files of lines

What the code does with the value of a JSON text (`String`, `Number`, truth, fields), and files with
one JSON text in each line.  The text of a value has no control character, so a file is split into
the lines that were written, and a last line that is cut off is not the text of an object.
-/

namespace CtsEngine

open List JsonText Keyed Char

open JsonText (Value)

/-! ## Conversions -/

/-- `String(value)` of a JSON value. -/
def jsString : Value Double → String
  | .null => "null"
  | .bool b => if b then "true" else "false"
  | .number n => String.ofList (doubleText n)
  | .text s => s
  | .array values => ",".intercalate (texts values)
  | .object _ => "[object Object]"
where
  /-- The texts of the elements of an array; that of `null` is empty. -/
  texts : List (Value Double) → List String
    | [] => []
    | .null :: values => "" :: texts values
    | value :: values => jsString value :: texts values

/-- `Number(value)` of a JSON value. -/
def jsNumber : Value Double → Double
  | .null => .finite 0
  | .bool b => .finite (if b then 1 else 0)
  | .number n => n
  | .text s => numberOfString s
  | .array values => numberOfString (jsString (.array values))
  | .object _ => .nan

/-- A JSON value is truthy. -/
def jsTruthy : Value Double → Bool
  | .null => false
  | .bool b => b
  | .number n => n ≠ .finite 0 && n ≠ .nan
  | .text s => s ≠ ""
  | .array _ => true
  | .object _ => true

/-- `a || b || …`: the first truthy value. -/
def firstTruthy (values : List (Option (Value Double))) : Option (Value Double) :=
  values.findSome? fun value => value.filter jsTruthy

/-- The object of the fields of a text: the last field of a name counts. -/
def jsObject (fields : List (String × Value Double)) : List (String × Value Double) :=
  fields.foldl (fun record field => put record field.1 field.2) []

/-- A field of an object. -/
def jsField (fields : List (String × Value Double)) (name : String) : Option (Value Double) :=
  get? (jsObject fields) name

/-- `JSON.parse`. -/
def jsonParse (text : List Char) : Option (Value Double) := parse jsonNumbers text

variable {value : Value Double} {fields : List (String × Value Double)} {c : Char}
  {cs tail : List Char} {lines : List (List Char)} {bytes : ℕ}

lemma jsonParse_stringify (h : JsonText.Exact jsonNumbers value) :
    jsonParse (stringify value) = some value := parse_write h

lemma mem_of_jsField {name : String} (h : jsField fields name = some value) :
    (name, value) ∈ fields := by
  have hfold : ∀ (fields record : List (String × Value Double)) (entry : String × Value Double),
      entry ∈ fields.foldl (fun record field => put record field.1 field.2) record →
        entry ∈ record ∨ entry ∈ fields := by
    intro fields
    induction fields with
    | nil => exact fun record entry hmem => .inl hmem
    | cons field fields ih =>
      intro record entry hmem
      rcases ih _ _ hmem with hmem | hmem
      · rcases mem_put hmem with rfl | hmem
        · exact .inr mem_cons_self
        · exact .inl hmem
      · exact .inr (mem_cons_of_mem _ hmem)
  exact (hfold fields [] _ (mem_of_get? h)).resolve_left not_mem_nil

lemma exact_of_mem {name : String} (h : JsonText.ExactFields jsonNumbers fields)
    (hmem : (name, value) ∈ fields) : JsonText.Exact jsonNumbers value := by
  induction fields with
  | nil => cases hmem
  | cons field fields ih =>
    rcases mem_cons.mp hmem with rfl | hmem
    · exact h.1
    · exact ih h.2 hmem

lemma ascii_of_isNumberChar (h : isNumberChar c = true) : c.toNat < 128 := by
  by_contra hc
  rw [isNumberChar, (not_letter_of_not_ascii hc).2.1] at h
  have hmem : c ∈ ['-', '+', '.', 'e', 'E'] := of_decide_eq_true h
  simp only [mem_cons, not_mem_nil, or_false] at hmem
  rcases hmem with rfl | rfl | rfl | rfl | rfl <;> exact hc (by decide)

lemma isJsSpace_of_isNumberChar (h : isNumberChar c = true) : isJsSpace c = false := by
  have hall : ∀ n : Fin 128, isNumberChar (ofNat n) = true →
      isJsSpace (ofNat n) = false := by decide +kernel
  exact ascii_of_all (P := fun c => isNumberChar c = true → isJsSpace c = false) hall
    (ascii_of_isNumberChar h) h

lemma toLower_of_isNumberChar (h : isNumberChar c = true) :
    c.toLower ≠ 'x' ∧ c.toLower ≠ 'o' ∧ c.toLower ≠ 'b' := by
  have hall : ∀ n : Fin 128, isNumberChar (ofNat n) = true →
      (ofNat n).toLower ≠ 'x' ∧ (ofNat n).toLower ≠ 'o' ∧
        (ofNat n).toLower ≠ 'b' := by decide +kernel
  exact ascii_of_all (P := fun c => isNumberChar c = true →
    c.toLower ≠ 'x' ∧ c.toLower ≠ 'o' ∧ c.toLower ≠ 'b') hall (ascii_of_isNumberChar h) h

lemma readSign_of_no_sign (hminus : c ≠ '-') (hplus : c ≠ '+') :
    readSign (c :: cs) = (false, c :: cs) := by
  rw [readSign]
  · rintro _ ⟨rfl, rfl⟩
    exact hminus rfl
  · rintro _ ⟨rfl, rfl⟩
    exact hplus rfl

lemma decimalLiteral_of_jsonDouble {token : List Char} {x : Double}
    (h : jsonDouble token = some x) : decimalLiteral token = x := by
  have hunsig : ∀ {negative : Bool} {cs : List Char}, jsonUnsigned negative cs = some x →
      cs ≠ "Infinity".toList ∧
        ∃ q, readNumeral 10 10 'e' cs = some (q, []) ∧ x = .ofRat (signed negative q) := by
    intro negative cs hcs
    unfold jsonUnsigned at hcs
    extract_lets whole fraction at hcs
    split_ifs at hcs with hform
    · refine ⟨?_, ?_⟩
      · rintro rfl
        exact hform (.inl rfl)
      · split at hcs
        · next q hq => exact ⟨q, hq, (Option.some.inj hcs).symm⟩
        · cases hcs
  rw [jsonDouble] at h
  split at h
  case isTrue hminus =>
    obtain ⟨cs, rfl⟩ := head?_eq_some_iff.mp hminus
    rw [tail_cons] at h
    obtain ⟨hne, q, hq, rfl⟩ := hunsig h
    rw [decimalLiteral, readSign]
    dsimp only
    rw [if_neg hne, hq]
  case isFalse hminus =>
    obtain ⟨hne, q, hq, rfl⟩ := hunsig h
    have hsign : readSign token = (false, token) := by
      rcases token with _ | ⟨c, cs⟩
      · rfl
      · refine readSign_of_no_sign (fun hc => hminus (congrArg some hc)) ?_
        rintro rfl
        cases h
    rw [decimalLiteral, hsign]
    dsimp only
    rw [if_neg hne, hq]

/-- **Round trip** of a number through a text of a hash. -/
theorem numberOfString_doubleText {x : Double} (hx : x.IsExact) :
    numberOfString (String.ofList (doubleText x)) = x := by
  have hchars := isNumberChar_doubleText hx
  have hread := decimalLiteral_of_jsonDouble (jsonDouble_doubleText hx)
  have hne := jsonNumbers.write_ne_nil hx
  have htrim : trim (String.ofList (doubleText x)) = String.ofList (doubleText x) := by
    refine trim_of_forall fun c hc => isJsSpace_of_isNumberChar (hchars c ?_)
    rwa [String.toList_ofList] at hc
  rw [numberOfString, htrim, String.toList_ofList]
  have hpref : ∀ c ∈ doubleText x, c.toLower ≠ 'x' ∧ c.toLower ≠ 'o' ∧ c.toLower ≠ 'b' :=
    fun c hc => toLower_of_isNumberChar (hchars c hc)
  split
  case h_1 hnil => exact absurd hnil hne
  case h_2 c cs htoken =>
    obtain ⟨hx, ho, hb⟩ := hpref c (htoken ▸ mem_cons_of_mem _ mem_cons_self)
    split
    case h_1 hc => exact absurd hc hx
    case h_2 hc => exact absurd hc ho
    case h_3 hc => exact absurd hc hb
    case h_4 => rw [← htoken, hread]
  case h_3 => exact hread

/-! ## Lines -/

/-- The text of a file of lines. -/
def framed (lines : List (List Char)) : List Char := lines.flatMap fun line => line ++ ['\n']

lemma splitOn_framed (h : ∀ line ∈ lines, '\n' ∉ line) (htail : '\n' ∉ tail) :
    (framed lines ++ tail).splitOn '\n' = lines ++ [tail] := by
  induction lines with
  | nil => exact splitOn_eq_singleton htail
  | cons line lines ih =>
    have hline : '\n' ∉ line := h line mem_cons_self
    rw [framed, flatMap_cons, append_assoc, append_assoc, singleton_append,
      splitOn_append_cons_self_of_not_mem hline, ← framed,
      ih fun other hoth => h other (mem_cons_of_mem _ hoth)]
    rfl

lemma exists_framed (text : List Char) : ∃ lines tail, text = framed lines ++ tail ∧
    (∀ line ∈ lines, '\n' ∉ line) ∧ '\n' ∉ tail := by
  induction text with
  | nil => exact ⟨[], [], rfl, forall_mem_nil _, not_mem_nil⟩
  | cons c text ih =>
    obtain ⟨lines, tail, rfl, hlines, htail⟩ := ih
    by_cases hc : c = '\n'
    · subst hc
      refine ⟨[] :: lines, tail, rfl, fun line hline => ?_, htail⟩
      rcases mem_cons.mp hline with rfl | hline
      · exact not_mem_nil
      · exact hlines line hline
    · have hnotin : ∀ {line : List Char}, '\n' ∉ line → '\n' ∉ c :: line := fun h hmem =>
        (mem_cons.mp hmem).elim (fun heq => hc heq.symm) h
      cases lines with
      | nil => exact ⟨[], c :: tail, rfl, hlines, hnotin htail⟩
      | cons line lines =>
        refine ⟨(c :: line) :: lines, tail, rfl, fun other hoth => ?_, htail⟩
        rcases mem_cons.mp hoth with rfl | hoth
        · exact hnotin (hlines line mem_cons_self)
        · exact hlines other (mem_cons_of_mem _ hoth)

lemma framed_append (lines lines' : List (List Char)) :
    framed (lines ++ lines') = framed lines ++ framed lines' := flatMap_append

lemma framed_inj {lines' : List (List Char)} {tail' : List Char}
    (hlines : ∀ line ∈ lines, '\n' ∉ line) (hlines' : ∀ line ∈ lines', '\n' ∉ line)
    (htail : '\n' ∉ tail) (htail' : '\n' ∉ tail')
    (h : framed lines ++ tail = framed lines' ++ tail') : lines = lines' ∧ tail = tail' := by
  have hsplit := congrArg (splitOn '\n') h
  rw [splitOn_framed hlines htail, splitOn_framed hlines' htail'] at hsplit
  obtain ⟨hsame, hlast⟩ := append_inj' hsplit rfl
  exact ⟨hsame, (List.cons.inj hlast).1⟩

lemma newline_not_mem_stringify (h : JsonText.Exact jsonNumbers value) :
    '\n' ∉ stringify value := fun hmem =>
  absurd (printable_write value h _ hmem) (by decide)

/-- The bytes of a text. -/
def utf8Bytes (cs : List Char) : ℕ := (cs.map utf8Size).sum

/-- What is read of the first bytes of a text: its characters, and a replacement character for one
whose bytes are not complete. -/
def truncatedText : List Char → ℕ → List Char
  | [], _ => []
  | _ :: _, 0 => []
  | c :: cs, bytes =>
    if c.utf8Size ≤ bytes then c :: truncatedText cs (bytes - c.utf8Size) else ['\ufffd']

lemma mem_truncatedText (h : c ∈ truncatedText cs bytes) : c ∈ cs ∨ c = '\ufffd' := by
  induction cs generalizing bytes with
  | nil => exact .inl h
  | cons d cs ih =>
    match bytes with
    | 0 => exact absurd h not_mem_nil
    | bytes + 1 =>
      rw [truncatedText.eq_3 _ _ _ (Nat.succ_ne_zero _)] at h
      split at h
      · rcases mem_cons.mp h with rfl | h
        · exact .inl mem_cons_self
        · exact (ih h).imp_left (mem_cons_of_mem d)
      · exact .inr (mem_singleton.mp h)

lemma truncatedText_spec (h : bytes < utf8Bytes cs) :
    ∃ part more, cs = part ++ more ∧ more ≠ [] ∧
      (truncatedText cs bytes = part ∨ truncatedText cs bytes = part ++ ['\ufffd']) := by
  induction cs generalizing bytes with
  | nil => exact absurd h (Nat.not_lt_zero _)
  | cons c cs ih =>
    match bytes with
    | 0 => exact ⟨[], c :: cs, rfl, cons_ne_nil _ _, .inl rfl⟩
    | bytes + 1 =>
      rw [truncatedText]
      · split
        case isTrue hle =>
          have hrest : bytes + 1 - c.utf8Size < utf8Bytes cs := by
            rw [utf8Bytes, map_cons, sum_cons, ← utf8Bytes] at h
            omega
          obtain ⟨part, more, rfl, hmore, heq⟩ := ih hrest
          refine ⟨c :: part, more, rfl, hmore, ?_⟩
          rcases heq with heq | heq
          · exact .inl (congrArg _ heq)
          · exact .inr (congrArg _ heq)
        case isFalse => exact ⟨[], c :: cs, rfl, cons_ne_nil _ _, .inr rfl⟩
      · exact Nat.succ_ne_zero _

lemma utf8Bytes_append (cs ds : List Char) :
    utf8Bytes (cs ++ ds) = utf8Bytes cs + utf8Bytes ds := by
  rw [utf8Bytes, map_append, sum_append]
  rfl

lemma truncatedText_append (h : utf8Bytes cs ≤ bytes) (ds : List Char) :
    truncatedText (cs ++ ds) bytes = cs ++ truncatedText ds (bytes - utf8Bytes cs) := by
  induction cs generalizing bytes with
  | nil => rfl
  | cons c cs ih =>
    have hpos := utf8Size_pos c
    rw [utf8Bytes, map_cons, sum_cons, ← utf8Bytes] at h ⊢
    rw [cons_append, truncatedText.eq_3 _ _ _ (by omega), if_pos (by omega),
      ih (by omega), Nat.sub_sub]
    rfl

lemma truncatedText_append_of_le (h : bytes ≤ utf8Bytes cs) (ds : List Char) :
    truncatedText (cs ++ ds) bytes = truncatedText cs bytes := by
  induction cs generalizing bytes with
  | nil =>
    obtain rfl : bytes = 0 := Nat.le_zero.mp h
    cases ds <;> rfl
  | cons c cs ih =>
    match bytes with
    | 0 => rfl
    | bytes + 1 =>
      rw [utf8Bytes, map_cons, sum_cons, ← utf8Bytes] at h
      rw [cons_append, truncatedText.eq_3 _ _ _ (Nat.succ_ne_zero _),
        truncatedText.eq_3 _ _ _ (Nat.succ_ne_zero _)]
      split_ifs with hle
      · rw [ih (by omega)]
      · rfl

lemma truncatedText_framed (h : bytes < utf8Bytes (framed lines)) :
    ∃ count line, lines[count]? = some line ∧ ∃ bytes' ≤ utf8Bytes line,
      truncatedText (framed lines) bytes =
        framed (lines.take count) ++ truncatedText line bytes' := by
  induction lines generalizing bytes with
  | nil => exact absurd h (Nat.not_lt_zero _)
  | cons line lines ih =>
    have hsplit : framed (line :: lines) = (line ++ ['\n']) ++ framed lines := rfl
    have hlen : utf8Bytes (line ++ ['\n']) = utf8Bytes line + 1 := utf8Bytes_append ..
    rw [hsplit, utf8Bytes_append] at h
    by_cases hle : bytes ≤ utf8Bytes line
    · refine ⟨0, line, rfl, bytes, hle, ?_⟩
      rw [hsplit, append_assoc, truncatedText_append_of_le hle]
      rfl
    · have hrest : bytes - (utf8Bytes line + 1) < utf8Bytes (framed lines) := by omega
      obtain ⟨count, other, hcnt, bytes', hbytes', heq⟩ := ih hrest
      refine ⟨count + 1, other, hcnt, bytes', hbytes', ?_⟩
      rw [hsplit, truncatedText_append (by omega), hlen, heq, ← append_assoc]
      rfl

lemma truncatedText_utf8Bytes (cs : List Char) : truncatedText cs (utf8Bytes cs) = cs := by
  have happend := truncatedText_append (le_refl (utf8Bytes cs)) []
  rw [append_nil] at happend
  exact happend.trans (append_nil cs)

/-- **Torn lines.**  The text of an object or an array that is cut off is not a JSON text. -/
theorem jsonParse_truncatedText (hexact : JsonText.Exact jsonNumbers value)
    (hcomp : JsonText.IsComposite value) (h : bytes < utf8Bytes (stringify value)) :
    jsonParse (truncatedText (stringify value) bytes) = none := by
  obtain ⟨part, more, hpart, hmore, heq | heq⟩ := truncatedText_spec h
  · rw [heq]
    exact parse_prefix hexact hcomp hpart hmore
  · rw [heq]
    cases part with
    | nil => rfl
    | cons c part =>
      exact parse_prefix_append hcomp hpart (cons_ne_nil _ _) (by decide) (by decide) (by decide)

end CtsEngine
