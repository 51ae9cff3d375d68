import CtsEngine.Foundation.JsonRoundTrip
import Mathlib.Data.List.TakeWhile

/-!
# Texts that were cut off

What is read of a text does not depend on what follows the part that is read, and an array or an
object is read up to its bracket.  Hence no proper part of the text of an array or an object from
its start is the text of a value, and neither is such a part with a character after it that is
neither a bracket nor white space.
-/

namespace JsonText

open Option List Prod

/-- What is read of a text is its part before the rest, whatever follows it that may follow. -/
def Uses {A : Type} (read : List Char → Option (A × List Char)) (after : List Char → Prop)
    (cs : List Char) (a : A) (rest : List Char) : Prop :=
  ∃ used, cs = used ++ rest ∧ ∀ other, after other → read (used ++ other) = some (a, other)

/-- What is read of a text is its part up to a character that closes it. -/
def ClosedBy (c : Char) {A : Type} (read : List Char → Option (A × List Char)) (cs : List Char)
    (a : A) (rest : List Char) : Prop :=
  ∃ used, cs = used ++ c :: rest ∧ ∀ other, read (used ++ c :: other) = some (a, other)

variable {cs rest : List Char}

lemma ClosedBy.uses {c : Char} {A : Type} {read : List Char → Option (A × List Char)} {a : A}
    (h : ClosedBy c read cs a rest) (after : List Char → Prop) : Uses read after cs a rest := by
  obtain ⟨used, rfl, hread⟩ := h
  refine ⟨used ++ [c], (append_cons ..), fun other _ => ?_⟩
  rw [← append_cons]
  exact hread other

lemma head?_append_cons (cs : List Char) (c : Char) (rest other : List Char) :
    (cs ++ c :: rest).head? = (cs ++ c :: other).head? := by
  cases cs <;> rfl

lemma skipSpace_append_cons (cs : List Char) {c : Char} (hc : isSpace c = false)
    (rest : List Char) : skipSpace (cs ++ c :: rest) = skipSpace cs ++ c :: rest := by
  rw [skipSpace, dropWhile_append]
  split
  case isTrue hempty =>
    rw [skipSpace, List.isEmpty_iff.mp hempty, dropWhile_cons_of_neg (by simp [hc])]
    rfl
  case isFalse => rfl

lemma exists_of_skipSpace {c : Char} (h : skipSpace cs = c :: rest) :
    ∃ spaces, cs = spaces ++ c :: rest ∧ (∀ d ∈ spaces, isSpace d = true) ∧
      isSpace c = false ∧ ∀ other, skipSpace (spaces ++ c :: other) = c :: other := by
  have hspac : ∀ d ∈ cs.takeWhile isSpace, isSpace d = true := fun _ => mem_takeWhile_imp
  have hc : isSpace c = false := by
    have hhead := head?_dropWhile_not isSpace cs
    rw [← skipSpace, h] at hhead
    simpa using hhead
  refine ⟨cs.takeWhile isSpace, ?_, hspac, hc, fun other => ?_⟩
  · rw [← h, skipSpace, takeWhile_append_dropWhile]
  · rw [skipSpace_append_cons _ hc, skipSpace, dropWhile_eq_nil_iff.mpr hspac, nil_append]

lemma readUnit_uses {piece : Piece} (h : readUnit cs = some (piece, rest)) :
    Uses readUnit (fun _ => True) cs piece rest := by
  unfold readUnit at h
  split at h
  case h_1 a b c d rest' =>
    split at h
    case h_1 ha hb hc hd =>
      cases h
      refine ⟨[a, b, c, d], rfl, fun other _ => ?_⟩
      rw [cons_append, cons_append, cons_append, cons_append, nil_append, readUnit, ha, hb, hc, hd]
    case h_2 => cases h
  case h_2 => cases h

lemma readPiece_uses {piece : Piece} (h : readPiece cs = some (piece, rest)) :
    Uses readPiece (fun _ => True) cs piece rest := by
  rw [readPiece.eq_def] at h
  split at h
  case h_1 => cases h
  case h_2 c cs =>
    split at h
    case isTrue hslash =>
      split at h
      case h_1 => cases h
      case h_2 letter cs =>
        split at h
        case isTrue hunit =>
          obtain ⟨used, rfl, hread⟩ := readUnit_uses h
          refine ⟨c :: letter :: used, rfl, fun other _ => ?_⟩
          rw [cons_append, cons_append, readPiece.eq_def]
          dsimp only
          rw [if_pos hslash, if_pos hunit, hread other trivial]
        case isFalse hunit =>
          obtain ⟨escape, hescap, heq⟩ := map_eq_some_iff.mp h
          obtain ⟨rfl, rfl⟩ := mk.inj heq
          refine ⟨[c, letter], rfl, fun other _ => ?_⟩
          rw [cons_append, cons_append, readPiece.eq_def]
          dsimp only
          rw [if_pos hslash, if_neg hunit, hescap]
          rfl
    case isFalse hslash =>
      split at h
      case isTrue => cases h
      case isFalse hctrl =>
        cases h
        refine ⟨[c], rfl, fun other _ => ?_⟩
        rw [singleton_append, readPiece.eq_def]
        dsimp only
        rw [if_neg hslash, if_neg hctrl]

lemma readPieces_closedBy {fuel : ℕ} {pieces : List Piece}
    (h : readPieces fuel cs = some (pieces, rest)) :
    ClosedBy '"' (readPieces fuel) cs pieces rest := by
  induction fuel generalizing cs pieces with
  | zero => cases h
  | succ fuel ih =>
    rw [readPieces] at h
    split at h
    case isTrue hquote =>
      cases h
      refine ⟨[], ?_, fun other => rfl⟩
      cases cs with
      | nil => cases hquote
      | cons c cs => rw [Option.some.inj hquote]; rfl
    case isFalse hquote =>
      obtain ⟨⟨piece, rest'⟩, hpiece, h⟩ := Option.bind_eq_some_iff.mp h
      obtain ⟨⟨pieces', rest''⟩, hpieces, heq⟩ := Option.map_eq_some_iff.mp h
      obtain ⟨rfl, rfl⟩ := mk.inj heq
      obtain ⟨used, rfl, hread⟩ := readPiece_uses hpiece
      obtain ⟨used', rfl, hreads⟩ := ih hpieces
      refine ⟨used ++ used', (List.append_assoc ..).symm, fun other => ?_⟩
      have hhead : (used ++ (used' ++ '"' :: other)).head? ≠ some '"' := by
        rw [← List.append_assoc] at hquote ⊢
        rwa [head?_append_cons _ _ other rest'']
      rw [List.append_assoc, readPieces, if_neg hhead, hread _ trivial, Option.bind_some]
      dsimp only
      rw [hreads other]
      rfl

lemma readText_closedBy {fuel : ℕ} {s : String} (h : readText fuel cs = some (s, rest)) :
    ClosedBy '"' (readText fuel) cs s rest := by
  obtain ⟨⟨pieces, rest'⟩, hpiec, heq⟩ := map_eq_some_iff.mp h
  obtain ⟨rfl, rfl⟩ := mk.inj heq
  obtain ⟨used, rfl, hread⟩ := readPieces_closedBy hpiec
  refine ⟨used, rfl, fun other => ?_⟩
  rw [readText, hread other]
  rfl

lemma eq_append_of_isPrefixOf {name : List Char} (h : name.isPrefixOf cs = true) :
    cs = name ++ cs.drop name.length := by
  obtain ⟨rest, rfl⟩ := isPrefixOf_iff_prefix.mp h
  rw [drop_left]

lemma readName_uses {N : Type} {value : Value N} (h : readName cs = some (value, rest)) :
    Uses readName (fun _ => True) cs value rest := by
  rw [readName] at h
  split at h
  case isTrue hnull =>
    cases h
    exact ⟨_, eq_append_of_isPrefixOf hnull, fun _ _ => rfl⟩
  case isFalse =>
    split at h
    case isTrue htrue =>
      cases h
      exact ⟨_, eq_append_of_isPrefixOf htrue, fun _ _ => rfl⟩
    case isFalse =>
      split at h
      case isTrue hfalse =>
        cases h
        exact ⟨_, eq_append_of_isPrefixOf hfalse, fun _ _ => rfl⟩
      case isFalse => cases h

/-! ## Values -/

section Values

variable {N : Type} {format : NumberFormat N}

lemma endsNumber_of_skipSpace {cs rest : List Char} {c : Char} (h : skipSpace cs = c :: rest)
    (hc : isNumberChar c = false) : EndsNumber cs := by
  obtain ⟨spaces, rfl, hspac, -⟩ := exists_of_skipSpace h
  intro d hd
  cases spaces with
  | nil =>
    cases hd
    exact hc
  | cons e spaces =>
    cases hd
    exact isNumberChar_of_isSpace (hspac _ (mem_cons_self ..))

lemma EndsNumber.of_append_cons {cs rest : List Char} {c : Char}
    (h : EndsNumber (cs ++ c :: rest)) (other : List Char) : EndsNumber (cs ++ c :: other) := by
  rw [EndsNumber, head?_append_cons cs c other rest]
  exact h

end Values

section Brackets

variable {A X Y : Type} {close : Char} {first : List Char → Option (X × List Char)}
  {others : List Char → Option (Y × List Char)} {make : X → Y → A} {cs rest : List Char}

/-- Two things, one after the other. -/
def readPair (first : List Char → Option (X × List Char))
    (others : List Char → Option (Y × List Char)) (make : X → Y → A) (cs : List Char) :
    Option (A × List Char) :=
  (first cs).bind fun (x, rest) => (others rest).map fun (y, rest) => (make x y, rest)

/-- The inside of brackets: nothing, or a first thing and the others up to the bracket. -/
def readBracketed (close : Char) (empty : A) (first : List Char → Option (X × List Char))
    (others : List Char → Option (Y × List Char)) (make : X → Y → A) (cs : List Char) :
    Option (A × List Char) :=
  if (skipSpace cs).head? = some close then some (empty, (skipSpace cs).tail)
  else readPair first others make cs

/-- What follows a thing inside brackets: the bracket, or a comma, a thing and what follows it. -/
def readSeparated (close : Char) (empty : Y) (first : List Char → Option (X × List Char))
    (others : List Char → Option (Y × List Char)) (make : X → Y → Y) (cs : List Char) :
    Option (Y × List Char) :=
  match skipSpace cs with
  | [] => none
  | c :: rest =>
    if c = close then some (empty, rest)
    else if c = ',' then readPair first others make rest
    else none

section Closed

variable (hfirst : ∀ {cs x rest}, first cs = some (x, rest) → EndsNumber rest →
    Uses first EndsNumber cs x rest)
  (hoths : ∀ {cs y rest}, others cs = some (y, rest) →
    EndsNumber cs ∧ ClosedBy close others cs y rest)

include hfirst hoths

lemma closedBy_readPair {a : A}
    (h : readPair first others make cs = some (a, rest)) :
    ClosedBy close (readPair first others make) cs a rest := by
  obtain ⟨⟨x, rest'⟩, hx, h⟩ := bind_eq_some_iff.mp h
  obtain ⟨⟨y, rest''⟩, hy, heq⟩ := map_eq_some_iff.mp h
  obtain ⟨rfl, rfl⟩ := mk.inj heq
  obtain ⟨hends, used', rfl, hreads⟩ := hoths hy
  obtain ⟨used, rfl, hread⟩ := hfirst hx hends
  refine ⟨used ++ used', (append_assoc ..).symm, fun other => ?_⟩
  rw [readPair, append_assoc, hread _ (hends.of_append_cons other), bind_some]
  dsimp only
  rw [hreads other]
  rfl

lemma closedBy_readBracketed (hclose : isSpace close = false) {empty a : A}
    (h : readBracketed close empty first others make cs = some (a, rest)) :
    ClosedBy close (readBracketed close empty first others make) cs a rest := by
  rw [readBracketed] at h
  split at h
  case isTrue hempty =>
    cases h
    obtain ⟨rest, hrest⟩ := head?_eq_some_iff.mp hempty
    obtain ⟨spaces, rfl, -, -, hskip⟩ := exists_of_skipSpace hrest
    rw [hrest]
    refine ⟨spaces, rfl, fun other => ?_⟩
    rw [readBracketed, hskip, head?_cons, if_pos rfl, tail_cons]
  case isFalse hnonem =>
    obtain ⟨used, rfl, hread⟩ := closedBy_readPair hfirst hoths h
    refine ⟨used, rfl, fun other => ?_⟩
    rw [skipSpace_append_cons _ hclose, head?_append_cons _ _ _ other] at hnonem
    rw [readBracketed, skipSpace_append_cons _ hclose, if_neg hnonem, hread other]

lemma closedBy_readSeparated {make : X → Y → Y} (hclose : isNumberChar close = false) {empty y : Y}
    (h : readSeparated close empty first others make cs = some (y, rest)) :
    EndsNumber cs ∧ ClosedBy close (readSeparated close empty first others make) cs y rest := by
  rw [readSeparated] at h
  split at h
  case h_1 => cases h
  case h_2 c cs' hspace =>
    obtain ⟨spaces, rfl, -, -, hskip⟩ := exists_of_skipSpace hspace
    split at h
    case isTrue hc =>
      cases h
      refine ⟨endsNumber_of_skipSpace hspace (hc ▸ hclose), spaces, by rw [hc], fun other => ?_⟩
      rw [readSeparated, ← hc, hskip]
      exact if_pos rfl
    case isFalse hc =>
      split at h
      case isFalse => cases h
      case isTrue hcomma =>
        obtain ⟨used, rfl, hread⟩ := closedBy_readPair hfirst hoths h
        refine ⟨endsNumber_of_skipSpace hspace (hcomma ▸ by decide),
          spaces ++ c :: used, by simp, fun other => ?_⟩
        rw [append_assoc, cons_append, readSeparated, hskip]
        dsimp only
        rw [if_neg hc, if_pos hcomma, hread other]

end Closed

/-- A reader that reads what another one reads, and perhaps more. -/
def ReadsAs {B : Type} (read read' : List Char → Option (B × List Char)) : Prop :=
  ∀ {cs b}, read cs = some b → read' cs = some b

variable {others' : List Char → Option (Y × List Char)}
  {first' : List Char → Option (X × List Char)}

section

variable (hfirst : ReadsAs first first') (hoths : ReadsAs others others')

include hfirst hoths

lemma readsAs_readPair : ReadsAs (readPair first others make) (readPair first' others' make) := by
  intro cs b h
  obtain ⟨⟨x, rest⟩, hx, h⟩ := bind_eq_some_iff.mp h
  obtain ⟨⟨y, rest'⟩, hy, heq⟩ := map_eq_some_iff.mp h
  rw [readPair, hfirst hx, bind_some]
  dsimp only
  rw [hoths hy]
  exact congrArg some heq

lemma readsAs_readBracketed {empty : A} :
    ReadsAs (readBracketed close empty first others make)
      (readBracketed close empty first' others' make) := by
  intro cs b h
  rw [readBracketed] at h ⊢
  split at h
  case isTrue hempty => rwa [if_pos hempty]
  case isFalse hnonem =>
    rw [if_neg hnonem]
    exact readsAs_readPair hfirst hoths h

lemma readsAs_readSeparated {empty : Y} {make : X → Y → Y} :
    ReadsAs (readSeparated close empty first others make)
      (readSeparated close empty first' others' make) := by
  intro cs b h
  rw [readSeparated] at h ⊢
  split at h
  case h_1 => cases h
  case h_2 c cs' hspace =>
    split at h
    case isTrue hc =>
      rwa [if_pos hc]
    case isFalse hc =>
      split at h
      case isFalse => cases h
      case isTrue hcomma =>
        rw [if_neg hc, if_pos hcomma]
        exact readsAs_readPair hfirst hoths h

end

end Brackets

/-! ## The value at the head of a text -/

section Head

variable {N : Type} {format : NumberFormat N}

lemma readValue_eq_array {fuel : ℕ} {cs cs' : List Char} (h : skipSpace cs = '[' :: cs') :
    readValue format (fuel + 1) cs = readBracketed ']' (.array []) (readValue format fuel)
      (readElements format fuel) (fun value values => .array (value :: values)) cs' := by
  rw [readValue, h]
  exact if_pos rfl

lemma readValue_eq_object {fuel : ℕ} {cs cs' : List Char} (h : skipSpace cs = '\x7b' :: cs') :
    readValue format (fuel + 1) cs = readBracketed '\x7d' (.object []) (readField format fuel)
      (readFields format fuel) (fun field fields => .object (field :: fields)) cs' := by
  rw [readValue, h]
  exact (if_neg (by decide)).trans (if_pos rfl)

lemma readElements_eq (fuel : ℕ) : readElements format (fuel + 1) =
    readSeparated ']' [] (readValue format fuel) (readElements format fuel) List.cons :=
  funext fun cs => by rfl

lemma readFields_eq (fuel : ℕ) : readFields format (fuel + 1) =
    readSeparated '\x7d' [] (readField format fuel) (readFields format fuel) List.cons :=
  funext fun cs => by rfl

/-- What is read of a value, and of the parts of arrays and objects, with a bound. -/
structure ReadsLocally (format : NumberFormat N) (fuel : ℕ) : Prop where
  value : ∀ {cs value rest}, readValue format fuel cs = some (value, rest) → EndsNumber rest →
    Uses (readValue format fuel) EndsNumber cs value rest
  elements : ∀ {cs values rest}, readElements format fuel cs = some (values, rest) →
    EndsNumber cs ∧ ClosedBy ']' (readElements format fuel) cs values rest
  field : ∀ {cs field rest}, readField format fuel cs = some (field, rest) → EndsNumber rest →
    Uses (readField format fuel) EndsNumber cs field rest
  fields : ∀ {cs fields rest}, readFields format fuel cs = some (fields, rest) →
    EndsNumber cs ∧ ClosedBy '\x7d' (readFields format fuel) cs fields rest

lemma ClosedBy.of_head {A : Type} {c : Char} {read read' : List Char → Option (A × List Char)}
    {cs cs' rest : List Char} {a : A} {head : Char} (hspace : skipSpace cs = head :: cs')
    (hread : ∀ cs cs', skipSpace cs = head :: cs' → read cs = read' cs')
    (h : ClosedBy c read' cs' a rest) : ClosedBy c read cs a rest := by
  obtain ⟨spaces, rfl, -, -, hskip⟩ := exists_of_skipSpace hspace
  obtain ⟨used, rfl, hused⟩ := h
  refine ⟨spaces ++ head :: used, by simp, fun other => ?_⟩
  rw [append_assoc, cons_append, hread _ _ (hskip _)]
  exact hused other

namespace ReadsLocally

variable {fuel : ℕ} {cs cs' rest : List Char} {value : Value N}

lemma array (h : ReadsLocally format fuel) (hspace : skipSpace cs = '[' :: cs')
    (hread : readValue format (fuel + 1) cs = some (value, rest)) :
    ClosedBy ']' (readValue format (fuel + 1)) cs value rest := by
  rw [readValue_eq_array hspace] at hread
  exact .of_head hspace (fun _ _ => readValue_eq_array)
    (closedBy_readBracketed h.value h.elements (by decide) hread)

lemma object (h : ReadsLocally format fuel) (hspace : skipSpace cs = '\x7b' :: cs')
    (hread : readValue format (fuel + 1) cs = some (value, rest)) :
    ClosedBy '\x7d' (readValue format (fuel + 1)) cs value rest := by
  rw [readValue_eq_object hspace] at hread
  exact .of_head hspace (fun _ _ => readValue_eq_object)
    (closedBy_readBracketed h.field h.fields (by decide) hread)

lemma value_succ (h : ReadsLocally format fuel)
    (hread : readValue format (fuel + 1) cs = some (value, rest)) :
    Uses (readValue format (fuel + 1)) EndsNumber cs value rest := by
  cases hspace : skipSpace cs with
  | nil =>
    rw [readValue, hspace] at hread
    cases hread
  | cons c cs' =>
    by_cases hbrac : c = '['
    · subst hbrac
      exact (h.array hspace hread).uses _
    by_cases hbrace : c = '\x7b'
    · subst hbrace
      exact (h.object hspace hread).uses _
    obtain ⟨spaces, rfl, -, -, hskip⟩ := exists_of_skipSpace hspace
    rw [readValue, hspace] at hread
    dsimp only at hread
    rw [if_neg hbrac, if_neg hbrace] at hread
    split at hread
    case isTrue hquote =>
      obtain ⟨⟨s, rest'⟩, hs, heq⟩ := map_eq_some_iff.mp hread
      obtain ⟨rfl, rfl⟩ := mk.inj heq
      obtain ⟨used, rfl, hused⟩ := readText_closedBy hs
      refine ⟨spaces ++ c :: (used ++ ['"']), by simp, fun other _ => ?_⟩
      rw [List.append_assoc, List.cons_append, ← List.append_cons, readValue, hskip]
      dsimp only
      rw [if_neg hbrac, if_neg hbrace, if_pos hquote, hused other]
      rfl
    case isFalse hquote =>
      split at hread
      case isTrue hnum =>
        obtain ⟨n, hn, heq⟩ := Option.map_eq_some_iff.mp hread
        obtain ⟨rfl, rfl⟩ := mk.inj heq
        have hsplit : c :: cs' = c :: cs'.takeWhile isNumberChar ++
            (c :: cs').dropWhile isNumberChar := by
          rw [← List.takeWhile_cons_of_pos hnum, List.takeWhile_append_dropWhile]
        refine ⟨spaces ++ c :: cs'.takeWhile isNumberChar, ?_, fun other hother => ?_⟩
        · rw [List.append_assoc, ← hsplit]
        · have htoken : ∀ d ∈ c :: cs'.takeWhile isNumberChar, isNumberChar d = true := by
            rw [← List.takeWhile_cons_of_pos hnum]
            exact fun d hd => List.mem_takeWhile_imp hd
          obtain ⟨htake, hdrop⟩ := takeWhile_token htoken hother
          rw [List.takeWhile_cons_of_pos hnum] at hn
          rw [List.append_assoc, List.cons_append, readValue, hskip]
          dsimp only
          rw [← List.cons_append, htake, hdrop, if_neg hbrac, if_neg hbrace, if_neg hquote,
            if_pos hnum, hn]
          rfl
      case isFalse hnum =>
        obtain ⟨used, hused, hname⟩ := readName_uses hread
        cases used with
        | nil => cases hname [] trivial
        | cons d used =>
          obtain ⟨rfl, rfl⟩ := List.cons.inj hused
          refine ⟨spaces ++ c :: used, by simp, fun other _ => ?_⟩
          rw [List.append_assoc, List.cons_append, readValue, hskip]
          dsimp only
          rw [if_neg hbrac, if_neg hbrace, if_neg hquote, if_neg hnum]
          exact hname other trivial

lemma field_succ (h : ReadsLocally format fuel) {field : String × Value N}
    (hread : readField format (fuel + 1) cs = some (field, rest)) (hends : EndsNumber rest) :
    Uses (readField format (fuel + 1)) EndsNumber cs field rest := by
  rw [readField] at hread
  split at hread
  case h_1 => cases hread
  case h_2 c cs' hspace =>
    obtain ⟨spaces, rfl, -, -, hskip⟩ := exists_of_skipSpace hspace
    split at hread
    case isFalse => cases hread
    case isTrue hquote =>
      obtain ⟨⟨name, rest'⟩, hname, hread⟩ := Option.bind_eq_some_iff.mp hread
      dsimp only at hread
      split at hread
      case isFalse => cases hread
      case isTrue hcolon =>
        obtain ⟨⟨value, rest''⟩, hvalue, heq⟩ := Option.map_eq_some_iff.mp hread
        obtain ⟨rfl, rfl⟩ := mk.inj heq
        obtain ⟨used, rfl, hused⟩ := readText_closedBy hname
        obtain ⟨cs'', hcs''⟩ := List.head?_eq_some_iff.mp hcolon
        obtain ⟨spaces', rfl, -, -, hskip'⟩ := exists_of_skipSpace hcs''
        rw [hcs''] at hvalue
        obtain ⟨used', rfl, hused'⟩ := h.value hvalue hends
        refine ⟨spaces ++ c :: (used ++ '"' :: (spaces' ++ ':' :: used')), by simp,
          fun other hother => ?_⟩
        have htext : spaces ++ c :: (used ++ '"' :: (spaces' ++ ':' :: used')) ++ other =
            spaces ++ c :: (used ++ '"' :: (spaces' ++ ':' :: (used' ++ other))) := by simp
        rw [htext, readField, hskip]
        dsimp only
        rw [if_pos hquote, hused, bind_some]
        rw [hskip', tail_cons, hused' other hother]
        rfl

end ReadsLocally

/-- **Locality** of reading, with any bound. -/
theorem readsLocally (fuel : ℕ) : ReadsLocally format fuel := by
  induction fuel with
  | zero => exact ⟨nofun, nofun, nofun, nofun⟩
  | succ fuel ih =>
    refine ⟨fun hread _ => ih.value_succ hread, fun hread => ?_, ih.field_succ, fun hread => ?_⟩
    · exact closedBy_readSeparated ih.value ih.elements (by decide) hread
    · exact closedBy_readSeparated ih.field ih.fields (by decide) hread

/-! ## Bounds -/

lemma readPieces_readsAs (fuel : ℕ) : ReadsAs (readPieces fuel) (readPieces (fuel + 1)) := by
  induction fuel with
  | zero => exact nofun
  | succ fuel ih =>
    intro cs b h
    rw [readPieces] at h ⊢
    split at h
    case isTrue hquote => rwa [if_pos hquote]
    case isFalse hquote =>
      obtain ⟨⟨piece, rest⟩, hpiece, h⟩ := bind_eq_some_iff.mp h
      obtain ⟨⟨pieces, rest'⟩, hpiec, heq⟩ := map_eq_some_iff.mp h
      rw [if_neg hquote, hpiece, bind_some]
      dsimp only
      rw [ih hpiec]
      exact congrArg some heq

lemma readText_readsAs (fuel : ℕ) : ReadsAs (readText fuel) (readText (fuel + 1)) := by
  intro cs b h
  obtain ⟨pieces, hpiec, heq⟩ := map_eq_some_iff.mp h
  rw [readText, readPieces_readsAs fuel hpiec]
  exact congrArg some heq

/-- A greater bound by one reads as much. -/
structure ReadsNext (format : NumberFormat N) (fuel : ℕ) : Prop where
  value : ReadsAs (readValue format fuel) (readValue format (fuel + 1))
  elements : ReadsAs (readElements format fuel) (readElements format (fuel + 1))
  field : ReadsAs (readField format fuel) (readField format (fuel + 1))
  fields : ReadsAs (readFields format fuel) (readFields format (fuel + 1))

namespace ReadsNext

variable {fuel : ℕ}

lemma value_succ (h : ReadsNext format fuel) :
    ReadsAs (readValue format (fuel + 1)) (readValue format (fuel + 2)) := by
  intro cs b hread
  cases hspace : skipSpace cs with
  | nil =>
    rw [readValue, hspace] at hread
    cases hread
  | cons c cs' =>
    by_cases hbrac : c = '['
    · subst hbrac
      rw [readValue_eq_array hspace] at hread ⊢
      exact readsAs_readBracketed h.value h.elements hread
    by_cases hbrace : c = '\x7b'
    · subst hbrace
      rw [readValue_eq_object hspace] at hread ⊢
      exact readsAs_readBracketed h.field h.fields hread
    rw [readValue, hspace] at hread ⊢
    dsimp only at hread ⊢
    rw [if_neg hbrac, if_neg hbrace] at hread ⊢
    split at hread
    case isTrue hquote =>
      obtain ⟨text, htext, heq⟩ := map_eq_some_iff.mp hread
      rw [if_pos hquote, readText_readsAs fuel htext]
      exact congrArg some heq
    case isFalse hquote => rwa [if_neg hquote]

lemma field_succ (h : ReadsNext format fuel) :
    ReadsAs (readField format (fuel + 1)) (readField format (fuel + 2)) := by
  intro cs b hread
  rw [readField] at hread ⊢
  split at hread
  case h_1 => cases hread
  case h_2 c cs' hspace =>
    split at hread
    case isFalse => cases hread
    case isTrue hquote =>
      obtain ⟨⟨name, rest⟩, hname, hread⟩ := bind_eq_some_iff.mp hread
      rw [if_pos hquote, readText_readsAs fuel hname, bind_some]
      dsimp only at hread ⊢
      split at hread
      case isFalse => cases hread
      case isTrue hcolon =>
        obtain ⟨value, hvalue, heq⟩ := map_eq_some_iff.mp hread
        rw [if_pos hcolon, h.value hvalue]
        exact congrArg some heq

end ReadsNext

lemma readsNext (fuel : ℕ) : ReadsNext format fuel := by
  induction fuel with
  | zero => exact ⟨nofun, nofun, nofun, nofun⟩
  | succ fuel ih =>
    refine ⟨ih.value_succ, ?_, ih.field_succ, ?_⟩
    · rw [readElements_eq]
      exact readsAs_readSeparated ih.value ih.elements
    · rw [readFields_eq]
      exact readsAs_readSeparated ih.field ih.fields

lemma readValue_readsAs {fuel fuel' : ℕ} (hle : fuel ≤ fuel') :
    ReadsAs (readValue format fuel) (readValue format fuel') := by
  induction fuel', hle using Nat.le_induction with
  | base => exact id
  | succ fuel' _ ih => exact fun hread => (readsNext fuel').value (ih hread)

/-- An array or an object. -/
def IsComposite : Value N → Prop
  | .array _ => True
  | .object _ => True
  | _ => False

variable {value : Value N}

lemma exists_head_composite (format : NumberFormat N) (h : IsComposite value) :
    ∃ c cs, write format value = c :: cs ∧ (c = '[' ∨ c = '\x7b') := by
  cases value with
  | array values => cases values <;> exact ⟨_, _, rfl, .inl rfl⟩
  | object fields => cases fields <;> exact ⟨_, _, rfl, .inr rfl⟩
  | null => exact h.elim
  | bool b => exact h.elim
  | number n => exact h.elim
  | text s => exact h.elim

lemma exists_closedBy {fuel : ℕ} {c : Char} {cs rest : List Char}
    (hc : c = '[' ∨ c = '\x7b') (h : readValue format fuel (c :: cs) = some (value, rest)) :
    ∃ close, (close = ']' ∨ close = '\x7d') ∧
      ClosedBy close (readValue format fuel) (c :: cs) value rest := by
  cases fuel with
  | zero => cases h
  | succ fuel =>
    rcases hc with rfl | rfl
    · exact ⟨']', .inl rfl, (readsLocally fuel).array (skipSpace_cons _ (by decide)) h⟩
    · exact ⟨'\x7d', .inr rfl, (readsLocally fuel).object (skipSpace_cons _ (by decide)) h⟩

/-- **Truncation.** A proper part of the text of an array or an object from its start is not the
text of a value. -/
theorem parse_prefix (hexact : Exact format value) (hcomp : IsComposite value)
    {part more : List Char} (hpart : write format value = part ++ more) (hmore : more ≠ []) :
    parse format part = none := by
  obtain ⟨head, tail, hhead, hc⟩ := exists_head_composite format hcomp
  cases part with
  | nil => rfl
  | cons c part =>
    rw [hpart] at hhead
    rw [← (List.cons.inj hhead).1] at hc
    by_contra hparse
    obtain ⟨other, hother⟩ := ne_none_iff_exists'.mp hparse
    obtain ⟨⟨value', rest⟩, hread, -⟩ := bind_eq_some_iff.mp hother
    obtain ⟨close, -, used, hused, hclos⟩ := exists_closedBy hc hread
    -- The part is read the same way at the head of the whole text.
    have hwhole : readValue format ((c :: part).length + 1) (write format value) =
        some (value', rest ++ more) := by
      have htext : write format value = used ++ close :: (rest ++ more) := by
        rw [hpart, hused, append_assoc, cons_append]
      rw [htext]
      exact hclos (rest ++ more)
    have hlen : (c :: part).length + 1 ≤ (write format value).length + 1 := by
      rw [hpart, length_append]
      omega
    have htext := readValue_write value [] ((write format value).length + 1) hexact nofun
      (Nat.lt_succ_self _)
    rw [append_nil, readValue_readsAs hlen hwhole] at htext
    have hrest := (mk.inj (some.inj htext)).2
    exact hmore (append_eq_nil_iff.mp hrest).2

/-- **Truncation inside a character.** Neither is such a part with a character after it that is
neither a bracket nor white space. -/
theorem parse_prefix_append (hcomp : IsComposite value) {part more : List Char}
    (hpart : write format value = part ++ more) (hne : part ≠ []) {c : Char}
    (hspace : isSpace c = false) (hbrac : c ≠ ']') (hbrace : c ≠ '\x7d') :
    parse format (part ++ [c]) = none := by
  obtain ⟨head, tail, hhead, hc⟩ := exists_head_composite format hcomp
  cases part with
  | nil => exact absurd rfl hne
  | cons first part =>
    rw [hpart] at hhead
    rw [← (List.cons.inj hhead).1] at hc
    by_contra hparse
    obtain ⟨other, hother⟩ := ne_none_iff_exists'.mp hparse
    obtain ⟨⟨value', rest⟩, hread, hrest⟩ := bind_eq_some_iff.mp hother
    obtain ⟨close, hclose, used, hused, -⟩ := exists_closedBy hc hread
    -- What follows the bracket that closes the value is white space, so `c` is the bracket.
    have hused : first :: part ++ [c] = used ++ close :: rest := hused
    have hlast : (first :: part ++ [c]).getLast? = some c := getLast?_concat
    rw [hused] at hlast
    have hspac : ∀ d ∈ rest, isSpace d = true := by
      dsimp only at hrest
      split at hrest
      case isTrue hempty => exact dropWhile_eq_nil_iff.mp hempty
      case isFalse => cases hrest
    cases hlast' : rest.getLast? with
    | none =>
      rw [getLast?_eq_none_iff] at hlast'
      rw [hlast', getLast?_append] at hlast
      cases hlast
      exact hclose.elim hbrac hbrace
    | some d =>
      rw [getLast?_append, getLast?_cons, hlast'] at hlast
      have hd := hspac d (mem_of_getLast? hlast')
      have hsame : d = c := some.inj hlast
      rw [hsame, hspace] at hd
      cases hd

end Head

end JsonText
