import Mathlib.Data.Rat.Floor
import Mathlib.Data.String.Basic

/-!
# JavaScript values met by the model

Numbers are exact rationals; a missing value, `null` and `NaN` are `none`.  The file holds the
few JavaScript operations on optional numbers and strings that the modelled functions share:
the falsy alternatives `a || b`, the normalised symbol key and the first piece of a split.
-/

namespace CtsEngine

open List Char

/-- JavaScript `a || b` on optional numbers: a missing value, `NaN` and `0` are falsy. -/
def numOr (a b : Option ℚ) : Option ℚ :=
  match a with
  | some q => if q = 0 then b else some q
  | none => b

/-- JavaScript `a || b` on optional strings: a missing value and `""` are falsy. -/
def strOr (a b : Option String) : Option String :=
  match a with
  | some s => if s = "" then b else some s
  | none => b

/-- `Number(a || d)` for an optional number `a` and a constant `d`. -/
def numOrConst (a : Option ℚ) (d : ℚ) : ℚ := (numOr a none).getD d

/-- `Number(a) > 0 ? Number(a) : d` for an optional number `a`. -/
def positiveOr (a : Option ℚ) (d : ℚ) : ℚ :=
  match a with
  | some q => if 0 < q then q else d
  | none => d

/-- `String(a || "")` for an optional string `a`. -/
def strOrEmpty (a : Option String) : String := a.getD ""

/-- The upper-case letters and digits that JavaScript's `toUpperCase` leaves of one character. -/
def upperAlphanumeric (c : Char) : List Char :=
  if c.isUpper || c.isDigit then [c]
  else if c.isLower then [c.toUpper]
  else match c.toNat with
    | 0x00DF => ['S', 'S']
    | 0x0131 => ['I']
    | 0x0149 => ['N']
    | 0x017F => ['S']
    | 0x01F0 => ['J']
    | 0x1E96 => ['H']
    | 0x1E97 => ['T']
    | 0x1E98 => ['W']
    | 0x1E99 => ['Y']
    | 0x1E9A => ['A']
    | 0xFB00 => ['F', 'F']
    | 0xFB01 => ['F', 'I']
    | 0xFB02 => ['F', 'L']
    | 0xFB03 => ['F', 'F', 'I']
    | 0xFB04 => ['F', 'F', 'L']
    | 0xFB05 => ['S', 'T']
    | 0xFB06 => ['S', 'T']
    | _ => []

variable (value : String)

/-- `String(value || "").toUpperCase().replace(/[^A-Z0-9]/g, "")`. -/
def symbolKey : String := String.ofList (value.toList.flatMap upperAlphanumeric)

/-- `value.toLowerCase()`, for comparison with strings of ASCII letters: no other character has one
of the letters compared with as its lower case. -/
def toLowerCase : String := String.ofList (value.toList.map toLower)

/-- The characters whose upper case is made of ASCII letters only, and that upper case; every other
character is left as it is. -/
def upperAscii (c : Char) : List Char :=
  if c.isLower then [c.toUpper]
  else match c.toNat with
    | 0x00DF => ['S', 'S']
    | 0x0131 => ['I']
    | 0x017F => ['S']
    | 0xFB00 => ['F', 'F']
    | 0xFB01 => ['F', 'I']
    | 0xFB02 => ['F', 'L']
    | 0xFB03 => ['F', 'F', 'I']
    | 0xFB04 => ['F', 'F', 'L']
    | 0xFB05 => ['S', 'T']
    | 0xFB06 => ['S', 'T']
    | _ => [c]

/-- `value.toUpperCase()`, for comparison with strings of ASCII characters. -/
def toUpperCase : String := String.ofList (value.toList.flatMap upperAscii)

/-- The characters that JavaScript's `trim` removes. -/
def isJsSpace (c : Char) : Bool :=
  [0x20, 0xA0, 0x1680, 0x2028, 0x2029, 0x202F, 0x205F, 0x3000, 0xFEFF].contains c.toNat ||
    (0x09 ≤ c.toNat && c.toNat ≤ 0x0D) || (0x2000 ≤ c.toNat && c.toNat ≤ 0x200A)

/-- `value.trim()`. -/
def trim : String :=
  String.ofList ((value.toList.dropWhile isJsSpace).reverse.dropWhile isJsSpace).reverse

lemma ascii_of_all {P : Char → Prop} (hall : ∀ n : Fin 128, P (ofNat n)) {c : Char}
    (hc : c.toNat < 128) : P c := by
  have h := hall ⟨c.toNat, hc⟩
  rwa [show ofNat ((⟨c.toNat, hc⟩ : Fin 128) : ℕ) = c from ofNat_toNat c] at h

lemma not_letter_of_not_ascii {c : Char} (hc : ¬ c.toNat < 128) :
    c.isUpper = false ∧ c.isDigit = false ∧ c.isLower = false := by
  have hbelow : ∀ bound : UInt32, bound.toNat < 128 → ¬ c.val ≤ bound := by
    intro bound hbd hle
    have hsmall : c.toNat ≤ bound.toNat := UInt32.le_iff_toNat_le.mp hle
    omega
  refine ⟨?_, ?_, ?_⟩
  · exact decide_eq_false fun h => hbelow _ (by decide) h.2
  · exact Bool.and_eq_false_iff.mpr (.inr (decide_eq_false (hbelow _ (by decide))))
  · exact Bool.and_eq_false_iff.mpr (.inr (decide_eq_false (hbelow _ (by decide))))

lemma dropWhile_of_head? {p : Char → Bool} {cs : List Char} (h : ∀ c ∈ cs.head?, p c = false) :
    cs.dropWhile p = cs := by
  cases cs with
  | nil => rfl
  | cons c cs =>
    rw [dropWhile_cons_of_neg]
    rw [h c rfl]
    exact Bool.false_ne_true

lemma trim_of_forall {value : String} (h : ∀ c ∈ value.toList, isJsSpace c = false) :
    trim value = value := by
  have hkeep : ∀ l : List Char, (∀ c ∈ l, isJsSpace c = false) → l.dropWhile isJsSpace = l :=
    fun _ hl => dropWhile_of_head? fun c hc => hl c (mem_of_mem_head? hc)
  unfold trim
  rw [hkeep _ h, hkeep _ fun c hc => h c (mem_reverse.mp hc), reverse_reverse, String.ofList_toList]

lemma head?_dropWhile_isJsSpace {cs : List Char} :
    ∀ c ∈ (cs.dropWhile isJsSpace).head?, isJsSpace c = false := by
  intro c hc
  have hnot := head?_dropWhile_not isJsSpace cs
  rw [hc] at hnot
  simpa using hnot

lemma trim_trim : trim (trim value) = trim value := by
  have hpref : ((value.toList.dropWhile isJsSpace).reverse.dropWhile isJsSpace).reverse <+:
      value.toList.dropWhile isJsSpace := by
    rw [← reverse_suffix, reverse_reverse]
    exact dropWhile_suffix _
  have hleft : ((value.toList.dropWhile isJsSpace).reverse.dropWhile isJsSpace).reverse.dropWhile
      isJsSpace = ((value.toList.dropWhile isJsSpace).reverse.dropWhile isJsSpace).reverse := by
    refine dropWhile_of_head? fun c hc => ?_
    obtain ⟨rest, hrest⟩ := head?_eq_some_iff.mp hc
    rw [hrest] at hpref
    obtain ⟨more, hmore⟩ := hpref
    exact head?_dropWhile_isJsSpace c (by rw [← hmore]; rfl)
  unfold trim
  rw [String.toList_ofList, hleft, reverse_reverse, dropWhile_of_head? head?_dropWhile_isJsSpace]

/-- `value.startsWith(start)`. -/
def hasPrefix (start value : String) : Bool := start.toList.isPrefixOf value.toList

/-- The characters before the first occurrence of `sep`, all of them when there is none. -/
def takeBefore (sep : List Char) : List Char → List Char
  | [] => []
  | c :: cs => if sep.isPrefixOf (c :: cs) then [] else c :: takeBefore sep cs

/-- `value.split(sep)[0]`. -/
def splitFirst (sep value : String) : String := String.ofList (takeBefore sep.toList value.toList)

/-! ### Separators -/

section Separators

variable {α : Type*} {a : α} {xs ys us vs : List α}

/-- What stands in front of the first separator, and what follows it. -/
lemma append_cons_inj_of_not_mem (hx : a ∉ xs) (hy : a ∉ ys)
    (h : xs ++ a :: us = ys ++ a :: vs) : xs = ys ∧ us = vs := by
  classical
  have hsplit := congrArg (splitOn a) h
  rw [splitOn_append_cons_self_of_not_mem hx, splitOn_append_cons_self_of_not_mem hy] at hsplit
  obtain rfl := (cons.inj hsplit).1
  exact ⟨rfl, (cons.inj (append_cancel_left h)).2⟩

/-- What stands in front of the last separator, and what follows it. -/
lemma append_cons_inj (h : xs ++ a :: us = ys ++ a :: vs) (hu : a ∉ us) (hv : a ∉ vs) :
    xs = ys ∧ us = vs := by
  have hrev := congrArg reverse h
  rw [reverse_append, reverse_append, reverse_cons, reverse_cons, append_assoc, append_assoc]
    at hrev
  obtain ⟨hus, hxs⟩ := append_cons_inj_of_not_mem (mem_reverse.not.mpr hu) (mem_reverse.not.mpr hv)
    hrev
  exact ⟨reverse_injective hxs, reverse_injective hus⟩

end Separators

end CtsEngine
