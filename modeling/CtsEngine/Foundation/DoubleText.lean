import CtsEngine.Foundation.JsonRoundTrip
import CtsEngine.Foundation.NumberText
import Mathlib.Data.Int.Log
import Mathlib.Data.Nat.Prime.Basic

/-!
# Numbers written as texts

`String(x)` of a double: the shortest digits that are read as the number, the nearest of these, in
plain or in scientific notation.  `jsonNumbers` are the numbers of JSON texts, and a double that is
written is read back (`jsonDouble_doubleText`).

Seventeen digits are enough for every double.  The search is followed by all digits of the number,
so that nothing here depends on this.
-/

namespace CtsEngine

open Option List Int Nat Double
open JsonText (NumberFormat isNumberChar)

/-! ## Writing -/

/-- A number with its sign given. -/
def decimalValue (negative : Bool) (digits : ℕ) (exponent : ℤ) : ℚ :=
  signed negative (digits * (10 : ℚ) ^ exponent)

/-- The digits of at most a number of places that are read as `q`, with the power of ten that they
count. -/
def digitsOfLength (q : ℚ) (places : ℕ) : Option (ℕ × ℤ) :=
  let point := log 10 |q| + 1
  let scaled := |q| / (10 : ℚ) ^ (point - places)
  let candidates := [(roundEven scaled).toNat, ⌊scaled⌋.toNat, ⌈scaled⌉.toNat].map
    fun digits => if digits = 10 ^ places then (1, point) else (digits, point - places)
  candidates.find? fun candidate =>
    0 < candidate.1 ∧
      ofRat (decimalValue (decide (q < 0)) candidate.1 candidate.2) = .finite q

/-- All digits of a number whose denominator is a power of two. -/
def allDigits (q : ℚ) : ℕ × ℤ := (q.num.natAbs * 5 ^ log2 q.den, -(log2 q.den : ℤ))

/-- The shortest digits that are read as `q`. -/
def shortestDigits (q : ℚ) : ℕ × ℤ :=
  ((List.range 17).findSome? fun i => digitsOfLength q (i + 1)).getD (allDigits q)

/-- The exponent of a numeral. -/
def exponentPart (exponent : Option ℤ) : List Char :=
  match exponent with
  | none => []
  | some n => 'e' :: (if n < 0 then '-' else '+') :: toDigits 10 n.natAbs

/-- A numeral: digits, digits after a point, and an exponent. -/
def numeral (whole fraction : List Char) (exponent : Option ℤ) : List Char :=
  whole ++ ((if fraction = [] then [] else '.' :: fraction) ++ exponentPart exponent)

/-- Digits in front of a point that stands `point` places after their start. -/
def decimalText (digits : List Char) (point : ℤ) : List Char :=
  if digits.length ≤ point ∧ point ≤ 21 then
    numeral (digits ++ replicate (point - digits.length).toNat '0') [] none
  else if 0 < point ∧ point ≤ 21 then
    numeral (digits.take point.toNat) (digits.drop point.toNat) none
  else if -6 < point ∧ point ≤ 0 then
    numeral ['0'] (replicate (-point).toNat '0' ++ digits) none
  else numeral (digits.take 1) (digits.drop 1) (some (point - 1))

/-- `String(x)`. -/
def doubleText : Double → List Char
  | .finite q =>
    if q = 0 then ['0']
    else
      let (digits, exponent) := shortestDigits q
      (if q < 0 then ['-'] else []) ++
        decimalText (toDigits 10 digits) ((toDigits 10 digits).length + exponent)
  | .infinity negative => if negative then "-Infinity".toList else "Infinity".toList
  | .nan => "NaN".toList

/-- A number of a JSON text after its sign: no zero in front of other digits, and digits on both
sides of a point. -/
def jsonUnsigned (negative : Bool) (token : List Char) : Option Double :=
  let whole := leadingDigits 10 token
  let fraction := match afterDigits 10 token with
    | '.' :: cs => leadingDigits 10 cs
    | _ => ['0']
  if whole = [] ∨ (whole.head? = some '0' ∧ whole ≠ ['0']) ∨ fraction = [] then none
  else
    match readNumeral 10 10 'e' token with
    | some (q, []) => some (.ofRat (signed negative q))
    | _ => none

/-- A number of a JSON text. -/
def jsonDouble (token : List Char) : Option Double :=
  if token.head? = some '-' then jsonUnsigned true token.tail else jsonUnsigned false token

lemma digitValue_of_isDigit {c : Char} (hc : c.isDigit = true) :
    digitValue c = c.toNat - '0'.toNat := if_pos hc

lemma isDigitOf_of_isDigit {c : Char} (hc : c.isDigit = true) : isDigitOf 10 c = true := by
  rw [isDigitOf, digitValue_of_isDigit hc, decide_eq_true_iff]
  have hle : c.toNat ≤ '9'.toNat := by
    simp only [Char.isDigit, Bool.and_eq_true, decide_eq_true_iff] at hc
    exact hc.2
  have hnine : '9'.toNat = 57 := rfl
  have hzero : '0'.toNat = 48 := rfl
  omega

lemma valueOfDigits_append (xs ys : List Char) :
    valueOfDigits 10 (xs ++ ys) = valueOfDigits 10 xs * 10 ^ ys.length + valueOfDigits 10 ys := by
  induction ys using reverseRecOn with
  | nil => simp [valueOfDigits]
  | append_singleton ys c ih =>
    rw [← append_assoc, valueOfDigits, foldl_append, ← valueOfDigits, ih, valueOfDigits,
      valueOfDigits, valueOfDigits, foldl_append, length_append, length_singleton]
    simp only [foldl_cons, foldl_nil]
    ring

lemma valueOfDigits_replicate_zero (n : ℕ) : valueOfDigits 10 (replicate n '0') = 0 := by
  induction n with
  | zero => rfl
  | succ n ih =>
    rw [replicate_succ', valueOfDigits_append, ih]
    rfl

lemma valueOfDigits_toDigits (n : ℕ) : valueOfDigits 10 (toDigits 10 n) = n := by
  induction n using Nat.strong_induction_on with
  | _ n ih =>
    rw [toDigits_eq_if (by decide)]
    have hdigit : ∀ d < 10, valueOfDigits 10 [digitChar d] = d := by decide
    split
    case isTrue hlt => exact hdigit n hlt
    case isFalse hge =>
      rw [valueOfDigits_append, ih (n / 10) (by omega), hdigit _ (mod_lt _ (by decide)),
        length_singleton]
      omega

lemma head?_toDigits_ne_zero {n : ℕ} (hn : 0 < n) : (toDigits 10 n).head? ≠ some '0' := by
  induction n using Nat.strong_induction_on with
  | _ n ih =>
    rw [toDigits_eq_if (by decide)]
    have hdigit : ∀ d < 10, 0 < d → [digitChar d].head? ≠ some '0' := by decide
    split
    case isTrue hlt => exact hdigit n hlt hn
    case isFalse hge =>
      obtain ⟨c, cs, hcs⟩ := exists_cons_of_ne_nil (toDigits_ne_nil (b := 10) (n := n / 10))
      have hhead := ih (n / 10) (by omega) (by omega)
      rw [hcs] at hhead ⊢
      exact hhead

/-! ## Numerals -/

lemma leadingDigits_append {digits rest : List Char} (hdigs : ∀ c ∈ digits, c.isDigit = true)
    (hrest : ∀ c ∈ rest.head?, isDigitOf 10 c = false) :
    leadingDigits 10 (digits ++ rest) = digits ∧ afterDigits 10 (digits ++ rest) = rest :=
  JsonText.takeWhile_token (fun c hc => isDigitOf_of_isDigit (hdigs c hc)) hrest

variable (exponent : Option ℤ)

lemma head?_exponentPart : ∀ c ∈ (exponentPart exponent).head?, isDigitOf 10 c = false := by
  cases exponent with
  | none => exact nofun
  | some n =>
    intro c hc
    cases hc
    decide

lemma readExponent_exponentPart :
    readExponent 'e' (exponentPart exponent) = (exponent.getD 0, []) := by
  cases exponent with
  | none => rfl
  | some n =>
    have hdigs : ∀ c ∈ toDigits 10 n.natAbs, c.isDigit = true := fun c hc =>
      isDigit_of_mem_toDigits (by decide) (by decide) hc
    have hemp : ∀ c ∈ ([] : List Char).head?, isDigitOf 10 c = false := nofun
    obtain ⟨hlead, hafter⟩ := leadingDigits_append hdigs hemp
    rw [append_nil] at hlead hafter
    have hsign : readSign ((if n < 0 then '-' else '+') :: toDigits 10 n.natAbs) =
        (decide (n < 0), toDigits 10 n.natAbs) := by
      by_cases hn : n < 0
      · rw [if_pos hn, decide_eq_true hn]
        rfl
      · rw [if_neg hn, decide_eq_false hn]
        rfl
    rw [exponentPart, readExponent, hsign]
    dsimp only
    rw [hlead, hafter, if_pos ⟨by decide, toDigits_ne_nil⟩, valueOfDigits_toDigits]
    by_cases hn : n < 0
    · rw [if_pos (decide_eq_true hn), getD_some, ofNat_natAbs_of_nonpos hn.le, neg_neg]
    · rw [if_neg (by simpa using hn), getD_some, natAbs_of_nonneg (not_lt.mp hn)]

section Numerals

variable {whole fraction : List Char} (exponent : Option ℤ)
  (hwhole : ∀ c ∈ whole, c.isDigit = true) (hfraction : ∀ c ∈ fraction, c.isDigit = true)

include hwhole

lemma digits_numeral (fraction : List Char) :
    leadingDigits 10 (numeral whole fraction exponent) = whole ∧
    afterDigits 10 (numeral whole fraction exponent) =
      (if fraction = [] then [] else '.' :: fraction) ++ exponentPart exponent := by
  refine leadingDigits_append hwhole ?_
  split
  · exact head?_exponentPart exponent
  · intro c hc
    cases hc
    decide

include hfraction

lemma readMantissa_numeral (hne : whole ≠ []) : readMantissa 10 (numeral whole fraction exponent) =
      some ((valueOfDigits 10 whole : ℚ) + valueOfDigits 10 fraction / 10 ^ fraction.length,
        exponentPart exponent) := by
  obtain ⟨hlead, hafter⟩ := digits_numeral exponent hwhole fraction
  rw [readMantissa, hlead, hafter]
  by_cases hemp : fraction = []
  · rw [hemp]
    have hval : (valueOfDigits 10 [] : ℚ) / 10 ^ ([] : List Char).length = 0 := by
      simp [valueOfDigits]
    rw [hval, add_zero]
    cases exponent with
    | none => exact if_neg hne
    | some n => exact if_neg hne
  · obtain ⟨hlead', hafter'⟩ := leadingDigits_append hfraction (head?_exponentPart exponent)
    rw [if_neg hemp, cons_append]
    change (if whole = [] ∧ leadingDigits 10 (fraction ++ exponentPart exponent) = [] then none
      else some (_ + _ / (10 : ℚ) ^ _, afterDigits 10 (fraction ++ exponentPart exponent))) = _
    rw [hlead', hafter', if_neg fun h => hne h.1]

lemma jsonUnsigned_numeral (negative : Bool) (hne : whole ≠ [])
    (hzero : whole = ['0'] ∨ whole.head? ≠ some '0') :
    jsonUnsigned negative (numeral whole fraction exponent) =
      some (.ofRat (signed negative (((valueOfDigits 10 whole : ℚ) +
        valueOfDigits 10 fraction / 10 ^ fraction.length) * 10 ^ exponent.getD 0))) := by
  obtain ⟨hlead, hafter⟩ := digits_numeral exponent hwhole fraction
  have hnumer : readNumeral 10 10 'e' (numeral whole fraction exponent) =
      some (((valueOfDigits 10 whole : ℚ) +
        valueOfDigits 10 fraction / 10 ^ fraction.length) * 10 ^ exponent.getD 0, []) := by
    rw [readNumeral, readMantissa_numeral exponent hwhole hfraction hne, map_some]
    dsimp only
    rw [readExponent_exponentPart]
    rfl
  rw [jsonUnsigned, hlead, hafter, hnumer]
  rw [if_neg]
  rintro (h | h | h)
  · exact hne h
  · exact hzero.elim h.2 fun hhead => hhead h.1
  · by_cases hemp : fraction = []
    · rw [if_pos hemp] at h
      cases exponent with
      | none => cases h
      | some n => cases h
    · rw [if_neg hemp] at h
      have h : leadingDigits 10 (fraction ++ exponentPart exponent) = [] := h
      rw [(leadingDigits_append hfraction (head?_exponentPart exponent)).1] at h
      exact hemp h

end Numerals

lemma numeral_value (whole fraction : List Char) (exponent : ℤ) :
    ((valueOfDigits 10 whole : ℚ) + valueOfDigits 10 fraction / 10 ^ fraction.length) *
      10 ^ exponent = valueOfDigits 10 (whole ++ fraction) * 10 ^ (exponent - fraction.length) := by
  rw [valueOfDigits_append, zpow_sub₀ (by norm_num), zpow_natCast]
  push_cast
  field_simp

/-- **Digits with a point are read as their value**, in each of the four notations. -/
lemma jsonUnsigned_decimalText (negative : Bool) {digits : List Char} (point : ℤ)
    (hdigs : ∀ c ∈ digits, c.isDigit = true) (hne : digits ≠ [])
    (hhead : digits.head? ≠ some '0') :
    jsonUnsigned negative (decimalText digits point) = some (.ofRat (signed negative
        ((valueOfDigits 10 digits : ℚ) * 10 ^ (point - digits.length)))) := by
  have hlen : 0 < digits.length := length_pos_of_ne_nil hne
  have hzeros : ∀ n, ∀ c ∈ replicate n '0', c.isDigit = true := fun n c hc => by
    rw [eq_of_mem_replicate hc]
    rfl
  have hemp : ∀ c ∈ ([] : List Char), c.isDigit = true := forall_mem_nil _
  unfold decimalText
  split
  case isTrue hplain =>
    have hall : ∀ c ∈ digits ++ replicate (point - digits.length).toNat '0',
        c.isDigit = true := fun c hc => (mem_append.mp hc).elim (hdigs c) (hzeros _ c)
    have hpower : ((10 ^ (point - digits.length).toNat : ℕ) : ℚ) =
        (10 : ℚ) ^ (point - digits.length) := by
      rw [Nat.cast_pow, ← zpow_natCast, toNat_of_nonneg (by omega)]
      rfl
    rw [jsonUnsigned_numeral none hall hemp negative (by simp [hne]), numeral_value,
      append_nil, valueOfDigits_append, valueOfDigits_replicate_zero, length_replicate,
      Nat.add_zero, Nat.cast_mul, hpower]
    · norm_num
    · refine .inr ?_
      rwa [head?_append_of_ne_nil _ hne]
  case isFalse =>
    split
    case isTrue hinsid =>
      have hall : ∀ c ∈ digits.take point.toNat, c.isDigit = true :=
        fun c hc => hdigs c (mem_of_mem_take hc)
      have hrest : ∀ c ∈ digits.drop point.toNat, c.isDigit = true :=
        fun c hc => hdigs c (mem_of_mem_drop hc)
      have hexpon : none.getD 0 - ((digits.drop point.toNat).length : ℤ) =
          point - digits.length := by
        rw [length_drop, getD_none]
        omega
      rw [jsonUnsigned_numeral none hall hrest negative, numeral_value, take_append_drop, hexpon]
      · rw [Ne, take_eq_nil_iff, not_or]
        exact ⟨by omega, hne⟩
      · refine .inr ?_
        rwa [head?_take, if_neg (by omega)]
    case isFalse =>
      split
      case isTrue hsmall =>
        have hall : ∀ c ∈ replicate (-point).toNat '0' ++ digits, c.isDigit = true :=
          fun c hc => (mem_append.mp hc).elim (hzeros _ c) (hdigs c)
        have hzero : ∀ c ∈ ['0'], c.isDigit = true := hzeros 1
        have hexpon : none.getD 0 - ((replicate (-point).toNat '0' ++ digits).length : ℤ) =
            point - digits.length := by
          rw [length_append, length_replicate, getD_none]
          omega
        have hval : valueOfDigits 10 (['0'] ++ (replicate (-point).toNat '0' ++ digits)) =
            valueOfDigits 10 digits := by
          rw [← append_assoc, ← replicate_one, ← replicate_add, valueOfDigits_append,
            valueOfDigits_replicate_zero, zero_mul, zero_add]
        rw [jsonUnsigned_numeral none hzero hall negative (by decide) (.inl rfl), numeral_value,
          hval, hexpon]
      case isFalse =>
        have hall : ∀ c ∈ digits.take 1, c.isDigit = true :=
          fun c hc => hdigs c (mem_of_mem_take hc)
        have hrest : ∀ c ∈ digits.drop 1, c.isDigit = true :=
          fun c hc => hdigs c (mem_of_mem_drop hc)
        have hexpon : (some (point - 1)).getD 0 - ((digits.drop 1).length : ℤ) =
            point - digits.length := by
          rw [length_drop, getD_some]
          omega
        rw [jsonUnsigned_numeral _ hall hrest negative, numeral_value, take_append_drop, hexpon]
        · rw [Ne, take_eq_nil_iff, not_or]
          exact ⟨by decide, hne⟩
        · refine .inr ?_
          rwa [head?_take]

variable {q : ℚ} {x : Double}

lemma den_of_ofRat (h : ofRat q = .finite q) : q.den = 2 ^ log2 q.den := by
  suffices hpower : ∃ j, q.den = 2 ^ j by
    obtain ⟨j, hj⟩ := hpower
    rw [hj, log2_two_pow]
  by_cases hzero : q = 0
  · exact ⟨0, by rw [hzero]; rfl⟩
  rw [ofRat, if_neg hzero] at h
  dsimp only at h
  split at h
  case isFalse => cases h
  case isTrue =>
    have hval := finite.inj h
    generalize roundEven _ = n at hval
    generalize max (_ : ℤ) _ = z at hval
    rcases le_total 0 z with hz | hz
    · obtain ⟨m, rfl⟩ := eq_ofNat_of_zero_le hz
      refine ⟨0, ?_⟩
      have hint : q = ((n * 2 ^ m : ℤ) : ℚ) := by
        rw [← hval]
        push_cast
        rw [zpow_natCast]
      rw [hint]
      rfl
    · obtain ⟨m, hm⟩ := eq_ofNat_of_zero_le (neg_nonneg.mpr hz)
      have hint : q = (n : ℚ) / ((2 ^ m : ℤ) : ℚ) := by
        rw [← hval, ← neg_neg z, hm, zpow_neg, zpow_natCast]
        push_cast
        rw [div_eq_mul_inv]
      have hdvd : (q.den : ℤ) ∣ 2 ^ m := by
        rw [hint, ← Rat.divInt_eq_div]
        exact Rat.den_dvd n (2 ^ m)
      have hdvd : q.den ∣ 2 ^ m := by exact_mod_cast hdvd
      obtain ⟨j, -, hj⟩ := (Nat.dvd_prime_pow prime_two).mp hdvd
      exact ⟨j, hj⟩

lemma signed_abs (q : ℚ) : signed (decide (q < 0)) |q| = q := by
  rcases lt_or_ge q 0 with hq | hq
  · rw [decide_eq_true hq, abs_of_neg hq]
    exact neg_neg q
  · rw [decide_eq_false hq.not_gt, abs_of_nonneg hq]
    rfl

lemma decimalValue_allDigits (h : ofRat q = .finite q) :
    decimalValue (decide (q < 0)) (allDigits q).1 (allDigits q).2 = q := by
  have hden : (q.den : ℚ) = 2 ^ log2 q.den := by exact_mod_cast den_of_ofRat h
  have habs : |q| = (q.num.natAbs : ℚ) / q.den := by
    conv_lhs => rw [← q.num_div_den]
    rw [abs_div, abs_cast, cast_natAbs, cast_abs]
  have hten : (10 : ℚ) ^ log2 q.den = 2 ^ log2 q.den * 5 ^ log2 q.den := by
    rw [← mul_pow]
    norm_num
  have hval : ((q.num.natAbs * 5 ^ log2 q.den : ℕ) : ℚ) * 10 ^ (-(log2 q.den : ℤ)) =
      |q| := by
    rw [habs, hden, zpow_neg, zpow_natCast, hten]
    push_cast
    field_simp
  rw [decimalValue, allDigits]
  rw [hval, signed_abs]

lemma shortestDigits_spec (h : ofRat q = .finite q) (hne : q ≠ 0) :
    0 < (shortestDigits q).1 ∧ ofRat
      (decimalValue (decide (q < 0)) (shortestDigits q).1 (shortestDigits q).2) = .finite q := by
  rw [shortestDigits]
  cases hfnd : (List.range 17).findSome? fun i => digitsOfLength q (i + 1) with
  | some digits =>
    obtain ⟨i, -, hi⟩ := exists_of_findSome?_eq_some hfnd
    have hspec := find?_some hi
    exact of_decide_eq_true hspec
  | none =>
    rw [getD_none, decimalValue_allDigits h]
    refine ⟨mul_pos ?_ (by positivity), h⟩
    exact natAbs_pos.mpr (Rat.num_ne_zero.mpr hne)

/-! ## Doubles in JSON texts -/

/-- A double that is read as itself: one that is finite and representable. -/
def Double.IsExact (x : Double) : Prop := ∃ q, x = .finite q ∧ ofRat q = .finite q

lemma head?_ne_minus {negative : Bool} {token : List Char} {x : Double}
    (h : jsonUnsigned negative token = some x) : token.head? ≠ some '-' := by
  intro hhead
  obtain ⟨rest, rfl⟩ := head?_eq_some_iff.mp hhead
  cases h

lemma doubleText_of_ne_zero (hne : q ≠ 0) :
    doubleText (.finite q) = (if q < 0 then ['-'] else []) ++
      decimalText (toDigits 10 (shortestDigits q).1)
        ((toDigits 10 (shortestDigits q).1).length + (shortestDigits q).2) := if_neg hne

/-- **Round trip** of a number. -/
theorem jsonDouble_doubleText (hx : x.IsExact) :
    jsonDouble (doubleText x) = some x := by
  obtain ⟨q, rfl, hq⟩ := hx
  by_cases hne : q = 0
  · subst hne
    decide +kernel
  obtain ⟨hpos, hspec⟩ := shortestDigits_spec hq hne
  have hread := jsonUnsigned_decimalText (decide (q < 0))
    ((toDigits 10 (shortestDigits q).1).length + (shortestDigits q).2)
    (fun c hc => isDigit_of_mem_toDigits (by decide) (by decide) hc) toDigits_ne_nil
    (head?_toDigits_ne_zero hpos)
  rw [valueOfDigits_toDigits, add_sub_cancel_left, ← decimalValue, hspec] at hread
  rw [doubleText_of_ne_zero hne, jsonDouble]
  by_cases hnegat : q < 0
  · rw [decide_eq_true hnegat] at hread
    rw [if_pos hnegat, singleton_append, head?_cons, if_pos rfl, tail_cons, hread]
  · rw [decide_eq_false hnegat] at hread
    rw [if_neg hnegat, nil_append, if_neg (head?_ne_minus hread), hread]

lemma isNumberChar_of_isDigit {c : Char} (hc : c.isDigit = true) : isNumberChar c = true := by
  rw [isNumberChar, hc, Bool.true_or]

lemma isNumberChar_exponentPart : ∀ c ∈ exponentPart exponent, isNumberChar c = true := by
  cases exponent with
  | none => exact forall_mem_nil _
  | some n =>
    intro c hc
    rw [exponentPart, mem_cons, mem_cons] at hc
    rcases hc with rfl | rfl | hc
    · decide
    · split <;> decide
    · exact isNumberChar_of_isDigit (isDigit_of_mem_toDigits (by decide) (by decide) hc)

lemma isNumberChar_numeral {whole fraction : List Char}
    (hdigs : ∀ c ∈ whole ++ fraction, c.isDigit = true) :
    ∀ c ∈ numeral whole fraction exponent, isNumberChar c = true := by
  intro c hc
  rw [numeral, mem_append, mem_append] at hc
  rcases hc with hc | hc | hc
  · exact isNumberChar_of_isDigit (hdigs c (mem_append_left _ hc))
  · split at hc
    case isTrue => cases hc
    case isFalse =>
      rcases mem_cons.mp hc with rfl | hc
      · decide
      · exact isNumberChar_of_isDigit (hdigs c (mem_append_right _ hc))
  · exact isNumberChar_exponentPart exponent c hc

lemma isNumberChar_decimalText {digits : List Char} (point : ℤ)
    (hdigs : ∀ c ∈ digits, c.isDigit = true) :
    ∀ c ∈ decimalText digits point, isNumberChar c = true := by
  have hzero : ∀ n, ∀ c ∈ replicate n '0', c.isDigit = true := fun n c hc => by
    rw [eq_of_mem_replicate hc]
    rfl
  unfold decimalText
  split
  · refine isNumberChar_numeral none fun c hc => ?_
    rw [append_nil] at hc
    exact (mem_append.mp hc).elim (hdigs c) (hzero _ c)
  split
  · refine isNumberChar_numeral none fun c hc => ?_
    rw [take_append_drop] at hc
    exact hdigs c hc
  split
  · refine isNumberChar_numeral none fun c hc => ?_
    rcases mem_append.mp hc with hc | hc
    · exact hzero 1 c hc
    · exact (mem_append.mp hc).elim (hzero _ c) (hdigs c)
  · refine isNumberChar_numeral _ fun c hc => ?_
    rw [take_append_drop] at hc
    exact hdigs c hc

lemma isNumberChar_doubleText (hx : x.IsExact) :
    ∀ c ∈ doubleText x, isNumberChar c = true := by
  obtain ⟨q, rfl, -⟩ := hx
  intro c hc
  by_cases hne : q = 0
  · rw [doubleText, if_pos hne] at hc
    rw [mem_singleton.mp hc]
    decide
  · rw [doubleText_of_ne_zero hne] at hc
    rcases mem_append.mp hc with hc | hc
    · split at hc
      · rw [mem_singleton.mp hc]
        decide
      · cases hc
    · exact isNumberChar_decimalText _
        (fun c hc => isDigit_of_mem_toDigits (by decide) (by decide) hc) c hc

/-- The numbers of JSON texts. -/
def jsonNumbers : NumberFormat Double where
  write := doubleText
  read := jsonDouble
  Exact := Double.IsExact
  isNumberChar_of_mem := isNumberChar_doubleText
  write_ne_nil := by
    intro x hx hempty
    have hread := jsonDouble_doubleText hx
    rw [hempty] at hread
    cases hread
  read_write := jsonDouble_doubleText

def stringify (value : JsonText.Value Double) : List Char := JsonText.write jsonNumbers value

end CtsEngine
