import CtsEngine.Foundation.JsValue

/-!
# Texts read as numbers

JavaScript's `Number(text)` and the `tonumber` of the Lua scripts read a text as a double.  A finite
double is given by its exact value; the two zeros are one.
-/

namespace CtsEngine

inductive Double
  | finite (q : ℚ)
  | infinity (negative : Bool)
  | nan
deriving DecidableEq

namespace Double

/-- The nearest integer, the even one of two that are equally near. -/
def roundEven (q : ℚ) : ℤ :=
  let k := ⌊q⌋
  if q - k < 1 / 2 then k
  else if 1 / 2 < q - k then k + 1
  else k + k % 2

/-- `⌊log₂ q⌋` of a positive number. -/
def binaryExponent (q : ℚ) : ℤ :=
  let e := (Nat.log2 q.num.natAbs : ℤ) - Nat.log2 q.den
  if (2 : ℚ) ^ e ≤ q then e else e - 1

/-- The double nearest to a number. -/
def ofRat (q : ℚ) : Double :=
  if q = 0 then .finite 0
  else
    let ulp := (2 : ℚ) ^ max (binaryExponent |q| - 52) (-1074)
    let rounded := roundEven (q / ulp) * ulp
    if |rounded| < 2 ^ 1024 then .finite rounded else .infinity (decide (rounded < 0))

/-- `a < b`. -/
def lt : Double → Double → Bool
  | .finite p, .finite q => decide (p < q)
  | .finite _, .infinity negative => !negative
  | .infinity negative, .finite _ => negative
  | .infinity m, .infinity n => m && !n
  | _, _ => false

/-- `a == b`: `NaN` is not equal to itself. -/
def eq : Double → Double → Bool
  | .finite p, .finite q => decide (p = q)
  | .infinity m, .infinity n => m == n
  | _, _ => false

/-- `Number.isSafeInteger(x) && !(x < 0)`, with the integer. -/
def safeNat : Double → Option ℕ
  | .finite q => if q.den = 1 ∧ 0 ≤ q ∧ q < 2 ^ 53 then some q.num.toNat else none
  | _ => none

end Double

/-! ## Numerals -/

/-- The value of a letter or digit. -/
def digitValue (c : Char) : ℕ :=
  if c.isDigit then c.toNat - '0'.toNat
  else if c.isLower then c.toNat - 'a'.toNat + 10
  else if c.isUpper then c.toNat - 'A'.toNat + 10
  else 36

variable (base : ℕ)

/-- A digit of a base. -/
def isDigitOf (c : Char) : Bool := decide (digitValue c < base)

/-- The number that digits write. -/
def valueOfDigits (digits : List Char) : ℕ := digits.foldl (fun n c => n * base + digitValue c) 0

variable (cs : List Char)

/-- The digits in front of the other characters. -/
def leadingDigits : List Char := cs.takeWhile (isDigitOf base)

/-- Drop the digits in front. -/
def afterDigits : List Char := cs.dropWhile (isDigitOf base)

/-- A sign in front, and the characters after it. -/
def readSign : List Char → Bool × List Char
  | '-' :: cs => (true, cs)
  | '+' :: cs => (false, cs)
  | cs => (false, cs)

/-- Digits with an optional fraction, at least one digit in all. -/
def readMantissa : Option (ℚ × List Char) :=
  let whole := leadingDigits base cs
  match afterDigits base cs with
  | '.' :: rest =>
    let fraction := leadingDigits base rest
    if whole = [] ∧ fraction = [] then none
    else
      let tail := valueOfDigits base fraction / (base : ℚ) ^ fraction.length
      some (valueOfDigits base whole + tail, afterDigits base rest)
  | rest => if whole = [] then none else some (valueOfDigits base whole, rest)

/-- An optional exponent after a marker.  A marker that no digits follow is left unread. -/
def readExponent (marker : Char) : List Char → ℤ × List Char
  | [] => (0, [])
  | c :: cs =>
    let (negative, rest) := readSign cs
    if c.toLower = marker ∧ leadingDigits 10 rest ≠ [] then
      let n : ℤ := valueOfDigits 10 (leadingDigits 10 rest)
      (if negative then -n else n, afterDigits 10 rest)
    else (0, c :: cs)

/-- A numeral in a base, its exponent counting powers of `power`. -/
def readNumeral (power : ℕ) (marker : Char) (cs : List Char) : Option (ℚ × List Char) :=
  (readMantissa base cs).map fun (mantissa, rest) =>
    let (exponent, after) := readExponent marker rest
    (mantissa * (power : ℚ) ^ exponent, after)

/-- A number with the sign in front of it. -/
def signed (negative : Bool) (q : ℚ) : ℚ := if negative then -q else q

/-- Digits of a base, nothing else, at least one. -/
def wholeNumeral : Double :=
  if cs ≠ [] ∧ cs.all (isDigitOf base) then .ofRat (valueOfDigits base cs) else .nan

/-- A decimal literal with an optional sign. -/
def decimalLiteral : Double :=
  let (negative, rest) := readSign cs
  if rest = "Infinity".toList then .infinity negative
  else match readNumeral 10 10 'e' rest with
    | some (q, []) => .ofRat (signed negative q)
    | _ => .nan

/-- `Number(text)`. -/
def numberOfString (text : String) : Double :=
  match (trim text).toList with
  | [] => .finite 0
  | '0' :: c :: cs =>
    match c.toLower with
    | 'x' => wholeNumeral 16 cs
    | 'o' => wholeNumeral 8 cs
    | 'b' => wholeNumeral 2 cs
    | _ => decimalLiteral ('0' :: c :: cs)
  | cs => decimalLiteral cs

/-- `isspace` in the C locale. -/
def isCSpace (c : Char) : Bool := c == ' ' || (0x09 ≤ c.toNat && c.toNat ≤ 0x0D)

/-- A word in front, in any case, and the characters after it. -/
def readWord (word : List Char) (cs : List Char) : Option (List Char) :=
  if word.isPrefixOf (cs.map Char.toLower) then some (cs.drop word.length) else none

/-- A hexadecimal numeral after its `0x`. -/
def readHexadecimal : Option (ℚ × List Char) :=
  (readWord "0x".toList cs).bind (readNumeral 16 2 'p')

/-- `strtod` after the sign: the number in front, and the characters after it. -/
def strtod (negative : Bool) (cs : List Char) : Option (Double × List Char) :=
  match readHexadecimal cs, readWord "infinity".toList cs, readWord "inf".toList cs,
      readWord "nan".toList cs with
  | some (q, rest), _, _, _ => some (.ofRat (signed negative q), rest)
  | none, some rest, _, _ => some (.infinity negative, rest)
  | none, none, some rest, _ => some (.infinity negative, rest)
  | none, none, none, some rest => some (.nan, rest)
  | none, none, none, none =>
    (readNumeral 10 10 'e' cs).map fun (q, rest) => (.ofRat (signed negative q), rest)

/-- `tonumber(text)`. -/
def tonumber (text : String) : Option Double :=
  let (negative, cs) := readSign (text.toList.dropWhile isCSpace)
  match strtod negative cs with
  | some (x, rest) => if rest.all isCSpace then some x else none
  | none => none

example : numberOfString "12" = .finite 12 ∧ tonumber "12" = some (.finite 12) := by
  decide +kernel

example : numberOfString "" = .finite 0 ∧ tonumber "" = none := by decide +kernel

end CtsEngine
