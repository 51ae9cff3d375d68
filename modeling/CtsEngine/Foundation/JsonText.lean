import Mathlib.Data.List.Infix
import Mathlib.Data.List.Lemmas

/-!
# JSON texts

Values, the compact text of a value, and the value of a text, with numbers of any type whose texts
are given by a `NumberFormat`.  An object has its fields in the order of its text; which of two
fields of one name counts is left to the reader of the value.

A text is read by recursion on a bound of its length.  An escape `\u` gives a code unit; two units
of a surrogate pair give one character, and a surrogate that stands alone gives the replacement
character.
-/

namespace JsonText

/-- A JSON value. -/
inductive Value (N : Type)
  | null
  | bool (b : Bool)
  | number (n : N)
  | text (s : String)
  | array (values : List (Value N))
  | object (fields : List (String × Value N))

/-- A character of the texts of numbers. -/
def isNumberChar (c : Char) : Bool := c.isDigit || c ∈ ['-', '+', '.', 'e', 'E']

/-- The texts of numbers: how a number is written, how a text is read, and which numbers are read
back. -/
structure NumberFormat (N : Type) where
  write : N → List Char
  read : List Char → Option N
  Exact : N → Prop
  isNumberChar_of_mem : ∀ {n}, Exact n → ∀ c ∈ write n, isNumberChar c = true
  write_ne_nil : ∀ {n}, Exact n → write n ≠ []
  read_write : ∀ {n}, Exact n → read (write n) = some n

/-- A white space of JSON. -/
def isSpace (c : Char) : Bool := c ∈ [' ', '\t', '\n', '\r']

/-- Drop the white space in front. -/
def skipSpace (cs : List Char) : List Char := cs.dropWhile isSpace

/-! ## Writing -/

def hexDigit (n : ℕ) : Char := "0123456789abcdef".toList.getD n '0'

/-- The letters of the escapes that have one, with what they stand for. -/
def escapes : List (Char × Char) :=
  [('"', '"'), ('\\', '\\'), ('/', '/'), ('b', '\x08'), ('f', '\x0c'), ('n', '\n'), ('r', '\r'),
    ('t', '\t')]

/-- A character in a text.  Only quotes, backslashes and control characters are escaped. -/
def writeChar (c : Char) : List Char :=
  if c = '"' ∨ c = '\\' ∨ c.toNat < 0x20 then
    match escapes.find? fun escape => escape.2 = c with
    | some (letter, _) => ['\\', letter]
    | none => ['\\', 'u', '0', '0', hexDigit (c.toNat / 16), hexDigit (c.toNat % 16)]
  else [c]

/-- A text with its quotes. -/
def writeText (s : String) : List Char := '"' :: (s.toList.flatMap writeChar ++ ['"'])

section Writing

variable {N : Type} (format : NumberFormat N)

mutual

/-- The compact text of a value. -/
def write : Value N → List Char
  | .null => "null".toList
  | .bool true => "true".toList
  | .bool false => "false".toList
  | .number n => format.write n
  | .text s => writeText s
  | .array [] => ['[', ']']
  | .array (value :: values) => '[' :: (write value ++ writeElements values)
  | .object [] => ['\x7b', '\x7d']
  | .object ((name, value) :: fields) =>
    '\x7b' :: (writeText name ++ ':' :: (write value ++ writeFields fields))

/-- The elements of an array after the first. -/
def writeElements : List (Value N) → List Char
  | [] => [']']
  | value :: values => ',' :: (write value ++ writeElements values)

/-- The fields of an object after the first. -/
def writeFields : List (String × Value N) → List Char
  | [] => ['\x7d']
  | (name, value) :: fields =>
    ',' :: (writeText name ++ ':' :: (write value ++ writeFields fields))

end

end Writing

/-! ## Reading -/

/-- The value of a hexadecimal digit. -/
def hexValue (c : Char) : Option ℕ :=
  if c.isDigit then some (c.toNat - '0'.toNat)
  else if 'a' ≤ c ∧ c ≤ 'f' then some (c.toNat - 'a'.toNat + 10)
  else if 'A' ≤ c ∧ c ≤ 'F' then some (c.toNat - 'A'.toNat + 10)
  else none

/-- What one step in a text reads: a character, or the code unit of an escape. -/
inductive Piece
  | char (c : Char)
  | unit (n : ℕ)

/-- Four hexadecimal digits. -/
def readUnit : List Char → Option (Piece × List Char)
  | a :: b :: c :: d :: rest =>
    match hexValue a, hexValue b, hexValue c, hexValue d with
    | some a, some b, some c, some d => some (.unit (((a * 16 + b) * 16 + c) * 16 + d), rest)
    | _, _, _, _ => none
  | _ => none

/-- The first piece of a text and what follows it.  Control characters are not allowed. -/
def readPiece : List Char → Option (Piece × List Char)
  | [] => none
  | c :: rest =>
    if c = '\\' then
      match rest with
      | [] => none
      | letter :: rest =>
        if letter = 'u' then readUnit rest
        else (escapes.find? fun escape => escape.1 = letter).map fun escape =>
          (.char escape.2, rest)
    else if c.toNat < 0x20 then none
    else some (.char c, rest)

/-- The pieces of a text up to its quote, and what follows the quote. -/
def readPieces : ℕ → List Char → Option (List Piece × List Char)
  | 0, _ => none
  | fuel + 1, cs =>
    if cs.head? = some '"' then some ([], cs.tail)
    else (readPiece cs).bind fun (piece, rest) =>
      (readPieces fuel rest).map fun (pieces, rest) => (piece :: pieces, rest)

/-- The first unit of a surrogate pair. -/
def isLeading (n : ℕ) : Bool := 0xD800 ≤ n && n < 0xDC00

/-- The second unit of a surrogate pair. -/
def isTrailing (n : ℕ) : Bool := 0xDC00 ≤ n && n < 0xE000

def joinPieces : List Piece → List Char
  | [] => []
  | .char c :: pieces => c :: joinPieces pieces
  | [.unit n] => [if isLeading n || isTrailing n then '\ufffd' else Char.ofNat n]
  | .unit n :: .char c :: pieces =>
    (if isLeading n || isTrailing n then '\ufffd' else Char.ofNat n) :: c :: joinPieces pieces
  | .unit n :: .unit m :: pieces =>
    if isLeading n && isTrailing m then
      Char.ofNat (0x10000 + (n - 0xD800) * 0x400 + (m - 0xDC00)) :: joinPieces pieces
    else
      (if isLeading n || isTrailing n then '\ufffd' else Char.ofNat n) ::
        joinPieces (.unit m :: pieces)

/-- A text after its first quote. -/
def readText (fuel : ℕ) (cs : List Char) : Option (String × List Char) :=
  (readPieces fuel cs).map fun (pieces, rest) => (String.ofList (joinPieces pieces), rest)

/-- The names of the values that have one. -/
def readName {N : Type} (cs : List Char) : Option (Value N × List Char) :=
  if "null".toList.isPrefixOf cs then some (.null, cs.drop 4)
  else if "true".toList.isPrefixOf cs then some (.bool true, cs.drop 4)
  else if "false".toList.isPrefixOf cs then some (.bool false, cs.drop 5)
  else none

section Reading

variable {N : Type} (format : NumberFormat N)

mutual

/-- The value at the head of a text, and what follows it. -/
def readValue : ℕ → List Char → Option (Value N × List Char)
  | 0, _ => none
  | fuel + 1, cs =>
    match skipSpace cs with
    | [] => none
    | c :: rest =>
      if c = '[' then
        if (skipSpace rest).head? = some ']' then some (.array [], (skipSpace rest).tail)
        else (readValue fuel rest).bind fun (value, rest) =>
          (readElements fuel rest).map fun (values, rest) => (.array (value :: values), rest)
      else if c = '\x7b' then
        if (skipSpace rest).head? = some '\x7d' then some (.object [], (skipSpace rest).tail)
        else (readField fuel rest).bind fun (field, rest) =>
          (readFields fuel rest).map fun (fields, rest) => (.object (field :: fields), rest)
      else if c = '"' then (readText fuel rest).map fun (s, rest) => (.text s, rest)
      else if isNumberChar c then
        (format.read ((c :: rest).takeWhile isNumberChar)).map fun n =>
          (.number n, (c :: rest).dropWhile isNumberChar)
      else readName (c :: rest)

/-- The elements of an array after one of them, up to its bracket. -/
def readElements : ℕ → List Char → Option (List (Value N) × List Char)
  | 0, _ => none
  | fuel + 1, cs =>
    match skipSpace cs with
    | [] => none
    | c :: rest =>
      if c = ']' then some ([], rest)
      else if c = ',' then
        (readValue fuel rest).bind fun (value, rest) =>
          (readElements fuel rest).map fun (values, rest) => (value :: values, rest)
      else none

/-- A field of an object. -/
def readField : ℕ → List Char → Option ((String × Value N) × List Char)
  | 0, _ => none
  | fuel + 1, cs =>
    match skipSpace cs with
    | [] => none
    | c :: rest =>
      if c = '"' then
        (readText fuel rest).bind fun (name, rest) =>
          if (skipSpace rest).head? = some ':' then
            (readValue fuel (skipSpace rest).tail).map fun (value, rest) => ((name, value), rest)
          else none
      else none

/-- The fields of an object after one of them, up to its bracket. -/
def readFields : ℕ → List Char → Option (List (String × Value N) × List Char)
  | 0, _ => none
  | fuel + 1, cs =>
    match skipSpace cs with
    | [] => none
    | c :: rest =>
      if c = '\x7d' then some ([], rest)
      else if c = ',' then
        (readField fuel rest).bind fun (field, rest) =>
          (readFields fuel rest).map fun (fields, rest) => (field :: fields, rest)
      else none

end

/-- The value of a whole text. -/
def parse (cs : List Char) : Option (Value N) :=
  (readValue format (cs.length + 1) cs).bind fun (value, rest) =>
    if skipSpace rest = [] then some value else none

end Reading

end JsonText
