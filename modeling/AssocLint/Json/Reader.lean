import AssocLint.Json
import AssocLint.Number.Literal

/-!
# Reading JSON

`Json.read` reads a text that holds exactly one JSON value, or says what is wrong at which line and
column (`JsonFault`). Beyond the standard it takes the words `NaN`, `Infinity` and `-Infinity`. Of
fields with one name the last value counts, in the place of the first. Integers may have any number
of digits and values may be nested to any depth.
-/

namespace AssocLint

inductive JsonProblem
  | noValue
  | noName
  | noColon
  | noComma
  | extraText
  | openString
  | controlCharacter
  | badEscape
  | badUnicodeEscape
  | byteOrderMark
  deriving DecidableEq, Repr

def JsonProblem.message : JsonProblem → String
  | .noValue => "Expecting value"
  | .noName => "Expecting property name enclosed in double quotes"
  | .noColon => "Expecting ':' delimiter"
  | .noComma => "Expecting ',' delimiter"
  | .extraText => "Extra data"
  | .openString => "Unterminated string starting at"
  | .controlCharacter => "Invalid control character at"
  | .badEscape => "Invalid \\escape"
  | .badUnicodeEscape => "Invalid \\uXXXX escape"
  | .byteOrderMark => "Unexpected UTF-8 BOM (decode using utf-8-sig)"

/-- A problem at a line and column, both counted from one. -/
structure JsonFault where
  problem : JsonProblem
  line : Nat
  column : Nat
  deriving DecidableEq, Repr

namespace Json

/-- An answer, or a problem and the length of the rest at which it was found. -/
abbrev Reading : Type → Type :=
  Except (JsonProblem × Nat)

def problemAt {α : Type} (problem : JsonProblem) (rest : List Char) : Reading α :=
  .error (problem, rest.length)

def skipSpaces (text : List Char) : List Char :=
  text.dropWhile fun c => c == ' ' || c == '\t' || c == '\n' || c == '\r'

/-! ## Strings -/

def hexValue? (c : Char) : Option Nat :=
  if c.isDigit then some (c.toNat - '0'.toNat)
  else if 'a' ≤ c && c ≤ 'f' then some (c.toNat - 'a'.toNat + 10)
  else if 'A' ≤ c && c ≤ 'F' then some (c.toNat - 'A'.toNat + 10)
  else none

/-- The UTF-16 unit that four hexadecimal digits write. -/
def unit? (a b c d : Char) : Option Nat := do
  return (((← hexValue? a) * 16 + (← hexValue? b)) * 16 + (← hexValue? c)) * 16 + (← hexValue? d)

/-- The character of a UTF-16 unit; half of a surrogate pair alone is replaced. -/
def unitChar (unit : Nat) : Char :=
  if 0xd800 ≤ unit && unit < 0xe000 then '\ufffd' else Char.ofNat unit

/-- The character that a letter after a backslash stands for. -/
def escaped? : Char → Option Char
  | '"' => some '"'
  | '\\' => some '\\'
  | '/' => some '/'
  | 'b' => some '\x08'
  | 'f' => some '\x0c'
  | 'n' => some '\n'
  | 'r' => some '\r'
  | 't' => some '\t'
  | _ => none

/-- The second half of a surrogate pair, written as an escape of its own at the start of a text. An
escape is read only where a character follows it. -/
def lowSurrogate? : List Char → Reading (Option (Nat × List Char))
  | '\\' :: 'u' :: a :: b :: c :: d :: rest =>
    if rest.isEmpty then .ok none
    else
      match unit? a b c d with
      | none => .error (.badUnicodeEscape, rest.length + 5)
      | some unit => .ok (if 0xdc00 ≤ unit && unit < 0xe000 then some (unit, rest) else none)
  | _ => .ok none

/-- A character written by its UTF-16 units, given the text after `\u`. -/
def readUnits (text : List Char) : Reading (Char × List Char) :=
  match text with
  | a :: b :: c :: d :: rest =>
    match unit? a b c d with
    | none => .error (.badUnicodeEscape, text.length + 1)
    | some unit =>
      if rest.isEmpty then .error (.badUnicodeEscape, text.length + 1)
      else if 0xd800 ≤ unit && unit < 0xdc00 then do
        match ← lowSurrogate? rest with
        | some (low, rest') =>
          return (Char.ofNat (0x10000 + (unit - 0xd800) * 0x400 + (low - 0xdc00)), rest')
        | none => return (unitChar unit, rest)
      else return (unitChar unit, rest)
  | _ => .error (.badUnicodeEscape, text.length + 1)

/-- The characters of a string up to its closing quote. The length of the rest at its opening quote
is given, for a string that never closes; the number bounds the characters still to read. -/
def stringChars (opening : Nat) : Nat → List Char → Reading (List Char × List Char)
  | 0, _ => .error (.openString, opening)
  | steps + 1, text =>
    match text with
    | [] => .error (.openString, opening)
    | '"' :: rest => .ok ([], rest)
    | ['\\'] => .error (.openString, opening)
    | '\\' :: 'u' :: rest => do
      let (char, rest') ← readUnits rest
      let (chars, rest'') ← stringChars opening steps rest'
      return (char :: chars, rest'')
    | '\\' :: c :: rest =>
      match escaped? c with
      | none => problemAt .badEscape text
      | some char => do
        let (chars, rest') ← stringChars opening steps rest
        return (char :: chars, rest')
    | c :: rest =>
      if c.toNat < 0x20 then problemAt .controlCharacter text
      else do
        let (chars, rest') ← stringChars opening steps rest
        return (c :: chars, rest')

/-- A string, given the text after its opening quote. -/
def readString (text : List Char) : Reading (String × List Char) := do
  let (chars, rest) ← stringChars (text.length + 1) (text.length + 1) text
  return (String.ofList chars, rest)

/-! ## Numbers -/

/-- The integer digits at the start of a text: a zero alone, or digits that begin with another. -/
def wholeDigits : List Char → List Char
  | '0' :: _ => ['0']
  | text => text.takeWhile Char.isDigit

/-- A fraction at the start of a text: its digits, where a point and a digit begin it. -/
def fractionDigits : List Char → List Char
  | '.' :: rest => rest.takeWhile Char.isDigit
  | _ => []

/-- An exponent at the start of a text, with the number of characters that it takes. -/
def exponentPart : List Char → Option (Int × Nat)
  | mark :: rest =>
    if mark == 'e' || mark == 'E' then
      let (negative, body) := Literal.sign rest
      let digits := body.takeWhile Char.isDigit
      let value := Literal.digitsValue digits
      if digits.isEmpty then none
      else
        some (if negative then -(value : Int) else value,
          1 + (rest.length - body.length) + digits.length)
    else none
  | [] => none

def readNumber (text : List Char) : Reading (Json × List Char) :=
  let (negative, body) :=
    match text with
    | '-' :: rest => (true, rest)
    | _ => (false, text)
  let whole := wholeDigits body
  if whole.isEmpty then problemAt .noValue text
  else
    let afterWhole := body.drop whole.length
    let fraction := fractionDigits afterWhole
    let afterFraction := if fraction.isEmpty then afterWhole else afterWhole.drop (fraction.length + 1)
    match exponentPart afterFraction with
    | none =>
      if fraction.isEmpty then
        let value : Int := Literal.digitsValue whole
        .ok (.int (if negative then -value else value), afterWhole)
      else
        .ok (.float (Binary64.ofDecimal negative (Literal.digitsValue (whole ++ fraction))
          (-(fraction.length : Int))), afterFraction)
    | some (exponent, length) =>
      .ok (.float (Binary64.ofDecimal negative (Literal.digitsValue (whole ++ fraction))
        (exponent - fraction.length)), afterFraction.drop length)

/-! ## Values -/

/-- The words that stand for a value of their own. -/
def words : List (String × Json) :=
  [("null", .null), ("true", .bool true), ("false", .bool false), ("NaN", .float .nan),
    ("Infinity", .float (.infinity false)), ("-Infinity", .float (.infinity true))]

/-- A word or a number at the start of a text. -/
def readScalar (text : List Char) : Reading (Json × List Char) :=
  match words.find? fun word => word.1.toList.isPrefixOf text with
  | some (word, value) => .ok (value, text.drop word.length)
  | none => readNumber text

mutual

/-- A value at the start of a text. The number bounds the steps still to take, each of which takes a
character. -/
def readValue : Nat → List Char → Reading (Json × List Char)
  | 0, text => problemAt .noValue text
  | steps + 1, text =>
    match text with
    | [] => problemAt .noValue text
    | '"' :: rest => (readString rest).map fun (value, rest') => (.string value, rest')
    | '[' :: rest =>
      match skipSpaces rest with
      | ']' :: rest' => .ok (.array [], rest')
      | rest' => (readItems steps rest').map fun (items, rest'') => (.array items, rest'')
    | '\x7b' :: rest =>
      match skipSpaces rest with
      | '\x7d' :: rest' => .ok (.object [], rest')
      | rest' => readFields steps [] rest'
    | _ => readScalar text
termination_by structural steps => steps

/-- The items of an array up to its closing bracket, at least one. -/
def readItems : Nat → List Char → Reading (List Json × List Char)
  | 0, text => problemAt .noValue text
  | steps + 1, text => do
    let (item, rest) ← readValue steps text
    match skipSpaces rest with
    | ']' :: rest' => return ([item], rest')
    | ',' :: rest' =>
      let (items, rest'') ← readItems steps (skipSpaces rest')
      return (item :: items, rest'')
    | rest' => problemAt .noComma rest'
termination_by structural steps => steps

/-- The fields of an object up to its closing brace, at least one, set in the fields read so far. -/
def readFields : Nat → List (String × Json) → List Char → Reading (Json × List Char)
  | 0, _, text => problemAt .noName text
  | steps + 1, fields, text =>
    match text with
    | '"' :: rest => do
      let (name, rest) ← readString rest
      match skipSpaces rest with
      | ':' :: rest =>
        let (value, rest) ← readValue steps (skipSpaces rest)
        let fields := setField fields name value
        match skipSpaces rest with
        | '\x7d' :: rest => return (.object fields, rest)
        | ',' :: rest => readFields steps fields (skipSpaces rest)
        | rest => problemAt .noComma rest
      | rest => problemAt .noColon rest
    | _ => problemAt .noName text
termination_by structural steps => steps

end

def faultAt (text : List Char) (problem : JsonProblem) (rest : Nat) : JsonFault :=
  let before := text.take (text.length - rest)
  { problem
    line := before.count '\n' + 1
    column := (before.reverse.takeWhile (· != '\n')).length + 1 }

/-- Reads a text that holds one JSON value and white space around it. -/
def read (text : String) : Except JsonFault Json :=
  let chars := text.toList
  let reading : Reading (Json × List Char) :=
    match chars with
    | '\ufeff' :: _ => problemAt .byteOrderMark chars
    | _ => readValue (chars.length + 1) (skipSpaces chars)
  match reading with
  | .error (problem, rest) => .error (faultAt chars problem rest)
  | .ok (value, rest) =>
    match skipSpaces rest with
    | [] => .ok value
    | rest' => .error (faultAt chars .extraText rest'.length)

end Json
end AssocLint
