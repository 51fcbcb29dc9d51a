import AssocLint.Number.Binary64
import AssocLint.Text.Character

/-!
# Number literals

The texts that are read as numbers wherever a word could also be a name: integers with an optional
sign, and decimals with a fraction, an exponent or one of the words `inf`, `infinity` and `nan`.
Digits may be those of any script, single underscores may stand between digits, and white space
may surround the literal.
-/

namespace AssocLint
namespace Literal

open Text

/-- A text with the digits of every script written as ASCII digits. -/
def plainDigits (text : List Char) : List Char :=
  text.map fun c => (digitValue? c).elim c Nat.digitChar

def strip (text : List Char) : List Char :=
  ((text.dropWhile isWhiteSpace).reverse.dropWhile isWhiteSpace).reverse

/-- A text without its underscores, each of which has to stand between two digits. The previous
character is given. -/
def dropUnderscores? (previous : Char) : List Char → Option (List Char)
  | [] => if previous == '_' then none else some []
  | c :: rest =>
    if c == '_' then
      if previous.isDigit then dropUnderscores? '_' rest else none
    else if previous == '_' && !c.isDigit then none
    else (dropUnderscores? c rest).map (c :: ·)

/-- The literal proper: ASCII digits, no underscores, no white space around it. -/
def normalised? (text : List Char) : Option (List Char) :=
  dropUnderscores? ' ' (strip (plainDigits text))

/-- Splits off a sign; true is minus. -/
def sign : List Char → Bool × List Char
  | '-' :: rest => (true, rest)
  | '+' :: rest => (false, rest)
  | text => (false, text)

def digitsValue (digits : List Char) : Nat :=
  digits.foldl (fun value c => value * 10 + (c.toNat - '0'.toNat)) 0

/-- The value of ASCII digits, of which there has to be one. -/
def natural? (digits : List Char) : Option Nat :=
  if !digits.isEmpty && digits.all Char.isDigit then some (digitsValue digits) else none

def integer? (text : List Char) : Option Int := do
  let (negative, digits) := sign (← normalised? text)
  let value ← natural? digits
  return if negative then -(value : Int) else value

/-- An exponent, of value zero where the text is empty. -/
def exponent? : List Char → Option Int
  | [] => some 0
  | 'e' :: rest => do
    let (negative, digits) := sign rest
    let value ← natural? digits
    return if negative then -(value : Int) else value
  | _ => none

/-- A decimal literal, which may also be an integer literal. -/
def decimal? (text : List Char) : Option Binary64 := do
  let (negative, body) := sign ((← normalised? text).map Char.toLower)
  if body == "inf".toList || body == "infinity".toList then
    return .infinity negative
  if body == "nan".toList then
    return .nan
  let whole := body.takeWhile Char.isDigit
  let (fraction, rest) :=
    match body.dropWhile Char.isDigit with
    | '.' :: rest => (rest.takeWhile Char.isDigit, rest.dropWhile Char.isDigit)
    | rest => ([], rest)
  let digits ← natural? (whole ++ fraction)
  let exponent ← exponent? rest
  return Binary64.ofDecimal negative digits (exponent - fraction.length)

end Literal
end AssocLint
