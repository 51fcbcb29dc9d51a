import AssocLint.Text.Character

/-!
# Quoted text

The form in which a message quotes a text: between single quotes, or between double quotes when
the text holds a single quote and no double one. A backslash, the quote in use and the characters
without a printed form are written as escapes.
-/

namespace AssocLint
namespace Text

/-- The last `width` hexadecimal digits of a number, in lower case. -/
def hexDigits : Nat → Nat → List Char
  | 0, _ => []
  | width + 1, n => hexDigits width (n / 16) ++ [Nat.digitChar (n % 16)]

/-- The mark that a text is quoted with. -/
def quoteMark (text : List Char) : Char :=
  if text.contains '\'' && !text.contains '"' then '"' else '\''

/-- One character between quotes of the given mark. -/
def escapeChar (mark c : Char) : List Char :=
  if c == mark || c == '\\' then ['\\', c]
  else if c == '\n' then ['\\', 'n']
  else if c == '\r' then ['\\', 'r']
  else if c == '\t' then ['\\', 't']
  else if isPrintable c then [c]
  else if c.toNat < 0x100 then '\\' :: 'x' :: hexDigits 2 c.toNat
  else if c.toNat < 0x10000 then '\\' :: 'u' :: hexDigits 4 c.toNat
  else '\\' :: 'U' :: hexDigits 8 c.toNat

def quoted (text : String) : String :=
  let chars := text.toList
  let mark := quoteMark chars
  String.ofList (mark :: chars.flatMap (escapeChar mark) ++ [mark])

end Text
end AssocLint
