import AssocLint.Text.CharacterTable

/-!
# Classes of characters

The classes that the path grammar, the dump reader and quoted text distinguish. Each is decided by
comparison inside ASCII and by table beyond it.

Two notions of white space are in use. `isWhiteSpace` is the Unicode property; `isBlank` adds the
four information separators U+001C to U+001F, which count where a text is squeezed
(`Text.squeezed`) but not in the path grammar.
-/

namespace AssocLint
namespace Text

/-- Whether a code point lies in one of a list of inclusive ranges. -/
def inRanges (ranges : List (Nat × Nat)) (code : Nat) : Bool :=
  ranges.any fun range => range.1 ≤ code && code ≤ range.2

/-- The Unicode property White_Space. -/
def isWhiteSpace (c : Char) : Bool :=
  let code := c.toNat
  code == 0x20 || (0x9 ≤ code && code ≤ 0xd) || code == 0x85 || code == 0xa0 || code == 0x1680 ||
    (0x2000 ≤ code && code ≤ 0x200a) || code == 0x2028 || code == 0x2029 || code == 0x202f ||
    code == 0x205f || code == 0x3000

/-- White space and the information separators. -/
def isBlank (c : Char) : Bool :=
  isWhiteSpace c || (0x1c ≤ c.toNat && c.toNat ≤ 0x1f)

/-- The value of a decimal digit of any script. -/
def digitValue? (c : Char) : Option Nat :=
  let code := c.toNat
  if code < 0x80 then
    if 0x30 ≤ code && code ≤ 0x39 then some (code - 0x30) else none
  else
    (decimalZeros.find? fun first => first ≤ code && code < first + 10).map (code - ·)

/-- A decimal digit of any script. -/
def isDigit (c : Char) : Bool :=
  (digitValue? c).isSome

/-- A character that can stand in a word. -/
def isWord (c : Char) : Bool :=
  let code := c.toNat
  if code < 0x80 then
    (0x61 ≤ code && code ≤ 0x7a) || (0x41 ≤ code && code ≤ 0x5a) ||
      (0x30 ≤ code && code ≤ 0x39) || code == 0x5f
  else
    inRanges wordRanges code

/-- A character that can begin a word: any of its characters but a digit. -/
def isWordStart (c : Char) : Bool :=
  isWord c && !isDigit c

/-- A character that quoted text shows as it is. -/
def isPrintable (c : Char) : Bool :=
  !inRanges unprintableRanges c.toNat

/-- Every white space character is blank. -/
theorem isBlank_of_isWhiteSpace {c : Char} (h : isWhiteSpace c = true) : isBlank c = true := by
  simp [isBlank, h]

end Text
end AssocLint
