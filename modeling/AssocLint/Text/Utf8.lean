import AssocLint.Text.Quoted

/-!
# Text files

A text file holds UTF-8. `Utf8.decode` reads its bytes one at a time and stops at the first
character that they cannot spell; `Utf8.readLines` also reads every ending of a line as a line feed.
-/

namespace AssocLint
namespace Utf8

/-! ## Faults -/

inductive Problem
  | invalidStart
  | invalidContinuation
  | unexpectedEnd
  deriving DecidableEq, Repr

def Problem.message : Problem → String
  | .invalidStart => "invalid start byte"
  | .invalidContinuation => "invalid continuation byte"
  | .unexpectedEnd => "unexpected end of data"

/-- Bytes that spell no character: the first of them, how many more belong to them, their position
and what is wrong. -/
structure Fault where
  first : UInt8
  more : Nat
  position : Nat
  problem : Problem
  deriving DecidableEq, Repr

def Fault.message (fault : Fault) : String :=
  let bytes :=
    if fault.more == 0 then
      "byte 0x" ++ String.ofList (Text.hexDigits 2 fault.first.toNat) ++ " in position " ++
        toString fault.position
    else
      "bytes in position " ++ toString fault.position ++ "-" ++
        toString (fault.position + fault.more)
  "'utf-8' codec can't decode " ++ bytes ++ ": " ++ fault.problem.message

/-! ## Decoding -/

/-- A character of which the first bytes have been read. -/
structure Begun where
  first : UInt8
  /-- How many bytes after the first have been read. -/
  read : Nat
  /-- How many bytes are to come after the next one. -/
  missing : Nat
  /-- The bounds of the next byte. -/
  low : UInt8
  high : UInt8
  /-- The value of the bits that have been read. -/
  value : Nat

/-- What a byte outside ASCII begins. The bounds of the second byte leave out longer spellings than
needed, surrogates and everything beyond the last code point. -/
def begin? (byte : UInt8) : Option Begun :=
  if byte < 0xc2 then none
  else if byte < 0xe0 then some ⟨byte, 0, 0, 0x80, 0xbf, byte.toNat - 0xc0⟩
  else if byte < 0xf0 then
    let low := if byte == 0xe0 then 0xa0 else 0x80
    let high := if byte == 0xed then 0x9f else 0xbf
    some ⟨byte, 0, 1, low, high, byte.toNat - 0xe0⟩
  else if byte < 0xf5 then
    let low := if byte == 0xf0 then 0x90 else 0x80
    let high := if byte == 0xf4 then 0x8f else 0xbf
    some ⟨byte, 0, 2, low, high, byte.toNat - 0xf0⟩
  else none

/-- Decodes the bytes after a position, and after a character that has begun there. -/
def decodeFrom (position : Nat) : Option Begun → List UInt8 → Except Fault (List Char)
  | none, [] => .ok []
  | some begun, [] => .error ⟨begun.first, begun.read, position, .unexpectedEnd⟩
  | none, byte :: rest =>
    if byte < 0x80 then do
      return Char.ofNat byte.toNat :: (← decodeFrom (position + 1) none rest)
    else
      match begin? byte with
      | none => .error ⟨byte, 0, position, .invalidStart⟩
      | some begun => decodeFrom position (some begun) rest
  | some begun, byte :: rest =>
    if begun.low ≤ byte && byte ≤ begun.high then
      let value := begun.value * 64 + (byte.toNat - 0x80)
      match begun.missing with
      | 0 => do
        return Char.ofNat value :: (← decodeFrom (position + begun.read + 2) none rest)
      | missing + 1 =>
        decodeFrom position (some ⟨begun.first, begun.read + 1, missing, 0x80, 0xbf, value⟩) rest
    else .error ⟨begun.first, begun.read, position, .invalidContinuation⟩

def decode (bytes : List UInt8) : Except Fault (List Char) :=
  decodeFrom 0 none bytes

/-! ## Lines -/

/-- A text in which every line ends with a line feed: carriage returns become line feeds, together
with a line feed that follows. -/
def unifyLines : List Char → List Char
  | '\r' :: '\n' :: rest => '\n' :: unifyLines rest
  | '\r' :: rest => '\n' :: unifyLines rest
  | c :: rest => c :: unifyLines rest
  | [] => []

def readLines (bytes : List UInt8) : Except Fault String := do
  return String.ofList (unifyLines (← decode bytes))

end Utf8
end AssocLint
