import AssocLint.Number.Literal
import AssocLint.Sexp
import AssocLint.Sexp.Parentheses
import AssocLint.Sexp.Token

/-!
# Reading symbolic expressions

`Sexp.readAll?` reads every value of a text. A single quote wraps the value after it. Words that
are number literals become numbers.

The lines of lists come from a second view of the text, `Parenthesis.ofChars`: the lists outside
quoted and bracketed material take the lines of the opening parentheses in turn.
-/

namespace AssocLint
namespace Sexp

/-! ## From tokens to values -/

def ofAtom (chars : List Char) : Sexp :=
  match Literal.integer? chars with
  | some value => .int value
  | none =>
    match Literal.decimal? chars with
    | some value => .float value
    | none => .symbol (String.ofList chars)

/-- A list being read: the kind of its brackets, the quotes before its next value, and the values
so far, latest first. -/
structure Frame where
  square : Bool := false
  quotes : Nat := 0
  values : List Sexp := []

/-- A value behind a number of quotes. -/
def quote : Nat → Sexp → Sexp
  | 0, value => value
  | count + 1, value => .quoted (quote count value)

def Frame.push (frame : Frame) (value : Sexp) : Frame :=
  { frame with quotes := 0, values := quote frame.quotes value :: frame.values }

def Frame.value (frame : Frame) : Sexp :=
  if frame.square then .brackets frame.values.reverse else .list none frame.values.reverse

/-- Reads tokens into the innermost list being read and the lists around it. It fails where a
bracket lacks its partner or a quote its value. -/
def build (frame : Frame) (outer : List Frame) : List Token → Option (List Sexp)
  | [] => if outer.isEmpty && frame.quotes == 0 then some frame.values.reverse else none
  | .text chars :: rest => build (frame.push (.text (String.ofList chars))) outer rest
  | .atom chars :: rest => build (frame.push (ofAtom chars)) outer rest
  | .quote :: rest => build { frame with quotes := frame.quotes + 1 } outer rest
  | .opening square :: rest => build { square } (frame :: outer) rest
  | .closing square :: rest =>
    match outer with
    | [] => none
    | parent :: outer' =>
      if frame.square == square && frame.quotes == 0 then
        build (parent.push frame.value) outer' rest
      else none

/-- The values of a text, none of whose lists has a line. The line end added to the text ends a
comment on its last line. -/
def parse? (text : List Char) : Option (List Sexp) := do
  build {} [] (← Token.ofChars? (text ++ ['\n']))

/-! ## Lines -/

mutual

/-- Gives the lists of a value the lines given, in order, and returns the lines left over. A list
for which none is left has line zero. -/
def attach : Sexp → List Nat → Sexp × List Nat
  | .list _ items, lines =>
    let (items', rest) := attachAll items lines.tail
    (.list (some (lines.head?.getD 0)) items', rest)
  | value, lines => (value, lines)
termination_by structural value => value

def attachAll : List Sexp → List Nat → List Sexp × List Nat
  | [], lines => ([], lines)
  | value :: values, lines =>
    let (value', lines') := attach value lines
    let (values', lines'') := attachAll values lines'
    (value' :: values', lines'')
termination_by structural values => values

end

/-- The values of a text, with the lines of their lists. -/
def readAll? (text : String) : Option (List Sexp) := do
  let chars := text.toList
  let values ← parse? chars
  return (attachAll values (Parenthesis.openingLines (Parenthesis.ofChars chars))).1

end Sexp
end AssocLint
