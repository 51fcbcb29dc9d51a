import AssocLint.Number.Binary64
import AssocLint.Text.Quoted

/-!
# Symbolic expressions

The values that a dump is written in. A list between parentheses remembers the line it opens on,
unless it stands inside quoted or bracketed material.

`Sexp.inspect` is the form in which messages show a value, `Sexp.plainText` the bare text where
there is one.
-/

namespace AssocLint

/-- A symbolic expression. -/
inductive Sexp where
  /-- A bare word. -/
  | symbol (name : String)
  /-- Text between double quotes. -/
  | text (value : String)
  | int (value : Int)
  | float (value : Binary64)
  /-- A list between parentheses, with the line of its opening one. -/
  | list (line : Option Nat) (items : List Sexp)
  /-- A value after a single quote. -/
  | quoted (value : Sexp)
  /-- A list between square brackets. -/
  | brackets (items : List Sexp)

namespace Sexp

/-- The text of a word or of text between quotes. -/
def word? : Sexp → Option String
  | .symbol name => some name
  | .text value => some value
  | _ => none

def line? : Sexp → Option Nat
  | .list line _ => line
  | _ => none

mutual

def inspect : Sexp → String
  | .symbol name => "Symbol(" ++ Text.quoted name ++ ")"
  | .text value => Text.quoted value
  | .int value => toString value
  | .float value => value.render
  | .list _ items => "[" ++ ", ".intercalate (inspectAll items) ++ "]"
  | .quoted value => "Quoted(" ++ value.inspect ++ ")"
  | .brackets items => "Brackets(I=[" ++ ", ".intercalate (inspectAll items) ++ "])"
termination_by structural value => value

def inspectAll : List Sexp → List String
  | [] => []
  | value :: rest => value.inspect :: inspectAll rest
termination_by structural values => values

end

/-- The bare text of a word or of text between quotes, and any other value as messages show it. -/
def plainText (value : Sexp) : String :=
  value.word?.getD value.inspect

mutual

/-- How many lists stand inside one another. -/
def depth : Sexp → Nat
  | .list _ items => depthAll items + 1
  | .quoted value => value.depth + 1
  | .brackets items => depthAll items + 1
  | _ => 0
termination_by structural value => value

def depthAll : List Sexp → Nat
  | [] => 0
  | value :: rest => max value.depth (depthAll rest)
termination_by structural values => values

end

end Sexp
end AssocLint
