/-!
# Lines of parentheses

A view of a text that sees only line ends and the parentheses outside quoted text and comments.
`Parenthesis.ofChars` lists the parentheses with their lines; `Parenthesis.culprit` names the line
of one that has no partner.
-/

namespace AssocLint

/-- A parenthesis and the line it stands on, counted from one. -/
structure Parenthesis where
  isOpening : Bool
  line : Nat
  deriving DecidableEq, Repr

namespace Parenthesis

/-- What kind of text a character stands in. -/
inductive Zone
  | code
  | text
  /-- After a backslash in quoted text. -/
  | escape
  | comment
  deriving DecidableEq, Repr

/-- The zone after one more character. -/
def Zone.next (zone : Zone) (c : Char) : Zone :=
  match zone with
  | .code => if c == '"' then .text else if c == ';' then .comment else .code
  | .text => if c == '"' then .code else if c == '\\' then .escape else .text
  | .escape => .text
  | .comment => if c == '\n' then .code else .comment

def scan (zone : Zone) (line : Nat) : List Char → List Parenthesis
  | [] => []
  | c :: rest =>
    let following := scan (zone.next c) (if c == '\n' then line + 1 else line) rest
    if zone == .code && c == '(' then ⟨true, line⟩ :: following
    else if zone == .code && c == ')' then ⟨false, line⟩ :: following
    else following

def ofChars (text : List Char) : List Parenthesis :=
  scan .code 1 text

def openingLines (parens : List Parenthesis) : List Nat :=
  (parens.filter (·.isOpening)).map (·.line)

/-- The line of a parenthesis without partner: of the first closing one, or else of the last
opening one. The lines of the openings still without partner are given, latest first. -/
def culpritFrom (opened : List Nat) : List Parenthesis → Option Nat
  | [] => opened.head?
  | paren :: rest =>
    if paren.isOpening then culpritFrom (paren.line :: opened) rest
    else
      match opened with
      | [] => some paren.line
      | _ :: opened' => culpritFrom opened' rest

/-- The line of a parenthesis without partner. -/
def culprit (parens : List Parenthesis) : Option Nat :=
  culpritFrom [] parens

end Parenthesis
end AssocLint
