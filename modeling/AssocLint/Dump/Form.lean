import AssocLint.Dump.Fault
import AssocLint.Span

/-!
# Forms

A dump is made of forms `(head item ...)`. Among its items a form may hold keywords: a word that
begins with a colon, with the item after it as its value, or alone when the keyword is a flag.
`Form.parts` tells the keywords from the other items, which keep their order.
-/

namespace AssocLint

/-- What reading a dump answers with. -/
abbrev DumpResult : Type → Type :=
  Except DumpFault

/-- A list that begins with a word. -/
structure Form where
  line : Nat
  head : String
  items : List Sexp

/-- The items of a form that are no keywords, and the keywords with their values. A flag has no
value. -/
structure Form.Parts where
  form : Form
  positional : List Sexp
  keywords : List (String × Option Sexp)

namespace Form

def fault {α : Type} (form : Form) (problem : DumpProblem) : DumpResult α :=
  .error ⟨problem, some form.line⟩

def ofSexp : Sexp → DumpResult Form
  | .list (some line) (.symbol head :: items) => .ok ⟨line, head, items⟩
  | value => .error ⟨.untagged value, value.line?⟩

/-- The name of a keyword, without its colon. A colon alone is no keyword. -/
def keywordName? : Sexp → Option String
  | .symbol word =>
    match word.toList with
    | ':' :: c :: rest => some (String.ofList (c :: rest))
    | _ => none
  | _ => none

/-- Tells the keywords of a form from its other items, given those met so far. -/
def split (form : Form) (allowed flags : List String) (keywords : List (String × Option Sexp)) :
    List Sexp → DumpResult Parts
  | [] => .ok ⟨form, [], keywords⟩
  | item :: rest =>
    match keywordName? item with
    | none => do
      let parts ← split form allowed flags keywords rest
      return { parts with positional := item :: parts.positional }
    | some name =>
      if !allowed.contains name && !flags.contains name then
        form.fault (.unknownKeyword (":" ++ name) form.head)
      else if (keywords.lookup name).isSome then
        form.fault (.repeatedKeyword (":" ++ name) form.head)
      else if flags.contains name then
        split form allowed flags ((name, none) :: keywords) rest
      else
        match rest with
        | [] => form.fault (.keywordWithoutValue (":" ++ name))
        | value :: rest' => split form allowed flags ((name, some value) :: keywords) rest'

/-- The parts of a form that may hold the given keywords and flags. -/
def parts (form : Form) (allowed : List String) (flags : List String) : DumpResult Parts :=
  split form allowed flags [] form.items

def text (form : Form) (value : Sexp) : DumpResult String :=
  match value.word? with
  | some word => .ok word
  | none => form.fault (.notWord form.head value)

def int (form : Form) (value : Sexp) : DumpResult Int :=
  match value with
  | .int number => .ok number
  | _ => form.fault (.notInteger form.head value)

/-- The span that a value writes: a list of line and column, or of line, column and both byte
offsets. -/
def spanOf (form : Form) (file : String) (value : Sexp) : DumpResult Span :=
  match value with
  | .list (some _) [line, column] =>
    return { file, line := ← form.int line, column := ← form.int column }
  | .list (some _) [line, column, lo, hi] =>
    return { file, line := ← form.int line, column := ← form.int column, lo := ← form.int lo,
             hi := ← form.int hi }
  | _ => form.fault (.badSpan value)

namespace Parts

variable (parts : Parts)

def has (name : String) : Bool :=
  (parts.keywords.lookup name).isSome

def value? (name : String) : Option Sexp :=
  (parts.keywords.lookup name).join

/-- Reads the value of a keyword where it is written. -/
def mapValue {α : Type} (name : String) (read : Sexp → DumpResult α) : DumpResult (Option α) :=
  match parts.value? name with
  | none => return none
  | some value => return some (← read value)

/-- The span of a form: its own, or else the one around it. -/
def span (outer : Span) : DumpResult Span :=
  match parts.value? "span" with
  | none => .ok outer
  | some value => parts.form.spanOf outer.file value

/-- The fault of a form that holds too few or too many items. -/
def wrongCount {α : Type} (least most : Nat) : DumpResult α :=
  let count := parts.positional.length
  if count < least then parts.form.fault (.tooFew parts.form.head least count)
  else parts.form.fault (.tooMany parts.form.head most count)

-- The items of a form, by how many of them it may hold.

/-- At most one item, and none where the form may hold no item. -/
def atMostOne (allowed : Bool) : DumpResult (Option Sexp) :=
  match allowed, parts.positional with
  | _, [] => .ok none
  | true, [a] => .ok (some a)
  | _, _ => parts.wrongCount 0 allowed.toNat

def one : DumpResult Sexp :=
  match parts.positional with
  | [a] => .ok a
  | _ => parts.wrongCount 1 1

def oneOrTwo : DumpResult (Sexp × Option Sexp) :=
  match parts.positional with
  | [a] => .ok (a, none)
  | [a, b] => .ok (a, some b)
  | _ => parts.wrongCount 1 2

def two : DumpResult (Sexp × Sexp) :=
  match parts.positional with
  | [a, b] => .ok (a, b)
  | _ => parts.wrongCount 2 2

def twoOrThree : DumpResult (Sexp × Sexp × Option Sexp) :=
  match parts.positional with
  | [a, b] => .ok (a, b, none)
  | [a, b, c] => .ok (a, b, some c)
  | _ => parts.wrongCount 2 3

def three : DumpResult (Sexp × Sexp × Sexp) :=
  match parts.positional with
  | [a, b, c] => .ok (a, b, c)
  | _ => parts.wrongCount 3 3

def oneAndRest : DumpResult (Sexp × List Sexp) :=
  match parts.positional with
  | a :: rest => .ok (a, rest)
  | _ => parts.wrongCount 1 1

def twoAndRest : DumpResult (Sexp × Sexp × List Sexp) :=
  match parts.positional with
  | a :: b :: rest => .ok (a, b, rest)
  | _ => parts.wrongCount 2 2

end Parts
end Form
end AssocLint
