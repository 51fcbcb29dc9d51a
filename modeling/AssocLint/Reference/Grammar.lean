import AssocLint.Reference
import AssocLint.Reference.Rule
import AssocLint.Text.Quoted
import AssocLint.Text.Squeezed

/-!
# The grammar of paths

Reads path text into a `Reference`:

* `A::B::C` is resolved, with a first segment of empty name when it begins with `::`;
* `<Q as A::B>::C` is resolved and qualified by `Q`;
* `<Q>::member` is relative on `Q`;
* `Self::X::Y` is relative on `Self::X`, itself relative on `Self`.

Generic arguments that are paths stay structured. Every other form (references, tuples, arrays,
lifetimes, constants, `_`, bindings `Name = Type`, trait objects) becomes squeezed text.

`Reference.read`, `Reference.readArgument` and `Segment.read` are the three entry points. Each
reads the whole text, white space around it allowed, or says why it cannot (`PathFault`).
-/

namespace AssocLint

inductive PathFault where
  /-- Nothing that the grammar admits stands at this column, counted from one. -/
  | unexpected (column : Nat)
  /-- The text `as Trait` names the trait by a path that does not resolve on its own. -/
  | unsupportedTrait (text : String)
  deriving DecidableEq, Repr

def PathFault.reason : PathFault → String
  | .unexpected column => "unexpected input at column " ++ toString column
  | .unsupportedTrait text => "unsupported trait path " ++ Text.quoted text

namespace Grammar

open Rule Text

/-! ## Lexemes -/

/-- Splits off a word: a word character that is no digit and the word characters after it. A lone
underscore is no word. -/
def word? : List Char → Option (List Char × List Char)
  | [] => none
  | c :: rest =>
    if isWordStart c && !(c == '_' && !rest.head?.any isWord) then
      some (c :: rest.takeWhile isWord, rest.dropWhile isWord)
    else
      none

/-- Splits off an identifier: a word, or a raw word after `r#`. -/
def identifier? (text : List Char) : Option (List Char × List Char) :=
  match text with
  | 'r' :: '#' :: rest =>
    match word? rest with
    | some (word, rest') => some ('r' :: '#' :: word, rest')
    | none => word? text
  | _ => word? text

def lifetime? : List Char → Option (List Char × List Char)
  | '\'' :: c :: rest =>
    if isWordStart c then some ('\'' :: c :: rest.takeWhile isWord, rest.dropWhile isWord) else none
  | _ => none

/-- Splits off an underscore that begins no word. -/
def inferred? : List Char → Option (List Char × List Char)
  | '_' :: rest => if rest.head?.any isWord then none else some (['_'], rest)
  | _ => none

/-- Splits off decimal digits, at least one. -/
def digits? (text : List Char) : Option (List Char × List Char) :=
  match text.takeWhile Char.isDigit with
  | [] => none
  | digits => some (digits, text.dropWhile Char.isDigit)

/-- Splits off a constant: an integer with an optional minus, or flat text in braces. -/
def constant? : List Char → Option (List Char × List Char)
  | '-' :: rest => (digits? rest).map fun (digits, rest') => ('-' :: digits, rest')
  | '\x7b' :: rest =>
    let isFlat := fun c => c != '\x7b' && c != '\x7d'
    match rest.dropWhile isFlat with
    | '\x7d' :: rest' => some ('\x7b' :: rest.takeWhile isFlat ++ ['\x7d'], rest')
    | _ => none
  | text => digits? text

/-- Splits off white space, possibly none. -/
def spaces? (text : List Char) : Option (List Char × List Char) :=
  some (text.takeWhile isWhiteSpace, text.dropWhile isWhiteSpace)

/-- Splits off white space, at least one character. -/
def someSpaces? (text : List Char) : Option (List Char × List Char) :=
  if text.head?.any isWhiteSpace then spaces? text else none

/-- Splits off the text of an array length: all before the closing bracket, at least one
character. -/
def untilBracket? (text : List Char) : Option (List Char × List Char) :=
  match text.takeWhile (· != ']') with
  | [] => none
  | taken => some (taken, text.dropWhile (· != ']'))

def ws : Rule Unit := do
  let _ ← lexeme spaces?

def ws1 : Rule Unit := named do
  let _ ← lexeme someSpaces?

def identifier : Rule String := named do
  return String.ofList (← lexeme identifier?)

def lifetime : Rule Reference := named do
  return .verbatim (String.ofList (← lexeme lifetime?))

def inferred : Rule Reference := named do
  let _ ← lexeme inferred?
  return .verbatim "_"

def constant : Rule Reference := named do
  return .verbatim (String.ofList (squeeze (← lexeme constant?)))

/-! ## Shapes -/

/-- The reference that a plain path writes: relative on `Self` when it begins with a bare `Self`,
else resolved. -/
def ofSegments (first : Segment Reference) (rest : List (Segment Reference)) : Reference :=
  match first with
  | ⟨"Self", none⟩ =>
    rest.foldl (fun base segment => .relative base segment .type) Reference.selfPath
  | _ => .resolved none (first :: rest) .type

/-- What stands in brackets of its own and so may hold the construct that it stands in. -/
structure Nested where
  /-- A type. -/
  type : Rule Reference
  /-- A generic argument. -/
  argument : Rule Reference

/-- A list separated by commas, with an optional trailing one. -/
def commaList (item : Rule Reference) : Rule (List Reference) := named do
  let first ← item
  let rest ← many (named do ws; literal ","; ws; item)
  let _ ← optional (named do ws; literal ",")
  return first :: rest

/-- The list of generic arguments after a name, optionally set off by `::`. -/
def genericArgs (nested : Nested) : Rule (List Reference) := named do
  let _ ← optional (named (literal "::"))
  ws
  literal "<"
  ws
  let args ← optional (commaList nested.argument)
  ws
  literal ">"
  return args.getD []

/-- A name with its generic arguments. -/
def segment (nested : Nested) : Rule (Segment Reference) := named do
  let name ← identifier
  let args ← optional (genericArgs nested)
  return ⟨name, args⟩

/-- A segment after `::`. -/
def member (nested : Nested) : Rule (Segment Reference) := named do
  ws
  literal "::"
  ws
  segment nested

def plainPath (nested : Nested) : Rule Reference := named do
  let leading ← optional (named (literal "::"))
  let first ← segment nested
  let rest ← many (member nested)
  return if leading.isSome then ofSegments ⟨"", none⟩ (first :: rest) else ofSegments first rest

/-- The trait in `<Q as Trait>`, which has to be a resolved path. -/
def asTrait (nested : Nested) : Rule (List (Segment Reference)) := named do
  let (trait, text) ← taken do
    literal "as"
    ws1
    let trait ← plainPath nested
    ws
    return trait
  match trait with
  | .resolved none segments _ => return segments
  | _ =>
    unsupported (String.ofList (trimmed text))
    return []

/-- A path that begins with a type in angle brackets. -/
def qualifiedPath (nested : Nested) : Rule Reference := named do
  literal "<"
  ws
  let qualifier ← nested.type
  ws
  let trait ← optional (asTrait nested)
  literal ">"
  let members ← named (many1 (member nested))
  return match trait with
    | some segments => .resolved (some qualifier) (segments ++ members) .type
    | none => members.foldl (fun base segment => .relative base segment .type) qualifier

def path (nested : Nested) : Rule Reference :=
  named (qualifiedPath nested <|> plainPath nested)

/-! ## Types that are no paths -/

/-- The reference `&'a mut T`. -/
def referenceType (nested : Nested) : Rule Unit := named do
  literal "&"
  ws
  let _ ← optional (named do let _ ← lifetime; ws)
  let _ ← optional (named do literal "mut"; ws1)
  let _ ← nested.type

/-- The pointers `*const T` and `*mut T`. -/
def pointerType (nested : Nested) : Rule Unit := named do
  literal "*"
  ws
  named (literal "const" <|> literal "mut")
  ws1
  let _ ← nested.type

def parenthesised (nested : Nested) : Rule Unit := do
  literal "("
  ws
  let _ ← optional (commaList nested.type)
  ws
  literal ")"

def tupleType (nested : Nested) : Rule Unit :=
  named (parenthesised nested)

/-- A slice `[T]` or an array `[T; n]`. -/
def arrayType (nested : Nested) : Rule Unit := named do
  literal "["
  ws
  let _ ← nested.type
  ws
  let _ ← optional (named do literal ";"; ws; let _ ← lexeme untilBracket?)
  literal "]"

/-- A trait object or an anonymous type with its bounds. -/
def boundedType (nested : Nested) : Rule Unit := named do
  named (literal "dyn" <|> literal "impl")
  ws1
  let _ ← plainPath nested
  let _ ← many (named do ws; literal "+"; ws; named (lifetime <|> plainPath nested))

def functionType (nested : Nested) : Rule Unit := named do
  literal "fn"
  ws
  parenthesised nested
  let _ ← optional (named do ws; literal "->"; ws; let _ ← nested.type)

/-- A type that is no path, as squeezed text. -/
def verbatimType (nested : Nested) : Rule Reference := named do
  let (_, text) ← taken
    (referenceType nested <|> pointerType nested <|> tupleType nested <|> arrayType nested <|>
      named (literal "!") <|> boundedType nested <|> functionType nested)
  return .verbatim (String.ofList (squeeze text))

/-- The binding `Name = Type` of a generic argument. -/
def bindingArgument (nested : Nested) : Rule Reference := named do
  let (_, text) ← taken do
    let _ ← identifier
    ws
    literal "="
    ws
    let _ ← nested.type
  return .verbatim (String.ofList (squeeze text))

/-- A type in argument position. -/
def typeForm (nested : Nested) : Rule Reference :=
  named (inferred <|> verbatimType nested <|> path nested)

def argument (nested : Nested) : Rule Reference :=
  named (inferred <|> lifetime <|> constant <|> bindingArgument nested <|> verbatimType nested <|>
    path nested)

/-- Types and arguments with at most `depth` constructs of the grammar inside one another. -/
def nested : Nat → Nested
  | 0 => ⟨fail, fail⟩
  | depth + 1 => ⟨typeForm (nested depth), argument (nested depth)⟩

/-- Reads a whole text, white space around it allowed. A construct inside another is at least one
character shorter, so the length of the text bounds how deep they go. -/
def readAll {α : Type} (rule : Nested → Rule α) (text : String) : Except PathFault α :=
  let chars := text.toList
  let column := fun rest => chars.length - rest + 1
  let whole : Rule α := do
    ws
    let value ← rule (nested (chars.length + 1))
    ws
    return value
  match whole ⟨chars, none⟩ none with
  | (none, far) => .error (.unexpected (far.elim 0 column))
  | (some (value, cursor), _) =>
    if !cursor.rest.isEmpty then
      .error (.unexpected (column cursor.rest.length))
    else
      match cursor.unsupported with
      | some text => .error (.unsupportedTrait text)
      | none => .ok value

end Grammar

/-- Reads a path. With a resolution given, that is what the whole path resolves to. -/
def Reference.read (text : String) (res : Option Resolution) : Except PathFault Reference :=
  (Grammar.readAll Grammar.path text).map fun ref =>
    match res with
    | some res => ref.withRes res
    | none => ref

/-- Reads a generic argument: a path or any other form of type, a lifetime or a constant. -/
def Reference.readArgument (text : String) : Except PathFault Reference :=
  Grammar.readAll Grammar.argument text

/-- Reads one segment, such as `new` or `Item<T>`. -/
def Segment.read (text : String) : Except PathFault (Segment Reference) :=
  Grammar.readAll Grammar.segment text

end AssocLint
