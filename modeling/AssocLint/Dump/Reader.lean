import AssocLint.Dump.Form
import AssocLint.Reference.Grammar
import AssocLint.Sexp.Reader
import AssocLint.Tree.Crate

/-!
# From a dump to its crate

Reads the forms of a dump into the tree. A dump holds one crate:

    (crate "src/lib.rs"
      (suppress notUsingAssociatedType :line 40)
      (impl :span (12 1 250 890) :trait "Trait" :self-ty "Owner"
        (type Associated (path "State"))
        (fn name (param PAT TY) ... (block STMT ...) :ret TY)
        (const NAME TY EXPR))
      (struct State))

Paths are written `(path "State::A" :res variant)`, `(relative "Self" "Associated")` or
`(lang-item Range)`; where a type stands, bare text is a path as well. Path text that the grammar
refuses never makes a dump unreadable: it becomes a language item. A node without `:span` takes the
span of the node around it.

Readers of nested material come in levels: those of one level read the material inside a form with
those of the level below, so as many levels as lists stand inside one another reach every list.
-/

namespace AssocLint
namespace Dump

/-- The readers of the material that may stand inside a form. Each is given the span around it. -/
structure Readers where
  ty : Sexp → Span → DumpResult Ty
  pattern : Sexp → Span → DumpResult Pattern
  expr : Sexp → Span → DumpResult Expr
  block : Sexp → Span → DumpResult Block

/-! ## Paths -/

def pathText (text : String) (res : Option Resolution) : Reference :=
  (Reference.read text res).toOption.getD (.languageItem text)

/-- The reference to a member of the type that a text names; none where either text is refused. -/
def memberText? (base member : String) : Option (Resolution → Reference) := do
  let base ← (Reference.readArgument base).toOption
  let segment ← (Segment.read member).toOption
  return .relative base segment

def resolution (parts : Form.Parts) : DumpResult (Option Resolution) :=
  parts.mapValue "res" fun value =>
    match value.word?.bind Resolution.ofKeyword? with
    | some res => .ok res
    | none => parts.form.fault (.unknownResolution value)

/-- The form of a path, with its span. -/
def readPathForm (form : Form) (outer : Span) : DumpResult (Reference × Span) :=
  match form.head with
  | "path" => do
    let parts ← form.parts ["span", "res"] []
    let text ← form.text (← parts.one)
    let res ← resolution parts
    return (pathText text res, ← parts.span outer)
  | "relative" => do
    let parts ← form.parts ["span", "res"] []
    let (base, member) ← parts.two
    let base ← form.text base
    let member ← form.text member
    match memberText? base member with
    | none => return (.languageItem (base ++ "::" ++ member), ← parts.span outer)
    | some ref =>
      let res ← resolution parts
      return (ref (res.getD .type), ← parts.span outer)
  | "lang-item" => do
    let parts ← form.parts ["span"] []
    let tag ← form.text (← parts.one)
    return (.languageItem tag, ← parts.span outer)
  | head => form.fault (.notPath head)

def readPath (value : Sexp) (outer : Span) : DumpResult (Reference × Span) :=
  match value.word? with
  | some text => .ok (pathText text none, outer)
  | none => do readPathForm (← Form.ofSexp value) outer

/-! ## Types -/

def readRefTy (below : Readers) (form : Form) (outer : Span) : DumpResult Ty := do
  let parts ← form.parts ["span"] ["mut"]
  let inner ← parts.one
  let span ← parts.span outer
  return .ref (← below.ty inner span) (parts.has "mut") span

def readTupleTy (below : Readers) (form : Form) (outer : Span) : DumpResult Ty := do
  let parts ← form.parts ["span"] []
  let span ← parts.span outer
  return .tuple (← parts.positional.mapM (below.ty · span)) span

def readSliceTy (below : Readers) (form : Form) (outer : Span) : DumpResult Ty := do
  let parts ← form.parts ["span"] []
  let elem ← parts.one
  let span ← parts.span outer
  return .slice (← below.ty elem span) span

/-- An array, of whose length no more is kept than a word or an integer. -/
def readArrayTy (below : Readers) (form : Form) (outer : Span) : DumpResult Ty := do
  let parts ← form.parts ["span"] []
  let (elem, length) ← parts.two
  let span ← parts.span outer
  let length :=
    match length with
    | .symbol text | .text text => text
    | .int number => toString number
    | _ => "_"
  return .array (← below.ty elem span) length span

def readOpaqueTy (form : Form) (outer : Span) : DumpResult Ty := do
  let parts ← form.parts ["span"] []
  let text ← form.text (← parts.one)
  return .verbatim text (← parts.span outer)

def readTy (below : Readers) (value : Sexp) (outer : Span) : DumpResult Ty :=
  match value.word? with
  | some text => .ok (.path (pathText text none) outer)
  | none => do
    let form ← Form.ofSexp value
    match form.head with
    | "path" | "relative" | "lang-item" =>
      let (ref, span) ← readPathForm form outer
      return .path ref span
    | "ref" => readRefTy below form outer
    | "tuple" => readTupleTy below form outer
    | "slice" => readSliceTy below form outer
    | "array" => readArrayTy below form outer
    | "infer" => return .infer (← (← form.parts ["span"] []).span outer)
    | "never" => return .never (← (← form.parts ["span"] []).span outer)
    | "opaque" => readOpaqueTy form outer
    | head => form.fault (.unknownType head)

/-! ## Patterns -/

/-- The path that a pattern or a struct literal begins with. Its node takes its own span, or else
that of the path. -/
def readLeadingPath (parts : Form.Parts) (path : Sexp) (outer : Span) :
    DumpResult (Reference × Span) := do
  let (ref, pathSpan) ← readPath path outer
  return (ref, ← parts.span pathSpan)

/-- The form of a named field: its name and what stands for its value. -/
def readField {α : Type} (problem : DumpProblem) (read : Sexp → DumpResult α) (value : Sexp) :
    DumpResult (String × α) := do
  let form ← Form.ofSexp value
  if form.head != "field" then
    form.fault problem
  let (name, content) ← (← form.parts [] []).two
  let name ← form.text name
  return (name, ← read content)

/-- The patterns that a form holds, with its span. -/
def readPatternList (below : Readers) (form : Form) (outer : Span) :
    DumpResult (List Pattern × Span) := do
  let parts ← form.parts ["span"] []
  let span ← parts.span outer
  return (← parts.positional.mapM (below.pattern · span), span)

/-- A pattern that fits anything. Whatever else stands in its form is not looked at. -/
def readWildPat (form : Form) (outer : Span) : DumpResult Pattern :=
  return .wild (← (← form.parts ["span"] []).span outer)

def readBindingPat (below : Readers) (form : Form) (outer : Span) : DumpResult Pattern := do
  let parts ← form.parts ["span"] ["ref", "mut"]
  let (name, sub) ← parts.oneOrTwo
  let span ← parts.span outer
  let sub ← sub.mapM (below.pattern · span)
  return .binding (← form.text name) sub (parts.has "ref") (parts.has "mut") span

def readPathPat (form : Form) (outer : Span) : DumpResult Pattern := do
  let parts ← form.parts ["span"] []
  let (ref, span) ← readLeadingPath parts (← parts.one) outer
  return .path ref span

def readTupleStructPat (below : Readers) (form : Form) (outer : Span) : DumpResult Pattern := do
  let parts ← form.parts ["span"] []
  let (path, elems) ← parts.oneAndRest
  let (ref, span) ← readLeadingPath parts path outer
  return .tupleStruct ref (← elems.mapM (below.pattern · span)) span

def readStructPat (below : Readers) (form : Form) (outer : Span) : DumpResult Pattern := do
  let parts ← form.parts ["span"] ["rest"]
  let (path, fields) ← parts.oneAndRest
  let (ref, span) ← readLeadingPath parts path outer
  let fields ← fields.mapM (readField .notFieldPattern (below.pattern · span))
  return .struct ref (fields.map fun (name, pat) => ⟨name, pat⟩) (parts.has "rest") span

def readOrPat (below : Readers) (form : Form) (outer : Span) : DumpResult Pattern := do
  let (alts, span) ← readPatternList below form outer
  if alts.length < 2 then
    form.fault .fewAlternatives
  return .or alts span

def readRefPat (below : Readers) (form : Form) (outer : Span) : DumpResult Pattern := do
  let parts ← form.parts ["span"] ["mut"]
  let inner ← parts.one
  let span ← parts.span outer
  return .ref (← below.pattern inner span) span

def readLitPat (form : Form) (outer : Span) : DumpResult Pattern := do
  let parts ← form.parts ["span"] []
  let literal ← parts.one
  return .lit literal.plainText (← parts.span outer)

def readPattern (below : Readers) (value : Sexp) (outer : Span) : DumpResult Pattern := do
  let form ← Form.ofSexp value
  match form.head with
  | "wild" => readWildPat form outer
  | "binding" => readBindingPat below form outer
  | "path-pat" => readPathPat form outer
  | "tuple-struct" => readTupleStructPat below form outer
  | "struct-pat" => readStructPat below form outer
  | "tuple-pat" =>
    let (elems, span) ← readPatternList below form outer
    return .tuple elems span
  | "slice-pat" =>
    let (elems, span) ← readPatternList below form outer
    return .slice elems span
  | "or-pat" => readOrPat below form outer
  | "ref-pat" => readRefPat below form outer
  | "lit-pat" => readLitPat form outer
  | head => form.fault (.unknownPattern head)

/-! ## Statements and blocks -/

def readLet (below : Readers) (form : Form) (outer : Span) : DumpResult Stmt := do
  let parts ← form.parts ["span", "ty", "init", "else"] []
  let pat ← parts.one
  let span ← parts.span outer
  let pat ← below.pattern pat span
  let ty ← parts.mapValue "ty" (below.ty · span)
  let init ← parts.mapValue "init" (below.expr · span)
  let elseBlock ← parts.mapValue "else" (below.block · span)
  return .letStmt pat ty init elseBlock span

/-- An expression with a semicolon behind it. -/
def readSemi (below : Readers) (form : Form) (outer : Span) : DumpResult Stmt := do
  let parts ← form.parts ["span"] []
  let expr ← parts.one
  let span ← parts.span outer
  return .exprStmt (← below.expr expr span) span

/-- The heads of forms that are statements in a block. -/
def statementHeads : List String :=
  ["let", "semi", "item"]

/-- A statement with a form of its own. Of a nested item nothing is read. -/
def readStmt (below : Readers) (form : Form) (outer : Span) : DumpResult Stmt :=
  match form.head with
  | "let" => readLet below form outer
  | "semi" => readSemi below form outer
  | _ => return .itemStmt outer

/-- The value of a block, under the span of the block. -/
def readTail (below : Readers) (form : Form) (outer : Span) : DumpResult Expr := do
  below.expr (← (← form.parts [] []).one) outer

/-- The statements of a block and its value. The value is the content of a `tail` form, or the last
item when that is an expression. -/
def readStmts (below : Readers) (span : Span) : List Sexp → DumpResult (List Stmt × Option Expr)
  | [] => .ok ([], none)
  | item :: rest => do
    let form ← Form.ofSexp item
    if form.head == "tail" then
      if !rest.isEmpty then
        form.fault .tailNotLast
      return ([], some (← readTail below form span))
    else if statementHeads.contains form.head then
      let stmt ← readStmt below form span
      let (stmts, tail) ← readStmts below span rest
      return (stmt :: stmts, tail)
    else
      let expr ← below.expr item span
      if rest.isEmpty then
        return ([], some expr)
      else
        let (stmts, tail) ← readStmts below span rest
        return (.exprStmt expr span :: stmts, tail)

def readBlock (below : Readers) (value : Sexp) (outer : Span) : DumpResult Block := do
  let form ← Form.ofSexp value
  if form.head != "block" then
    form.fault (.notBlock form.head)
  let parts ← form.parts ["span"] []
  let span ← parts.span outer
  let (stmts, tail) ← readStmts below span parts.positional
  return ⟨stmts, tail, span⟩

/-! ## Expressions -/

def readArm (below : Readers) (outer : Span) (value : Sexp) : DumpResult Arm := do
  let form ← Form.ofSexp value
  if form.head != "arm" then
    form.fault (.notArm form.head)
  let parts ← form.parts ["span", "guard"] []
  let (pat, body) ← parts.two
  let span ← parts.span outer
  let guard ← parts.mapValue "guard" (below.expr · span)
  let pat ← below.pattern pat span
  return ⟨pat, ← below.expr body span, guard, span⟩

def readClosureParam (below : Readers) (span : Span) (value : Sexp) : DumpResult ClosureParam := do
  let form ← Form.ofSexp value
  if form.head != "cparam" then
    form.fault .notClosureParam
  let (pat, ty) ← (← form.parts [] []).oneOrTwo
  let ty ← ty.mapM (below.ty · span)
  return ⟨← below.pattern pat span, ty⟩

/-- The first value after a word `:span` in the token stream of a macro. -/
def macroSpan? : List Sexp → Option Sexp
  | .symbol ":span" :: value :: _ => some value
  | _ :: rest => macroSpan? rest
  | [] => none

/-- A macro invocation. What follows its name is its token stream, in which only a span counts. -/
def readMacro (form : Form) (outer : Span) : DumpResult Expr :=
  match form.items with
  | [] => form.fault .macroWithoutName
  | name :: tokens => do
    let span ←
      match macroSpan? tokens with
      | none => pure outer
      | some value => form.spanOf outer.file value
    return .macroCall (← form.text name) span

/-- A form with two parts, each of which is read in its own way. -/
def readPair {α β : Type} (first : Sexp → Span → DumpResult α) (second : Sexp → Span → DumpResult β)
    (make : α → β → Span → Expr) (form : Form) (outer : Span) : DumpResult Expr := do
  let parts ← form.parts ["span"] []
  let (a, b) ← parts.two
  let span ← parts.span outer
  let a ← first a span
  return make a (← second b span) span

def readLit (form : Form) (outer : Span) : DumpResult Expr := do
  let parts ← form.parts ["span"] []
  let literal ← parts.one
  return .lit literal.plainText (← parts.span outer)

def readCall (below : Readers) (form : Form) (outer : Span) : DumpResult Expr := do
  let parts ← form.parts ["span"] []
  let (func, args) ← parts.oneAndRest
  let span ← parts.span outer
  let func ← below.expr func span
  return .call func (← args.mapM (below.expr · span)) span

def readMethodCall (below : Readers) (form : Form) (outer : Span) : DumpResult Expr := do
  let parts ← form.parts ["span"] []
  let (receiver, method, args) ← parts.twoAndRest
  let span ← parts.span outer
  let receiver ← below.expr receiver span
  let method ← form.text method
  return .methodCall receiver method (← args.mapM (below.expr · span)) span

/-- A struct literal, with the struct that the fields it leaves out are taken from. -/
def readStructExpr (below : Readers) (form : Form) (outer : Span) : DumpResult Expr := do
  let parts ← form.parts ["span", "base"] []
  let (path, fields) ← parts.oneAndRest
  let (ref, span) ← readLeadingPath parts path outer
  let fields ← fields.mapM (readField .notFieldValue (below.expr · span))
  let base ← parts.mapValue "base" (below.expr · span)
  return .struct ref (fields.map fun (name, value) => ⟨name, value⟩) base span

def readMatch (below : Readers) (form : Form) (outer : Span) : DumpResult Expr := do
  let parts ← form.parts ["span"] []
  let (scrutinee, arms) ← parts.oneAndRest
  let span ← parts.span outer
  let scrutinee ← below.expr scrutinee span
  return .matchExpr scrutinee (← arms.mapM (readArm below span)) span

def readIf (below : Readers) (form : Form) (outer : Span) : DumpResult Expr := do
  let parts ← form.parts ["span"] []
  let (cond, thenBranch, elseBranch) ← parts.twoOrThree
  let span ← parts.span outer
  let elseBranch ← elseBranch.mapM (below.expr · span)
  let cond ← below.expr cond span
  return .ifExpr cond (← below.expr thenBranch span) elseBranch span

def readLoop (below : Readers) (form : Form) (outer : Span) : DumpResult Expr := do
  let parts ← form.parts ["span"] []
  let body ← parts.one
  let span ← parts.span outer
  return .loop (← below.block body span) span

def readFor (below : Readers) (form : Form) (outer : Span) : DumpResult Expr := do
  let parts ← form.parts ["span"] []
  let (pat, iter, body) ← parts.three
  let span ← parts.span outer
  let pat ← below.pattern pat span
  let iter ← below.expr iter span
  return .forLoop pat iter (← below.block body span) span

/-- A closure, whose last item is its body. -/
def readClosure (below : Readers) (form : Form) (outer : Span) : DumpResult Expr := do
  let parts ← form.parts ["span"] []
  match parts.positional.getLast? with
  | none => parts.wrongCount 1 1
  | some body =>
    let span ← parts.span outer
    let params ← parts.positional.dropLast.mapM (readClosureParam below span)
    return .closure params (← below.expr body span) span

def readUnary (below : Readers) (form : Form) (outer : Span) : DumpResult Expr := do
  let parts ← form.parts ["span"] []
  let (op, operand) ← parts.two
  let span ← parts.span outer
  let op ← form.text op
  return .unary op (← below.expr operand span) span

def readBinary (below : Readers) (form : Form) (outer : Span) : DumpResult Expr := do
  let parts ← form.parts ["span"] []
  let (op, lhs, rhs) ← parts.three
  let span ← parts.span outer
  let op ← form.text op
  let lhs ← below.expr lhs span
  return .binary op lhs (← below.expr rhs span) span

def readFieldExpr (below : Readers) (form : Form) (outer : Span) : DumpResult Expr := do
  let parts ← form.parts ["span"] []
  let (base, name) ← parts.two
  let span ← parts.span outer
  let base ← below.expr base span
  return .field base (← form.text name) span

/-- The expressions that a form holds, put together with its span. -/
def readExprList (below : Readers) (make : List Expr → Span → Expr) (form : Form) (outer : Span) :
    DumpResult Expr := do
  let parts ← form.parts ["span"] []
  let span ← parts.span outer
  return make (← parts.positional.mapM (below.expr · span)) span

/-- A jump, which may take a value along or may not. -/
def readJump (below : Readers) (withValue : Bool) (form : Form) (outer : Span) :
    DumpResult Expr := do
  let parts ← form.parts ["span"] []
  let value ← parts.atMostOne withValue
  let span ← parts.span outer
  return .jump form.head (← value.mapM (below.expr · span)) span

def readExpr (below : Readers) (value : Sexp) (outer : Span) : DumpResult Expr := do
  let form ← Form.ofSexp value
  match form.head with
  | "path" | "relative" | "lang-item" =>
    let (ref, span) ← readPathForm form outer
    return .path ref span
  | "block" =>
    let block ← readBlock below value outer
    return .block block block.span
  | "lit" => readLit form outer
  | "call" => readCall below form outer
  | "method-call" => readMethodCall below form outer
  | "struct-expr" => readStructExpr below form outer
  | "match" => readMatch below form outer
  | "if" => readIf below form outer
  | "let-expr" => readPair below.pattern below.expr .letExpr form outer
  | "loop" => readLoop below form outer
  | "while" => readPair below.expr below.block .whileLoop form outer
  | "for" => readFor below form outer
  | "closure" => readClosure below form outer
  | "cast" => readPair below.expr below.ty .cast form outer
  | "unary" => readUnary below form outer
  | "binary" => readBinary below form outer
  | "field" => readFieldExpr below form outer
  | "index" => readPair below.expr below.expr .index form outer
  | "tuple-expr" => readExprList below .tuple form outer
  | "array-expr" => readExprList below .array form outer
  | "return" | "break" => readJump below true form outer
  | "continue" => readJump below false form outer
  | "macro" => readMacro form outer
  | head => form.fault (.unknownExpr head)

/-! ## Levels -/

def noReaders : Readers where
  ty value _ := .error ⟨.untagged value, value.line?⟩
  pattern value _ := .error ⟨.untagged value, value.line?⟩
  expr value _ := .error ⟨.untagged value, value.line?⟩
  block value _ := .error ⟨.untagged value, value.line?⟩

/-- The readers of one level, given those of the level below. -/
def readersAbove (below : Readers) : Readers where
  ty := readTy below
  pattern := readPattern below
  expr := readExpr below
  block := readBlock below

def readers : Nat → Readers
  | 0 => noReaders
  | level + 1 => readersAbove (readers level)

/-! ## Implementation blocks and crates -/

def readParam (below : Readers) (outer : Span) (value : Sexp) : DumpResult Param := do
  let form ← Form.ofSexp value
  if form.head != "param" then
    form.fault (.notParam form.head)
  let parts ← form.parts ["span"] []
  let (pat, ty) ← parts.two
  let span ← parts.span outer
  let pat ← below.pattern pat span
  return ⟨pat, ← below.ty ty span, span⟩

def readAssocType (below : Readers) (form : Form) (outer : Span) : DumpResult AssocType := do
  let parts ← form.parts ["span"] []
  let (name, ty) ← parts.two
  let span ← parts.span outer
  let name ← form.text name
  return ⟨name, ← below.ty ty span, span⟩

/-- A method, which ends with its body. -/
def readMethod (below : Readers) (form : Form) (outer : Span) : DumpResult Method := do
  let parts ← form.parts ["span", "ret"] []
  let (name, second, rest) ← parts.twoAndRest
  let span ← parts.span outer
  let name ← form.text name
  let body := (second :: rest).getLast?.getD second
  if body.line?.isNone then
    form.fault (.missingBody name)
  if (← Form.ofSexp body).head != "block" then
    form.fault (.missingBody name)
  let params ← (second :: rest).dropLast.mapM (readParam below span)
  let ret ← parts.mapValue "ret" (below.ty · span)
  return ⟨name, params, ← below.block body span, ret, span⟩

def readAssocConst (below : Readers) (form : Form) (outer : Span) : DumpResult AssocConst := do
  let parts ← form.parts ["span"] []
  let (name, ty, value) ← parts.twoOrThree
  let span ← parts.span outer
  let value ← value.mapM (below.expr · span)
  let name ← form.text name
  return ⟨name, ← below.ty ty span, value, span⟩

def readImplItem (below : Readers) (outer : Span) (value : Sexp) : DumpResult ImplItem := do
  let form ← Form.ofSexp value
  match form.head with
  | "type" => return .assocType (← readAssocType below form outer)
  | "fn" => return .method (← readMethod below form outer)
  | "const" => return .assocConst (← readAssocConst below form outer)
  | head => form.fault (.unknownMember head)

def readImpl (below : Readers) (file : String) (form : Form) : DumpResult ImplBlock := do
  let parts ← form.parts ["span", "trait", "self-ty"] []
  let span ← parts.span { file }
  let traitRef ← parts.mapValue "trait" fun value => return pathText (← form.text value) none
  let selfTy ← parts.mapValue "self-ty" (below.ty · span)
  let items ← parts.positional.mapM (readImplItem below span)
  return ⟨items, traitRef, selfTy, span⟩

def readMark (file : String) (form : Form) : DumpResult SuppressionMark := do
  let parts ← form.parts ["line", "file"] []
  let id ← parts.one
  match parts.value? "line" with
  | none => form.fault .markWithoutLine
  | some line =>
    let file ← (← parts.mapValue "file" form.text).elim (pure file) pure
    let id ← form.text id
    return { id, file, line := ← form.int line }

/-- The items of a crate besides implementation blocks and marks. -/
def otherItems : List String :=
  ["struct", "enum", "union", "trait", "fn", "mod", "use", "static", "const", "type", "extern",
    "macro"]

/-- Adds the items of a crate, in order, to the blocks and marks after them. -/
def readItems (below : Readers) (file : String) :
    List Sexp → DumpResult (List ImplBlock × List SuppressionMark)
  | [] => .ok ([], [])
  | item :: rest => do
    let form ← Form.ofSexp item
    if form.head == "impl" then
      let block ← readImpl below file form
      let (blocks, marks) ← readItems below file rest
      return (block :: blocks, marks)
    else if form.head == "suppress" then
      let mark ← readMark file form
      let (blocks, marks) ← readItems below file rest
      return (blocks, mark :: marks)
    else if otherItems.contains form.head then
      readItems below file rest
    else
      form.fault (.unknownItem form.head)

def readCrate : List Sexp → DumpResult Crate
  | [] => .error ⟨.empty, none⟩
  | [value] => do
    let form ← Form.ofSexp value
    if form.head != "crate" then
      form.fault (.notCrate form.head)
    let parts ← form.parts [] []
    let (file, items) ← parts.oneAndRest
    let file ← form.text file
    let (impls, marks) ← readItems (readers value.depth) file items
    return ⟨file, impls, marks⟩
  | _ :: value :: _ => .error ⟨.severalForms, value.line?⟩

/-- The values of a dump. Text that is none is at fault at the line of a parenthesis without
partner, or else at its first line. -/
def readValues (text : String) : DumpResult (List Sexp) :=
  match Sexp.readAll? text with
  | some values => .ok values
  | none =>
    let line := Parenthesis.culprit (Parenthesis.ofChars text.toList)
    .error ⟨.malformed, some (line.getD 1)⟩

end Dump

/-- The crate that a dump writes. The name of the dump stands in failures. -/
def Crate.ofDump (text name : String) : Except Failure Crate :=
  (Dump.readValues text >>= Dump.readCrate).mapError (DumpFault.toFailure name)

end AssocLint
