import AssocLint.Tree.Pattern
import AssocLint.Tree.Type

/-!
# Expressions, statements and blocks of the tree
-/

namespace AssocLint

/-- A parameter of a closure, whose type may be left out. -/
structure ClosureParam where
  pat : Pattern
  ty : Option Ty := none

mutual

inductive Expr where
  | path (ref : Reference) (span : Span)
  | lit (text : String) (span : Span)
  | call (func : Expr) (args : List Expr) (span : Span)
  | methodCall (receiver : Expr) (method : String) (args : List Expr) (span : Span)
  | struct (ref : Reference) (fields : List FieldInit) (base : Option Expr) (span : Span)
  | matchExpr (scrutinee : Expr) (arms : List Arm) (span : Span)
  | ifExpr (cond thenBranch : Expr) (elseBranch : Option Expr) (span : Span)
  /-- The condition `let PAT = INIT`. -/
  | letExpr (pat : Pattern) (init : Expr) (span : Span)
  | loop (body : Block) (span : Span)
  | whileLoop (cond : Expr) (body : Block) (span : Span)
  | forLoop (pat : Pattern) (iter : Expr) (body : Block) (span : Span)
  | block (block : Block) (span : Span)
  | closure (params : List ClosureParam) (body : Expr) (span : Span)
  | cast (expr : Expr) (ty : Ty) (span : Span)
  /-- An operator before its operand, such as `&`, `&mut`, `*`, `-` or `!`. -/
  | unary (op : String) (operand : Expr) (span : Span)
  | binary (op : String) (lhs rhs : Expr) (span : Span)
  | field (base : Expr) (name : String) (span : Span)
  | index (base index : Expr) (span : Span)
  | tuple (elems : List Expr) (span : Span)
  | array (elems : List Expr) (span : Span)
  /-- A `return`, `break` or `continue`, with the value that it carries. -/
  | jump (keyword : String) (value : Option Expr) (span : Span)
  /-- A macro invocation; what it expands to is not looked at. -/
  | macroCall (name : String) (span : Span)

/-- The value of a named field in a struct literal. -/
structure FieldInit where
  name : String
  value : Expr

structure Arm where
  pat : Pattern
  body : Expr
  guard : Option Expr
  span : Span

/-- A block of statements with the expression that is its value. -/
structure Block where
  stmts : List Stmt
  tail : Option Expr
  span : Span

inductive Stmt where
  | letStmt (pat : Pattern) (ty : Option Ty) (init : Option Expr) (elseBlock : Option Block)
      (span : Span)
  | exprStmt (expr : Expr) (span : Span)
  /-- A nested item, which is not looked at. -/
  | itemStmt (span : Span)

end

end AssocLint
