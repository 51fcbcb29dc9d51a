import AssocLint.Scope
import AssocLint.Tree.Crate

/-!
# Renaming local variables

`rename` gives other names to the local variables of a tree: where a pattern binds them, and where
an expression is nothing but such a name. Names of fields, types, methods and members stay, and so
do paths in patterns and types, which name no local variable.
-/

namespace AssocLint

variable (f : String → String)

/-- A path that is a local name, under its other name; any other path is itself. -/
def Reference.renameLocal : Reference → Reference
  | .resolved none [⟨name, args⟩] .localVar => .resolved none [⟨f name, args⟩] .localVar
  | ref => ref

/-! ## Patterns -/

mutual

def Pattern.rename : Pattern → Pattern
  | .wild span => .wild span
  | .binding name none byRef mutable span => .binding (f name) none byRef mutable span
  | .binding name (some sub) byRef mutable span =>
    .binding (f name) (some sub.rename) byRef mutable span
  | .path ref span => .path ref span
  | .tupleStruct ref elems span => .tupleStruct ref (renamePatterns elems) span
  | .struct ref fields rest span => .struct ref (renameFieldPatterns fields) rest span
  | .tuple elems span => .tuple (renamePatterns elems) span
  | .slice elems span => .slice (renamePatterns elems) span
  | .ref inner span => .ref inner.rename span
  | .or alts span => .or (renamePatterns alts) span
  | .lit text span => .lit text span
termination_by structural pat => pat

def renamePatterns : List Pattern → List Pattern
  | [] => []
  | pat :: rest => pat.rename :: renamePatterns rest
termination_by structural pats => pats

def renameFieldPatterns : List FieldPattern → List FieldPattern
  | [] => []
  | ⟨name, pat⟩ :: rest => ⟨name, pat.rename⟩ :: renameFieldPatterns rest
termination_by structural fields => fields

end

/-! ## Expressions -/

def ClosureParam.rename (param : ClosureParam) : ClosureParam :=
  { param with pat := param.pat.rename f }

mutual

/-- An expression about the local variables under their other names. -/
def Expr.rename : Expr → Expr
  | .path ref span => .path (ref.renameLocal f) span
  | .lit text span => .lit text span
  | .call func args span => .call func.rename (renameExprs args) span
  | .methodCall receiver method args span =>
    .methodCall receiver.rename method (renameExprs args) span
  | .struct ref fields base span => .struct ref (renameFields fields) (renameOptional base) span
  | .matchExpr scrutinee arms span => .matchExpr scrutinee.rename (renameArms arms) span
  | .ifExpr cond thenBranch elseBranch span =>
    .ifExpr cond.rename thenBranch.rename (renameOptional elseBranch) span
  | .letExpr pat init span => .letExpr (pat.rename f) init.rename span
  | .loop body span => .loop body.rename span
  | .whileLoop cond body span => .whileLoop cond.rename body.rename span
  | .forLoop pat iter body span => .forLoop (pat.rename f) iter.rename body.rename span
  | .block block span => .block block.rename span
  | .closure params body span => .closure (params.map (ClosureParam.rename f)) body.rename span
  | .cast expr ty span => .cast expr.rename ty span
  | .unary op operand span => .unary op operand.rename span
  | .binary op lhs rhs span => .binary op lhs.rename rhs.rename span
  | .field base name span => .field base.rename name span
  | .index base index span => .index base.rename index.rename span
  | .tuple elems span => .tuple (renameExprs elems) span
  | .array elems span => .array (renameExprs elems) span
  | .jump keyword value span => .jump keyword (renameOptional value) span
  | .macroCall name span => .macroCall name span
termination_by structural expr => expr

def renameExprs : List Expr → List Expr
  | [] => []
  | expr :: rest => expr.rename :: renameExprs rest
termination_by structural exprs => exprs

def renameOptional : Option Expr → Option Expr
  | none => none
  | some expr => some expr.rename
termination_by structural expr => expr

def renameFields : List FieldInit → List FieldInit
  | [] => []
  | ⟨name, value⟩ :: rest => ⟨name, value.rename⟩ :: renameFields rest
termination_by structural fields => fields

def renameArms : List Arm → List Arm
  | [] => []
  | ⟨pat, body, guard, span⟩ :: rest =>
    ⟨pat.rename f, body.rename, renameOptional guard, span⟩ :: renameArms rest
termination_by structural arms => arms

/-- A block about the local variables under their other names. -/
def Block.rename : Block → Block
  | ⟨stmts, tail, span⟩ => ⟨renameStmts stmts, renameOptional tail, span⟩
termination_by structural block => block

def renameStmts : List Stmt → List Stmt
  | [] => []
  | .letStmt pat ty init elseBlock span :: rest =>
    .letStmt (pat.rename f) ty (renameOptional init) (renameElse elseBlock) span ::
      renameStmts rest
  | .exprStmt expr span :: rest => .exprStmt expr.rename span :: renameStmts rest
  | .itemStmt span :: rest => .itemStmt span :: renameStmts rest
termination_by structural stmts => stmts

def renameElse : Option Block → Option Block
  | none => none
  | some block => some block.rename
termination_by structural block => block

end

/-! ## Methods and scopes -/

def Param.rename (param : Param) : Param :=
  { param with pat := param.pat.rename f }

def Method.rename (method : Method) : Method :=
  { method with params := method.params.map (Param.rename f), body := method.body.rename f }

def Scope.rename (names : Scope) : Scope :=
  names.map fun (name, ty) => (f name, ty)

def ScopeStack.rename (stack : ScopeStack) : ScopeStack :=
  stack.map (Scope.rename f)

end AssocLint
