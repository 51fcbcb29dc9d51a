import AssocLint.Occurrence.Walk

/-!
# Walks that need a scope

`ScopeStack.pop` and `ScopeStack.declare` do nothing where there is no scope. Here they fail
instead, and with them every stretch of a body in which that happens (`CheckedWalk`). Everything
else is as in the walk itself, node by node. So a body of which the checked walk gives the same as
the walk closes no scope and declares no name where no scope is open.
-/

namespace AssocLint

namespace ScopeStack

/-- Closes the innermost scope, of which there must be one. -/
def pop? : ScopeStack → Option ScopeStack
  | [] => none
  | _ :: outer => some outer

/-- Declares a name in the innermost scope, of which there must be one. -/
def declare? (stack : ScopeStack) (name : String) (ty : Option Ty) : Option ScopeStack :=
  match stack with
  | [] => none
  | scope :: outer => some (((name, ty) :: scope) :: outer)

/-- Declares several names in turn, each in a scope that must be there. -/
def declareAll? (stack : ScopeStack) (names : List (String × Option Ty)) : Option ScopeStack :=
  names.foldlM (fun stack (name, ty) => stack.declare? name ty) stack

end ScopeStack

/-- A stretch of a body that fails where a scope is missing. -/
def CheckedWalk : Type :=
  ScopeStack → Option (List Occurrence × ScopeStack)

namespace CheckedWalk

def nothing : CheckedWalk :=
  fun stack => some ([], stack)

def append (first second : CheckedWalk) : CheckedWalk :=
  fun stack => do
    let (before, stack') ← first stack
    let (after, stack'') ← second stack'
    return (before ++ after, stack'')

instance : Append CheckedWalk := ⟨append⟩

/-- Occurrences, which leave the scopes alone. -/
def report (occurrences : List Occurrence) : CheckedWalk :=
  fun stack => some (occurrences, stack)

def inScope (walk : CheckedWalk) : CheckedWalk :=
  fun stack => do
    let (occurrences, stack') ← walk stack.push
    let stack'' ← stack'.pop?
    return (occurrences, stack'')

def declare (names : List (String × Option Ty)) : CheckedWalk :=
  fun stack => (stack.declareAll? names).map ([], ·)

/-- A stretch that depends on a type read off the scopes before it. -/
def withType (read : ScopeStack → Option Ty) (walk : Option Ty → CheckedWalk) : CheckedWalk :=
  fun stack => walk (read stack) stack

end CheckedWalk

section Tree

variable (function : String)

/-- A pattern that is matched with a value of the given type, and then declares its names. -/
def Pattern.walk? (pat : Pattern) (ty : Option Ty) : CheckedWalk :=
  .report (pat.occurrences function ty) ++ .declare (pat.bound ty)

def ClosureParam.walkAll? : List ClosureParam → CheckedWalk
  | [] => .nothing
  | param :: rest =>
    .report (param.ty.elim [] (Ty.occurrences function)) ++ param.pat.walk? function param.ty ++
      walkAll? rest

mutual

def Expr.walk? : Expr → CheckedWalk
  | .lit _ _ => .nothing
  | .macroCall _ _ => .nothing
  | .path ref span => .report (Occurrence.withNested ⟨ref, .expression, span, none, function⟩)
  | .call func args _ => func.walk? ++ walkExprs? args
  | .methodCall receiver _ args _ => receiver.walk? ++ walkExprs? args
  | .struct ref fields base span =>
    .report (Occurrence.withNested ⟨ref, .expression, span, none, function⟩) ++
      walkFields? fields ++ walkOptional? base
  | .matchExpr scrutinee arms _ =>
    scrutinee.walk? ++ .withType (·.typeOf scrutinee) fun ty => walkArms? ty arms
  | .ifExpr cond thenBranch elseBranch _ =>
    .inScope (cond.walk? ++ thenBranch.walk?) ++ walkOptional? elseBranch
  | .letExpr pat init _ =>
    init.walk? ++ .withType (·.typeOf init) fun ty => pat.walk? function ty
  | .loop body _ => body.walk?
  | .whileLoop cond body _ => .inScope (cond.walk? ++ body.walk?)
  | .forLoop pat iter body _ => iter.walk? ++ .inScope (pat.walk? function none ++ body.walk?)
  | .block block _ => block.walk?
  | .closure params body _ => .inScope (ClosureParam.walkAll? function params ++ body.walk?)
  | .cast expr ty _ => expr.walk? ++ .report (ty.occurrences function)
  | .unary _ operand _ => operand.walk?
  | .binary _ lhs rhs _ => lhs.walk? ++ rhs.walk?
  | .field base _ _ => base.walk?
  | .index base index _ => base.walk? ++ index.walk?
  | .tuple elems _ => walkExprs? elems
  | .array elems _ => walkExprs? elems
  | .jump _ value _ => walkOptional? value
termination_by structural expr => expr

def walkExprs? : List Expr → CheckedWalk
  | [] => .nothing
  | expr :: rest => expr.walk? ++ walkExprs? rest
termination_by structural exprs => exprs

def walkOptional? : Option Expr → CheckedWalk
  | none => .nothing
  | some expr => expr.walk?
termination_by structural expr => expr

def walkFields? : List FieldInit → CheckedWalk
  | [] => .nothing
  | ⟨_, value⟩ :: rest => value.walk? ++ walkFields? rest
termination_by structural fields => fields

/-- The arms of a match on a value of the given type, each in a scope of its own. -/
def walkArms? (ty : Option Ty) : List Arm → CheckedWalk
  | [] => .nothing
  | ⟨pat, body, guard, _⟩ :: rest =>
    .inScope (pat.walk? function ty ++ walkOptional? guard ++ body.walk?) ++ walkArms? ty rest
termination_by structural arms => arms

def Block.walk? : Block → CheckedWalk
  | ⟨stmts, tail, _⟩ => .inScope (walkStmts? stmts ++ walkOptional? tail)
termination_by structural block => block

def walkStmts? : List Stmt → CheckedWalk
  | [] => .nothing
  | .itemStmt _ :: rest => walkStmts? rest
  | .exprStmt expr _ :: rest => expr.walk? ++ walkStmts? rest
  | .letStmt pat ty init elseBlock _ :: rest =>
    .report (ty.elim [] (Ty.occurrences function)) ++ walkOptional? init ++
      .withType (fun stack => ty.or (init.bind stack.typeOf)) (fun subject =>
        .report (pat.occurrences function subject) ++ walkElse? elseBlock ++
          .declare (pat.bound subject)) ++
      walkStmts? rest
termination_by structural stmts => stmts

/-- The `else` block of a `let` that may be missing. -/
def walkElse? : Option Block → CheckedWalk
  | none => .nothing
  | some block => block.walk?
termination_by structural block => block

end

def Param.walkAll? : List Param → CheckedWalk
  | [] => .nothing
  | param :: rest => param.pat.walk? function (some param.ty) ++ walkAll? rest

end Tree

def Method.walk? (method : Method) : CheckedWalk :=
  .inScope (Param.walkAll? method.name method.params ++ method.body.walk? method.name)

end AssocLint
