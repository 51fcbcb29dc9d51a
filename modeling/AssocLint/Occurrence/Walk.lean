import AssocLint.Occurrence
import AssocLint.Scope
import AssocLint.Tree.Crate

/-!
# Walking the body of a method

`Method.occurrences` lists the occurrences in a method, in source order:

* in the patterns of parameters, arms, conditions, statements, loops and closures, each with the
  type of the matched value as far as declarations tell it;
* in the types of statements, closure parameters and casts;
* in struct literals and path expressions.

The types of parameters belong to the signature; nested items and macro invocations are not entered.

A `Walk` is one stretch of a body: it starts with the scopes around it and ends with the
occurrences in it and the scopes after it.
-/

namespace AssocLint

/-- A stretch of a body. -/
def Walk : Type :=
  ScopeStack → List Occurrence × ScopeStack

namespace Walk

def nothing : Walk :=
  fun stack => ([], stack)

def append (first second : Walk) : Walk :=
  fun stack =>
    let (before, stack') := first stack
    let (after, stack'') := second stack'
    (before ++ after, stack'')

instance : Append Walk := ⟨append⟩

/-- Occurrences, which leave the scopes alone. -/
def report (occurrences : List Occurrence) : Walk :=
  fun stack => (occurrences, stack)

def inScope (walk : Walk) : Walk :=
  fun stack =>
    let (occurrences, stack') := walk stack.push
    (occurrences, stack'.pop)

def declare (names : List (String × Option Ty)) : Walk :=
  fun stack => ([], stack.declareAll names)

/-- A stretch that depends on a type read off the scopes before it. -/
def withType (read : ScopeStack → Option Ty) (walk : Option Ty → Walk) : Walk :=
  fun stack => walk (read stack) stack

end Walk

namespace Pattern

mutual

/-- The occurrences in a pattern that is matched with a value of the given type. -/
def occurrences (function : String) : Pattern → Option Ty → List Occurrence
  | .wild _, _ => []
  | .lit _ _, _ => []
  | .binding _ none _ _ _, _ => []
  | .binding _ (some sub) _ _ _, ty => sub.occurrences function ty
  | .path written span, ty => Occurrence.withNested ⟨written, .pattern, span, ty, function⟩
  | .tupleStruct written elems span, ty =>
    Occurrence.withNested ⟨written, .pattern, span, ty, function⟩ ++
      occurrencesAll function elems (List.replicate elems.length none)
  | .struct written fields _ span, ty =>
    Occurrence.withNested ⟨written, .pattern, span, ty, function⟩ ++ occurrencesFields function fields
  | .tuple elems _, ty => occurrencesAll function elems (Ty.tupleElems ty elems.length)
  | .slice elems _, _ => occurrencesAll function elems (List.replicate elems.length none)
  | .ref inner _, ty => inner.occurrences function (ty.map Ty.deref)
  | .or alts _, ty => occurrencesAll function alts (List.replicate alts.length ty)
termination_by structural pat => pat

/-- The occurrences in patterns, each matched with a value of its own type. -/
def occurrencesAll (function : String) : List Pattern → List (Option Ty) → List Occurrence
  | pat :: pats, ty :: tys => pat.occurrences function ty ++ occurrencesAll function pats tys
  | _, _ => []
termination_by structural pats => pats

def occurrencesFields (function : String) : List FieldPattern → List Occurrence
  | [] => []
  | ⟨_, pat⟩ :: rest => pat.occurrences function none ++ occurrencesFields function rest
termination_by structural fields => fields

end

/-- A pattern that is matched with a value of the given type, and then declares its names. -/
def walk (function : String) (pat : Pattern) (ty : Option Ty) : Walk :=
  .report (pat.occurrences function ty) ++ .declare (pat.bound ty)

end Pattern

/-- A parameter of a closure: its type, then its pattern. -/
def ClosureParam.walk (function : String) (param : ClosureParam) : Walk :=
  .report (param.ty.elim [] (Ty.occurrences function)) ++ param.pat.walk function param.ty

def ClosureParam.walkAll (function : String) : List ClosureParam → Walk
  | [] => .nothing
  | param :: rest => param.walk function ++ walkAll function rest

mutual

def Expr.walk (function : String) : Expr → Walk
  | .lit _ _ => .nothing
  | .macroCall _ _ => .nothing
  | .path ref span => .report (Occurrence.withNested ⟨ref, .expression, span, none, function⟩)
  | .call func args _ => func.walk function ++ walkExprs function args
  | .methodCall receiver _ args _ => receiver.walk function ++ walkExprs function args
  | .struct ref fields base span =>
    .report (Occurrence.withNested ⟨ref, .expression, span, none, function⟩) ++
      walkFields function fields ++ walkOptional function base
  | .matchExpr scrutinee arms _ =>
    scrutinee.walk function ++ .withType (·.typeOf scrutinee) fun ty => walkArms function ty arms
  | .ifExpr cond thenBranch elseBranch _ =>
    .inScope (cond.walk function ++ thenBranch.walk function) ++ walkOptional function elseBranch
  | .letExpr pat init _ => init.walk function ++ .withType (·.typeOf init) fun ty => pat.walk function ty
  | .loop body _ => body.walk function
  | .whileLoop cond body _ => .inScope (cond.walk function ++ body.walk function)
  | .forLoop pat iter body _ =>
    iter.walk function ++ .inScope (pat.walk function none ++ body.walk function)
  | .block block _ => block.walk function
  | .closure params body _ => .inScope (ClosureParam.walkAll function params ++ body.walk function)
  | .cast expr ty _ => expr.walk function ++ .report (ty.occurrences function)
  | .unary _ operand _ => operand.walk function
  | .binary _ lhs rhs _ => lhs.walk function ++ rhs.walk function
  | .field base _ _ => base.walk function
  | .index base index _ => base.walk function ++ index.walk function
  | .tuple elems _ => walkExprs function elems
  | .array elems _ => walkExprs function elems
  | .jump _ value _ => walkOptional function value
termination_by structural expr => expr

def walkExprs (function : String) : List Expr → Walk
  | [] => .nothing
  | expr :: rest => expr.walk function ++ walkExprs function rest
termination_by structural exprs => exprs

def walkOptional (function : String) : Option Expr → Walk
  | none => .nothing
  | some expr => expr.walk function
termination_by structural expr => expr

def walkFields (function : String) : List FieldInit → Walk
  | [] => .nothing
  | ⟨_, value⟩ :: rest => value.walk function ++ walkFields function rest
termination_by structural fields => fields

/-- The arms of a match on a value of the given type, each in a scope of its own. -/
def walkArms (function : String) (ty : Option Ty) : List Arm → Walk
  | [] => .nothing
  | ⟨pat, body, guard, _⟩ :: rest =>
    .inScope (pat.walk function ty ++ walkOptional function guard ++ body.walk function) ++
      walkArms function ty rest
termination_by structural arms => arms

def Block.walk (function : String) : Block → Walk
  | ⟨stmts, tail, _⟩ => .inScope (walkStmts function stmts ++ walkOptional function tail)
termination_by structural block => block

/-- Statements, one after another. The names of a `let` are declared after its `else` block. -/
def walkStmts (function : String) : List Stmt → Walk
  | [] => .nothing
  | .itemStmt _ :: rest => walkStmts function rest
  | .exprStmt expr _ :: rest => expr.walk function ++ walkStmts function rest
  | .letStmt pat ty init elseBlock _ :: rest =>
    .report (ty.elim [] (Ty.occurrences function)) ++ walkOptional function init ++
      .withType (fun stack => ty.or (init.bind stack.typeOf)) (fun subject =>
        .report (pat.occurrences function subject) ++ walkElse function elseBlock ++
          .declare (pat.bound subject)) ++
      walkStmts function rest
termination_by structural stmts => stmts

/-- The `else` block of a `let` that may be missing. -/
def walkElse (function : String) : Option Block → Walk
  | none => .nothing
  | some block => block.walk function
termination_by structural block => block

end

/-- Parameters of a method, one after another. Their types are part of its signature. -/
def Param.walkAll (function : String) : List Param → Walk
  | [] => .nothing
  | param :: rest => param.pat.walk function (some param.ty) ++ walkAll function rest

/-- A whole method, in a scope of its own. -/
def Method.walk (method : Method) : Walk :=
  .inScope (Param.walkAll method.name method.params ++ method.body.walk method.name)

def Method.occurrences (method : Method) : List Occurrence :=
  (method.walk []).1

end AssocLint
