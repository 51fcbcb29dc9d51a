import AssocLint.Occurrence.Walk
import AssocLint.Proofs.Suggestion.Route

/-!
# Following suggestions

A `Plan` says at which occurrences of a block a path is to be written through which associated
type. `ImplBlock.follow` rewrites the bodies of a block by a plan.

Occurrences go by their numbers, in the order of the walk. Rewriting therefore visits a body in that
order and counts the occurrences it comes by, those inside paths and types included.
-/

namespace AssocLint

/-- The associated types through which the paths of a block are to be written, by the number of the
occurrence. -/
def Plan : Type :=
  Nat → Option String

/-- How many occurrences the use of a path is. -/
def Reference.uses (ref : Reference) : Nat :=
  ref.nested.length + 1

/-- How many occurrences there are in a type. -/
def Ty.uses (ty : Ty) : Nat :=
  (ty.paths.flatMap fun (written, _) => written :: written.nested).length

namespace Plan

/-- A pass over a body that has a number for each occurrence that it comes by. -/
abbrev Pass : Type → Type :=
  StateM Nat

/-- Passes over a number of occurrences. -/
def skip (count : Nat) : Pass Unit :=
  modify (· + count)

/-- Passes over a path, which is written as planned for its own occurrence. -/
def write (plan : Plan) (ref : Reference) : Pass Reference := do
  let number ← get
  skip ref.uses
  return (plan number).elim ref ref.throughAssociated

end Plan

/-! ## Patterns -/

mutual

def Pattern.follow (plan : Plan) : Pattern → Plan.Pass Pattern
  | .wild span => return .wild span
  | .lit text span => return .lit text span
  | .binding name none byRef mutable span => return .binding name none byRef mutable span
  | .binding name (some sub) byRef mutable span =>
    return .binding name (some (← sub.follow plan)) byRef mutable span
  | .path ref span => return .path (← plan.write ref) span
  | .tupleStruct ref elems span =>
    return .tupleStruct (← plan.write ref) (← followPatterns plan elems) span
  | .struct ref fields rest span =>
    return .struct (← plan.write ref) (← followFieldPatterns plan fields) rest span
  | .tuple elems span => return .tuple (← followPatterns plan elems) span
  | .slice elems span => return .slice (← followPatterns plan elems) span
  | .ref inner span => return .ref (← inner.follow plan) span
  | .or alts span => return .or (← followPatterns plan alts) span
termination_by structural pat => pat

def followPatterns (plan : Plan) : List Pattern → Plan.Pass (List Pattern)
  | [] => return []
  | pat :: rest => return (← pat.follow plan) :: (← followPatterns plan rest)
termination_by structural pats => pats

def followFieldPatterns (plan : Plan) : List FieldPattern → Plan.Pass (List FieldPattern)
  | [] => return []
  | ⟨name, pat⟩ :: rest => return ⟨name, ← pat.follow plan⟩ :: (← followFieldPatterns plan rest)
termination_by structural fields => fields

end

/-! ## Expressions -/

/-- The type of a parameter stands before its pattern. -/
def ClosureParam.follow (plan : Plan) (param : ClosureParam) : Plan.Pass ClosureParam := do
  Plan.skip (param.ty.elim 0 Ty.uses)
  return { param with pat := ← param.pat.follow plan }

def ClosureParam.followAll (plan : Plan) : List ClosureParam → Plan.Pass (List ClosureParam)
  | [] => return []
  | param :: rest => return (← param.follow plan) :: (← followAll plan rest)

mutual

def Expr.follow (plan : Plan) : Expr → Plan.Pass Expr
  | .lit text span => return .lit text span
  | .macroCall name span => return .macroCall name span
  | .path ref span => return .path (← plan.write ref) span
  | .call func args span => return .call (← func.follow plan) (← followExprs plan args) span
  | .methodCall receiver method args span =>
    return .methodCall (← receiver.follow plan) method (← followExprs plan args) span
  | .struct ref fields base span =>
    return .struct (← plan.write ref) (← followFields plan fields) (← followOptional plan base) span
  | .matchExpr scrutinee arms span =>
    return .matchExpr (← scrutinee.follow plan) (← followArms plan arms) span
  | .ifExpr cond thenBranch elseBranch span =>
    return .ifExpr (← cond.follow plan) (← thenBranch.follow plan)
      (← followOptional plan elseBranch) span
  | .letExpr pat init span => do
    let init' ← init.follow plan
    return .letExpr (← pat.follow plan) init' span
  | .loop body span => return .loop (← body.follow plan) span
  | .whileLoop cond body span =>
    return .whileLoop (← cond.follow plan) (← body.follow plan) span
  | .forLoop pat iter body span => do
    let iter' ← iter.follow plan
    return .forLoop (← pat.follow plan) iter' (← body.follow plan) span
  | .block block span => return .block (← block.follow plan) span
  | .closure params body span =>
    return .closure (← ClosureParam.followAll plan params) (← body.follow plan) span
  | .cast expr ty span => do
    let expr' ← expr.follow plan
    Plan.skip ty.uses
    return .cast expr' ty span
  | .unary op operand span => return .unary op (← operand.follow plan) span
  | .binary op lhs rhs span => return .binary op (← lhs.follow plan) (← rhs.follow plan) span
  | .field base name span => return .field (← base.follow plan) name span
  | .index base index span => return .index (← base.follow plan) (← index.follow plan) span
  | .tuple elems span => return .tuple (← followExprs plan elems) span
  | .array elems span => return .array (← followExprs plan elems) span
  | .jump keyword value span => return .jump keyword (← followOptional plan value) span
termination_by structural expr => expr

def followExprs (plan : Plan) : List Expr → Plan.Pass (List Expr)
  | [] => return []
  | expr :: rest => return (← expr.follow plan) :: (← followExprs plan rest)
termination_by structural exprs => exprs

def followOptional (plan : Plan) : Option Expr → Plan.Pass (Option Expr)
  | none => return none
  | some expr => return some (← expr.follow plan)
termination_by structural expr => expr

def followFields (plan : Plan) : List FieldInit → Plan.Pass (List FieldInit)
  | [] => return []
  | ⟨name, value⟩ :: rest => return ⟨name, ← value.follow plan⟩ :: (← followFields plan rest)
termination_by structural fields => fields

/-- The guard of an arm stands before its body. -/
def followArms (plan : Plan) : List Arm → Plan.Pass (List Arm)
  | [] => return []
  | ⟨pat, body, guard, span⟩ :: rest => do
    let pat' ← pat.follow plan
    let guard' ← followOptional plan guard
    return ⟨pat', ← body.follow plan, guard', span⟩ :: (← followArms plan rest)
termination_by structural arms => arms

def Block.follow (plan : Plan) : Block → Plan.Pass Block
  | ⟨stmts, tail, span⟩ => return ⟨← followStmts plan stmts, ← followOptional plan tail, span⟩
termination_by structural block => block

/-- The type of a `let` and its initial value stand before its pattern. -/
def followStmts (plan : Plan) : List Stmt → Plan.Pass (List Stmt)
  | [] => return []
  | .itemStmt span :: rest => return .itemStmt span :: (← followStmts plan rest)
  | .exprStmt expr span :: rest =>
    return .exprStmt (← expr.follow plan) span :: (← followStmts plan rest)
  | .letStmt pat ty init elseBlock span :: rest => do
    Plan.skip (ty.elim 0 Ty.uses)
    let init' ← followOptional plan init
    let pat' ← pat.follow plan
    return .letStmt pat' ty init' (← followElse plan elseBlock) span :: (← followStmts plan rest)
termination_by structural stmts => stmts

def followElse (plan : Plan) : Option Block → Plan.Pass (Option Block)
  | none => return none
  | some block => return some (← block.follow plan)
termination_by structural block => block

end

/-! ## Blocks -/

def Param.followAll (plan : Plan) : List Param → Plan.Pass (List Param)
  | [] => return []
  | param :: rest =>
    return { param with pat := ← param.pat.follow plan } :: (← followAll plan rest)

def Method.follow (plan : Plan) (method : Method) : Plan.Pass Method :=
  return { method with
    params := ← Param.followAll plan method.params
    body := ← method.body.follow plan }

/-- The numbers run on from one method to the next. -/
def ImplItem.followAll (plan : Plan) : List ImplItem → Plan.Pass (List ImplItem)
  | [] => return []
  | .method item :: rest => return .method (← item.follow plan) :: (← followAll plan rest)
  | item :: rest => return item :: (← followAll plan rest)

/-- A block with the paths in its methods written as planned. -/
def ImplBlock.follow (plan : Plan) (block : ImplBlock) : ImplBlock :=
  { block with items := ((ImplItem.followAll plan block.items).run 0).1 }

end AssocLint
