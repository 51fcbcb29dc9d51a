import AssocLint.Occurrence
import AssocLint.Proofs.Binding.Distinct

/-!
# The references in a tree

`Crate.references` lists every path that a crate is written with: in its patterns and expressions,
in its types, those of signatures and implementation blocks included, and the traits that its blocks
implement. What stands inside a path is not listed apart from it; `Reference.nodes` tells it.

The walk over the bodies of methods meets fewer paths, since signatures are no part of it.
-/

namespace AssocLint

def Ty.references (ty : Ty) : List Reference :=
  ty.paths.map (·.1)

/-! ## Patterns -/

mutual

def Pattern.references : Pattern → List Reference
  | .wild _ => []
  | .lit _ _ => []
  | .binding _ none _ _ _ => []
  | .binding _ (some sub) _ _ _ => sub.references
  | .path ref _ => [ref]
  | .tupleStruct ref elems _ => ref :: Pattern.referencesAll elems
  | .struct ref fields _ _ => ref :: FieldPattern.referencesAll fields
  | .tuple elems _ => Pattern.referencesAll elems
  | .slice elems _ => Pattern.referencesAll elems
  | .ref inner _ => inner.references
  | .or alts _ => Pattern.referencesAll alts
termination_by structural pat => pat

def Pattern.referencesAll : List Pattern → List Reference
  | [] => []
  | pat :: rest => pat.references ++ Pattern.referencesAll rest
termination_by structural pats => pats

def FieldPattern.referencesAll : List FieldPattern → List Reference
  | [] => []
  | ⟨_, pat⟩ :: rest => pat.references ++ FieldPattern.referencesAll rest
termination_by structural fields => fields

end

/-! ## Expressions -/

def ClosureParam.references (param : ClosureParam) : List Reference :=
  param.pat.references ++ param.ty.elim [] Ty.references

mutual

def Expr.references : Expr → List Reference
  | .lit _ _ => []
  | .macroCall _ _ => []
  | .path ref _ => [ref]
  | .call func args _ => func.references ++ Expr.referencesAll args
  | .methodCall receiver _ args _ => receiver.references ++ Expr.referencesAll args
  | .struct ref fields base _ =>
    ref :: (FieldInit.referencesAll fields ++ Expr.referencesOptional base)
  | .matchExpr scrutinee arms _ => scrutinee.references ++ Arm.referencesAll arms
  | .ifExpr cond thenBranch elseBranch _ =>
    cond.references ++ (thenBranch.references ++ Expr.referencesOptional elseBranch)
  | .letExpr pat init _ => pat.references ++ init.references
  | .loop body _ => body.references
  | .whileLoop cond body _ => cond.references ++ body.references
  | .forLoop pat iter body _ => pat.references ++ (iter.references ++ body.references)
  | .block block _ => block.references
  | .closure params body _ => params.flatMap ClosureParam.references ++ body.references
  | .cast expr ty _ => expr.references ++ ty.references
  | .unary _ operand _ => operand.references
  | .binary _ lhs rhs _ => lhs.references ++ rhs.references
  | .field base _ _ => base.references
  | .index base index _ => base.references ++ index.references
  | .tuple elems _ => Expr.referencesAll elems
  | .array elems _ => Expr.referencesAll elems
  | .jump _ value _ => Expr.referencesOptional value
termination_by structural expr => expr

def Expr.referencesAll : List Expr → List Reference
  | [] => []
  | expr :: rest => expr.references ++ Expr.referencesAll rest
termination_by structural exprs => exprs

def Expr.referencesOptional : Option Expr → List Reference
  | none => []
  | some expr => expr.references
termination_by structural expr => expr

def FieldInit.referencesAll : List FieldInit → List Reference
  | [] => []
  | ⟨_, value⟩ :: rest => value.references ++ FieldInit.referencesAll rest
termination_by structural fields => fields

def Arm.references : Arm → List Reference
  | ⟨pat, body, guard, _⟩ =>
    pat.references ++ (body.references ++ Expr.referencesOptional guard)
termination_by structural arm => arm

def Arm.referencesAll : List Arm → List Reference
  | [] => []
  | arm :: rest => arm.references ++ Arm.referencesAll rest
termination_by structural arms => arms

def Block.references : Block → List Reference
  | ⟨stmts, tail, _⟩ => Stmt.referencesAll stmts ++ Expr.referencesOptional tail
termination_by structural block => block

def Stmt.references : Stmt → List Reference
  | .letStmt pat ty init elseBlock _ =>
    pat.references ++ (ty.elim [] Ty.references ++ (Expr.referencesOptional init ++
      Block.referencesOptional elseBlock))
  | .exprStmt expr _ => expr.references
  | .itemStmt _ => []
termination_by structural stmt => stmt

def Stmt.referencesAll : List Stmt → List Reference
  | [] => []
  | stmt :: rest => stmt.references ++ Stmt.referencesAll rest
termination_by structural stmts => stmts

def Block.referencesOptional : Option Block → List Reference
  | none => []
  | some block => block.references
termination_by structural block => block

end

/-! ## Crates -/

def Param.references (param : Param) : List Reference :=
  param.pat.references ++ param.ty.references

namespace ImplItem

/-- The paths that a member of an implementation block is written with. -/
def references : ImplItem → List Reference
  | .assocType item => item.ty.references
  | .method item =>
    item.params.flatMap Param.references ++ (item.body.references ++ item.ret.elim [] Ty.references)
  | .assocConst item => item.ty.references ++ Expr.referencesOptional item.value

end ImplItem

/-- The paths that an implementation block is written with, those of its head first. -/
def ImplBlock.references (block : ImplBlock) : List Reference :=
  block.traitRef.toList ++ (block.selfTy.elim [] Ty.references ++
    block.items.flatMap ImplItem.references)

def Crate.references (crate : Crate) : List Reference :=
  crate.impls.flatMap ImplBlock.references

/-! ## Targets of bindings -/

namespace ImplBlock

/-- What a binding stands for is one of the paths of its block. -/
theorem target_mem_references {block : ImplBlock} {binding : Binding}
    (h : binding ∈ block.bindings) : binding.target ∈ block.references := by
  rcases (mem_bindingsFrom_iff.1 h).2 with ⟨item, hfind, hbinding⟩
  have htarget := (AssocType.binding?_eq_some_iff.1 hbinding).2.1
  rcases List.mem_filterMap.1 (List.mem_of_find?_eq_some hfind) with ⟨member, hmember, hitem⟩
  have hpath : binding.target ∈ item.ty.references := by
    unfold AssocType.target? at htarget
    split at htarget
    · rename_i ref span hty
      split at htarget
      · cases htarget
        rw [hty]
        exact List.mem_singleton.2 rfl
      · cases htarget
    · cases htarget
  cases member with
  | assocType item' =>
      cases hitem
      refine List.mem_append_right _ (List.mem_append_right _ ?_)
      exact List.mem_flatMap.2 ⟨_, hmember, hpath⟩
  | _ =>
      cases hitem

end ImplBlock
end AssocLint
