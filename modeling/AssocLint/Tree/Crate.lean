import AssocLint.Tree.Expr

/-!
# Implementation blocks and crates
-/

namespace AssocLint

structure Param where
  pat : Pattern
  ty : Ty
  span : Span

/-- The definition `type Name = Ty;` in an implementation block. -/
structure AssocType where
  name : String
  ty : Ty
  span : Span

structure Method where
  name : String
  params : List Param
  body : Block
  ret : Option Ty
  span : Span

structure AssocConst where
  name : String
  ty : Ty
  value : Option Expr
  span : Span

inductive ImplItem where
  | assocType (item : AssocType)
  | method (item : Method)
  | assocConst (item : AssocConst)

/-- An implementation block `impl [Trait for] Type`, its members in source order. -/
structure ImplBlock where
  items : List ImplItem
  traitRef : Option Reference
  selfTy : Option Ty
  span : Span

namespace ImplBlock

def methods (block : ImplBlock) : List Method :=
  block.items.filterMap fun
    | .method item => some item
    | _ => none

def assocTypes (block : ImplBlock) : List AssocType :=
  block.items.filterMap fun
    | .assocType item => some item
    | _ => none

def describe (block : ImplBlock) : String :=
  let selfTy := (block.selfTy.map Ty.render).getD "?"
  match block.traitRef with
  | none => "impl " ++ selfTy
  | some trait => "impl " ++ trait.render ++ " for " ++ selfTy

end ImplBlock

/-- A mark that silences one kind of problem near a line. -/
structure SuppressionMark where
  id : String
  file : String
  line : Int
  deriving DecidableEq, Repr

structure Crate where
  file : String
  impls : List ImplBlock
  marks : List SuppressionMark

end AssocLint
