import AssocLint.Tree.Crate

/-!
# The spans of a tree

`Crate.spanTrees` is what is left of a crate when nothing but its nodes and their spans is looked
at: every node that has a span, with the nodes right inside it in the order in which a dump has
them. A named field and a parameter of a closure have no span; what stands in them is inside the
node that they belong to. A block that is an expression is two nodes, the expression and the block
in it.
-/

namespace AssocLint

/-- The span of a node, with the nodes inside it. -/
inductive SpanTree where
  | node (span : Span) (inside : List SpanTree)

namespace SpanTree

mutual

def spans : SpanTree → List Span
  | .node span inside => span :: spansAll inside
termination_by structural tree => tree

def spansAll : List SpanTree → List Span
  | [] => []
  | tree :: rest => tree.spans ++ spansAll rest
termination_by structural trees => trees

end

theorem spansAll_eq (trees : List SpanTree) : spansAll trees = trees.flatMap spans := by
  induction trees with
  | nil => rfl
  | cons tree rest ih => rw [spansAll, ih, List.flatMap_cons]

end SpanTree

/-! ## Types -/

mutual

def Ty.spanTree : Ty → SpanTree
  | .path _ span | .infer span | .never span | .verbatim _ span => .node span []
  | .ref inner _ span => .node span [inner.spanTree]
  | .tuple elems span => .node span (Ty.spanTrees elems)
  | .slice elem span => .node span [elem.spanTree]
  | .array elem _ span => .node span [elem.spanTree]
termination_by structural ty => ty

def Ty.spanTrees : List Ty → List SpanTree
  | [] => []
  | ty :: rest => ty.spanTree :: Ty.spanTrees rest
termination_by structural tys => tys

end

/-! ## Patterns -/

mutual

def Pattern.spanTree : Pattern → SpanTree
  | .wild span | .path _ span | .lit _ span | .binding _ none _ _ span => .node span []
  | .binding _ (some sub) _ _ span => .node span [sub.spanTree]
  | .tupleStruct _ elems span => .node span (Pattern.spanTrees elems)
  | .struct _ fields _ span => .node span (FieldPattern.spanTrees fields)
  | .tuple elems span => .node span (Pattern.spanTrees elems)
  | .slice elems span => .node span (Pattern.spanTrees elems)
  | .ref inner span => .node span [inner.spanTree]
  | .or alts span => .node span (Pattern.spanTrees alts)
termination_by structural pat => pat

def Pattern.spanTrees : List Pattern → List SpanTree
  | [] => []
  | pat :: rest => pat.spanTree :: Pattern.spanTrees rest
termination_by structural pats => pats

def FieldPattern.spanTrees : List FieldPattern → List SpanTree
  | [] => []
  | ⟨_, pat⟩ :: rest => pat.spanTree :: FieldPattern.spanTrees rest
termination_by structural fields => fields

end

/-! ## Expressions -/

def ClosureParam.spanTrees (param : ClosureParam) : List SpanTree :=
  param.pat.spanTree :: (param.ty.map Ty.spanTree).toList

mutual

def Expr.spanTree : Expr → SpanTree
  | .path _ span | .lit _ span | .macroCall _ span => .node span []
  | .call func args span => .node span (func.spanTree :: Expr.spanTrees args)
  | .methodCall receiver _ args span => .node span (receiver.spanTree :: Expr.spanTrees args)
  | .struct _ fields base span =>
    .node span (FieldInit.spanTrees fields ++ Expr.spanTreesOptional base)
  | .matchExpr scrutinee arms span => .node span (scrutinee.spanTree :: Arm.spanTrees arms)
  | .ifExpr cond thenBranch elseBranch span =>
    .node span (cond.spanTree :: thenBranch.spanTree :: Expr.spanTreesOptional elseBranch)
  | .letExpr pat init span => .node span [pat.spanTree, init.spanTree]
  | .loop body span => .node span [body.spanTree]
  | .whileLoop cond body span => .node span [cond.spanTree, body.spanTree]
  | .forLoop pat iter body span => .node span [pat.spanTree, iter.spanTree, body.spanTree]
  | .block block span => .node span [block.spanTree]
  | .closure params body span =>
    .node span (params.flatMap ClosureParam.spanTrees ++ [body.spanTree])
  | .cast expr ty span => .node span [expr.spanTree, ty.spanTree]
  | .unary _ operand span => .node span [operand.spanTree]
  | .binary _ lhs rhs span => .node span [lhs.spanTree, rhs.spanTree]
  | .field base _ span => .node span [base.spanTree]
  | .index base index span => .node span [base.spanTree, index.spanTree]
  | .tuple elems span => .node span (Expr.spanTrees elems)
  | .array elems span => .node span (Expr.spanTrees elems)
  | .jump _ value span => .node span (Expr.spanTreesOptional value)
termination_by structural expr => expr

def Expr.spanTrees : List Expr → List SpanTree
  | [] => []
  | expr :: rest => expr.spanTree :: Expr.spanTrees rest
termination_by structural exprs => exprs

def Expr.spanTreesOptional : Option Expr → List SpanTree
  | none => []
  | some expr => [expr.spanTree]
termination_by structural expr => expr

def FieldInit.spanTrees : List FieldInit → List SpanTree
  | [] => []
  | ⟨_, value⟩ :: rest => value.spanTree :: FieldInit.spanTrees rest
termination_by structural fields => fields

def Arm.spanTree : Arm → SpanTree
  | ⟨pat, body, guard, span⟩ =>
    .node span (pat.spanTree :: body.spanTree :: Expr.spanTreesOptional guard)
termination_by structural arm => arm

def Arm.spanTrees : List Arm → List SpanTree
  | [] => []
  | arm :: rest => arm.spanTree :: Arm.spanTrees rest
termination_by structural arms => arms

def Block.spanTree : Block → SpanTree
  | ⟨stmts, tail, span⟩ => .node span (Stmt.spanTrees stmts ++ Expr.spanTreesOptional tail)
termination_by structural block => block

def Stmt.spanTree : Stmt → SpanTree
  | .letStmt pat ty init elseBlock span =>
    .node span (pat.spanTree :: ((ty.map Ty.spanTree).toList ++ (Expr.spanTreesOptional init ++
      Block.spanTreesOptional elseBlock)))
  | .exprStmt expr span => .node span [expr.spanTree]
  | .itemStmt span => .node span []
termination_by structural stmt => stmt

def Stmt.spanTrees : List Stmt → List SpanTree
  | [] => []
  | stmt :: rest => stmt.spanTree :: Stmt.spanTrees rest
termination_by structural stmts => stmts

def Block.spanTreesOptional : Option Block → List SpanTree
  | none => []
  | some block => [block.spanTree]
termination_by structural block => block

end

/-! ## Crates -/

def Param.spanTree (param : Param) : SpanTree :=
  .node param.span [param.pat.spanTree, param.ty.spanTree]

def ImplItem.spanTree : ImplItem → SpanTree
  | .assocType item => .node item.span [item.ty.spanTree]
  | .method item =>
    .node item.span (item.params.map Param.spanTree ++ item.body.spanTree ::
      (item.ret.map Ty.spanTree).toList)
  | .assocConst item =>
    .node item.span (item.ty.spanTree :: Expr.spanTreesOptional item.value)

def ImplBlock.spanTree (block : ImplBlock) : SpanTree :=
  .node block.span ((block.selfTy.map Ty.spanTree).toList ++ block.items.map ImplItem.spanTree)

/-- The nodes of a crate with their spans, block by block. -/
def Crate.spanTrees (crate : Crate) : List SpanTree :=
  crate.impls.map ImplBlock.spanTree

end AssocLint
