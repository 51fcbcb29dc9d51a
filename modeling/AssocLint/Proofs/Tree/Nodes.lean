import AssocLint.Occurrence
import AssocLint.Tree.Crate

/-!
# The nodes of a tree

`nodes` lists a type, a pattern, an expression or a block with all that stands below it: every node
first, then what is in its parts, in the order in which the tree has them. It knows nothing of
scopes, and of what a node is for. What a macro invocation or a nested item stands for is no part of
the tree, and what is inside a path is no node of its own.
-/

namespace AssocLint

inductive Node where
  | ty (ty : Ty)
  | pattern (pat : Pattern)
  | expr (expr : Expr)
  | closureParam (param : ClosureParam)
  | stmt (stmt : Stmt)

/-! ## Types -/

mutual

/-- A type and the types that it is made of. -/
def Ty.nodes : Ty → List Node
  | ty@(.path _ _) => [.ty ty]
  | ty@(.ref inner _ _) => .ty ty :: inner.nodes
  | ty@(.tuple elems _) => .ty ty :: Ty.nodesAll elems
  | ty@(.slice elem _) => .ty ty :: elem.nodes
  | ty@(.array elem _ _) => .ty ty :: elem.nodes
  | ty@(.infer _) => [.ty ty]
  | ty@(.never _) => [.ty ty]
  | ty@(.verbatim _ _) => [.ty ty]
termination_by structural ty => ty

def Ty.nodesAll : List Ty → List Node
  | [] => []
  | ty :: rest => ty.nodes ++ Ty.nodesAll rest
termination_by structural tys => tys

end

/-! ## Patterns -/

mutual

/-- A pattern and the patterns in it. -/
def Pattern.nodes : Pattern → List Node
  | pat@(.wild _) => [.pattern pat]
  | pat@(.binding _ none _ _ _) => [.pattern pat]
  | pat@(.binding _ (some sub) _ _ _) => .pattern pat :: sub.nodes
  | pat@(.path _ _) => [.pattern pat]
  | pat@(.tupleStruct _ elems _) => .pattern pat :: Pattern.nodesAll elems
  | pat@(.struct _ fields _ _) => .pattern pat :: FieldPattern.nodesAll fields
  | pat@(.tuple elems _) => .pattern pat :: Pattern.nodesAll elems
  | pat@(.slice elems _) => .pattern pat :: Pattern.nodesAll elems
  | pat@(.ref inner _) => .pattern pat :: inner.nodes
  | pat@(.or alts _) => .pattern pat :: Pattern.nodesAll alts
  | pat@(.lit _ _) => [.pattern pat]
termination_by structural pat => pat

def Pattern.nodesAll : List Pattern → List Node
  | [] => []
  | pat :: rest => pat.nodes ++ Pattern.nodesAll rest
termination_by structural pats => pats

def FieldPattern.nodesAll : List FieldPattern → List Node
  | [] => []
  | ⟨_, pat⟩ :: rest => pat.nodes ++ FieldPattern.nodesAll rest
termination_by structural fields => fields

end

/-! ## Expressions -/

/-- A parameter of a closure with its pattern and its type. -/
def ClosureParam.nodes (param : ClosureParam) : List Node :=
  .closureParam param :: (param.pat.nodes ++ param.ty.elim [] Ty.nodes)

mutual

def Expr.nodes : Expr → List Node
  | expr@(.path _ _) => [.expr expr]
  | expr@(.lit _ _) => [.expr expr]
  | expr@(.call func args _) => .expr expr :: (func.nodes ++ Expr.nodesAll args)
  | expr@(.methodCall receiver _ args _) => .expr expr :: (receiver.nodes ++ Expr.nodesAll args)
  | expr@(.struct _ fields base _) =>
    .expr expr :: (FieldInit.nodesAll fields ++ Expr.nodesOptional base)
  | expr@(.matchExpr scrutinee arms _) => .expr expr :: (scrutinee.nodes ++ Arm.nodesAll arms)
  | expr@(.ifExpr cond thenBranch elseBranch _) =>
    .expr expr :: (cond.nodes ++ (thenBranch.nodes ++ Expr.nodesOptional elseBranch))
  | expr@(.letExpr pat init _) => .expr expr :: (pat.nodes ++ init.nodes)
  | expr@(.loop body _) => .expr expr :: body.nodes
  | expr@(.whileLoop cond body _) => .expr expr :: (cond.nodes ++ body.nodes)
  | expr@(.forLoop pat iter body _) => .expr expr :: (pat.nodes ++ (iter.nodes ++ body.nodes))
  | expr@(.block block _) => .expr expr :: block.nodes
  | expr@(.closure params body _) =>
    .expr expr :: (params.flatMap ClosureParam.nodes ++ body.nodes)
  | expr@(.cast inner ty _) => .expr expr :: (inner.nodes ++ ty.nodes)
  | expr@(.unary _ operand _) => .expr expr :: operand.nodes
  | expr@(.binary _ lhs rhs _) => .expr expr :: (lhs.nodes ++ rhs.nodes)
  | expr@(.field base _ _) => .expr expr :: base.nodes
  | expr@(.index base index _) => .expr expr :: (base.nodes ++ index.nodes)
  | expr@(.tuple elems _) => .expr expr :: Expr.nodesAll elems
  | expr@(.array elems _) => .expr expr :: Expr.nodesAll elems
  | expr@(.jump _ value _) => .expr expr :: Expr.nodesOptional value
  | expr@(.macroCall _ _) => [.expr expr]
termination_by structural expr => expr

def Expr.nodesAll : List Expr → List Node
  | [] => []
  | expr :: rest => expr.nodes ++ Expr.nodesAll rest
termination_by structural exprs => exprs

def Expr.nodesOptional : Option Expr → List Node
  | none => []
  | some expr => expr.nodes
termination_by structural expr => expr

def FieldInit.nodesAll : List FieldInit → List Node
  | [] => []
  | ⟨_, value⟩ :: rest => value.nodes ++ FieldInit.nodesAll rest
termination_by structural fields => fields

def Arm.nodesAll : List Arm → List Node
  | [] => []
  | ⟨pat, body, guard, _⟩ :: rest =>
    pat.nodes ++ (body.nodes ++ Expr.nodesOptional guard) ++ Arm.nodesAll rest
termination_by structural arms => arms

def Block.nodes : Block → List Node
  | ⟨stmts, tail, _⟩ => Stmt.nodesAll stmts ++ Expr.nodesOptional tail
termination_by structural block => block

def Stmt.nodes : Stmt → List Node
  | stmt@(.letStmt pat ty init elseBlock _) =>
    .stmt stmt :: (pat.nodes ++ (ty.elim [] Ty.nodes ++
      (Expr.nodesOptional init ++ Block.nodesOptional elseBlock)))
  | stmt@(.exprStmt expr _) => .stmt stmt :: expr.nodes
  | stmt@(.itemStmt _) => [.stmt stmt]
termination_by structural stmt => stmt

def Stmt.nodesAll : List Stmt → List Node
  | [] => []
  | stmt :: rest => stmt.nodes ++ Stmt.nodesAll rest
termination_by structural stmts => stmts

def Block.nodesOptional : Option Block → List Node
  | none => []
  | some block => block.nodes
termination_by structural block => block

end

/-- The nodes of the patterns of the parameters of a method, and of its body. -/
def Method.nodes (method : Method) : List Node :=
  method.params.flatMap (·.pat.nodes) ++ method.body.nodes

end AssocLint
