import AssocLint.Occurrence.Walk
import AssocLint.Proofs.Reference.Nested
import AssocLint.Proofs.Tree.Nodes

/-!
# What a walk goes by

Which paths a method uses is said node by node: a path expression, a struct literal, a pattern with
a path and a path in a type are one use each, and other nodes are none (`Node.pathUse?`). With a
path are used the paths inside it. A walk goes by exactly these uses, each as often as it stands in
the tree, whatever the scopes around it and the declared types are (`Method.perm_pathUses`).

The order of the walk is not that of the nodes: it follows the source, where the pattern of a `let`
stands behind its value, and the guard of an arm in front of its body.
-/

namespace AssocLint

/-- A use of a path. -/
structure PathUse where
  ref : Reference
  kind : OccurrenceKind
  span : Span

/-- The use of a path, with those of the paths and language items inside it, which are ascriptions
at the same place. -/
def PathUse.withInside (use : PathUse) : List PathUse :=
  use :: (Reference.withoutText use.ref.parts).map (⟨·, .ascription, use.span⟩)

/-- The use of a path that a node is. -/
def Node.pathUse? : Node → Option PathUse
  | .expr (.path ref span) => some ⟨ref, .expression, span⟩
  | .expr (.struct ref _ _ span) => some ⟨ref, .expression, span⟩
  | .pattern (.path ref span) => some ⟨ref, .pattern, span⟩
  | .pattern (.tupleStruct ref _ span) => some ⟨ref, .pattern, span⟩
  | .pattern (.struct ref _ _ span) => some ⟨ref, .pattern, span⟩
  | .ty (.path ref span) => some ⟨ref, .ascription, span⟩
  | _ => none

/-- The uses of paths among some nodes. -/
def pathUses (nodes : List Node) : List PathUse :=
  (nodes.filterMap Node.pathUse?).flatMap PathUse.withInside

/-- An occurrence as a use of a path, wherever it is met and whatever its subject. -/
def Occurrence.pathUse (use : Occurrence) : PathUse :=
  ⟨use.ref, use.kind, use.span⟩

/-! ## Occurrences that cover nodes -/

theorem pathUses_append (nodes nodes' : List Node) :
    pathUses (nodes ++ nodes') = pathUses nodes ++ pathUses nodes' := by
  simp only [pathUses, List.filterMap_append, List.flatMap_append]

theorem pathUses_cons_of_none {node : Node} (h : node.pathUse? = none) (nodes : List Node) :
    pathUses (node :: nodes) = pathUses nodes := by
  rw [pathUses, List.filterMap_cons_none h, pathUses]

theorem Occurrence.map_pathUse_withNested (use : Occurrence) :
    use.withNested.map pathUse = use.pathUse.withInside := by
  rw [withNested, PathUse.withInside, List.map_cons, List.map_map,
    Reference.nested_eq_withoutText_parts]
  rfl

/-- Occurrences are the uses of paths among some nodes, up to their order. -/
def Covers (nodes : List Node) (uses : List Occurrence) : Prop :=
  (uses.map Occurrence.pathUse).Perm (pathUses nodes)

namespace Covers

variable {node : Node} {nodes nodes' : List Node} {uses uses' : List Occurrence}

theorem nil : Covers [] [] :=
  .refl []

theorem append (first : Covers nodes uses) (second : Covers nodes' uses') :
    Covers (nodes ++ nodes') (uses ++ uses') := by
  rw [Covers, List.map_append, pathUses_append]
  exact List.Perm.append first second

theorem perm (h : Covers nodes uses) (hnodes : nodes'.Perm nodes) : Covers nodes' uses :=
  h.trans ((hnodes.filterMap _).flatMap_right _).symm

/-- A node that uses no path. -/
theorem skip (hnode : node.pathUse? = none) (h : Covers nodes uses) :
    Covers (node :: nodes) uses := by
  rw [Covers, pathUses_cons_of_none hnode]
  exact h

/-- A node that uses a path. -/
theorem withNested {use : Occurrence} (hnode : node.pathUse? = some use.pathUse) :
    Covers [node] use.withNested := by
  have huses : pathUses [node] = use.pathUse.withInside ++ [] := by
    rw [pathUses, List.filterMap_cons_some hnode]
    rfl
  rw [Covers, use.map_pathUse_withNested, huses, List.append_nil]

end Covers

section Tree

variable (function : String)

/-! ## Types -/

mutual

theorem Ty.covers_occurrences : ∀ ty : Ty, Covers ty.nodes (ty.occurrences function)
  | .path written span => by
      have huse := @Covers.withNested _ ⟨written, .ascription, span, none, function⟩
        (rfl : (Node.ty (.path written span)).pathUse? = _)
      simpa [Ty.nodes, Ty.occurrences, Ty.paths] using huse
  | .ref inner _ _ => .skip rfl (Ty.covers_occurrences inner)
  | .tuple elems _ => .skip rfl (Ty.covers_pathsAll elems)
  | .slice elem _ => .skip rfl (Ty.covers_occurrences elem)
  | .array elem _ _ => .skip rfl (Ty.covers_occurrences elem)
  | .infer _ => .skip rfl .nil
  | .never _ => .skip rfl .nil
  | .verbatim _ _ => .skip rfl .nil
termination_by structural ty => ty

theorem Ty.covers_pathsAll :
    ∀ tys : List Ty, Covers (Ty.nodesAll tys) ((Ty.pathsAll tys).flatMap fun (written, span) =>
      Occurrence.withNested ⟨written, .ascription, span, none, function⟩)
  | [] => .nil
  | ty :: rest => by
      rw [Ty.pathsAll, List.flatMap_append]
      exact (Ty.covers_occurrences ty).append (Ty.covers_pathsAll rest)
termination_by structural tys => tys

end

theorem Ty.covers_elim (ty : Option Ty) :
    Covers (ty.elim [] Ty.nodes) (ty.elim [] (Ty.occurrences function)) := by
  cases ty with
  | none => exact .nil
  | some ty => exact ty.covers_occurrences function

/-! ## Patterns -/

-- By recursion on the pattern. As many types as patterns are at hand, so none is left out.

mutual

theorem Pattern.covers_occurrences :
    ∀ (pat : Pattern) (ty : Option Ty), Covers pat.nodes (pat.occurrences function ty)
  | .wild _, _ => .skip rfl .nil
  | .lit _ _, _ => .skip rfl .nil
  | .binding _ none _ _ _, _ => .skip rfl .nil
  | .binding _ (some sub) _ _ _, ty => .skip rfl (sub.covers_occurrences ty)
  | .path _ _, _ => .withNested rfl
  | .tupleStruct _ elems _, _ =>
      (Covers.withNested rfl).append (Pattern.covers_occurrencesAll elems _ (by simp))
  | .struct _ fields _ _, _ =>
      (Covers.withNested rfl).append (FieldPattern.covers_occurrencesFields fields)
  | .tuple elems _, ty =>
      .skip rfl (Pattern.covers_occurrencesAll elems _ (Ty.length_tupleElems ty elems.length))
  | .slice elems _, _ => .skip rfl (Pattern.covers_occurrencesAll elems _ (by simp))
  | .ref inner _, ty => .skip rfl (inner.covers_occurrences (ty.map Ty.deref))
  | .or alts _, _ => .skip rfl (Pattern.covers_occurrencesAll alts _ (by simp))

theorem Pattern.covers_occurrencesAll :
    ∀ (pats : List Pattern) (tys : List (Option Ty)), tys.length = pats.length →
      Covers (Pattern.nodesAll pats) (Pattern.occurrencesAll function pats tys)
  | [], [], _ => .nil
  | pat :: pats, ty :: tys, h =>
      (pat.covers_occurrences ty).append (Pattern.covers_occurrencesAll pats tys (Nat.succ.inj h))

theorem FieldPattern.covers_occurrencesFields :
    ∀ fields : List FieldPattern,
      Covers (FieldPattern.nodesAll fields) (Pattern.occurrencesFields function fields)
  | [] => .nil
  | ⟨_, pat⟩ :: rest =>
      (pat.covers_occurrences none).append (FieldPattern.covers_occurrencesFields rest)

end

/-! ## Stretches of a body -/

/-- From any scopes a stretch goes by the uses of paths among some nodes. -/
def Walk.Covers (nodes : List Node) (walk : Walk) : Prop :=
  ∀ stack, AssocLint.Covers nodes (walk stack).1

namespace Walk.Covers

variable {node : Node} {nodes nodes' : List Node} {walk walk' : Walk}

theorem nothing : Covers [] Walk.nothing :=
  fun _ => .nil

theorem report {uses : List Occurrence} (h : AssocLint.Covers nodes uses) :
    Covers nodes (.report uses) :=
  fun _ => h

theorem append (first : Covers nodes walk) (second : Covers nodes' walk') :
    Covers (nodes ++ nodes') (walk ++ walk') :=
  fun stack => (first stack).append (second (walk stack).2)

theorem inScope (h : Covers nodes walk) : Covers nodes (.inScope walk) :=
  fun stack => h stack.push

theorem declare (names : List (String × Option Ty)) : Covers [] (.declare names) :=
  fun _ => .nil

theorem withType {read : ScopeStack → Option Ty} {next : Option Ty → Walk}
    (h : ∀ ty, Covers nodes (next ty)) : Covers nodes (.withType read next) :=
  fun stack => h (read stack) stack

theorem perm (h : Covers nodes walk) (hnodes : nodes'.Perm nodes) : Covers nodes' walk :=
  fun stack => (h stack).perm hnodes

theorem skip (hnode : node.pathUse? = none) (h : Covers nodes walk) : Covers (node :: nodes) walk :=
  fun stack => (h stack).skip hnode

end Walk.Covers

theorem Pattern.covers_walk (pat : Pattern) (ty : Option Ty) :
    Walk.Covers pat.nodes (pat.walk function ty) := by
  have hwalk := (Walk.Covers.report (pat.covers_occurrences function ty)).append
    (.declare (pat.bound ty))
  rwa [List.append_nil] at hwalk

theorem ClosureParam.covers_walkAll (params : List ClosureParam) :
    Walk.Covers (params.flatMap ClosureParam.nodes) (ClosureParam.walkAll function params) := by
  induction params with
  | nil =>
      exact .nothing
  | cons param rest ih =>
      -- The type of a parameter is met before its pattern.
      have hparam := (Walk.Covers.report (Ty.covers_elim function param.ty)).append
        (param.pat.covers_walk function param.ty)
      exact (Walk.Covers.skip rfl (hparam.perm List.perm_append_comm)).append ih

/-! ## Expressions -/

-- By recursion on the tree. Where the walk takes the parts of a node in another order than the tree
-- has them, the nodes are put in the order of the walk.

mutual

theorem Expr.covers_walk : ∀ expr : Expr, Walk.Covers expr.nodes (expr.walk function)
  | .lit _ _ => .skip rfl .nothing
  | .macroCall _ _ => .skip rfl .nothing
  | .path _ _ => .report (.withNested rfl)
  | .call func args _ => .skip rfl (func.covers_walk.append (covers_walkExprs args))
  | .methodCall receiver _ args _ =>
      .skip rfl (receiver.covers_walk.append (covers_walkExprs args))
  | .struct ref fields base span => by
      have hpath : Walk.Covers [.expr (.struct ref fields base span)]
          (.report (Occurrence.withNested ⟨ref, .expression, span, none, function⟩)) :=
        .report (.withNested rfl)
      have hwalk := (hpath.append (covers_walkFields fields)).append (covers_walkOptional base)
      rwa [List.append_assoc] at hwalk
  | .matchExpr scrutinee arms _ =>
      .skip rfl (scrutinee.covers_walk.append (.withType fun ty => covers_walkArms ty arms))
  | .ifExpr cond thenBranch elseBranch _ => by
      have hwalk := (cond.covers_walk.append thenBranch.covers_walk).inScope.append
        (covers_walkOptional elseBranch)
      rw [List.append_assoc] at hwalk
      exact .skip rfl hwalk
  | .letExpr pat init span => by
      have hwalk : Walk.Covers (init.nodes ++ pat.nodes)
          (Expr.walk function (.letExpr pat init span)) :=
        init.covers_walk.append (.withType fun ty => pat.covers_walk function ty)
      exact .skip rfl (hwalk.perm List.perm_append_comm)
  | .loop body _ => .skip rfl body.covers_walk
  | .whileLoop cond body _ => .skip rfl (cond.covers_walk.append body.covers_walk).inScope
  | .forLoop pat iter body _ => by
      have hwalk := iter.covers_walk.append
        ((pat.covers_walk function none).append body.covers_walk).inScope
      exact .skip rfl (hwalk.perm (List.perm_append_comm_assoc ..))
  | .block block _ => .skip rfl block.covers_walk
  | .closure params body _ =>
      .skip rfl ((ClosureParam.covers_walkAll function params).append body.covers_walk).inScope
  | .cast inner ty _ =>
      .skip rfl (inner.covers_walk.append (.report (ty.covers_occurrences function)))
  | .unary _ operand _ => .skip rfl operand.covers_walk
  | .binary _ lhs rhs _ => .skip rfl (lhs.covers_walk.append rhs.covers_walk)
  | .field base _ _ => .skip rfl base.covers_walk
  | .index base index _ => .skip rfl (base.covers_walk.append index.covers_walk)
  | .tuple elems _ => .skip rfl (covers_walkExprs elems)
  | .array elems _ => .skip rfl (covers_walkExprs elems)
  | .jump _ value _ => .skip rfl (covers_walkOptional value)

theorem covers_walkExprs :
    ∀ exprs : List Expr, Walk.Covers (Expr.nodesAll exprs) (walkExprs function exprs)
  | [] => .nothing
  | expr :: rest => expr.covers_walk.append (covers_walkExprs rest)

theorem covers_walkOptional :
    ∀ expr : Option Expr, Walk.Covers (Expr.nodesOptional expr) (walkOptional function expr)
  | none => .nothing
  | some expr => expr.covers_walk

theorem covers_walkFields :
    ∀ fields : List FieldInit, Walk.Covers (FieldInit.nodesAll fields) (walkFields function fields)
  | [] => .nothing
  | ⟨_, value⟩ :: rest => value.covers_walk.append (covers_walkFields rest)

theorem covers_walkArms (ty : Option Ty) :
    ∀ arms : List Arm, Walk.Covers (Arm.nodesAll arms) (walkArms function ty arms)
  | [] => .nothing
  | ⟨pat, body, guard, _⟩ :: rest => by
      have harm := (((pat.covers_walk function ty).append (covers_walkOptional guard)).append
        body.covers_walk).inScope
      rw [List.append_assoc] at harm
      exact (harm.perm (List.perm_append_comm.append_left _)).append (covers_walkArms ty rest)

theorem Block.covers_walk : ∀ block : Block, Walk.Covers block.nodes (block.walk function)
  | ⟨stmts, tail, _⟩ => ((covers_walkStmts stmts).append (covers_walkOptional tail)).inScope

theorem covers_walkStmts :
    ∀ stmts : List Stmt, Walk.Covers (Stmt.nodesAll stmts) (walkStmts function stmts)
  | [] => .nothing
  | .itemStmt _ :: rest => .skip rfl (covers_walkStmts rest)
  | .exprStmt expr _ :: rest => .skip rfl (expr.covers_walk.append (covers_walkStmts rest))
  | .letStmt pat ty init elseBlock _ :: rest => by
      have hty := Walk.Covers.report (Ty.covers_elim function ty)
      have hinit := covers_walkOptional init
      have hpat (subject : Option Ty) :=
        ((Walk.Covers.report (pat.covers_occurrences function subject)).append
          (covers_walkElse elseBlock)).append (.declare (pat.bound subject))
      have horder : (pat.nodes ++ (ty.elim [] Ty.nodes ++
            (Expr.nodesOptional init ++ Block.nodesOptional elseBlock))).Perm
          (ty.elim [] Ty.nodes ++ Expr.nodesOptional init ++
            (pat.nodes ++ Block.nodesOptional elseBlock ++ [])) := by
        rw [List.append_nil, List.append_assoc]
        exact (List.perm_append_comm_assoc ..).trans
          ((List.perm_append_comm_assoc ..).append_left _)
      exact .skip rfl ((((hty.append hinit).append (.withType hpat)).perm horder).append
        (covers_walkStmts rest))

theorem covers_walkElse :
    ∀ block : Option Block, Walk.Covers (Block.nodesOptional block) (walkElse function block)
  | none => .nothing
  | some block => block.covers_walk

end

end Tree

/-! ## Methods -/

theorem Param.covers_walkAll (function : String) (params : List Param) :
    Walk.Covers (params.flatMap (·.pat.nodes)) (Param.walkAll function params) := by
  induction params with
  | nil =>
      exact .nothing
  | cons param rest ih =>
      exact (param.pat.covers_walk function param.ty).append ih

namespace Method

theorem covers_walk (method : Method) : Walk.Covers method.nodes method.walk :=
  ((Param.covers_walkAll method.name method.params).append
    (method.body.covers_walk method.name)).inScope

/-- The occurrences in a method are the uses of paths in the patterns of its parameters and in its
body, each as often as it stands there. The scopes around the method, the types of its parameters
and its return type do not matter. -/
theorem perm_pathUses (method : Method) :
    (method.occurrences.map Occurrence.pathUse).Perm (pathUses method.nodes) ∧
      (∀ stack, ((method.walk stack).1.map Occurrence.pathUse).Perm (pathUses method.nodes)) ∧
      ∀ (retype : Param → Ty) (ret : Option Ty),
        let method' : Method :=
          { method with
            params := method.params.map fun param => { param with ty := retype param }
            ret }
        (method'.occurrences.map Occurrence.pathUse).Perm
          (method.occurrences.map Occurrence.pathUse) := by
  have hwalk := method.covers_walk
  refine ⟨hwalk [], hwalk, ?_⟩
  intro retype ret method'
  have hnodes : method'.nodes = method.nodes := by
    simp only [nodes, method', List.flatMap_map]
  have hwalk' := method'.covers_walk []
  rw [hnodes] at hwalk'
  exact hwalk'.trans (hwalk []).symm

end Method
end AssocLint
