import AssocLint.Analysis
import AssocLint.Proofs.Analysis.Findings
import AssocLint.Proofs.Scope.Stack
import AssocLint.Proofs.Tree.Nodes

/-!
# Where subjects come from

The types that a walk knows are types that somebody wrote: of parameters, of `let` statements and of
the parameters of closures (`Method.declaredTypes`), and what is reached in these through references
and elements of tuples (`Ty.ReachedFrom`). That is so of every type in every scope at every moment,
since a pattern, a dereference and a look-up only ever pass on such types (`Walk.KeepsDeclared`).

A pattern is reported only where its subject is declared through an associated type. So a method
that writes no such type for a value has no finding on a pattern (`Method.subjects_declared`).
-/

namespace AssocLint

/-- The type that is written for a value at a node, if any. -/
def Node.declaredType? : Node → Option Ty
  | .stmt (.letStmt _ written _ _ _) => written
  | .closureParam param => param.ty
  | _ => none

/-- The types that a method writes for values: those of its parameters, of its `let` statements and
of the parameters of its closures. -/
def Method.declaredTypes (method : Method) : List Ty :=
  method.params.map (·.ty) ++ method.body.nodes.filterMap Node.declaredType?

/-! ## Reached types -/

namespace Ty

/-- One type is another, or is reached in it through references and elements of tuples. -/
inductive ReachedFrom : Ty → Ty → Prop where
  | refl (ty : Ty) : ReachedFrom ty ty
  | ref {part inner : Ty} {mutable : Bool} {span : Span} (h : ReachedFrom part inner) :
      ReachedFrom part (.ref inner mutable span)
  | tuple {part elem : Ty} {elems : List Ty} {span : Span} (mem : elem ∈ elems)
      (h : ReachedFrom part elem) : ReachedFrom part (.tuple elems span)

theorem ReachedFrom.trans {part whole outer : Ty} (h : part.ReachedFrom whole)
    (houter : whole.ReachedFrom outer) : part.ReachedFrom outer := by
  induction houter with
  | refl =>
      exact h
  | ref _ ih =>
      exact .ref ih
  | tuple mem _ ih =>
      exact .tuple mem ih

theorem deref_reachedFrom (ty : Ty) : ty.deref.ReachedFrom ty := by
  cases ty with
  | ref inner mutable span =>
      exact .ref (.refl inner)
  | _ =>
      exact .refl _

theorem peel_reachedFrom (ty : Ty) : ty.peel.ReachedFrom ty := by
  induction ty using peel.induct with
  | case1 inner mutable span ih =>
      exact .ref ih
  | case2 ty hty =>
      unfold peel
      split
      · rename_i inner mutable span
        exact (hty inner mutable span rfl).elim
      · exact .refl ty

end Ty

/-- What is known of the type of a value comes from one of some declared types. -/
def ComesFrom (declared : List Ty) (known : Option Ty) : Prop :=
  ∀ ty ∈ known, ∃ whole ∈ declared, ty.ReachedFrom whole

namespace ComesFrom

variable {declared : List Ty} {known : Option Ty}

theorem none : ComesFrom declared none :=
  fun _ h => nomatch h

theorem of_mem {ty : Ty} (h : ty ∈ declared) : ComesFrom declared (some ty) := by
  intro found hfound
  cases hfound
  exact ⟨ty, h, .refl ty⟩

/-- What is reached in a type comes from where this comes from. -/
theorem reached {ty part : Ty} (h : ComesFrom declared (some ty)) (hpart : part.ReachedFrom ty) :
    ComesFrom declared (some part) := by
  intro found hfound
  cases hfound
  rcases h ty rfl with ⟨whole, hmem, hty⟩
  exact ⟨whole, hmem, hpart.trans hty⟩

theorem deref (h : ComesFrom declared known) : ComesFrom declared (known.map Ty.deref) := by
  cases known with
  | none => exact .none
  | some ty => exact h.reached ty.deref_reachedFrom

theorem replicate (h : ComesFrom declared known) (arity : Nat) :
    ∀ elem ∈ List.replicate arity known, ComesFrom declared elem := by
  intro elem helem
  rw [List.eq_of_mem_replicate helem]
  exact h

theorem tupleElems (h : ComesFrom declared known) (arity : Nat) :
    ∀ elem ∈ Ty.tupleElems known arity, ComesFrom declared elem := by
  unfold Ty.tupleElems
  split
  · rename_i elems span htuple
    split
    · intro elem helem
      rcases List.mem_map.1 helem with ⟨ty, hty, rfl⟩
      have hderef := h.deref
      rw [htuple] at hderef
      exact hderef.reached (.tuple hty (.refl ty))
    · exact ComesFrom.none.replicate arity
  · exact ComesFrom.none.replicate arity

end ComesFrom

/-! ## Scopes -/

/-- Every type in every scope comes from a declared one. -/
def ScopeStack.ComesFrom (declared : List Ty) (stack : ScopeStack) : Prop :=
  ∀ scope ∈ stack, ∀ entry ∈ scope, AssocLint.ComesFrom declared entry.2

namespace ScopeStack.ComesFrom

variable {declared : List Ty} {stack : ScopeStack}

theorem nil : ComesFrom declared [] :=
  List.forall_mem_nil _

theorem push (h : stack.ComesFrom declared) : stack.push.ComesFrom declared :=
  List.forall_mem_cons.2 ⟨List.forall_mem_nil _, h⟩

theorem pop (h : stack.ComesFrom declared) : stack.pop.ComesFrom declared :=
  fun scope hscope => h scope (List.mem_of_mem_tail hscope)

theorem declareAll {names : List (String × Option Ty)} (h : stack.ComesFrom declared)
    (hnames : ∀ entry ∈ names, AssocLint.ComesFrom declared entry.2) :
    (stack.declareAll names).ComesFrom declared := by
  induction names generalizing stack with
  | nil =>
      exact h
  | cons entry rest ih =>
      rw [List.forall_mem_cons] at hnames
      refine ih ?_ hnames.2
      cases stack with
      | nil =>
          exact .nil
      | cons scope outer =>
          have hstack := List.forall_mem_cons.1 h
          exact List.forall_mem_cons.2 ⟨List.forall_mem_cons.2 ⟨hnames.1, hstack.1⟩, hstack.2⟩

theorem lookup (h : stack.ComesFrom declared) (name : String) :
    AssocLint.ComesFrom declared (stack.lookup name) := by
  intro ty hty
  rcases exists_mem_of_lookup hty with ⟨scope, hscope, hentry⟩
  exact h scope hscope (name, some ty) hentry ty rfl

theorem typeOf (h : stack.ComesFrom declared) (expr : Expr) :
    AssocLint.ComesFrom declared (stack.typeOf expr) := by
  fun_induction ScopeStack.typeOf stack expr with
  | case1 op operand span ty hop ih =>
      exact ih.deref
  | case2 op operand span ty hop hop' ih =>
      exact ih
  | case4 segment span =>
      exact h.lookup segment.name
  | case5 tail span span' ih =>
      exact ih
  | case3 | case6 =>
      exact .none

end ScopeStack.ComesFrom

section Tree

variable {declared : List Ty} (function : String)

/-! ## Patterns -/

-- By recursion on the pattern: its parts are matched with what is reached in the type of the value,
-- or with values of unknown types.

mutual

theorem Pattern.bound_comesFrom :
    ∀ (pat : Pattern) {ty : Option Ty}, ComesFrom declared ty →
      ∀ entry ∈ pat.bound ty, ComesFrom declared entry.2
  | .wild _, _, _ => List.forall_mem_nil _
  | .lit _ _, _, _ => List.forall_mem_nil _
  | .path _ _, _, _ => List.forall_mem_nil _
  | .binding _ none _ _ _, _, h => List.forall_mem_singleton.2 h
  | .binding _ (some sub) _ _ _, _, h => List.forall_mem_cons.2 ⟨h, sub.bound_comesFrom h⟩
  | .tupleStruct _ elems _, _, _ =>
      Pattern.boundAll_comesFrom elems (ComesFrom.none.replicate elems.length)
  | .struct _ fields _ _, _, _ => FieldPattern.boundFields_comesFrom fields
  | .tuple elems _, _, h => Pattern.boundAll_comesFrom elems (h.tupleElems elems.length)
  | .slice elems _, _, _ => Pattern.boundAll_comesFrom elems (ComesFrom.none.replicate elems.length)
  | .ref inner _, _, h => inner.bound_comesFrom h.deref
  | .or [] _, _, _ => List.forall_mem_nil _
  | .or (alt :: _) _, _, h => alt.bound_comesFrom h

theorem Pattern.boundAll_comesFrom :
    ∀ (pats : List Pattern) {tys : List (Option Ty)}, (∀ ty ∈ tys, ComesFrom declared ty) →
      ∀ entry ∈ Pattern.boundAll pats tys, ComesFrom declared entry.2
  | [], _, _ => List.forall_mem_nil _
  | _ :: _, [], _ => List.forall_mem_nil _
  | pat :: pats, _ :: _, h =>
      have htys := List.forall_mem_cons.1 h
      List.forall_mem_append.2 ⟨pat.bound_comesFrom htys.1, Pattern.boundAll_comesFrom pats htys.2⟩

theorem FieldPattern.boundFields_comesFrom :
    ∀ fields : List FieldPattern,
      ∀ entry ∈ Pattern.boundFields fields, ComesFrom declared entry.2
  | [] => List.forall_mem_nil _
  | ⟨_, pat⟩ :: rest =>
      List.forall_mem_append.2
        ⟨pat.bound_comesFrom .none, FieldPattern.boundFields_comesFrom rest⟩

end

theorem Occurrence.withNested_comesFrom {use : Occurrence}
    (h : ComesFrom declared use.subject) :
    ∀ inner ∈ use.withNested, ComesFrom declared inner.subject := by
  refine List.forall_mem_cons.2 ⟨h, ?_⟩
  intro inner hinner
  rcases List.mem_map.1 hinner with ⟨ref, -, rfl⟩
  exact .none

theorem Ty.occurrences_comesFrom (ty : Ty) :
    ∀ use ∈ ty.occurrences function, ComesFrom declared use.subject := by
  intro use huse
  rcases List.mem_flatMap.1 huse with ⟨⟨written, span⟩, -, hmem⟩
  exact Occurrence.withNested_comesFrom .none use hmem

theorem Ty.elim_occurrences_comesFrom (ty : Option Ty) :
    ∀ use ∈ ty.elim [] (Ty.occurrences function), ComesFrom declared use.subject := by
  cases ty with
  | none => exact List.forall_mem_nil _
  | some ty => exact ty.occurrences_comesFrom function

mutual

theorem Pattern.occurrences_comesFrom :
    ∀ (pat : Pattern) {ty : Option Ty}, ComesFrom declared ty →
      ∀ use ∈ pat.occurrences function ty, ComesFrom declared use.subject
  | .wild _, _, _ => List.forall_mem_nil _
  | .lit _ _, _, _ => List.forall_mem_nil _
  | .binding _ none _ _ _, _, _ => List.forall_mem_nil _
  | .binding _ (some sub) _ _ _, _, h => sub.occurrences_comesFrom h
  | .path _ _, _, h => Occurrence.withNested_comesFrom h
  | .tupleStruct _ elems _, _, h =>
      List.forall_mem_append.2 ⟨Occurrence.withNested_comesFrom h,
        Pattern.occurrencesAll_comesFrom elems (ComesFrom.none.replicate elems.length)⟩
  | .struct _ fields _ _, _, h =>
      List.forall_mem_append.2 ⟨Occurrence.withNested_comesFrom h,
        FieldPattern.occurrencesFields_comesFrom fields⟩
  | .tuple elems _, _, h => Pattern.occurrencesAll_comesFrom elems (h.tupleElems elems.length)
  | .slice elems _, _, _ =>
      Pattern.occurrencesAll_comesFrom elems (ComesFrom.none.replicate elems.length)
  | .ref inner _, _, h => inner.occurrences_comesFrom h.deref
  | .or alts _, _, h => Pattern.occurrencesAll_comesFrom alts (h.replicate alts.length)

theorem Pattern.occurrencesAll_comesFrom :
    ∀ (pats : List Pattern) {tys : List (Option Ty)}, (∀ ty ∈ tys, ComesFrom declared ty) →
      ∀ use ∈ Pattern.occurrencesAll function pats tys, ComesFrom declared use.subject
  | [], _, _ => List.forall_mem_nil _
  | _ :: _, [], _ => List.forall_mem_nil _
  | pat :: pats, _ :: _, h =>
      have htys := List.forall_mem_cons.1 h
      List.forall_mem_append.2
        ⟨pat.occurrences_comesFrom htys.1, Pattern.occurrencesAll_comesFrom pats htys.2⟩

theorem FieldPattern.occurrencesFields_comesFrom :
    ∀ fields : List FieldPattern,
      ∀ use ∈ Pattern.occurrencesFields function fields, ComesFrom declared use.subject
  | [] => List.forall_mem_nil _
  | ⟨_, pat⟩ :: rest =>
      List.forall_mem_append.2
        ⟨pat.occurrences_comesFrom .none, FieldPattern.occurrencesFields_comesFrom rest⟩

end

/-! ## Stretches of a body -/

/-- A stretch keeps to declared types: if those in the scopes before it come from declared ones,
then so do the subjects of its occurrences and the types in the scopes after it. -/
def Walk.KeepsDeclared (declared : List Ty) (walk : Walk) : Prop :=
  ∀ stack : ScopeStack, stack.ComesFrom declared →
    (∀ use ∈ (walk stack).1, ComesFrom declared use.subject) ∧ (walk stack).2.ComesFrom declared

namespace Walk.KeepsDeclared

variable {walk walk' : Walk}

theorem nothing : KeepsDeclared declared Walk.nothing :=
  fun _ hstack => ⟨List.forall_mem_nil _, hstack⟩

theorem report {uses : List Occurrence} (h : ∀ use ∈ uses, ComesFrom declared use.subject) :
    KeepsDeclared declared (.report uses) :=
  fun _ hstack => ⟨h, hstack⟩

theorem append (first : KeepsDeclared declared walk) (second : KeepsDeclared declared walk') :
    KeepsDeclared declared (walk ++ walk') := by
  intro stack hstack
  rcases first stack hstack with ⟨huses, hstack'⟩
  rcases second (walk stack).2 hstack' with ⟨huses', hstack''⟩
  exact ⟨List.forall_mem_append.2 ⟨huses, huses'⟩, hstack''⟩

theorem inScope (h : KeepsDeclared declared walk) : KeepsDeclared declared (.inScope walk) := by
  intro stack hstack
  rcases h stack.push hstack.push with ⟨huses, hstack'⟩
  exact ⟨huses, hstack'.pop⟩

theorem declare {names : List (String × Option Ty)}
    (h : ∀ entry ∈ names, ComesFrom declared entry.2) : KeepsDeclared declared (.declare names) :=
  fun _ hstack => ⟨List.forall_mem_nil _, hstack.declareAll h⟩

theorem withType {read : ScopeStack → Option Ty} {next : Option Ty → Walk}
    (hread : ∀ stack : ScopeStack, stack.ComesFrom declared → ComesFrom declared (read stack))
    (h : ∀ ty, ComesFrom declared ty → KeepsDeclared declared (next ty)) :
    KeepsDeclared declared (.withType read next) :=
  fun stack hstack => h (read stack) (hread stack hstack) stack hstack

end Walk.KeepsDeclared

theorem Pattern.keepsDeclared_walk (pat : Pattern) {ty : Option Ty} (h : ComesFrom declared ty) :
    Walk.KeepsDeclared declared (pat.walk function ty) :=
  (Walk.KeepsDeclared.report (pat.occurrences_comesFrom function h)).append
    (.declare (pat.bound_comesFrom h))

/-! ## Nodes with declared types -/

/-- What is written for values at some nodes is declared. -/
def AreDeclared (declared : List Ty) (nodes : List Node) : Prop :=
  ∀ node ∈ nodes, ∀ ty ∈ node.declaredType?, ty ∈ declared

namespace AreDeclared

variable {node : Node} {nodes nodes' : List Node}

theorem head (h : AreDeclared declared (node :: nodes)) :
    ComesFrom declared node.declaredType? := by
  intro ty hty
  exact ⟨ty, h node List.mem_cons_self ty hty, .refl ty⟩

theorem tail (h : AreDeclared declared (node :: nodes)) : AreDeclared declared nodes :=
  fun inner hinner => h inner (List.mem_cons_of_mem _ hinner)

theorem left (h : AreDeclared declared (nodes ++ nodes')) : AreDeclared declared nodes :=
  fun inner hinner => h inner (List.mem_append_left _ hinner)

theorem right (h : AreDeclared declared (nodes ++ nodes')) : AreDeclared declared nodes' :=
  fun inner hinner => h inner (List.mem_append_right _ hinner)

end AreDeclared

theorem ClosureParam.keepsDeclared_walkAll (params : List ClosureParam)
    (h : AreDeclared declared (params.flatMap ClosureParam.nodes)) :
    Walk.KeepsDeclared declared (ClosureParam.walkAll function params) := by
  induction params with
  | nil =>
      exact .nothing
  | cons param rest ih =>
      have hparam := (Walk.KeepsDeclared.report
          (Ty.elim_occurrences_comesFrom function param.ty)).append
        (param.pat.keepsDeclared_walk function h.head)
      exact hparam.append (ih h.right)

/-! ## Expressions -/

-- By recursion on the tree. The subject of a pattern is read off the scopes in front of it, or is
-- the type written at its node.

mutual

theorem Expr.keepsDeclared_walk :
    ∀ expr : Expr, AreDeclared declared expr.nodes →
      Walk.KeepsDeclared declared (expr.walk function)
  | .lit _ _, _ => .nothing
  | .macroCall _ _, _ => .nothing
  | .path _ _, _ => .report (Occurrence.withNested_comesFrom .none)
  | .call func args _, h =>
      (func.keepsDeclared_walk h.tail.left).append (keepsDeclared_walkExprs args h.tail.right)
  | .methodCall receiver _ args _, h =>
      (receiver.keepsDeclared_walk h.tail.left).append (keepsDeclared_walkExprs args h.tail.right)
  | .struct _ fields base _, h =>
      ((Walk.KeepsDeclared.report (Occurrence.withNested_comesFrom .none)).append
        (keepsDeclared_walkFields fields h.tail.left)).append
          (keepsDeclared_walkOptional base h.tail.right)
  | .matchExpr scrutinee arms _, h =>
      (scrutinee.keepsDeclared_walk h.tail.left).append
        (.withType (fun _ hstack => hstack.typeOf scrutinee)
          fun _ hty => keepsDeclared_walkArms hty arms h.tail.right)
  | .ifExpr cond thenBranch elseBranch _, h =>
      ((cond.keepsDeclared_walk h.tail.left).append
        (thenBranch.keepsDeclared_walk h.tail.right.left)).inScope.append
          (keepsDeclared_walkOptional elseBranch h.tail.right.right)
  | .letExpr pat init _, h =>
      (init.keepsDeclared_walk h.tail.right).append
        (.withType (fun _ hstack => hstack.typeOf init)
          fun _ hty => pat.keepsDeclared_walk function hty)
  | .loop body _, h => body.keepsDeclared_walk h.tail
  | .whileLoop cond body _, h =>
      ((cond.keepsDeclared_walk h.tail.left).append
        (body.keepsDeclared_walk h.tail.right)).inScope
  | .forLoop pat iter body _, h =>
      (iter.keepsDeclared_walk h.tail.right.left).append
        ((pat.keepsDeclared_walk function .none).append
          (body.keepsDeclared_walk h.tail.right.right)).inScope
  | .block block _, h => block.keepsDeclared_walk h.tail
  | .closure params body _, h =>
      ((ClosureParam.keepsDeclared_walkAll function params h.tail.left).append
        (body.keepsDeclared_walk h.tail.right)).inScope
  | .cast inner ty _, h =>
      (inner.keepsDeclared_walk h.tail.left).append (.report (ty.occurrences_comesFrom function))
  | .unary _ operand _, h => operand.keepsDeclared_walk h.tail
  | .binary _ lhs rhs _, h =>
      (lhs.keepsDeclared_walk h.tail.left).append (rhs.keepsDeclared_walk h.tail.right)
  | .field base _ _, h => base.keepsDeclared_walk h.tail
  | .index base index _, h =>
      (base.keepsDeclared_walk h.tail.left).append (index.keepsDeclared_walk h.tail.right)
  | .tuple elems _, h => keepsDeclared_walkExprs elems h.tail
  | .array elems _, h => keepsDeclared_walkExprs elems h.tail
  | .jump _ value _, h => keepsDeclared_walkOptional value h.tail

theorem keepsDeclared_walkExprs :
    ∀ exprs : List Expr, AreDeclared declared (Expr.nodesAll exprs) →
      Walk.KeepsDeclared declared (walkExprs function exprs)
  | [], _ => .nothing
  | expr :: rest, h =>
      (expr.keepsDeclared_walk h.left).append (keepsDeclared_walkExprs rest h.right)

theorem keepsDeclared_walkOptional :
    ∀ expr : Option Expr, AreDeclared declared (Expr.nodesOptional expr) →
      Walk.KeepsDeclared declared (walkOptional function expr)
  | none, _ => .nothing
  | some expr, h => expr.keepsDeclared_walk h

theorem keepsDeclared_walkFields :
    ∀ fields : List FieldInit, AreDeclared declared (FieldInit.nodesAll fields) →
      Walk.KeepsDeclared declared (walkFields function fields)
  | [], _ => .nothing
  | ⟨_, value⟩ :: rest, h =>
      (value.keepsDeclared_walk h.left).append (keepsDeclared_walkFields rest h.right)

theorem keepsDeclared_walkArms {ty : Option Ty} (hty : ComesFrom declared ty) :
    ∀ arms : List Arm, AreDeclared declared (Arm.nodesAll arms) →
      Walk.KeepsDeclared declared (walkArms function ty arms)
  | [], _ => .nothing
  | ⟨pat, body, guard, _⟩ :: rest, h =>
      (((pat.keepsDeclared_walk function hty).append
        (keepsDeclared_walkOptional guard h.left.right.right)).append
          (body.keepsDeclared_walk h.left.right.left)).inScope.append
            (keepsDeclared_walkArms hty rest h.right)

theorem Block.keepsDeclared_walk :
    ∀ block : Block, AreDeclared declared block.nodes →
      Walk.KeepsDeclared declared (block.walk function)
  | ⟨stmts, tail, _⟩, h =>
      ((keepsDeclared_walkStmts stmts h.left).append
        (keepsDeclared_walkOptional tail h.right)).inScope

theorem keepsDeclared_walkStmts :
    ∀ stmts : List Stmt, AreDeclared declared (Stmt.nodesAll stmts) →
      Walk.KeepsDeclared declared (walkStmts function stmts)
  | [], _ => .nothing
  | .itemStmt _ :: rest, h => keepsDeclared_walkStmts rest h.right
  | .exprStmt expr _ :: rest, h =>
      (expr.keepsDeclared_walk h.left.tail).append (keepsDeclared_walkStmts rest h.right)
  | .letStmt pat ty init elseBlock _ :: rest, h => by
      have hwritten : ComesFrom declared ty := h.left.head
      have hinit := keepsDeclared_walkOptional init h.left.tail.right.right.left
      have helse := keepsDeclared_walkElse elseBlock h.left.tail.right.right.right
      have hsubject (stack : ScopeStack) (hstack : stack.ComesFrom declared) :
          ComesFrom declared (ty.or (init.bind stack.typeOf)) := by
        cases ty with
        | some ty =>
            exact hwritten
        | none =>
            cases init with
            | none => exact .none
            | some init => exact hstack.typeOf init
      have hpat (subject : Option Ty) (h : ComesFrom declared subject) :=
        ((Walk.KeepsDeclared.report (pat.occurrences_comesFrom function h)).append helse).append
          (.declare (pat.bound_comesFrom h))
      have hty : Walk.KeepsDeclared declared (.report (ty.elim [] (Ty.occurrences function))) :=
        .report (Ty.elim_occurrences_comesFrom function ty)
      exact ((hty.append hinit).append (.withType hsubject hpat)).append
        (keepsDeclared_walkStmts rest h.right)

theorem keepsDeclared_walkElse :
    ∀ block : Option Block, AreDeclared declared (Block.nodesOptional block) →
      Walk.KeepsDeclared declared (walkElse function block)
  | none, _ => .nothing
  | some block, h => block.keepsDeclared_walk h

end

theorem Param.keepsDeclared_walkAll (params : List Param)
    (h : ∀ param ∈ params, param.ty ∈ declared) :
    Walk.KeepsDeclared declared (Param.walkAll function params) := by
  induction params with
  | nil =>
      exact .nothing
  | cons param rest ih =>
      rw [List.forall_mem_cons] at h
      exact (param.pat.keepsDeclared_walk function (.of_mem h.1)).append (ih h.2)

end Tree

/-! ## Methods -/

namespace Method

theorem keepsDeclared_walk (method : Method) :
    Walk.KeepsDeclared method.declaredTypes method.walk := by
  have hparams : ∀ param ∈ method.params, param.ty ∈ method.declaredTypes := by
    intro param hparam
    exact List.mem_append_left _ (List.mem_map_of_mem hparam)
  have hbody : AreDeclared method.declaredTypes method.body.nodes := by
    intro node hnode ty hty
    exact List.mem_append_right _ (List.mem_filterMap.2 ⟨node, hnode, hty⟩)
  exact ((Param.keepsDeclared_walkAll method.name method.params hparams).append
    (method.body.keepsDeclared_walk method.name hbody)).inScope

theorem comesFrom_of_mem_occurrences {method : Method} {use : Occurrence}
    (h : use ∈ method.occurrences) : ComesFrom method.declaredTypes use.subject :=
  (method.keepsDeclared_walk [] .nil).1 use h

end Method

/-- A subject of which no part is written through an associated type is not declared through one. -/
theorem Occurrence.subjectName?_eq_none {declared : List Ty} {use : Occurrence}
    (h : ComesFrom declared use.subject)
    (hunrouted : ∀ whole ∈ declared, ∀ ref span, (Ty.path ref span).ReachedFrom whole →
      ref.routedName? = none) : use.subjectName? = none := by
  unfold subjectName?
  cases hsubject : use.subject with
  | none =>
      rfl
  | some ty =>
      rcases h ty hsubject with ⟨whole, hwhole, hty⟩
      have hpeel : ty.peel.ReachedFrom whole := ty.peel_reachedFrom.trans hty
      simp only [Option.bind_some, Ty.routedName?]
      split
      · rename_i ref span hpath
        exact hunrouted whole hwhole ref span (hpath ▸ hpeel)
      · rfl

/-- No index reports a pattern whose subject is declared through no associated type. -/
theorem BindingIndex.report_eq_none_of_pattern (index : BindingIndex) (policy : Policy)
    {use : Occurrence} (hpattern : use.kind = .pattern) (hname : use.subjectName? = none) :
    index.report policy use = none := by
  have hrejects : ∀ entry ∈ index.candidates use.ref, ¬ entry.accepts policy use = true := by
    intro entry _ haccepts
    simp [IndexedBinding.accepts, hpattern, hname] at haccepts
  have hfind := List.find?_eq_none.2 hrejects
  simp [report, firstMatch, hfind]

/-- The subject of an occurrence is a type that its method writes for a parameter, in a `let` or for
the parameter of a closure, or what is reached in one through references and elements of tuples.
Where nothing reached so is written through an associated type, no pattern of the method is
reported. -/
theorem Method.subjects_declared (method : Method) :
    (∀ use ∈ method.occurrences, ∀ subject, use.subject = some subject →
        ∃ declared ∈ method.declaredTypes, subject.ReachedFrom declared) ∧
      ((∀ declared ∈ method.declaredTypes, ∀ ref span, (Ty.path ref span).ReachedFrom declared →
          ref.routedName? = none) →
        ∀ (index : BindingIndex) (policy : Policy),
          ∀ finding ∈ method.occurrences.filterMap (index.report policy),
            finding.use.kind ≠ .pattern) := by
  refine ⟨fun use huse => comesFrom_of_mem_occurrences huse, ?_⟩
  intro hunrouted index policy finding hfinding hpattern
  rcases List.mem_filterMap.1 hfinding with ⟨use, huse, hreport⟩
  rcases BindingIndex.report_eq_some_iff.1 hreport with ⟨rfl, -⟩
  have hname := Occurrence.subjectName?_eq_none (comesFrom_of_mem_occurrences huse) hunrouted
  rw [index.report_eq_none_of_pattern policy hpattern hname] at hreport
  cases hreport

/-- The pattern `State::A` on the first element of `pair: (&State, u8)`: its subject is that element
of the declared type, and as no associated type is written in it, nothing reports the pattern. -/
theorem Method.subjects_declared_tuple_pattern :
    let state : Ty := .ref (.path (.resolved none [⟨"State", none⟩] .type) {}) false {}
    let byte : Ty := .path (.resolved none [⟨"u8", none⟩] .type) {}
    let written : Reference := .resolved none [⟨"State", none⟩, ⟨"A", none⟩] .variant
    let use : Occurrence := ⟨written, .pattern, {}, some state, "run"⟩
    let param : Param := ⟨.binding "pair" none false false {}, .tuple [state, byte] {}, {}⟩
    let pair : Expr := .path (.resolved none [⟨"pair", none⟩] .localVar) {}
    let arm : Arm := ⟨.tuple [.path written {}, .wild {}] {}, .lit "1" {}, none, {}⟩
    let method : Method := ⟨"run", [param], ⟨[], some (.matchExpr pair [arm] {}), {}⟩, none, {}⟩
    use ∈ method.occurrences ∧
      (∀ declared ∈ method.declaredTypes, ∀ ref span, (Ty.path ref span).ReachedFrom declared →
        ref.routedName? = none) ∧
      (∃ declared ∈ method.declaredTypes, state.ReachedFrom declared) ∧
      ∀ (index : BindingIndex) (policy : Policy),
        ∀ finding ∈ method.occurrences.filterMap (index.report policy),
          finding.use.kind ≠ .pattern := by
  intro state byte written use param pair arm method
  have huse : use ∈ method.occurrences := List.mem_cons_of_mem _ List.mem_cons_self
  have hunrouted : ∀ declared ∈ method.declaredTypes, ∀ ref span,
      (Ty.path ref span).ReachedFrom declared → ref.routedName? = none := by
    have hdeclared : method.declaredTypes = [.tuple [state, byte] {}] := rfl
    intro declared hmem ref span hreached
    rw [hdeclared, List.mem_singleton] at hmem
    subst hmem
    rcases hreached with _ | _ | ⟨helem, hreached⟩
    simp only [List.mem_cons, List.not_mem_nil, or_false] at helem
    rcases helem with rfl | rfl
    · dsimp only [state] at hreached
      rcases hreached with _ | ⟨hreached⟩
      cases hreached
      rfl
    · dsimp only [byte] at hreached
      cases hreached
      rfl
  have hsubjects := Method.subjects_declared method
  exact ⟨huse, hunrouted, hsubjects.1 use huse state rfl, hsubjects.2 hunrouted⟩

end AssocLint
