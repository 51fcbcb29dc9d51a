import AssocLint.Proofs.Scope.Checked
import AssocLint.Proofs.Scope.Stack

/-!
# Scope discipline

A stretch of a body declares names in the innermost scope and touches no other (`Walk.Declares`):
a pattern those that it binds, an expression those of the `let` conditions in it that stand in no
scope of their own (`Expr.letNames`). What has a scope of its own leaves the stack as it was
(`Walk.Leaves`). In none of this is a scope missing: the checked walk goes the same way.

So a name means its latest declaration in its own scope or in one around it, and a scope that is
closed has left nothing behind (`ScopeDiscipline`).
-/

namespace AssocLint

/-! ## Declared names -/

/-- The names that a pattern binds, in order. -/
def Pattern.names (pat : Pattern) : List String :=
  (pat.bound none).map (·.1)

mutual

/-- The names that the `let` conditions in an expression bind, in order. Those in a block, a loop, a
closure, an arm, or in the condition of an `if` or what follows it stay in the scope of that. -/
def Expr.letNames : Expr → List String
  | .letExpr pat init _ => init.letNames ++ pat.names
  | .call func args _ => func.letNames ++ letNamesAll args
  | .methodCall receiver _ args _ => receiver.letNames ++ letNamesAll args
  | .struct _ fields base _ => letNamesFields fields ++ letNamesOptional base
  | .matchExpr scrutinee _ _ => scrutinee.letNames
  | .ifExpr _ _ elseBranch _ => letNamesOptional elseBranch
  | .forLoop _ iter _ _ => iter.letNames
  | .cast expr _ _ => expr.letNames
  | .unary _ operand _ => operand.letNames
  | .binary _ lhs rhs _ => lhs.letNames ++ rhs.letNames
  | .field base _ _ => base.letNames
  | .index base index _ => base.letNames ++ index.letNames
  | .tuple elems _ => letNamesAll elems
  | .array elems _ => letNamesAll elems
  | .jump _ value _ => letNamesOptional value
  | .block _ _ | .loop _ _ | .whileLoop _ _ _ | .closure _ _ _ => []
  | .path _ _ | .lit _ _ | .macroCall _ _ => []
termination_by structural expr => expr

def letNamesAll : List Expr → List String
  | [] => []
  | expr :: rest => expr.letNames ++ letNamesAll rest
termination_by structural exprs => exprs

def letNamesOptional : Option Expr → List String
  | none => []
  | some expr => expr.letNames
termination_by structural expr => expr

def letNamesFields : List FieldInit → List String
  | [] => []
  | ⟨_, value⟩ :: rest => value.letNames ++ letNamesFields rest
termination_by structural fields => fields

end

/-- The names that a statement declares, in order. -/
def Stmt.letNames : Stmt → List String
  | .letStmt pat _ init _ _ => letNamesOptional init ++ pat.names
  | .exprStmt expr _ => expr.letNames
  | .itemStmt _ => []

/-! ## What a stretch does to the scopes -/

/-- A stretch declares these names in the innermost scope, in this order, and leaves the scopes
around it alone. None of the scopes that it needs is missing. -/
def Walk.Declares (names : List String) (walk : Walk) (checked : CheckedWalk) : Prop :=
  ∀ (scope : Scope) (outer : ScopeStack), ∃ declared : Scope,
    declared.map (·.1) = names.reverse ∧ (walk (scope :: outer)).2 = (declared ++ scope) :: outer ∧
      checked (scope :: outer) = some (walk (scope :: outer))

/-- A stretch leaves the scopes as they were. None of those that it needs is missing. -/
def Walk.Leaves (walk : Walk) (checked : CheckedWalk) : Prop :=
  ∀ stack : ScopeStack, (walk stack).2 = stack ∧ checked stack = some (walk stack)

theorem CheckedWalk.append_eq {first second : CheckedWalk} {walk walk' : Walk} {stack : ScopeStack}
    (h : first stack = some (walk stack))
    (h' : second (walk stack).2 = some (walk' (walk stack).2)) :
    (first ++ second) stack = some ((walk ++ walk') stack) := by
  calc
    (first ++ second) stack =
        (first stack).bind fun before =>
          (second before.2).bind fun after => some (before.1 ++ after.1, after.2) := rfl
    _ = some ((walk ++ walk') stack) := by
      rw [h, Option.bind_some, h']
      rfl

namespace Walk

variable {names names' : List String} {walk walk' : Walk} {checked checked' : CheckedWalk}

namespace Leaves

theorem nothing : Leaves Walk.nothing .nothing :=
  fun _ => ⟨rfl, rfl⟩

theorem report (uses : List Occurrence) : Leaves (.report uses) (.report uses) :=
  fun _ => ⟨rfl, rfl⟩

theorem append (first : Leaves walk checked) (second : Leaves walk' checked') :
    Leaves (walk ++ walk') (checked ++ checked') := by
  intro stack
  rcases first stack with ⟨hstack, hchecked⟩
  rcases second (walk stack).2 with ⟨hstack', hchecked'⟩
  exact ⟨hstack'.trans hstack, CheckedWalk.append_eq hchecked hchecked'⟩

theorem withType {read : ScopeStack → Option Ty} {next : Option Ty → Walk}
    {next' : Option Ty → CheckedWalk} (h : ∀ ty, Leaves (next ty) (next' ty)) :
    Leaves (.withType read next) (.withType read next') :=
  fun stack => h (read stack) stack

end Leaves

namespace Declares

theorem of_leaves (h : Leaves walk checked) : Declares [] walk checked :=
  fun scope outer => ⟨[], rfl, h (scope :: outer)⟩

theorem append (first : Declares names walk checked) (second : Declares names' walk' checked') :
    Declares (names ++ names') (walk ++ walk') (checked ++ checked') := by
  intro scope outer
  rcases first scope outer with ⟨declared, hnames, hstack, hchecked⟩
  rcases second (declared ++ scope) outer with ⟨declared', hnames', hstack', hchecked'⟩
  rw [← hstack] at hstack' hchecked'
  refine ⟨declared' ++ declared, ?_, ?_, CheckedWalk.append_eq hchecked hchecked'⟩
  · rw [List.map_append, List.reverse_append, hnames, hnames']
  · rw [List.append_assoc]
    exact hstack'

theorem leaving (first : Declares names walk checked) (second : Leaves walk' checked') :
    Declares names (walk ++ walk') (checked ++ checked') := by
  have hboth := first.append (.of_leaves second)
  rwa [List.append_nil] at hboth

theorem after (second : Declares names walk' checked') (first : Leaves walk checked) :
    Declares names (walk ++ walk') (checked ++ checked') :=
  (of_leaves first).append second

theorem withType {read : ScopeStack → Option Ty} {next : Option Ty → Walk}
    {next' : Option Ty → CheckedWalk} (h : ∀ ty, Declares names (next ty) (next' ty)) :
    Declares names (.withType read next) (.withType read next') :=
  fun scope outer => h (read (scope :: outer)) scope outer

/-- Whatever is declared in a scope of its own is gone with it. -/
theorem inScope (h : Declares names walk checked) : Leaves (.inScope walk) (.inScope checked) := by
  intro stack
  rcases h [] stack with ⟨declared, -, hstack, hchecked⟩
  constructor
  · calc
      (walk stack.push).2.pop = ScopeStack.pop ((declared ++ []) :: stack) :=
        congrArg ScopeStack.pop hstack
      _ = stack := rfl
  · have hpop : (walk stack.push).2.pop? = some (walk stack.push).2.pop :=
      hstack ▸ rfl
    calc
      CheckedWalk.inScope checked stack =
          (checked stack.push).bind fun inner =>
            inner.2.pop?.bind fun stack' => some (inner.1, stack') := rfl
      _ = some (Walk.inScope walk stack) := by
        rw [show checked stack.push = some (walk stack.push) from hchecked, Option.bind_some, hpop]
        rfl

end Declares
end Walk

/-! ## Patterns -/

-- By recursion on the pattern: with a value of another type a pattern binds the same names.

mutual

theorem Pattern.map_fst_bound :
    ∀ (pat : Pattern) (ty ty' : Option Ty),
      (pat.bound ty).map (·.1) = (pat.bound ty').map (·.1)
  | .wild _, _, _ => rfl
  | .lit _ _, _, _ => rfl
  | .path _ _, _, _ => rfl
  | .binding _ none _ _ _, _, _ => rfl
  | .binding name (some sub) _ _ _, ty, ty' =>
      congrArg (name :: ·) (sub.map_fst_bound ty ty')
  | .tupleStruct _ _ _, _, _ => rfl
  | .struct _ _ _ _, _, _ => rfl
  | .tuple elems _, ty, ty' => by
      have hlength := (Ty.length_tupleElems ty elems.length).trans
        (Ty.length_tupleElems ty' elems.length).symm
      exact Pattern.map_fst_boundAll elems hlength
  | .slice _ _, _, _ => rfl
  | .ref inner _, ty, ty' => inner.map_fst_bound (ty.map Ty.deref) (ty'.map Ty.deref)
  | .or [] _, _, _ => rfl
  | .or (alt :: _) _, ty, ty' => alt.map_fst_bound ty ty'

theorem Pattern.map_fst_boundAll :
    ∀ (pats : List Pattern) {tys tys' : List (Option Ty)}, tys.length = tys'.length →
      (Pattern.boundAll pats tys).map (·.1) = (Pattern.boundAll pats tys').map (·.1)
  | [], _, _, _ => rfl
  | _ :: _, [], [], _ => rfl
  | pat :: pats, ty :: _, ty' :: _, h => by
      have hpat := pat.map_fst_bound ty ty'
      have hpats := Pattern.map_fst_boundAll pats (Nat.succ.inj h)
      rw [Pattern.boundAll, List.map_append, hpat, hpats, Pattern.boundAll, List.map_append]

end

theorem Pattern.map_fst_bound_eq_names (pat : Pattern) (ty : Option Ty) :
    (pat.bound ty).map (·.1) = pat.names :=
  pat.map_fst_bound ty none

theorem ScopeStack.declareAll?_cons (names : List (String × Option Ty)) (scope : Scope)
    (outer : ScopeStack) :
    declareAll? (scope :: outer) names = some (declareAll (scope :: outer) names) := by
  induction names generalizing scope with
  | nil =>
      rfl
  | cons entry rest ih =>
      exact ih (entry :: scope)

theorem Walk.Declares.declare (names : List (String × Option Ty)) :
    Declares (names.map (·.1)) (.declare names) (.declare names) := by
  intro scope outer
  refine ⟨names.reverse, List.map_reverse, ScopeStack.declareAll_cons names scope outer, ?_⟩
  exact congrArg (Option.map ([], ·)) (ScopeStack.declareAll?_cons names scope outer)

section Tree

variable (function : String)

theorem Pattern.declares_walk (pat : Pattern) (ty : Option Ty) :
    Walk.Declares pat.names (pat.walk function ty) (pat.walk? function ty) := by
  rw [← pat.map_fst_bound_eq_names ty]
  exact (Walk.Declares.declare (pat.bound ty)).after (.report _)

theorem ClosureParam.declares_walkAll (params : List ClosureParam) :
    Walk.Declares (params.flatMap (·.pat.names)) (walkAll function params)
      (walkAll? function params) := by
  induction params with
  | nil =>
      exact .of_leaves .nothing
  | cons param rest ih =>
      exact ((param.pat.declares_walk function param.ty).after (.report _)).append ih

theorem Param.declares_walkAll (params : List Param) :
    Walk.Declares (params.flatMap (·.pat.names)) (walkAll function params)
      (walkAll? function params) := by
  induction params with
  | nil =>
      exact .of_leaves .nothing
  | cons param rest ih =>
      exact (param.pat.declares_walk function (some param.ty)).append ih

/-! ## Expressions -/

-- By recursion on the tree: the parts of a node declare their names one after another, and what has
-- a scope of its own takes the names in it back.

mutual

theorem Expr.declares_walk :
    ∀ expr : Expr,
      Walk.Declares expr.letNames (expr.walk function) (expr.walk? function)
  | .lit _ _ => .of_leaves .nothing
  | .macroCall _ _ => .of_leaves .nothing
  | .path _ _ => .of_leaves (.report _)
  | .call func args _ => func.declares_walk.append (declares_walkExprs args)
  | .methodCall receiver _ args _ => receiver.declares_walk.append (declares_walkExprs args)
  | .struct _ fields base _ =>
      ((declares_walkFields fields).after (.report _)).append (declares_walkOptional base)
  | .matchExpr scrutinee arms _ =>
      scrutinee.declares_walk.leaving (.withType fun ty => leaves_walkArms ty arms)
  | .ifExpr cond thenBranch elseBranch _ =>
      (declares_walkOptional elseBranch).after
        (cond.declares_walk.append thenBranch.declares_walk).inScope
  | .letExpr pat init _ =>
      init.declares_walk.append (.withType fun ty => pat.declares_walk function ty)
  | .loop body _ => .of_leaves body.leaves_walk
  | .whileLoop cond body _ => .of_leaves (cond.declares_walk.leaving body.leaves_walk).inScope
  | .forLoop pat iter body _ =>
      iter.declares_walk.leaving
        ((pat.declares_walk function none).leaving body.leaves_walk).inScope
  | .block block _ => .of_leaves block.leaves_walk
  | .closure params body _ =>
      .of_leaves ((ClosureParam.declares_walkAll function params).append body.declares_walk).inScope
  | .cast expr _ _ => expr.declares_walk.leaving (.report _)
  | .unary _ operand _ => operand.declares_walk
  | .binary _ lhs rhs _ => lhs.declares_walk.append rhs.declares_walk
  | .field base _ _ => base.declares_walk
  | .index base index _ => base.declares_walk.append index.declares_walk
  | .tuple elems _ => declares_walkExprs elems
  | .array elems _ => declares_walkExprs elems
  | .jump _ value _ => declares_walkOptional value

theorem declares_walkExprs :
    ∀ exprs : List Expr,
      Walk.Declares (letNamesAll exprs) (walkExprs function exprs) (walkExprs? function exprs)
  | [] => .of_leaves .nothing
  | expr :: rest => expr.declares_walk.append (declares_walkExprs rest)

theorem declares_walkOptional :
    ∀ expr : Option Expr,
      Walk.Declares (letNamesOptional expr) (walkOptional function expr)
        (walkOptional? function expr)
  | none => .of_leaves .nothing
  | some expr => expr.declares_walk

theorem declares_walkFields :
    ∀ fields : List FieldInit,
      Walk.Declares (letNamesFields fields) (walkFields function fields)
        (walkFields? function fields)
  | [] => .of_leaves .nothing
  | ⟨_, value⟩ :: rest => value.declares_walk.append (declares_walkFields rest)

theorem leaves_walkArms (ty : Option Ty) :
    ∀ arms : List Arm, Walk.Leaves (walkArms function ty arms) (walkArms? function ty arms)
  | [] => .nothing
  | ⟨pat, body, guard, _⟩ :: rest =>
      (((pat.declares_walk function ty).append (declares_walkOptional guard)).append
        body.declares_walk).inScope.append (leaves_walkArms ty rest)

theorem Block.leaves_walk :
    ∀ block : Block, Walk.Leaves (block.walk function) (block.walk? function)
  | ⟨stmts, tail, _⟩ => ((declares_walkStmts stmts).append (declares_walkOptional tail)).inScope

theorem declares_walkStmts :
    ∀ stmts : List Stmt,
      Walk.Declares (stmts.flatMap Stmt.letNames) (walkStmts function stmts)
        (walkStmts? function stmts)
  | [] => .of_leaves .nothing
  | .itemStmt _ :: rest => declares_walkStmts rest
  | .exprStmt expr _ :: rest => expr.declares_walk.append (declares_walkStmts rest)
  | .letStmt pat ty init elseBlock _ :: rest => by
      have hty := Walk.Leaves.report (ty.elim [] (Ty.occurrences function))
      have hpat (subject : Option Ty) :
          Walk.Declares pat.names
            (.report (pat.occurrences function subject) ++ walkElse function elseBlock ++
              .declare (pat.bound subject))
            (.report (pat.occurrences function subject) ++ walkElse? function elseBlock ++
              .declare (pat.bound subject)) := by
        rw [← pat.map_fst_bound_eq_names subject]
        exact (Walk.Declares.declare (pat.bound subject)).after
          ((Walk.Leaves.report _).append (leaves_walkElse elseBlock))
      exact (((declares_walkOptional init).after hty).append (.withType hpat)).append
        (declares_walkStmts rest)

theorem leaves_walkElse :
    ∀ block : Option Block, Walk.Leaves (walkElse function block) (walkElse? function block)
  | none => .nothing
  | some block => block.leaves_walk

end

end Tree

/-! ## Discipline -/

/-- What the walk of a body does with the scopes around each of its parts. -/
structure ScopeDiscipline (function : String) : Prop where
  /-- A pattern puts what it binds in front of the innermost scope. -/
  pattern (pat : Pattern) (ty : Option Ty) (scope : Scope) (outer : ScopeStack) :
    (pat.walk function ty (scope :: outer)).2 = ((pat.bound ty).reverse ++ scope) :: outer ∧
      pat.walk? function ty (scope :: outer) = some (pat.walk function ty (scope :: outer))
  expr (expr : Expr) : Walk.Declares expr.letNames (expr.walk function) (expr.walk? function)
  stmt (stmt : Stmt) :
    Walk.Declares stmt.letNames (walkStmts function [stmt]) (walkStmts? function [stmt])
  /-- An expression changes the innermost scope at no other names. -/
  others (expr : Expr) (scope : Scope) (outer : ScopeStack) :
    ∃ scope' : Scope, (expr.walk function (scope :: outer)).2 = scope' :: outer ∧
      ∀ name, name ∈ expr.letNames ∨ scope'.lookup name = scope.lookup name
  block (block : Block) : Walk.Leaves (block.walk function) (block.walk? function)
  loop (body : Block) (span : Span) :
    Walk.Leaves ((Expr.loop body span).walk function) ((Expr.loop body span).walk? function)
  whileLoop (cond : Expr) (body : Block) (span : Span) :
    Walk.Leaves ((Expr.whileLoop cond body span).walk function)
      ((Expr.whileLoop cond body span).walk? function)
  closure (params : List ClosureParam) (body : Expr) (span : Span) :
    Walk.Leaves ((Expr.closure params body span).walk function)
      ((Expr.closure params body span).walk? function)
  arm (ty : Option Ty) (arm : Arm) :
    Walk.Leaves (walkArms function ty [arm]) (walkArms? function ty [arm])
  /-- The body of a `for` with its pattern. -/
  forBody (pat : Pattern) (body : Block) :
    Walk.Leaves (.inScope (pat.walk function none ++ body.walk function))
      (.inScope (pat.walk? function none ++ body.walk? function))
  /-- The condition of an `if` with what follows it. -/
  condition (cond thenBranch : Expr) :
    Walk.Leaves (.inScope (cond.walk function ++ thenBranch.walk function))
      (.inScope (cond.walk? function ++ thenBranch.walk? function))

section Discipline

variable (function : String)

theorem Pattern.walk_cons (pat : Pattern) (ty : Option Ty) (scope : Scope) (outer : ScopeStack) :
    (pat.walk function ty (scope :: outer)).2 = ((pat.bound ty).reverse ++ scope) :: outer ∧
      pat.walk? function ty (scope :: outer) = some (pat.walk function ty (scope :: outer)) := by
  rcases pat.declares_walk function ty scope outer with ⟨-, -, -, hchecked⟩
  exact ⟨ScopeStack.declareAll_cons (pat.bound ty) scope outer, hchecked⟩

theorem Expr.lookup_walk (expr : Expr) (scope : Scope) (outer : ScopeStack) :
    ∃ scope' : Scope, (expr.walk function (scope :: outer)).2 = scope' :: outer ∧
      ∀ name, name ∈ expr.letNames ∨ scope'.lookup name = scope.lookup name := by
  rcases expr.declares_walk function scope outer with ⟨declared, hnames, hstack, -⟩
  refine ⟨declared ++ scope, hstack, fun name => ?_⟩
  cases hlookup : declared.lookup name with
  | none =>
      right
      rw [List.lookup_append, hlookup, Option.none_or]
  | some ty =>
      left
      rcases List.lookup_eq_some_iff.1 hlookup with ⟨before, after, hdeclared, -⟩
      have hmem : name ∈ declared.map (·.1) := by
        rw [hdeclared]
        simp
      exact List.mem_reverse.1 (hnames ▸ hmem)

theorem Stmt.declares_walk (stmt : Stmt) :
    Walk.Declares stmt.letNames (walkStmts function [stmt]) (walkStmts? function [stmt]) := by
  have hstmts := declares_walkStmts function [stmt]
  rwa [List.flatMap_singleton] at hstmts

theorem scopeDiscipline : ScopeDiscipline function where
  pattern pat ty scope outer := pat.walk_cons function ty scope outer
  expr expr := expr.declares_walk function
  stmt stmt := stmt.declares_walk function
  others expr scope outer := expr.lookup_walk function scope outer
  block block := block.leaves_walk function
  loop body _ := body.leaves_walk function
  whileLoop cond body _ :=
    ((cond.declares_walk function).leaving (body.leaves_walk function)).inScope
  closure params body _ :=
    ((ClosureParam.declares_walkAll function params).append (body.declares_walk function)).inScope
  arm ty arm := leaves_walkArms function ty [arm]
  forBody pat body :=
    ((pat.declares_walk function none).leaving (body.leaves_walk function)).inScope
  condition cond thenBranch :=
    ((cond.declares_walk function).append (thenBranch.declares_walk function)).inScope

end Discipline

theorem Method.leaves_walk (method : Method) : Walk.Leaves method.walk method.walk? :=
  ((Param.declares_walkAll method.name method.params).leaving
    (method.body.leaves_walk method.name)).inScope

/-- The walk of a body keeps scopes apart. A pattern, a statement and an expression declare names in
the innermost scope only, an expression those of the `let` conditions in it that have no scope of
their own, and whatever has a scope of its own leaves the others as they were; no scope is ever
missing. A method starts with no scope and ends with none. So the type of a name is that of its
latest declaration in the scopes that are open. -/
theorem Walk.scopes_apart :
    (∀ function : String, ScopeDiscipline function) ∧
      (∀ method : Method, method.walk [] = (method.occurrences, []) ∧
        method.walk? [] = some (method.occurrences, [])) ∧
      ∀ (stack : ScopeStack) (name : String) (ty : Ty), stack.lookup name = some ty ↔
        ∃ before after, stack.flatten = before ++ (name, some ty) :: after ∧
          ∀ entry ∈ before, entry.1 ≠ name := by
  refine ⟨scopeDiscipline, fun method => ?_, fun _ _ _ => ScopeStack.lookup_eq_some_iff⟩
  rcases method.leaves_walk [] with ⟨hstack, hchecked⟩
  have hwalk : method.walk [] = (method.occurrences, []) := Prod.ext rfl hstack
  exact ⟨hwalk, hchecked.trans (congrArg some hwalk)⟩

end AssocLint
