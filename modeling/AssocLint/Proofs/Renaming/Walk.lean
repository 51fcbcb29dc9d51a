import AssocLint.Occurrence.Walk
import AssocLint.Proofs.Renaming.Rename
import AssocLint.Proofs.Scope.Stack
import Mathlib.Data.List.Forall2
import Mathlib.Logic.Embedding.Basic

/-!
# Walking a body with renamed local variables

A walk keeps local names apart and does nothing else with them. So when distinct names stay
distinct, a renamed stretch of a body goes, from renamed scopes, by the same occurrences with the
same subjects, and leaves the renamed scopes (`Walk.Renamed`). Where a path expression is a local
name, that name is the new one.
-/

namespace AssocLint

/-! ## Occurrences -/

/-- An occurrence is another, but for the name of a local variable that it may be. -/
structure Occurrence.Renamed (f : String → String) (use use' : Occurrence) : Prop where
  kind_eq : use'.kind = use.kind
  span_eq : use'.span = use.span
  subject_eq : use'.subject = use.subject
  function_eq : use'.function = use.function
  ref_eq : use'.ref = use.ref ∨
    use.kind = .expression ∧ ∃ name args, use.ref = .resolved none [⟨name, args⟩] .localVar ∧
      use'.ref = .resolved none [⟨f name, args⟩] .localVar

section Occurrences

variable {f : String → String}

theorem Occurrence.Renamed.refl (use : Occurrence) : use.Renamed f use :=
  ⟨rfl, rfl, rfl, rfl, Or.inl rfl⟩

theorem forall₂_renamed_refl (uses : List Occurrence) :
    List.Forall₂ (Occurrence.Renamed f) uses uses :=
  List.forall₂_same.2 fun use _ => .refl use

/-- A path expression is renamed at most itself; the paths inside it stay. -/
theorem Reference.forall₂_withNested_renameLocal (ref : Reference) (span : Span)
    (function : String) :
    List.Forall₂ (Occurrence.Renamed f)
      (Occurrence.withNested ⟨ref, .expression, span, none, function⟩)
      (Occurrence.withNested ⟨ref.renameLocal f, .expression, span, none, function⟩) := by
  unfold renameLocal
  split
  · rename_i name args
    have huse : Occurrence.Renamed f
        ⟨.resolved none [⟨name, args⟩] .localVar, .expression, span, none, function⟩
        ⟨.resolved none [⟨f name, args⟩] .localVar, .expression, span, none, function⟩ :=
      ⟨rfl, rfl, rfl, rfl, Or.inr ⟨rfl, name, args, rfl, rfl⟩⟩
    refine .cons huse ?_
    cases args with
    | none => exact forall₂_renamed_refl _
    | some args => exact forall₂_renamed_refl _
  · exact forall₂_renamed_refl _

end Occurrences

/-! ## Scopes -/

theorem ScopeStack.declareAll_rename (f : String → String) (stack : ScopeStack) (names : Scope) :
    (stack.rename f).declareAll (Scope.rename f names) = (stack.declareAll names).rename f := by
  induction names generalizing stack with
  | nil =>
      rfl
  | cons entry rest ih =>
      have hentry : (stack.rename f).declare (f entry.1) entry.2 =
          (stack.declare entry.1 entry.2).rename f := by
        cases stack <;> rfl
      calc
        ((stack.rename f).declare (f entry.1) entry.2).declareAll (Scope.rename f rest) =
            ((stack.declare entry.1 entry.2).rename f).declareAll (Scope.rename f rest) := by
          rw [hentry]
        _ = ((stack.declare entry.1 entry.2).declareAll rest).rename f := ih _

section Scopes

variable {f : String → String} (hf : Function.Injective f)
include hf

theorem Scope.lookup_rename (scope : Scope) (name : String) :
    (Scope.rename f scope).lookup (f name) = scope.lookup name := by
  induction scope with
  | nil =>
      rfl
  | cons entry rest ih =>
      have hkey : (f name == f entry.1) = (name == entry.1) := by
        rw [Bool.eq_iff_iff, beq_iff_eq, beq_iff_eq, hf.eq_iff]
      rw [Scope.rename, List.map_cons, List.lookup_cons, List.lookup_cons, hkey]
      cases name == entry.1 with
      | true => rfl
      | false => exact ih

theorem ScopeStack.lookup_rename (stack : ScopeStack) (name : String) :
    (stack.rename f).lookup (f name) = stack.lookup name := by
  have hscopes : (stack.rename f).findSome? (List.lookup (f name)) =
      stack.findSome? (List.lookup name) := by
    rw [ScopeStack.rename, List.findSome?_map]
    congr 1
    funext scope
    exact Scope.lookup_rename hf scope name
  rw [lookup, hscopes, lookup]

/-- An expression has the type that it had before its local names were changed. -/
theorem ScopeStack.typeOf_rename (stack : ScopeStack) :
    ∀ expr : Expr, (stack.rename f).typeOf (expr.rename f) = stack.typeOf expr
  | .unary op operand _ => by
      have hoperand := ScopeStack.typeOf_rename stack operand
      simp only [Expr.rename, ScopeStack.typeOf, hoperand]
  | .path ref span => by
      rw [Expr.rename]
      fun_cases Reference.renameLocal f ref with
      | case1 name args =>
          exact ScopeStack.lookup_rename hf stack name
      | case2 =>
          rename_i hother
          -- Only a local name has a type on its own.
          have hnone (stack : ScopeStack) : stack.typeOf (.path ref span) = none := by
            rw [ScopeStack.typeOf]
            · simp
            · intro segment span' hpath
              injection hpath with href
              exact hother segment.name segment.args href
            · simp
          rw [hnone, hnone]
  | .block ⟨[], some tail, _⟩ _ => ScopeStack.typeOf_rename stack tail
  | .block ⟨[], none, _⟩ _ => rfl
  | .block ⟨stmt :: _, _, _⟩ _ => by cases stmt <;> rfl
  | .lit _ _ | .call _ _ _ | .methodCall _ _ _ _ | .struct _ _ _ _ | .matchExpr _ _ _
  | .ifExpr _ _ _ _ | .letExpr _ _ _ | .loop _ _ | .whileLoop _ _ _ | .forLoop _ _ _ _
  | .closure _ _ _ | .cast _ _ _ | .binary _ _ _ _ | .field _ _ _ | .index _ _ _ | .tuple _ _
  | .array _ _ | .jump _ _ _ | .macroCall _ _ => rfl

theorem bind_typeOf_renameOptional (stack : ScopeStack) (expr : Option Expr) :
    (renameOptional f expr).bind (stack.rename f).typeOf = expr.bind stack.typeOf := by
  cases expr with
  | none => rfl
  | some expr => exact ScopeStack.typeOf_rename hf stack expr

end Scopes

/-! ## Patterns -/

section Patterns

variable (f : String → String) (function : String)

theorem length_renamePatterns (pats : List Pattern) :
    (renamePatterns f pats).length = pats.length := by
  induction pats with
  | nil =>
      rfl
  | cons pat rest ih =>
      rw [renamePatterns, List.length_cons, List.length_cons, ih]

mutual

/-- A pattern binds the new names, with the types that the old ones had. -/
theorem Pattern.bound_rename :
    ∀ (pat : Pattern) (ty : Option Ty), (pat.rename f).bound ty = Scope.rename f (pat.bound ty)
  | .wild _, _ => rfl
  | .lit _ _, _ => rfl
  | .path _ _, _ => rfl
  | .binding _ none _ _ _, _ => rfl
  | .binding name (some sub) _ _ _, ty => congrArg ((f name, ty) :: ·) (sub.bound_rename ty)
  | .tupleStruct _ elems _, _ => by
      rw [Pattern.rename, Pattern.bound, length_renamePatterns]
      exact boundAll_renamePatterns elems _
  | .struct _ fields _ _, _ => boundFields_renameFieldPatterns fields
  | .tuple elems _, _ => by
      rw [Pattern.rename, Pattern.bound, length_renamePatterns]
      exact boundAll_renamePatterns elems _
  | .slice elems _, _ => by
      rw [Pattern.rename, Pattern.bound, length_renamePatterns]
      exact boundAll_renamePatterns elems _
  | .ref inner _, ty => inner.bound_rename (ty.map Ty.deref)
  | .or [] _, _ => rfl
  | .or (alt :: _) _, ty => alt.bound_rename ty

theorem boundAll_renamePatterns :
    ∀ (pats : List Pattern) (tys : List (Option Ty)),
      Pattern.boundAll (renamePatterns f pats) tys = Scope.rename f (Pattern.boundAll pats tys)
  | [], _ => rfl
  | _ :: _, [] => rfl
  | pat :: pats, ty :: tys => by
      rw [renamePatterns, Pattern.boundAll, pat.bound_rename ty, boundAll_renamePatterns pats tys,
        Pattern.boundAll]
      exact List.map_append.symm

theorem boundFields_renameFieldPatterns :
    ∀ fields : List FieldPattern,
      Pattern.boundFields (renameFieldPatterns f fields) =
        Scope.rename f (Pattern.boundFields fields)
  | [] => rfl
  | ⟨_, pat⟩ :: rest => by
      rw [renameFieldPatterns, Pattern.boundFields, pat.bound_rename none,
        boundFields_renameFieldPatterns rest, Pattern.boundFields]
      exact List.map_append.symm

end

mutual

/-- The paths in a pattern are no local names, so their occurrences stay as they are. -/
theorem Pattern.occurrences_rename :
    ∀ (pat : Pattern) (ty : Option Ty),
      (pat.rename f).occurrences function ty = pat.occurrences function ty
  | .wild _, _ => rfl
  | .lit _ _, _ => rfl
  | .path _ _, _ => rfl
  | .binding _ none _ _ _, _ => rfl
  | .binding _ (some sub) _ _ _, ty => sub.occurrences_rename ty
  | .tupleStruct _ elems _, _ => by
      rw [Pattern.rename, Pattern.occurrences, length_renamePatterns,
        occurrencesAll_renamePatterns elems]
      rfl
  | .struct _ fields _ _, _ => congrArg (_ ++ ·) (occurrencesFields_renameFieldPatterns fields)
  | .tuple elems _, _ => by
      rw [Pattern.rename, Pattern.occurrences, length_renamePatterns]
      exact occurrencesAll_renamePatterns elems _
  | .slice elems _, _ => by
      rw [Pattern.rename, Pattern.occurrences, length_renamePatterns]
      exact occurrencesAll_renamePatterns elems _
  | .ref inner _, ty => inner.occurrences_rename (ty.map Ty.deref)
  | .or alts _, _ => by
      rw [Pattern.rename, Pattern.occurrences, length_renamePatterns]
      exact occurrencesAll_renamePatterns alts _

theorem occurrencesAll_renamePatterns :
    ∀ (pats : List Pattern) (tys : List (Option Ty)),
      Pattern.occurrencesAll function (renamePatterns f pats) tys =
        Pattern.occurrencesAll function pats tys
  | [], _ => rfl
  | _ :: _, [] => rfl
  | pat :: pats, ty :: tys =>
      congrArg₂ (· ++ ·) (pat.occurrences_rename ty) (occurrencesAll_renamePatterns pats tys)

theorem occurrencesFields_renameFieldPatterns :
    ∀ fields : List FieldPattern,
      Pattern.occurrencesFields function (renameFieldPatterns f fields) =
        Pattern.occurrencesFields function fields
  | [] => rfl
  | ⟨_, pat⟩ :: rest =>
      congrArg₂ (· ++ ·) (pat.occurrences_rename none) (occurrencesFields_renameFieldPatterns rest)

end

end Patterns

/-! ## Stretches of a body -/

/-- From renamed scopes one stretch goes by the occurrences of another, with the local names among
them renamed, and leaves the scopes of the other renamed. -/
def Walk.Renamed (f : String → String) (old new : Walk) : Prop :=
  ∀ stack : ScopeStack,
    List.Forall₂ (Occurrence.Renamed f) (old stack).1 (new (stack.rename f)).1 ∧
      (new (stack.rename f)).2 = (old stack).2.rename f

namespace Walk.Renamed

variable {f : String → String} {old new old' new' : Walk}

theorem nothing : Renamed f Walk.nothing Walk.nothing :=
  fun _ => ⟨.nil, rfl⟩

theorem report {uses uses' : List Occurrence}
    (h : List.Forall₂ (Occurrence.Renamed f) uses uses') :
    Renamed f (.report uses) (.report uses') :=
  fun _ => ⟨h, rfl⟩

theorem append (first : Renamed f old new) (second : Renamed f old' new') :
    Renamed f (old ++ old') (new ++ new') := by
  intro stack
  rcases first stack with ⟨huses, hstack⟩
  rcases second (old stack).2 with ⟨huses', hstack'⟩
  rw [← hstack] at huses' hstack'
  exact ⟨List.rel_append huses huses', hstack'⟩

theorem inScope (h : Renamed f old new) : Renamed f (.inScope old) (.inScope new) := by
  intro stack
  rcases h stack.push with ⟨huses, hstack⟩
  refine ⟨huses, ?_⟩
  calc
    (new (stack.push.rename f)).2.pop = ((old stack.push).2.rename f).pop := by rw [hstack]
    _ = (old stack.push).2.pop.rename f := List.map_tail.symm

theorem declare (names : Scope) : Renamed f (.declare names) (.declare (Scope.rename f names)) :=
  fun stack => ⟨.nil, ScopeStack.declareAll_rename f stack names⟩

theorem withType {read read' : ScopeStack → Option Ty} {next next' : Option Ty → Walk}
    (hread : ∀ stack : ScopeStack, read' (stack.rename f) = read stack)
    (h : ∀ ty, Renamed f (next ty) (next' ty)) :
    Renamed f (.withType read next) (.withType read' next') := by
  intro stack
  have hstretch := h (read stack) stack
  simpa only [Walk.withType, hread stack] using hstretch

end Walk.Renamed

section Tree

variable {f : String ↪ String} (function : String)

theorem Pattern.renamed_walk (pat : Pattern) (ty : Option Ty) :
    Walk.Renamed f (pat.walk function ty) ((pat.rename f).walk function ty) := by
  unfold walk
  rw [pat.occurrences_rename f function ty, pat.bound_rename f ty]
  exact (Walk.Renamed.report (forall₂_renamed_refl _)).append (.declare _)

theorem ClosureParam.renamed_walkAll (params : List ClosureParam) :
    Walk.Renamed f (walkAll function params)
      (walkAll function (params.map (ClosureParam.rename f))) := by
  induction params with
  | nil =>
      exact .nothing
  | cons param rest ih =>
      have hty : Walk.Renamed f (.report (param.ty.elim [] (Ty.occurrences function)))
          (.report (param.ty.elim [] (Ty.occurrences function))) :=
        .report (forall₂_renamed_refl _)
      exact (hty.append (param.pat.renamed_walk function param.ty)).append ih

theorem Param.renamed_walkAll (params : List Param) :
    Walk.Renamed f (walkAll function params) (walkAll function (params.map (Param.rename f))) := by
  induction params with
  | nil =>
      exact .nothing
  | cons param rest ih =>
      exact (param.pat.renamed_walk function (some param.ty)).append ih

-- By recursion on the tree. The subject of a pattern is read off the scopes in front of it, and is
-- the same before and after since distinct names stay distinct.

mutual

theorem Expr.renamed_walk :
    ∀ expr : Expr, Walk.Renamed f (expr.walk function) ((expr.rename f).walk function)
  | .lit _ _ => .nothing
  | .macroCall _ _ => .nothing
  | .path ref span => .report (ref.forall₂_withNested_renameLocal span function)
  | .call func args _ => func.renamed_walk.append (renamed_walkExprs args)
  | .methodCall receiver _ args _ => receiver.renamed_walk.append (renamed_walkExprs args)
  | .struct _ fields base _ =>
      ((Walk.Renamed.report (forall₂_renamed_refl _)).append (renamed_walkFields fields)).append
        (renamed_walkOptional base)
  | .matchExpr scrutinee arms _ =>
      scrutinee.renamed_walk.append
        (.withType (fun stack => stack.typeOf_rename f.injective scrutinee)
          fun ty => renamed_walkArms ty arms)
  | .ifExpr cond thenBranch elseBranch _ =>
      (cond.renamed_walk.append thenBranch.renamed_walk).inScope.append
        (renamed_walkOptional elseBranch)
  | .letExpr pat init _ =>
      init.renamed_walk.append
        (.withType (fun stack => stack.typeOf_rename f.injective init)
          fun ty => pat.renamed_walk function ty)
  | .loop body _ => body.renamed_walk
  | .whileLoop cond body _ => (cond.renamed_walk.append body.renamed_walk).inScope
  | .forLoop pat iter body _ =>
      iter.renamed_walk.append ((pat.renamed_walk function none).append body.renamed_walk).inScope
  | .block block _ => block.renamed_walk
  | .closure params body _ =>
      ((ClosureParam.renamed_walkAll function params).append body.renamed_walk).inScope
  | .cast expr _ _ => expr.renamed_walk.append (.report (forall₂_renamed_refl _))
  | .unary _ operand _ => operand.renamed_walk
  | .binary _ lhs rhs _ => lhs.renamed_walk.append rhs.renamed_walk
  | .field base _ _ => base.renamed_walk
  | .index base index _ => base.renamed_walk.append index.renamed_walk
  | .tuple elems _ => renamed_walkExprs elems
  | .array elems _ => renamed_walkExprs elems
  | .jump _ value _ => renamed_walkOptional value

theorem renamed_walkExprs :
    ∀ exprs : List Expr,
      Walk.Renamed f (walkExprs function exprs) (walkExprs function (renameExprs f exprs))
  | [] => .nothing
  | expr :: rest => expr.renamed_walk.append (renamed_walkExprs rest)

theorem renamed_walkOptional :
    ∀ expr : Option Expr,
      Walk.Renamed f (walkOptional function expr) (walkOptional function (renameOptional f expr))
  | none => .nothing
  | some expr => expr.renamed_walk

theorem renamed_walkFields :
    ∀ fields : List FieldInit,
      Walk.Renamed f (walkFields function fields) (walkFields function (renameFields f fields))
  | [] => .nothing
  | ⟨_, value⟩ :: rest => value.renamed_walk.append (renamed_walkFields rest)

theorem renamed_walkArms (ty : Option Ty) :
    ∀ arms : List Arm,
      Walk.Renamed f (walkArms function ty arms) (walkArms function ty (renameArms f arms))
  | [] => .nothing
  | ⟨pat, body, guard, _⟩ :: rest =>
      (((pat.renamed_walk function ty).append (renamed_walkOptional guard)).append
        body.renamed_walk).inScope.append (renamed_walkArms ty rest)

theorem Block.renamed_walk :
    ∀ block : Block, Walk.Renamed f (block.walk function) ((block.rename f).walk function)
  | ⟨stmts, tail, _⟩ => ((renamed_walkStmts stmts).append (renamed_walkOptional tail)).inScope

theorem renamed_walkStmts :
    ∀ stmts : List Stmt,
      Walk.Renamed f (walkStmts function stmts) (walkStmts function (renameStmts f stmts))
  | [] => .nothing
  | .itemStmt _ :: rest => renamed_walkStmts rest
  | .exprStmt expr _ :: rest => expr.renamed_walk.append (renamed_walkStmts rest)
  | .letStmt pat ty init elseBlock _ :: rest => by
      have hty : Walk.Renamed f (.report (ty.elim [] (Ty.occurrences function)))
          (.report (ty.elim [] (Ty.occurrences function))) :=
        .report (forall₂_renamed_refl _)
      have hsubject (stack : ScopeStack) :
          ty.or ((renameOptional f init).bind (stack.rename f).typeOf) =
            ty.or (init.bind stack.typeOf) :=
        congrArg ty.or (bind_typeOf_renameOptional f.injective stack init)
      have hpat (subject : Option Ty) :
          Walk.Renamed f
            (.report (pat.occurrences function subject) ++ walkElse function elseBlock ++
              .declare (pat.bound subject))
            (.report ((pat.rename f).occurrences function subject) ++
              walkElse function (renameElse f elseBlock) ++
              .declare ((pat.rename f).bound subject)) := by
        rw [pat.occurrences_rename f function subject, pat.bound_rename f subject]
        exact ((Walk.Renamed.report (forall₂_renamed_refl _)).append
          (renamed_walkElse elseBlock)).append (.declare _)
      exact ((hty.append (renamed_walkOptional init)).append (.withType hsubject hpat)).append
        (renamed_walkStmts rest)

theorem renamed_walkElse :
    ∀ block : Option Block,
      Walk.Renamed f (walkElse function block) (walkElse function (renameElse f block))
  | none => .nothing
  | some block => block.renamed_walk

end

end Tree

/-- A method with its local variables renamed goes by the same occurrences, with the local names
among them renamed. -/
theorem Method.renamed_occurrences (f : String ↪ String) (method : Method) :
    List.Forall₂ (Occurrence.Renamed f) method.occurrences (method.rename f).occurrences := by
  have hmethod : Walk.Renamed f method.walk (method.rename f).walk :=
    ((Param.renamed_walkAll method.name method.params).append
      (method.body.renamed_walk method.name)).inScope
  exact (hmethod []).1

end AssocLint
