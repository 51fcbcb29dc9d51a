import AssocLint.Proofs.Suggestion.Rewritten

/-!
# Walking a body that follows a plan

A stretch of a body follows another by a plan when, from the same scopes, it goes by the same
occurrences with the planned paths rewritten, and ends with the same scopes (`Walk.Follows`). That
holds of every node of the tree and what a plan makes of it. The one thing a walk reads off an
expression is its type, and an expression that has one is never rewritten (`typeOf_follow`).
-/

namespace AssocLint

/-- One stretch of a body goes by the occurrences of another as planned, and leaves the scopes as
the other leaves them. -/
def Walk.Follows (plan : Plan) (number : Nat) (old new : Walk) (number' : Nat) : Prop :=
  ∀ stack, Rewritten plan number (old stack).1 (new stack).1 number' ∧ (new stack).2 = (old stack).2

namespace Walk.Follows

variable {plan : Plan} {number number' number'' : Nat} {old old' new new' : Walk}

theorem nothing (plan : Plan) (number : Nat) :
    Follows plan number Walk.nothing Walk.nothing number := by
  intro stack
  exact ⟨.done number, rfl⟩

theorem append (first : Follows plan number old new number')
    (second : Follows plan number' old' new' number'') :
    Follows plan number (old ++ old') (new ++ new') number'' := by
  intro stack
  -- The second stretch starts from the scopes that the first one leaves, before and after.
  rcases first stack with ⟨hfirst, hstack⟩
  rcases second (old stack).2 with ⟨hsecond, hstack'⟩
  have hnew : (new ++ new') stack =
      ((new stack).1 ++ (new' (old stack).2).1, (new' (old stack).2).2) := by
    rw [← hstack]
    rfl
  rw [hnew]
  exact ⟨hfirst.append hsecond, hstack'⟩

theorem inScope (h : Follows plan number old new number') :
    Follows plan number (.inScope old) (.inScope new) number' := by
  intro stack
  rcases h stack.push with ⟨hrewritten, hstack⟩
  exact ⟨hrewritten, congrArg ScopeStack.pop hstack⟩

theorem report {uses uses' : List Occurrence} (h : Rewritten plan number uses uses' number') :
    Follows plan number (.report uses) (.report uses') number' := by
  intro stack
  exact ⟨h, rfl⟩

theorem declare (plan : Plan) (number : Nat) {names names' : List (String × Option Ty)}
    (h : names' = names) : Follows plan number (.declare names) (.declare names') number := by
  intro stack
  rw [h]
  exact ⟨.done number, rfl⟩

theorem withType {read read' : ScopeStack → Option Ty} {old new : Option Ty → Walk}
    (hread : ∀ stack, read' stack = read stack)
    (h : ∀ ty, Follows plan number (old ty) (new ty) number') :
    Follows plan number (.withType read old) (.withType read' new) number' := by
  intro stack
  have hstretch := h (read stack) stack
  simpa only [Walk.withType, hread stack] using hstretch

end Walk.Follows

section Expressions

variable (plan : Plan) (function : String)

/-! ## Types -/

/-- A type is read off a path only where it is a local name, which stands for no associated type. -/
theorem typeOf_path_throughAssociated (stack : ScopeStack) (ref : Reference) (name : String)
    (span : Span) :
    stack.typeOf (.path (ref.throughAssociated name) span) = stack.typeOf (.path ref span) := by
  unfold Reference.throughAssociated
  cases ref with
  | resolved qualifier segments res =>
      -- A local name is neither a type nor a member of one, so it is not written in another way.
      cases res <;> cases hlast : segments.getLast? <;>
        simp [Reference.member?, Reference.res?, Resolution.isMember, hlast, ScopeStack.typeOf,
          Reference.associated]
  | relative base segment res =>
      cases res <;>
        simp [Reference.member?, Reference.res?, Resolution.isMember, ScopeStack.typeOf,
          Reference.associated]
  | _ =>
      rfl

/-- An expression has the type that it had before it was rewritten. -/
theorem typeOf_follow (stack : ScopeStack) :
    ∀ (expr : Expr) (number : Nat),
      stack.typeOf ((expr.follow plan).run number).1 = stack.typeOf expr
  | .unary op operand span, number => by
      have hoperand := typeOf_follow stack operand number
      simp only [Expr.follow, Plan.run_bind, Plan.run_pure, ScopeStack.typeOf, hoperand]
  | .path ref span, number => by
      simp only [Expr.follow, Plan.run_bind, Plan.run_pure, Plan.run_write]
      cases plan number with
      | none => rfl
      | some name => exact typeOf_path_throughAssociated stack ref name span
  | .block ⟨[], some tail, _⟩ _, number => typeOf_follow stack tail number
  | .block ⟨[], none, _⟩ _, _ => rfl
  | .block ⟨stmt :: _, _, _⟩ _, _ => by cases stmt <;> rfl
  | .lit _ _, _ | .call _ _ _, _ | .methodCall _ _ _ _, _ | .struct _ _ _ _, _
  | .matchExpr _ _ _, _ | .ifExpr _ _ _ _, _ | .letExpr _ _ _, _ | .loop _ _, _
  | .whileLoop _ _ _, _ | .forLoop _ _ _ _, _ | .closure _ _ _, _ | .cast _ _ _, _
  | .binary _ _ _ _, _ | .field _ _ _, _ | .index _ _ _, _ | .tuple _ _, _ | .array _ _, _
  | .jump _ _ _, _ | .macroCall _ _, _ => rfl

theorem bind_typeOf_followOptional (stack : ScopeStack) (expr : Option Expr) (number : Nat) :
    ((followOptional plan expr).run number).1.bind stack.typeOf = expr.bind stack.typeOf := by
  cases expr with
  | none => rfl
  | some expr => exact typeOf_follow plan stack expr number

/-! ## Patterns and parameters -/

theorem Pattern.follows_follow (pat : Pattern) (ty : Option Ty) (number : Nat) :
    Walk.Follows plan number (pat.walk function ty)
      (((pat.follow plan).run number).1.walk function ty) ((pat.follow plan).run number).2 :=
  (Walk.Follows.report (pat.rewritten_follow plan function ty number)).append
    (.declare plan _ (pat.bound_follow plan ty number))

theorem Walk.Follows.ascriptions (ty : Ty) (number : Nat) :
    Walk.Follows plan number (.report (ty.occurrences function)) (.report (ty.occurrences function))
      (number + ty.uses) := by
  have hty := Rewritten.refl_of_ascriptions plan number (ty.occurrences function) fun use huse =>
    Ty.kind_of_mem_occurrences huse
  rw [Ty.length_occurrences] at hty
  exact .report hty

theorem Walk.Follows.ascriptionsOptional (ty : Option Ty) (number : Nat) :
    Walk.Follows plan number (.report (ty.elim [] (Ty.occurrences function)))
      (.report (ty.elim [] (Ty.occurrences function))) (number + ty.elim 0 Ty.uses) := by
  cases ty with
  | none => exact .report (.done number)
  | some ty => exact .ascriptions plan function ty number

theorem ClosureParam.follows_followAll (params : List ClosureParam) (number : Nat) :
    Walk.Follows plan number (ClosureParam.walkAll function params)
      (ClosureParam.walkAll function ((ClosureParam.followAll plan params).run number).1)
      ((ClosureParam.followAll plan params).run number).2 := by
  induction params generalizing number with
  | nil =>
      exact .nothing plan number
  | cons param rest ih =>
      have hty := Walk.Follows.ascriptionsOptional plan function param.ty number
      exact (hty.append (param.pat.follows_follow plan function param.ty _)).append (ih _)

/-! ## Expressions -/

-- By recursion on the tree. Each kind of node puts the stretches of its parts together in the order
-- of the walk, which is the order in which the pass numbers them.

mutual

theorem Expr.follows_follow :
    ∀ (expr : Expr) (number : Nat),
      Walk.Follows plan number (expr.walk function)
        (((expr.follow plan).run number).1.walk function) ((expr.follow plan).run number).2
  | .lit _ _, number => .nothing plan number
  | .macroCall _ _, number => .nothing plan number
  | .path ref span, number =>
      .report (.of_write plan number ref .expression nofun span none function)
  | .call func args _, number =>
      (func.follows_follow number).append (follows_followExprs args _)
  | .methodCall receiver _ args _, number =>
      (receiver.follows_follow number).append (follows_followExprs args _)
  | .struct ref fields base span, number =>
      ((Walk.Follows.report (.of_write plan number ref .expression nofun span none function)).append
        (follows_followFields fields _)).append (follows_followOptional base _)
  | .matchExpr scrutinee arms _, number =>
      (scrutinee.follows_follow number).append
        (.withType (fun stack => typeOf_follow plan stack scrutinee number)
          fun ty => follows_followArms ty arms _)
  | .ifExpr cond thenBranch elseBranch _, number =>
      ((cond.follows_follow number).append (thenBranch.follows_follow _)).inScope.append
        (follows_followOptional elseBranch _)
  | .letExpr pat init _, number =>
      (init.follows_follow number).append
        (.withType (fun stack => typeOf_follow plan stack init number)
          fun ty => pat.follows_follow plan function ty _)
  | .loop body _, number => body.follows_follow number
  | .whileLoop cond body _, number =>
      ((cond.follows_follow number).append (body.follows_follow _)).inScope
  | .forLoop pat iter body _, number =>
      (iter.follows_follow number).append
        ((pat.follows_follow plan function none _).append (body.follows_follow _)).inScope
  | .block block _, number => block.follows_follow number
  | .closure params body _, number =>
      ((ClosureParam.follows_followAll plan function params number).append
        (body.follows_follow _)).inScope
  | .cast expr ty _, number =>
      (expr.follows_follow number).append (.ascriptions plan function ty _)
  | .unary _ operand _, number => operand.follows_follow number
  | .binary _ lhs rhs _, number => (lhs.follows_follow number).append (rhs.follows_follow _)
  | .field base _ _, number => base.follows_follow number
  | .index base index _, number => (base.follows_follow number).append (index.follows_follow _)
  | .tuple elems _, number => follows_followExprs elems number
  | .array elems _, number => follows_followExprs elems number
  | .jump _ value _, number => follows_followOptional value number

theorem follows_followExprs :
    ∀ (exprs : List Expr) (number : Nat),
      Walk.Follows plan number (walkExprs function exprs)
        (walkExprs function ((followExprs plan exprs).run number).1)
        ((followExprs plan exprs).run number).2
  | [], number => .nothing plan number
  | expr :: rest, number => (expr.follows_follow number).append (follows_followExprs rest _)

theorem follows_followOptional :
    ∀ (expr : Option Expr) (number : Nat),
      Walk.Follows plan number (walkOptional function expr)
        (walkOptional function ((followOptional plan expr).run number).1)
        ((followOptional plan expr).run number).2
  | none, number => .nothing plan number
  | some expr, number => expr.follows_follow number

theorem follows_followFields :
    ∀ (fields : List FieldInit) (number : Nat),
      Walk.Follows plan number (walkFields function fields)
        (walkFields function ((followFields plan fields).run number).1)
        ((followFields plan fields).run number).2
  | [], number => .nothing plan number
  | ⟨_, value⟩ :: rest, number =>
      (value.follows_follow number).append (follows_followFields rest _)

theorem follows_followArms (ty : Option Ty) :
    ∀ (arms : List Arm) (number : Nat),
      Walk.Follows plan number (walkArms function ty arms)
        (walkArms function ty ((followArms plan arms).run number).1)
        ((followArms plan arms).run number).2
  | [], number => .nothing plan number
  | ⟨pat, body, guard, _⟩ :: rest, number =>
      (((pat.follows_follow plan function ty number).append (follows_followOptional guard _)).append
        (body.follows_follow _)).inScope.append (follows_followArms ty rest _)

theorem Block.follows_follow :
    ∀ (block : Block) (number : Nat),
      Walk.Follows plan number (block.walk function)
        (((block.follow plan).run number).1.walk function) ((block.follow plan).run number).2
  | ⟨stmts, tail, _⟩, number =>
      ((follows_followStmts stmts number).append (follows_followOptional tail _)).inScope

theorem follows_followStmts :
    ∀ (stmts : List Stmt) (number : Nat),
      Walk.Follows plan number (walkStmts function stmts)
        (walkStmts function ((followStmts plan stmts).run number).1)
        ((followStmts plan stmts).run number).2
  | [], number => .nothing plan number
  | .itemStmt _ :: rest, number => follows_followStmts rest number
  | .exprStmt expr _ :: rest, number =>
      (expr.follows_follow number).append (follows_followStmts rest _)
  | .letStmt pat ty init elseBlock _ :: rest, number => by
      have hty := Walk.Follows.ascriptionsOptional plan function ty number
      have hinit := follows_followOptional init (number + ty.elim 0 Ty.uses)
      -- The pattern has one subject before and after, and so declares the same names.
      have hpat (subject : Option Ty) (number : Nat) :=
        ((Walk.Follows.report (pat.rewritten_follow plan function subject number)).append
          (follows_followElse elseBlock _)).append
            (.declare plan _ (pat.bound_follow plan subject number))
      have hsubject (stack : ScopeStack) := congrArg ty.or
        (bind_typeOf_followOptional plan stack init (number + ty.elim 0 Ty.uses))
      have hlet := (hty.append hinit).append (.withType hsubject fun subject => hpat subject _)
      exact hlet.append (follows_followStmts rest _)

theorem follows_followElse :
    ∀ (block : Option Block) (number : Nat),
      Walk.Follows plan number (walkElse function block)
        (walkElse function ((followElse plan block).run number).1)
        ((followElse plan block).run number).2
  | none, number => .nothing plan number
  | some block, number => block.follows_follow number

end

/-! ## Methods and blocks -/

theorem Param.follows_followAll (params : List Param) (number : Nat) :
    Walk.Follows plan number (Param.walkAll function params)
      (Param.walkAll function ((Param.followAll plan params).run number).1)
      ((Param.followAll plan params).run number).2 := by
  induction params generalizing number with
  | nil =>
      exact .nothing plan number
  | cons param rest ih =>
      exact (param.pat.follows_follow plan function param.ty number).append (ih _)

theorem Method.rewritten_follow (method : Method) (number : Nat) :
    Rewritten plan number method.occurrences ((method.follow plan).run number).1.occurrences
      ((method.follow plan).run number).2 := by
  have hparams := Param.follows_followAll plan method.name method.params number
  have hmethod := (hparams.append (method.body.follows_follow plan method.name _)).inScope
  exact (hmethod []).1

end Expressions

namespace ImplBlock

variable (plan : Plan) (block : ImplBlock)

/-- The occurrences of a block that follows a plan are those of the block as planned. -/
theorem rewritten_follow :
    Rewritten plan 0 block.occurrences (block.follow plan).occurrences
      ((ImplItem.followAll plan block.items).run 0).2 := by
  have hitems (items : List ImplItem) (number : Nat) :
      Rewritten plan number { block with items }.occurrences
        { block with items := ((ImplItem.followAll plan items).run number).1 }.occurrences
        ((ImplItem.followAll plan items).run number).2 := by
    -- Only methods have occurrences, so only they take numbers.
    induction items generalizing number with
    | nil =>
        exact .done number
    | cons item rest ih =>
        cases item with
        | method item =>
            exact (item.rewritten_follow plan number).append (ih _)
        | assocType item =>
            exact ih number
        | assocConst item =>
            exact ih number
  exact hitems block.items 0

theorem assocTypes_follow : (block.follow plan).assocTypes = block.assocTypes := by
  have hitems (items : List ImplItem) (number : Nat) :
      { block with items := ((ImplItem.followAll plan items).run number).1 }.assocTypes =
        { block with items }.assocTypes := by
    induction items generalizing number with
    | nil =>
        rfl
    | cons item rest ih =>
        cases item with
        | method item =>
            exact ih _
        | assocType item =>
            exact congrArg (item :: ·) (ih number)
        | assocConst item =>
            exact ih number
  exact hitems block.items 0

/-- Following a plan changes no binding. -/
theorem index_follow : (block.follow plan).index = block.index := by
  simp only [index, bindings, assocTypes_follow]

end ImplBlock
end AssocLint
