import AssocLint.Tree.Crate

/-!
# Trees with other references

`mapReferences` puts another reference for every one that a tree is written with and leaves all else
as it is. Two trees with the same image differ in nothing but references that the function does not
tell apart: under the identity they are equal, and under a constant function they may have any
references.
-/

namespace AssocLint

variable (f : Reference → Reference)

/-! ## Types -/

mutual

def Ty.mapReferences : Ty → Ty
  | .path written span => .path (f written) span
  | .ref inner mutable span => .ref inner.mapReferences mutable span
  | .tuple elems span => .tuple (Ty.mapReferencesAll elems) span
  | .slice elem span => .slice elem.mapReferences span
  | .array elem length span => .array elem.mapReferences length span
  | .infer span => .infer span
  | .never span => .never span
  | .verbatim text span => .verbatim text span
termination_by structural ty => ty

def Ty.mapReferencesAll : List Ty → List Ty
  | [] => []
  | ty :: rest => ty.mapReferences :: Ty.mapReferencesAll rest
termination_by structural tys => tys

end

/-! ## Patterns -/

mutual

def Pattern.mapReferences : Pattern → Pattern
  | .wild span => .wild span
  | .binding name none byRef mutable span => .binding name none byRef mutable span
  | .binding name (some sub) byRef mutable span =>
    .binding name (some sub.mapReferences) byRef mutable span
  | .path ref span => .path (f ref) span
  | .tupleStruct ref elems span => .tupleStruct (f ref) (Pattern.mapReferencesAll elems) span
  | .struct ref fields rest span =>
    .struct (f ref) (FieldPattern.mapReferencesAll fields) rest span
  | .tuple elems span => .tuple (Pattern.mapReferencesAll elems) span
  | .slice elems span => .slice (Pattern.mapReferencesAll elems) span
  | .ref inner span => .ref inner.mapReferences span
  | .or alts span => .or (Pattern.mapReferencesAll alts) span
  | .lit text span => .lit text span
termination_by structural pat => pat

def Pattern.mapReferencesAll : List Pattern → List Pattern
  | [] => []
  | pat :: rest => pat.mapReferences :: Pattern.mapReferencesAll rest
termination_by structural pats => pats

def FieldPattern.mapReferencesAll : List FieldPattern → List FieldPattern
  | [] => []
  | ⟨name, pat⟩ :: rest => ⟨name, pat.mapReferences⟩ :: FieldPattern.mapReferencesAll rest
termination_by structural fields => fields

end

/-! ## Expressions -/

def ClosureParam.mapReferences (param : ClosureParam) : ClosureParam :=
  ⟨param.pat.mapReferences f, param.ty.map (Ty.mapReferences f)⟩

mutual

def Expr.mapReferences : Expr → Expr
  | .path ref span => .path (f ref) span
  | .lit text span => .lit text span
  | .call func args span => .call func.mapReferences (Expr.mapReferencesAll args) span
  | .methodCall receiver method args span =>
    .methodCall receiver.mapReferences method (Expr.mapReferencesAll args) span
  | .struct ref fields base span =>
    .struct (f ref) (FieldInit.mapReferencesAll fields) (Expr.mapReferencesOptional base) span
  | .matchExpr scrutinee arms span =>
    .matchExpr scrutinee.mapReferences (Arm.mapReferencesAll arms) span
  | .ifExpr cond thenBranch elseBranch span =>
    .ifExpr cond.mapReferences thenBranch.mapReferences (Expr.mapReferencesOptional elseBranch) span
  | .letExpr pat init span => .letExpr (pat.mapReferences f) init.mapReferences span
  | .loop body span => .loop body.mapReferences span
  | .whileLoop cond body span => .whileLoop cond.mapReferences body.mapReferences span
  | .forLoop pat iter body span =>
    .forLoop (pat.mapReferences f) iter.mapReferences body.mapReferences span
  | .block block span => .block block.mapReferences span
  | .closure params body span =>
    .closure (params.map (ClosureParam.mapReferences f)) body.mapReferences span
  | .cast expr ty span => .cast expr.mapReferences (ty.mapReferences f) span
  | .unary op operand span => .unary op operand.mapReferences span
  | .binary op lhs rhs span => .binary op lhs.mapReferences rhs.mapReferences span
  | .field base name span => .field base.mapReferences name span
  | .index base index span => .index base.mapReferences index.mapReferences span
  | .tuple elems span => .tuple (Expr.mapReferencesAll elems) span
  | .array elems span => .array (Expr.mapReferencesAll elems) span
  | .jump keyword value span => .jump keyword (Expr.mapReferencesOptional value) span
  | .macroCall name span => .macroCall name span
termination_by structural expr => expr

def Expr.mapReferencesAll : List Expr → List Expr
  | [] => []
  | expr :: rest => expr.mapReferences :: Expr.mapReferencesAll rest
termination_by structural exprs => exprs

def Expr.mapReferencesOptional : Option Expr → Option Expr
  | none => none
  | some expr => some expr.mapReferences
termination_by structural expr => expr

def FieldInit.mapReferencesAll : List FieldInit → List FieldInit
  | [] => []
  | ⟨name, value⟩ :: rest => ⟨name, value.mapReferences⟩ :: FieldInit.mapReferencesAll rest
termination_by structural fields => fields

def Arm.mapReferences : Arm → Arm
  | ⟨pat, body, guard, span⟩ =>
    ⟨pat.mapReferences f, body.mapReferences, Expr.mapReferencesOptional guard, span⟩
termination_by structural arm => arm

def Arm.mapReferencesAll : List Arm → List Arm
  | [] => []
  | arm :: rest => arm.mapReferences :: Arm.mapReferencesAll rest
termination_by structural arms => arms

def Block.mapReferences : Block → Block
  | ⟨stmts, tail, span⟩ => ⟨Stmt.mapReferencesAll stmts, Expr.mapReferencesOptional tail, span⟩
termination_by structural block => block

def Stmt.mapReferences : Stmt → Stmt
  | .letStmt pat ty init elseBlock span =>
    .letStmt (pat.mapReferences f) (ty.map (Ty.mapReferences f)) (Expr.mapReferencesOptional init)
      (Block.mapReferencesOptional elseBlock) span
  | .exprStmt expr span => .exprStmt expr.mapReferences span
  | .itemStmt span => .itemStmt span
termination_by structural stmt => stmt

def Stmt.mapReferencesAll : List Stmt → List Stmt
  | [] => []
  | stmt :: rest => stmt.mapReferences :: Stmt.mapReferencesAll rest
termination_by structural stmts => stmts

def Block.mapReferencesOptional : Option Block → Option Block
  | none => none
  | some block => some block.mapReferences
termination_by structural block => block

end

theorem Block.span_mapReferences (block : Block) : (block.mapReferences f).span = block.span := by
  cases block
  rfl

/-! ## Crates -/

def Param.mapReferences (param : Param) : Param :=
  { param with pat := param.pat.mapReferences f, ty := param.ty.mapReferences f }

def ImplItem.mapReferences : ImplItem → ImplItem
  | .assocType item => .assocType { item with ty := item.ty.mapReferences f }
  | .method item =>
    .method { item with
      params := item.params.map (Param.mapReferences f)
      body := item.body.mapReferences f
      ret := item.ret.map (Ty.mapReferences f) }
  | .assocConst item =>
    .assocConst { item with
      ty := item.ty.mapReferences f, value := item.value.map (Expr.mapReferences f) }

def ImplBlock.mapReferences (block : ImplBlock) : ImplBlock :=
  { block with
    items := block.items.map (ImplItem.mapReferences f)
    traitRef := block.traitRef.map f
    selfTy := block.selfTy.map (Ty.mapReferences f) }

def Crate.mapReferences (crate : Crate) : Crate :=
  { crate with impls := crate.impls.map (ImplBlock.mapReferences f) }

/-! ## The same references -/

mutual

theorem Ty.mapReferences_id : ∀ ty : Ty, ty.mapReferences id = ty
  | .path _ _ | .infer _ | .never _ | .verbatim _ _ => rfl
  | .ref inner _ _ => by rw [Ty.mapReferences, inner.mapReferences_id]
  | .tuple elems _ => by rw [Ty.mapReferences, Ty.mapReferencesAll_id elems]
  | .slice elem _ => by rw [Ty.mapReferences, elem.mapReferences_id]
  | .array elem _ _ => by rw [Ty.mapReferences, elem.mapReferences_id]

theorem Ty.mapReferencesAll_id : ∀ tys : List Ty, Ty.mapReferencesAll id tys = tys
  | [] => rfl
  | ty :: rest => by
      rw [Ty.mapReferencesAll, ty.mapReferences_id, Ty.mapReferencesAll_id rest]

end

mutual

theorem Pattern.mapReferences_id : ∀ pat : Pattern, pat.mapReferences id = pat
  | .wild _ | .path _ _ | .lit _ _ | .binding _ none _ _ _ => rfl
  | .binding _ (some sub) _ _ _ => by rw [Pattern.mapReferences, sub.mapReferences_id]
  | .tupleStruct _ elems _ => by
      rw [Pattern.mapReferences, Pattern.mapReferencesAll_id elems, id]
  | .struct _ fields _ _ => by
      rw [Pattern.mapReferences, FieldPattern.mapReferencesAll_id fields, id]
  | .tuple elems _ => by rw [Pattern.mapReferences, Pattern.mapReferencesAll_id elems]
  | .slice elems _ => by rw [Pattern.mapReferences, Pattern.mapReferencesAll_id elems]
  | .ref inner _ => by rw [Pattern.mapReferences, inner.mapReferences_id]
  | .or alts _ => by rw [Pattern.mapReferences, Pattern.mapReferencesAll_id alts]

theorem Pattern.mapReferencesAll_id :
    ∀ pats : List Pattern, Pattern.mapReferencesAll id pats = pats
  | [] => rfl
  | pat :: rest => by
      rw [Pattern.mapReferencesAll, pat.mapReferences_id, Pattern.mapReferencesAll_id rest]

theorem FieldPattern.mapReferencesAll_id :
    ∀ fields : List FieldPattern, FieldPattern.mapReferencesAll id fields = fields
  | [] => rfl
  | ⟨_, pat⟩ :: rest => by
      rw [FieldPattern.mapReferencesAll, pat.mapReferences_id,
        FieldPattern.mapReferencesAll_id rest]

end

/-- What maps every value to itself maps several values to themselves. -/
theorem map_eq_self {α : Type} {g : α → α} (h : ∀ value, g value = value) (values : List α) :
    values.map g = values := by
  rw [List.map_congr_left fun value _ => h value, List.map_id']

theorem optionMap_eq_self {α : Type} {g : α → α} (h : ∀ value, g value = value)
    (value : Option α) : value.map g = value := by
  cases value with
  | none => rfl
  | some value => exact congrArg some (h value)

theorem ClosureParam.mapReferences_id (param : ClosureParam) : param.mapReferences id = param := by
  rw [ClosureParam.mapReferences, param.pat.mapReferences_id, optionMap_eq_self Ty.mapReferences_id]

mutual

theorem Expr.mapReferences_id : ∀ expr : Expr, expr.mapReferences id = expr
  | .path _ _ | .lit _ _ | .macroCall _ _ => rfl
  | .call func args _ => by
      rw [Expr.mapReferences, func.mapReferences_id, Expr.mapReferencesAll_id args]
  | .methodCall receiver _ args _ => by
      rw [Expr.mapReferences, receiver.mapReferences_id, Expr.mapReferencesAll_id args]
  | .struct _ fields base _ => by
      rw [Expr.mapReferences, FieldInit.mapReferencesAll_id fields,
        Expr.mapReferencesOptional_id base, id]
  | .matchExpr scrutinee arms _ => by
      rw [Expr.mapReferences, scrutinee.mapReferences_id, Arm.mapReferencesAll_id arms]
  | .ifExpr cond thenBranch elseBranch _ => by
      rw [Expr.mapReferences, cond.mapReferences_id, thenBranch.mapReferences_id,
        Expr.mapReferencesOptional_id elseBranch]
  | .letExpr pat init _ => by
      rw [Expr.mapReferences, pat.mapReferences_id, init.mapReferences_id]
  | .loop body _ => by rw [Expr.mapReferences, body.mapReferences_id]
  | .whileLoop cond body _ => by
      rw [Expr.mapReferences, cond.mapReferences_id, body.mapReferences_id]
  | .forLoop pat iter body _ => by
      rw [Expr.mapReferences, pat.mapReferences_id, iter.mapReferences_id, body.mapReferences_id]
  | .block block _ => by rw [Expr.mapReferences, block.mapReferences_id]
  | .closure params body _ => by
      rw [Expr.mapReferences, map_eq_self ClosureParam.mapReferences_id, body.mapReferences_id]
  | .cast expr ty _ => by rw [Expr.mapReferences, expr.mapReferences_id, ty.mapReferences_id]
  | .unary _ operand _ => by rw [Expr.mapReferences, operand.mapReferences_id]
  | .binary _ lhs rhs _ => by
      rw [Expr.mapReferences, lhs.mapReferences_id, rhs.mapReferences_id]
  | .field base _ _ => by rw [Expr.mapReferences, base.mapReferences_id]
  | .index base index _ => by
      rw [Expr.mapReferences, base.mapReferences_id, index.mapReferences_id]
  | .tuple elems _ => by rw [Expr.mapReferences, Expr.mapReferencesAll_id elems]
  | .array elems _ => by rw [Expr.mapReferences, Expr.mapReferencesAll_id elems]
  | .jump _ value _ => by rw [Expr.mapReferences, Expr.mapReferencesOptional_id value]

theorem Expr.mapReferencesAll_id : ∀ exprs : List Expr, Expr.mapReferencesAll id exprs = exprs
  | [] => rfl
  | expr :: rest => by
      rw [Expr.mapReferencesAll, expr.mapReferences_id, Expr.mapReferencesAll_id rest]

theorem Expr.mapReferencesOptional_id :
    ∀ expr : Option Expr, Expr.mapReferencesOptional id expr = expr
  | none => rfl
  | some expr => congrArg some expr.mapReferences_id

theorem FieldInit.mapReferencesAll_id :
    ∀ fields : List FieldInit, FieldInit.mapReferencesAll id fields = fields
  | [] => rfl
  | ⟨_, value⟩ :: rest => by
      rw [FieldInit.mapReferencesAll, value.mapReferences_id, FieldInit.mapReferencesAll_id rest]

theorem Arm.mapReferences_id : ∀ arm : Arm, arm.mapReferences id = arm
  | ⟨pat, body, guard, _⟩ => by
      rw [Arm.mapReferences, pat.mapReferences_id, body.mapReferences_id,
        Expr.mapReferencesOptional_id guard]

theorem Arm.mapReferencesAll_id : ∀ arms : List Arm, Arm.mapReferencesAll id arms = arms
  | [] => rfl
  | arm :: rest => by
      rw [Arm.mapReferencesAll, arm.mapReferences_id, Arm.mapReferencesAll_id rest]

theorem Block.mapReferences_id : ∀ block : Block, block.mapReferences id = block
  | ⟨stmts, tail, _⟩ => by
      rw [Block.mapReferences, Stmt.mapReferencesAll_id stmts, Expr.mapReferencesOptional_id tail]

theorem Stmt.mapReferences_id : ∀ stmt : Stmt, stmt.mapReferences id = stmt
  | .letStmt pat ty init elseBlock _ => by
      rw [Stmt.mapReferences, pat.mapReferences_id, optionMap_eq_self Ty.mapReferences_id,
        Expr.mapReferencesOptional_id init, Block.mapReferencesOptional_id elseBlock]
  | .exprStmt expr _ => by rw [Stmt.mapReferences, expr.mapReferences_id]
  | .itemStmt _ => rfl

theorem Stmt.mapReferencesAll_id : ∀ stmts : List Stmt, Stmt.mapReferencesAll id stmts = stmts
  | [] => rfl
  | stmt :: rest => by
      rw [Stmt.mapReferencesAll, stmt.mapReferences_id, Stmt.mapReferencesAll_id rest]

theorem Block.mapReferencesOptional_id :
    ∀ block : Option Block, Block.mapReferencesOptional id block = block
  | none => rfl
  | some block => congrArg some block.mapReferences_id

end

theorem Param.mapReferences_id (param : Param) : param.mapReferences id = param := by
  rw [Param.mapReferences, param.pat.mapReferences_id, param.ty.mapReferences_id]

theorem ImplItem.mapReferences_id (item : ImplItem) : item.mapReferences id = item := by
  cases item with
  | assocType item => rw [ImplItem.mapReferences, item.ty.mapReferences_id]
  | method item =>
      rw [ImplItem.mapReferences, map_eq_self Param.mapReferences_id, item.body.mapReferences_id,
        optionMap_eq_self Ty.mapReferences_id]
  | assocConst item =>
      rw [ImplItem.mapReferences, item.ty.mapReferences_id,
        optionMap_eq_self Expr.mapReferences_id]

theorem ImplBlock.mapReferences_id (block : ImplBlock) : block.mapReferences id = block := by
  rw [ImplBlock.mapReferences, map_eq_self ImplItem.mapReferences_id,
    Option.map_id, id, optionMap_eq_self Ty.mapReferences_id]

theorem Crate.mapReferences_id (crate : Crate) : crate.mapReferences id = crate := by
  rw [Crate.mapReferences, map_eq_self ImplBlock.mapReferences_id]

end AssocLint
