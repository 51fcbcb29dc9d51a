import AssocLint.Dump.Reader
import AssocLint.Proofs.Dump.Faults

/-!
# Every reader blames what it reads

Whatever fault a reader ends with is about a form that stands in the value it was given, or about a
value there that should have been a form. The readers are followed form by form: the parts of a form
stand in the form, so what is at fault in a part is at fault in the form.
-/

namespace AssocLint
namespace Dump

variable {α β : Type} {whole : Sexp} {parts : Form.Parts}

/-! ## Paths -/

theorem blamed_resolution (hparts : PartsWithin parts whole) : Blamed whole (resolution parts) := by
  refine Blamed.mapValue hparts fun value _ => ?_
  split
  · exact .ok _
  · exact .fault hparts.form rfl

theorem blamed_readPathForm (form : Form) (outer : Span) :
    Blamed form.toSexp (readPathForm form outer) := by
  unfold readPathForm
  split
  · refine .parts fun parts hparts => .one hparts fun value _ => ?_
    refine (Blamed.text (.refl _) value).bind fun text => ?_
    exact (blamed_resolution hparts).bind fun res => (Blamed.span hparts outer).last
  · refine .parts fun parts hparts => .two hparts fun base member _ _ => ?_
    refine (Blamed.text (.refl _) base).bind fun base => ?_
    refine (Blamed.text (.refl _) member).bind fun member => ?_
    split
    · exact (Blamed.span hparts outer).last
    · exact (blamed_resolution hparts).bind fun res => (Blamed.span hparts outer).last
  · refine .parts fun parts hparts => .one hparts fun value _ => ?_
    exact (Blamed.text (.refl _) value).bind fun tag => (Blamed.span hparts outer).last
  · exact .fault (.refl _) rfl

theorem blamed_readPath (value : Sexp) (outer : Span) : Blamed value (readPath value outer) := by
  unfold readPath
  split
  · exact .ok _
  · refine .ofSexp_bind ?_
    rintro form rfl
    exact blamed_readPathForm form outer

theorem blamed_readLeadingPath (hparts : PartsWithin parts whole) {path : Sexp}
    (hpath : path.Within whole) (outer : Span) :
    Blamed whole (readLeadingPath parts path outer) := by
  refine ((blamed_readPath path outer).within hpath).bind ?_
  rintro ⟨ref, pathSpan⟩
  exact (Blamed.span hparts pathSpan).last

/-- A named field, whose content is read in some way. -/
theorem blamed_readField {problem : DumpProblem} {read : Sexp → DumpResult α}
    (hproblem : problem.isOfForm) (hread : ∀ value, Blamed value (read value)) (value : Sexp) :
    Blamed value (readField problem read value) := by
  unfold readField
  refine .ofSexp_bind ?_
  rintro form rfl
  refine .checked (.refl _) hproblem ?_
  refine .parts fun parts hparts => .two hparts fun name content _ hcontent => ?_
  exact (Blamed.text (.refl _) name).bind fun name => ((hread content).within hcontent).last

/-! ## Readers of nested material -/

/-- Readers that blame what they read. -/
structure Readers.Blaming (below : Readers) : Prop where
  ty : ∀ value outer, Blamed value (below.ty value outer)
  pattern : ∀ value outer, Blamed value (below.pattern value outer)
  expr : ∀ value outer, Blamed value (below.expr value outer)
  block : ∀ value outer, Blamed value (below.block value outer)

theorem blaming_noReaders : noReaders.Blaming where
  ty value _ := .untagged value
  pattern value _ := .untagged value
  expr value _ := .untagged value
  block value _ := .untagged value

section Levels

variable {below : Readers} (h : below.Blaming)

include h

/-! ## Types -/

theorem blamed_readRefTy (form : Form) (outer : Span) :
    Blamed form.toSexp (readRefTy below form outer) := by
  unfold readRefTy
  refine .parts fun parts hparts => .one hparts fun inner hinner => ?_
  exact (Blamed.span hparts outer).bind fun span => ((h.ty inner span).within hinner).last

theorem blamed_readTupleTy (form : Form) (outer : Span) :
    Blamed form.toSexp (readTupleTy below form outer) := by
  unfold readTupleTy
  refine .parts fun parts hparts => (Blamed.span hparts outer).bind fun span => ?_
  exact (Blamed.items (h.ty · span) fun _ => hparts.item).last

theorem blamed_readSliceTy (form : Form) (outer : Span) :
    Blamed form.toSexp (readSliceTy below form outer) := by
  unfold readSliceTy
  refine .parts fun parts hparts => .one hparts fun elem helem => ?_
  exact (Blamed.span hparts outer).bind fun span => ((h.ty elem span).within helem).last

theorem blamed_readArrayTy (form : Form) (outer : Span) :
    Blamed form.toSexp (readArrayTy below form outer) := by
  unfold readArrayTy
  refine .parts fun parts hparts => .two hparts fun elem length helem _ => ?_
  exact (Blamed.span hparts outer).bind fun span => ((h.ty elem span).within helem).last

omit h in
theorem blamed_readOpaqueTy (form : Form) (outer : Span) :
    Blamed form.toSexp (readOpaqueTy form outer) := by
  unfold readOpaqueTy
  refine .parts fun parts hparts => .one hparts fun value _ => ?_
  exact (Blamed.text (.refl _) value).bind fun text => (Blamed.span hparts outer).last

theorem blamed_readTy (value : Sexp) (outer : Span) : Blamed value (readTy below value outer) := by
  unfold readTy
  split
  · exact .ok _
  refine .ofSexp_bind ?_
  rintro form rfl
  split
  case h_1 | h_2 | h_3 => -- a path
    refine (blamed_readPathForm form outer).bind ?_
    rintro ⟨ref, span⟩
    exact .ok _
  · exact blamed_readRefTy h form outer
  · exact blamed_readTupleTy h form outer
  · exact blamed_readSliceTy h form outer
  · exact blamed_readArrayTy h form outer
  case h_8 | h_9 => -- a type that is one sign
    exact .parts fun parts hparts => (Blamed.span hparts outer).last
  · exact blamed_readOpaqueTy form outer
  · exact .fault (.refl _) rfl

/-! ## Patterns -/

theorem blamed_readPatternList (form : Form) (outer : Span) :
    Blamed form.toSexp (readPatternList below form outer) := by
  refine .parts fun parts hparts => (Blamed.span hparts outer).bind fun span => ?_
  exact (Blamed.items (h.pattern · span) fun _ => hparts.item).last

omit h in
theorem blamed_readWildPat (form : Form) (outer : Span) :
    Blamed form.toSexp (readWildPat form outer) := by
  unfold readWildPat
  exact .parts fun parts hparts => (Blamed.span hparts outer).last

theorem blamed_readBindingPat (form : Form) (outer : Span) :
    Blamed form.toSexp (readBindingPat below form outer) := by
  unfold readBindingPat
  refine .parts fun parts hparts => .oneOrTwo hparts fun name sub _ hsub => ?_
  refine (Blamed.span hparts outer).bind fun span => ?_
  refine (Blamed.optional (h.pattern · span) hsub).bind fun sub => ?_
  exact (Blamed.text (.refl _) name).last

omit h in
theorem blamed_readPathPat (form : Form) (outer : Span) :
    Blamed form.toSexp (readPathPat form outer) := by
  unfold readPathPat
  refine .parts fun parts hparts => .one hparts fun path hpath => ?_
  refine (blamed_readLeadingPath hparts hpath outer).bind ?_
  rintro ⟨ref, span⟩
  exact .ok _

theorem blamed_readTupleStructPat (form : Form) (outer : Span) :
    Blamed form.toSexp (readTupleStructPat below form outer) := by
  unfold readTupleStructPat
  refine .parts fun parts hparts => .oneAndRest hparts fun path elems hpath helems => ?_
  refine (blamed_readLeadingPath hparts hpath outer).bind ?_
  rintro ⟨ref, span⟩
  exact (Blamed.items (h.pattern · span) helems).last

theorem blamed_readStructPat (form : Form) (outer : Span) :
    Blamed form.toSexp (readStructPat below form outer) := by
  unfold readStructPat
  refine .parts fun parts hparts => .oneAndRest hparts fun path fields hpath hfields => ?_
  refine (blamed_readLeadingPath hparts hpath outer).bind ?_
  rintro ⟨ref, span⟩
  exact (Blamed.items (blamed_readField rfl (h.pattern · span)) hfields).last

theorem blamed_readOrPat (form : Form) (outer : Span) :
    Blamed form.toSexp (readOrPat below form outer) := by
  unfold readOrPat
  refine (blamed_readPatternList h form outer).bind ?_
  rintro ⟨alts, span⟩
  exact .checked (.refl _) rfl (.ok _)

theorem blamed_readRefPat (form : Form) (outer : Span) :
    Blamed form.toSexp (readRefPat below form outer) := by
  unfold readRefPat
  refine .parts fun parts hparts => .one hparts fun inner hinner => ?_
  exact (Blamed.span hparts outer).bind fun span => ((h.pattern inner span).within hinner).last

omit h in
theorem blamed_readLitPat (form : Form) (outer : Span) :
    Blamed form.toSexp (readLitPat form outer) := by
  unfold readLitPat
  exact .parts fun parts hparts => .one hparts fun literal _ => (Blamed.span hparts outer).last

theorem blamed_readPattern (value : Sexp) (outer : Span) :
    Blamed value (readPattern below value outer) := by
  unfold readPattern
  refine .ofSexp_bind ?_
  rintro form rfl
  split
  · exact blamed_readWildPat form outer
  · exact blamed_readBindingPat h form outer
  · exact blamed_readPathPat form outer
  · exact blamed_readTupleStructPat h form outer
  · exact blamed_readStructPat h form outer
  case h_6 | h_7 => -- a tuple or a slice
    refine (blamed_readPatternList h form outer).bind ?_
    rintro ⟨elems, span⟩
    exact .ok _
  · exact blamed_readOrPat h form outer
  · exact blamed_readRefPat h form outer
  · exact blamed_readLitPat form outer
  · exact .fault (.refl _) rfl

/-! ## Statements and blocks -/

theorem blamed_readLet (form : Form) (outer : Span) :
    Blamed form.toSexp (readLet below form outer) := by
  refine .parts fun parts hparts => .one hparts fun pat hpat => ?_
  refine (Blamed.span hparts outer).bind fun span => ?_
  refine ((h.pattern pat span).within hpat).bind fun pat => ?_
  refine (Blamed.mapValue hparts fun ty => (h.ty ty span).within).bind fun ty => ?_
  refine (Blamed.mapValue hparts fun init => (h.expr init span).within).bind fun init => ?_
  exact (Blamed.mapValue hparts fun block => (h.block block span).within).last

theorem blamed_readSemi (form : Form) (outer : Span) :
    Blamed form.toSexp (readSemi below form outer) := by
  unfold readSemi
  refine .parts fun parts hparts => .one hparts fun expr hexpr => ?_
  exact (Blamed.span hparts outer).bind fun span => ((h.expr expr span).within hexpr).last

theorem blamed_readStmt (form : Form) (outer : Span) :
    Blamed form.toSexp (readStmt below form outer) := by
  unfold readStmt
  split
  · exact blamed_readLet h form outer
  · exact blamed_readSemi h form outer
  · exact .ok _

theorem blamed_readTail (form : Form) (outer : Span) :
    Blamed form.toSexp (readTail below form outer) := by
  unfold readTail
  refine .parts fun parts hparts => .one hparts fun content hcontent => ?_
  exact (h.expr content outer).within hcontent

theorem blamed_readStmts (span : Span) {items : List Sexp}
    (hitems : ∀ item ∈ items, item.Within whole) :
    Blamed whole (readStmts below span items) := by
  induction items with
  | nil =>
      exact .ok _
  | cons item rest ih =>
      obtain ⟨hitem, hrest⟩ := List.forall_mem_cons.1 hitems
      rw [readStmts]
      -- Behind each statement the rest of the block is read, whatever form the statement has.
      have hnext (stmt : Stmt) : Blamed whole (do
          let answer ← readStmts below span rest
          return (stmt :: answer.1, answer.2)) :=
        (ih hrest).last
      refine ((Blamed.ofSexp item).within hitem).gives (fun _ => Form.ofSexp_eq_ok_iff.1) ?_
      rintro form rfl
      split
      -- The value of the block, behind which nothing may stand.
      · exact .checked hitem rfl ((blamed_readTail h form span).within hitem).last
      split
      · exact ((blamed_readStmt h form span).within hitem).bind hnext
      -- An expression, which is the value if it stands last.
      · refine ((h.expr form.toSexp span).within hitem).bind fun expr => ?_
        split
        · exact .ok _
        · exact hnext _

theorem blamed_readBlock (value : Sexp) (outer : Span) :
    Blamed value (readBlock below value outer) := by
  unfold readBlock
  refine .ofSexp_bind ?_
  rintro form rfl
  refine .checked (.refl _) rfl ?_
  refine .parts fun parts hparts => (Blamed.span hparts outer).bind fun span => ?_
  refine (blamed_readStmts h span fun _ => hparts.item).bind ?_
  rintro ⟨stmts, tail⟩
  exact .ok _

/-! ## Expressions -/

theorem blamed_readArm (outer : Span) (value : Sexp) :
    Blamed value (readArm below outer value) := by
  unfold readArm
  refine .ofSexp_bind ?_
  rintro form rfl
  refine .checked (.refl _) rfl ?_
  refine .parts fun parts hparts => .two hparts fun pat body hpat hbody => ?_
  refine (Blamed.span hparts outer).bind fun span => ?_
  refine (Blamed.mapValue hparts fun guard => (h.expr guard span).within).bind fun guard => ?_
  exact ((h.pattern pat span).within hpat).bind fun pat => ((h.expr body span).within hbody).last

theorem blamed_readClosureParam (span : Span) (value : Sexp) :
    Blamed value (readClosureParam below span value) := by
  unfold readClosureParam
  refine .ofSexp_bind ?_
  rintro form rfl
  refine .checked (.refl _) rfl ?_
  refine .parts fun parts hparts => .oneOrTwo hparts fun pat ty hpat hty => ?_
  refine (Blamed.optional (h.ty · span) hty).bind fun ty => ?_
  exact ((h.pattern pat span).within hpat).last

omit h in
theorem blamed_readMacro (form : Form) (outer : Span) :
    Blamed form.toSexp (readMacro form outer) := by
  unfold readMacro
  split
  · exact .fault (.refl _) rfl
  · split
    · exact (Blamed.text (.refl _) _).last
    · refine (Blamed.spanOf (.refl _) _ _).bind fun span => ?_
      exact (Blamed.text (.refl _) _).last

omit h in
theorem blamed_readPair {first : Sexp → Span → DumpResult α} {second : Sexp → Span → DumpResult β}
    (make : α → β → Span → Expr) (hfirst : ∀ value span, Blamed value (first value span))
    (hsecond : ∀ value span, Blamed value (second value span)) (form : Form) (outer : Span) :
    Blamed form.toSexp (readPair first second make form outer) := by
  unfold readPair
  refine .parts fun parts hparts => .two hparts fun a b ha hb => ?_
  refine (Blamed.span hparts outer).bind fun span => ?_
  exact ((hfirst a span).within ha).bind fun a => ((hsecond b span).within hb).last

omit h in
theorem blamed_readLit (form : Form) (outer : Span) :
    Blamed form.toSexp (readLit form outer) := by
  unfold readLit
  exact .parts fun parts hparts => .one hparts fun literal _ => (Blamed.span hparts outer).last

theorem blamed_readCall (form : Form) (outer : Span) :
    Blamed form.toSexp (readCall below form outer) := by
  unfold readCall
  refine .parts fun parts hparts => .oneAndRest hparts fun func args hfunc hargs => ?_
  refine (Blamed.span hparts outer).bind fun span => ?_
  refine ((h.expr func span).within hfunc).bind fun func => ?_
  exact (Blamed.items (h.expr · span) hargs).last

theorem blamed_readMethodCall (form : Form) (outer : Span) :
    Blamed form.toSexp (readMethodCall below form outer) := by
  unfold readMethodCall
  refine .parts fun parts hparts =>
    .twoAndRest hparts fun receiver method args hreceiver _ hargs => ?_
  refine (Blamed.span hparts outer).bind fun span => ?_
  refine ((h.expr receiver span).within hreceiver).bind fun receiver => ?_
  refine (Blamed.text (.refl _) method).bind fun method => ?_
  exact (Blamed.items (h.expr · span) hargs).last

theorem blamed_readStructExpr (form : Form) (outer : Span) :
    Blamed form.toSexp (readStructExpr below form outer) := by
  unfold readStructExpr
  refine .parts fun parts hparts => .oneAndRest hparts fun path fields hpath hfields => ?_
  refine (blamed_readLeadingPath hparts hpath outer).bind ?_
  rintro ⟨ref, span⟩
  refine (Blamed.items (blamed_readField rfl (h.expr · span)) hfields).bind fun fields => ?_
  exact (Blamed.mapValue hparts fun base => (h.expr base span).within).last

theorem blamed_readMatch (form : Form) (outer : Span) :
    Blamed form.toSexp (readMatch below form outer) := by
  unfold readMatch
  refine .parts fun parts hparts => .oneAndRest hparts fun scrutinee arms hscrutinee harms => ?_
  refine (Blamed.span hparts outer).bind fun span => ?_
  refine ((h.expr scrutinee span).within hscrutinee).bind fun scrutinee => ?_
  exact (Blamed.items (blamed_readArm h span) harms).last

theorem blamed_readIf (form : Form) (outer : Span) :
    Blamed form.toSexp (readIf below form outer) := by
  unfold readIf
  refine .parts fun parts hparts =>
    .twoOrThree hparts fun cond first second hcond hfirst hsecond => ?_
  refine (Blamed.span hparts outer).bind fun span => ?_
  refine (Blamed.optional (h.expr · span) hsecond).bind fun second => ?_
  refine ((h.expr cond span).within hcond).bind fun cond => ?_
  exact ((h.expr first span).within hfirst).last

theorem blamed_readLoop (form : Form) (outer : Span) :
    Blamed form.toSexp (readLoop below form outer) := by
  unfold readLoop
  refine .parts fun parts hparts => .one hparts fun body hbody => ?_
  exact (Blamed.span hparts outer).bind fun span => ((h.block body span).within hbody).last

theorem blamed_readFor (form : Form) (outer : Span) :
    Blamed form.toSexp (readFor below form outer) := by
  unfold readFor
  refine .parts fun parts hparts => .three hparts fun pat iter body hpat hiter hbody => ?_
  refine (Blamed.span hparts outer).bind fun span => ?_
  refine ((h.pattern pat span).within hpat).bind fun pat => ?_
  refine ((h.expr iter span).within hiter).bind fun iter => ?_
  exact ((h.block body span).within hbody).last

theorem blamed_readClosure (form : Form) (outer : Span) :
    Blamed form.toSexp (readClosure below form outer) := by
  unfold readClosure
  refine .parts fun parts hparts => ?_
  split
  · exact .wrongCount hparts 1 1
  · rename_i body hbody
    refine (Blamed.span hparts outer).bind fun span => ?_
    have hparams : ∀ item ∈ parts.positional.dropLast, item.Within form.toSexp :=
      fun item hitem => hparts.item (List.dropLast_subset _ hitem)
    refine (Blamed.items (blamed_readClosureParam h span) hparams).bind fun params => ?_
    exact ((h.expr body span).within (hparts.item (List.mem_of_getLast? hbody))).last

theorem blamed_readUnary (form : Form) (outer : Span) :
    Blamed form.toSexp (readUnary below form outer) := by
  unfold readUnary
  refine .parts fun parts hparts => .two hparts fun op operand _ hoperand => ?_
  refine (Blamed.span hparts outer).bind fun span => ?_
  refine (Blamed.text (.refl _) op).bind fun op => ?_
  exact ((h.expr operand span).within hoperand).last

theorem blamed_readBinary (form : Form) (outer : Span) :
    Blamed form.toSexp (readBinary below form outer) := by
  unfold readBinary
  refine .parts fun parts hparts => .three hparts fun op lhs rhs _ hlhs hrhs => ?_
  refine (Blamed.span hparts outer).bind fun span => ?_
  refine (Blamed.text (.refl _) op).bind fun op => ?_
  refine ((h.expr lhs span).within hlhs).bind fun lhs => ?_
  exact ((h.expr rhs span).within hrhs).last

theorem blamed_readFieldExpr (form : Form) (outer : Span) :
    Blamed form.toSexp (readFieldExpr below form outer) := by
  unfold readFieldExpr
  refine .parts fun parts hparts => .two hparts fun base name hbase _ => ?_
  refine (Blamed.span hparts outer).bind fun span => ?_
  refine ((h.expr base span).within hbase).bind fun base => ?_
  exact (Blamed.text (.refl _) name).last

theorem blamed_readExprList (make : List Expr → Span → Expr) (form : Form) (outer : Span) :
    Blamed form.toSexp (readExprList below make form outer) := by
  unfold readExprList
  refine .parts fun parts hparts => (Blamed.span hparts outer).bind fun span => ?_
  exact (Blamed.items (h.expr · span) fun _ => hparts.item).last

theorem blamed_readJump (withValue : Bool) (form : Form) (outer : Span) :
    Blamed form.toSexp (readJump below withValue form outer) := by
  unfold readJump
  refine .parts fun parts hparts => .atMostOne hparts withValue fun value hvalue => ?_
  refine (Blamed.span hparts outer).bind fun span => ?_
  exact (Blamed.optional (h.expr · span) hvalue).last

theorem blamed_readExpr (value : Sexp) (outer : Span) :
    Blamed value (readExpr below value outer) := by
  unfold readExpr
  refine .ofSexp_bind ?_
  rintro form rfl
  split
  case h_1 | h_2 | h_3 => -- a path
    refine (blamed_readPathForm form outer).bind ?_
    rintro ⟨ref, span⟩
    exact .ok _
  · exact (blamed_readBlock h form.toSexp outer).last
  · exact blamed_readLit form outer
  · exact blamed_readCall h form outer
  · exact blamed_readMethodCall h form outer
  · exact blamed_readStructExpr h form outer
  · exact blamed_readMatch h form outer
  · exact blamed_readIf h form outer
  · exact blamed_readPair .letExpr h.pattern h.expr form outer
  · exact blamed_readLoop h form outer
  · exact blamed_readPair .whileLoop h.expr h.block form outer
  · exact blamed_readFor h form outer
  · exact blamed_readClosure h form outer
  · exact blamed_readPair .cast h.expr h.ty form outer
  · exact blamed_readUnary h form outer
  · exact blamed_readBinary h form outer
  · exact blamed_readFieldExpr h form outer
  · exact blamed_readPair .index h.expr h.expr form outer
  · exact blamed_readExprList h .tuple form outer
  · exact blamed_readExprList h .array form outer
  · exact blamed_readJump h true form outer
  · exact blamed_readJump h true form outer
  · exact blamed_readJump h false form outer
  · exact blamed_readMacro form outer
  · exact .fault (.refl _) rfl

/-- One more level of readers. -/
theorem Readers.Blaming.above : (readersAbove below).Blaming where
  ty := blamed_readTy h
  pattern := blamed_readPattern h
  expr := blamed_readExpr h
  block := blamed_readBlock h

end Levels

-- By induction on the level: at the bottom whatever stands there is at fault itself.

theorem blaming_readers (level : Nat) : (readers level).Blaming := by
  induction level with
  | zero => exact blaming_noReaders
  | succ level ih => exact ih.above

/-! ## Implementation blocks -/

section Crate

variable {below : Readers} (h : below.Blaming)

include h

theorem blamed_readParam (outer : Span) (value : Sexp) :
    Blamed value (readParam below outer value) := by
  unfold readParam
  refine .ofSexp_bind ?_
  rintro form rfl
  refine .checked (.refl _) rfl ?_
  refine .parts fun parts hparts => .two hparts fun pat ty hpat hty => ?_
  refine (Blamed.span hparts outer).bind fun span => ?_
  exact ((h.pattern pat span).within hpat).bind fun pat => ((h.ty ty span).within hty).last

theorem blamed_readAssocType (form : Form) (outer : Span) :
    Blamed form.toSexp (readAssocType below form outer) := by
  refine .parts fun parts hparts => .two hparts fun name ty _ hty => ?_
  refine (Blamed.span hparts outer).bind fun span => ?_
  exact (Blamed.text (.refl _) name).bind fun name => ((h.ty ty span).within hty).last

theorem blamed_readMethod (form : Form) (outer : Span) :
    Blamed form.toSexp (readMethod below form outer) := by
  refine .parts fun parts hparts => .twoAndRest hparts fun name second rest _ hsecond hrest => ?_
  refine (Blamed.span hparts outer).bind fun span => ?_
  refine (Blamed.text (.refl _) name).bind fun name => ?_
  -- The last item is the body, and those before it are the parameters.
  have hitems : ∀ item ∈ second :: rest, item.Within form.toSexp :=
    List.forall_mem_cons.2 ⟨hsecond, hrest⟩
  rw [eq_dropLast_concat second rest] at hitems
  obtain ⟨hparams, hlast⟩ := List.forall_mem_append.1 hitems
  have hbody := hlast _ List.mem_cons_self
  refine .checked (.refl _) rfl ?_
  refine ((Blamed.ofSexp _).within hbody).bind fun body => ?_
  refine .checked (.refl _) rfl ?_
  refine (Blamed.items (blamed_readParam h span) hparams).bind fun params => ?_
  refine (Blamed.mapValue hparts fun ret => (h.ty ret span).within).bind fun ret => ?_
  exact ((h.block _ span).within hbody).last

theorem blamed_readAssocConst (form : Form) (outer : Span) :
    Blamed form.toSexp (readAssocConst below form outer) := by
  refine .parts fun parts hparts => .twoOrThree hparts fun name ty value _ hty hvalue => ?_
  refine (Blamed.span hparts outer).bind fun span => ?_
  refine (Blamed.optional (h.expr · span) hvalue).bind fun value => ?_
  exact (Blamed.text (.refl _) name).bind fun name => ((h.ty ty span).within hty).last

theorem blamed_readImplItem (outer : Span) (value : Sexp) :
    Blamed value (readImplItem below outer value) := by
  unfold readImplItem
  refine .ofSexp_bind ?_
  rintro form rfl
  split
  · exact (blamed_readAssocType h form outer).last
  · exact (blamed_readMethod h form outer).last
  · exact (blamed_readAssocConst h form outer).last
  · exact .fault (.refl _) rfl

theorem blamed_readImpl (file : String) (form : Form) :
    Blamed form.toSexp (readImpl below file form) := by
  refine .parts fun parts hparts => (Blamed.span hparts _).bind fun span => ?_
  refine (Blamed.mapValue hparts fun value _ => ?_).bind fun traitRef => ?_
  · exact (Blamed.text (.refl _) value).last
  refine (Blamed.mapValue hparts fun ty => (h.ty ty span).within).bind fun selfTy => ?_
  exact (Blamed.items (blamed_readImplItem h span) fun _ => hparts.item).last

omit h in
theorem blamed_readMark (file : String) (form : Form) :
    Blamed form.toSexp (readMark file form) := by
  refine .parts fun parts hparts => .one hparts fun id _ => ?_
  split
  · exact .fault (.refl _) rfl
  · refine (Blamed.mapValue hparts fun value _ => .text (.refl _) value).bind fun other => ?_
    refine Blamed.bind ?_ fun file => (Blamed.text (.refl _) id).bind fun id => ?_
    · cases other <;> exact .ok _
    · exact (Blamed.int (.refl _) _).last

/-! ## Crates -/

theorem blamed_readItems (file : String) {items : List Sexp}
    (hitems : ∀ item ∈ items, item.Within whole) :
    Blamed whole (readItems below file items) := by
  induction items with
  | nil =>
      exact .ok _
  | cons item rest ih =>
      obtain ⟨hitem, hrest⟩ := List.forall_mem_cons.1 hitems
      rw [readItems]
      refine ((Blamed.ofSexp item).within hitem).gives (fun _ => Form.ofSexp_eq_ok_iff.1) ?_
      rintro form rfl
      -- A block, a mark, an item that is left out, or none of these.
      split
      · refine ((blamed_readImpl h file form).within hitem).bind fun block => ?_
        refine (ih hrest).bind ?_
        rintro ⟨blocks, marks⟩
        exact .ok _
      split
      · refine ((blamed_readMark file form).within hitem).bind fun mark => ?_
        refine (ih hrest).bind ?_
        rintro ⟨blocks, marks⟩
        exact .ok _
      split
      · exact ih hrest
      · exact .fault hitem rfl

end Crate

theorem blamed_readCrate (value : Sexp) : Blamed value (readCrate [value]) := by
  refine .ofSexp_bind ?_
  rintro form rfl
  refine .checked (.refl _) rfl ?_
  refine .parts fun parts hparts => .oneAndRest hparts fun file items _ hitems => ?_
  refine (Blamed.text (.refl _) file).bind fun file => ?_
  refine (blamed_readItems (blaming_readers _) file hitems).bind ?_
  rintro ⟨impls, marks⟩
  exact .ok _

end Dump
end AssocLint
