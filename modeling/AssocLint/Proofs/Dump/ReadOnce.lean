import AssocLint.Proofs.Dump.Reads

/-!
# Every place is read once

The references of a tree are what is read at the places of its document, one at each place and in
the same order. The readers are followed form by form: the items of a form and the values of its
keywords are read one after another, each once, and the tree has them in the order of `treeOrder`.
-/

namespace AssocLint
namespace Dump

variable {α β : Type}

/-- Readers whose trees have what is read at the places of a value, and nothing else. -/
structure Readers.ReadOnce (below : Readers) : Prop where
  ty : ∀ value outer, Gives (below.ty value outer) fun ty =>
    Reads (places .path value) ty.references
  pattern : ∀ value outer, Gives (below.pattern value outer) fun pat =>
    Reads (places .form value) pat.references
  expr : ∀ value outer, Gives (below.expr value outer) fun expr =>
    Reads (places .form value) expr.references
  block : ∀ value outer, Gives (below.block value outer) fun block =>
    Reads (places .form value) block.references

/-- The trees that are read from forms with a certain head have what is read at their places. -/
def ReadOnceAt (slot : Slot) (head : String) (references : α → List Reference)
    (read : Form → Span → DumpResult α) : Prop :=
  ∀ line items outer, Gives (read ⟨line, head, items⟩ outer) fun tree =>
    Reads (places slot (Form.toSexp ⟨line, head, items⟩)) (references tree)

section

variable {below : Readers} (h : below.ReadOnce)
include h

/-! ## Types -/

omit h in
theorem reads_pathsAll {values : List Sexp} {tys : List Ty}
    (hread : List.Forall₂ (fun value (ty : Ty) => Reads (places .path value) ty.references)
      values tys) : Reads (values.flatMap (places .path)) ((Ty.pathsAll tys).map (·.1)) :=
  .gathered (fun tys => (Ty.pathsAll tys).map (·.1)) rfl (fun _ _ => List.map_append) hread

theorem readOnce_readRefTy : ReadOnceAt .path "ref" Ty.references (readRefTy below) := by
  intro line items outer
  unfold readRefTy
  refine (partsOf _ _ _).bind fun parts hparts => ?_
  refine Gives.bind (fun _ => parts.one_eq_ok_iff.1) fun inner hitems => ?_
  refine (gives_span parts outer).bind fun span hspan => ?_
  refine (h.ty inner span).bind fun ty hty => .ok ?_
  rw [places_spanned hparts hspan rfl rfl, hitems]
  simp only [placesFrom, List.append_nil]
  exact hty

theorem readOnce_readTupleTy : ReadOnceAt .path "tuple" Ty.references (readTupleTy below) := by
  intro line items outer
  unfold readTupleTy
  refine (partsOf _ _ _).bind fun parts hparts => ?_
  refine (gives_span parts outer).bind fun span hspan => ?_
  refine (Gives.mapM_rel (fun value => h.ty value span) _).bind fun tys htys => .ok ?_
  rw [places_spanned hparts hspan rfl rfl, placesFrom_eq_flatMap fun _ => rfl]
  exact reads_pathsAll htys

theorem readOnce_readSliceTy : ReadOnceAt .path "slice" Ty.references (readSliceTy below) := by
  intro line items outer
  unfold readSliceTy
  refine (partsOf _ _ _).bind fun parts hparts => ?_
  refine Gives.bind (fun _ => parts.one_eq_ok_iff.1) fun elem hitems => ?_
  refine (gives_span parts outer).bind fun span hspan => ?_
  refine (h.ty elem span).bind fun ty hty => .ok ?_
  rw [places_spanned hparts hspan rfl rfl, hitems]
  simp only [placesFrom, List.append_nil]
  exact hty

theorem readOnce_readArrayTy : ReadOnceAt .path "array" Ty.references (readArrayTy below) := by
  intro line items outer
  unfold readArrayTy
  refine (partsOf _ _ _).bind fun parts hparts => ?_
  refine Gives.bind (fun _ => parts.two_eq_ok_iff.1) ?_
  rintro ⟨elem, length⟩ hitems
  refine (gives_span parts outer).bind fun span hspan => ?_
  refine (h.ty elem span).bind fun ty hty => .ok ?_
  have hlength : places (slotAt "array" 1) length = [] := places_eq_nil rfl length
  rw [places_spanned hparts hspan rfl rfl, hitems]
  simp only [placesFrom, hlength, List.append_nil]
  exact hty

omit h in
theorem readOnce_readOpaqueTy : ReadOnceAt .path "opaque" Ty.references readOpaqueTy := by
  intro line items outer
  unfold readOpaqueTy
  refine (partsOf _ _ _).bind fun parts hparts => ?_
  refine Gives.bind (fun _ => parts.one_eq_ok_iff.1) fun value hitems => ?_
  refine Gives.text.bind fun text htext => ?_
  refine (gives_span parts outer).bind fun span hspan => .ok ?_
  rw [places_spanned hparts hspan rfl rfl, hitems]
  simp only [placesFrom, List.append_nil]
  exact reads_word htext

theorem readOnce_readTy (value : Sexp) (outer : Span) :
    Gives (readTy below value outer) fun ty => Reads (places .path value) ty.references := by
  unfold readTy
  split
  · rename_i text htext
    exact .ok (reads_bare htext)
  · refine Gives.bind (fun _ => Form.ofSexp_eq_ok_iff.1) ?_
    rintro ⟨line, head, items⟩ rfl
    dsimp only
    split
    case h_1 | h_2 | h_3 => -- a path
      refine Gives.self.bind ?_
      rintro ⟨ref, span⟩ hread
      exact .ok (reads_pathForm hread rfl rfl)
    · exact readOnce_readRefTy h _ _ _
    · exact readOnce_readTupleTy h _ _ _
    · exact readOnce_readSliceTy h _ _ _
    · exact readOnce_readArrayTy h _ _ _
    case h_8 | h_9 => -- a type that is one sign
      refine (partsOf _ _ _).bind fun parts hparts => ?_
      refine (gives_span parts outer).bind fun span hspan => .ok ?_
      rw [places_spanned hparts hspan rfl rfl, placesFrom_eq_nil (fun _ => rfl) rfl]
      exact .nil
    · exact readOnce_readOpaqueTy _ _ _
    · exact .fault

/-! ## Patterns -/

omit h in
theorem reads_readPath (value : Sexp) (outer : Span) :
    Gives (readPath value outer) fun answer => Reads (places .path value) [answer.1] := by
  unfold readPath
  split
  · rename_i text htext
    exact .ok (reads_bare htext)
  · refine Gives.bind (fun _ => Form.ofSexp_eq_ok_iff.1) ?_
    rintro form rfl answer hread
    exact reads_pathForm hread (pathHeads_of_readPathForm form outer answer hread) rfl

omit h in
/-- The path that a form begins with, and the span of the form. -/
theorem reads_readLeadingPath (parts : Form.Parts) (path : Sexp) (outer : Span) :
    Gives (readLeadingPath parts path outer) fun answer =>
      Reads (places .path path) [answer.1] ∧ placesOf parts "span" = [] := by
  unfold readLeadingPath
  refine (reads_readPath path outer).bind fun answer hanswer => ?_
  exact (gives_span parts _).bind fun span hspan => .ok ⟨hanswer, hspan⟩

omit h in
theorem readOnce_readField {problem : DumpProblem} {read : Sexp → DumpResult α}
    {references : α → List Reference}
    (hread : ∀ value, Gives (read value) fun tree => Reads (places .form value) (references tree))
    (value : Sexp) :
    Gives (readField problem read value) fun field =>
      Reads (places .form value) (references field.2) := by
  unfold readField
  refine Gives.bind (fun _ => Form.ofSexp_eq_ok_iff.1) ?_
  rintro ⟨line, head, items⟩ rfl
  refine .checked fun hhead => ?_
  obtain rfl : head = "field" := by simpa using hhead
  refine (partsOf _ _ _).bind fun parts hparts => ?_
  refine Gives.bind (fun _ => parts.two_eq_ok_iff.1) ?_
  rintro ⟨name, content⟩ hitems
  refine Gives.text.bind fun name hname => (hread content).bind fun tree htree => .ok ?_
  rw [places_plain hparts rfl, hitems]
  simp only [placesFrom, List.append_nil]
  exact (reads_word hname).append htree

omit h in
theorem reads_patterns {values : List Sexp} {pats : List Pattern}
    (hread : List.Forall₂ (fun value (pat : Pattern) => Reads (places .form value) pat.references)
      values pats) : Reads (values.flatMap (places .form)) (Pattern.referencesAll pats) :=
  .gathered Pattern.referencesAll rfl (fun _ _ => rfl) hread

theorem readOnce_readPatternList (form : Form) (outer : Span) (hhead : isTakenApart form.head)
    (hflags : flagsOf form.head = []) (hslot : ∀ index, slotAt form.head index = .form) :
    Gives (readPatternList below form outer) fun answer =>
      Reads (places .form form.toSexp) (Pattern.referencesAll answer.1) := by
  unfold readPatternList
  refine (partsOf _ _ _).bind fun parts hparts => (gives_span parts outer).bind fun span hspan => ?_
  refine (Gives.mapM_rel (fun value => h.pattern value span) _).bind fun pats hpats => .ok ?_
  have hspanned : PartsOf parts form ["span"] (flagsOf form.head) := by rwa [hflags]
  rw [places_spanned hspanned hspan hhead rfl, placesFrom_eq_flatMap hslot]
  exact reads_patterns hpats

omit h in
theorem readOnce_readWildPat : ReadOnceAt .form "wild" Pattern.references readWildPat := by
  intro line items outer
  unfold readWildPat
  refine (partsOf _ _ _).bind fun parts hparts => ?_
  refine (gives_span parts outer).bind fun span hspan => .ok ?_
  rw [places_spanned hparts hspan rfl rfl, placesFrom_eq_nil (fun _ => rfl) rfl]
  exact .nil

theorem readOnce_readBindingPat :
    ReadOnceAt .form "binding" Pattern.references (readBindingPat below) := by
  intro line items outer
  unfold readBindingPat
  refine (partsOf _ _ _).bind fun parts hparts => ?_
  refine Gives.bind (fun _ => parts.oneOrTwo_eq_ok_iff.1) ?_
  rintro ⟨name, sub⟩ hitems
  refine (gives_span parts outer).bind fun span hspan => ?_
  refine (Gives.optionMapM_rel (fun value => h.pattern value span) sub).bind fun sub' hsub => ?_
  refine Gives.text.bind fun name' hname => .ok ?_
  rw [places_spanned hparts hspan rfl rfl, hitems, placesFrom, placesFrom_toList]
  refine (reads_word hname).append ?_
  cases hsub with
  | none => exact .nil
  | some hsub => exact hsub

omit h in
theorem readOnce_readPathPat : ReadOnceAt .form "path-pat" Pattern.references readPathPat := by
  intro line items outer
  unfold readPathPat
  refine (partsOf _ _ _).bind fun parts hparts => ?_
  refine Gives.bind (fun _ => parts.one_eq_ok_iff.1) fun path hitems => ?_
  refine (reads_readLeadingPath parts path outer).bind ?_
  rintro ⟨ref, span⟩ ⟨href, hspan⟩
  refine .ok ?_
  rw [places_spanned hparts hspan rfl rfl, hitems]
  simp only [placesFrom, List.append_nil]
  exact href

theorem readOnce_readTupleStructPat :
    ReadOnceAt .form "tuple-struct" Pattern.references (readTupleStructPat below) := by
  intro line items outer
  unfold readTupleStructPat
  refine (partsOf _ _ _).bind fun parts hparts => ?_
  refine Gives.bind (fun _ => parts.oneAndRest_eq_ok_iff.1) ?_
  rintro ⟨path, elems⟩ hitems
  refine (reads_readLeadingPath parts path outer).bind ?_
  rintro ⟨ref, span⟩ ⟨href, hspan⟩
  refine (Gives.mapM_rel (fun value => h.pattern value span) elems).bind fun pats hpats => .ok ?_
  rw [places_spanned hparts hspan rfl rfl, hitems, placesFrom,
    placesFrom_eq_flatMap fun _ => rfl]
  exact href.append (reads_patterns hpats)

theorem readOnce_readStructPat :
    ReadOnceAt .form "struct-pat" Pattern.references (readStructPat below) := by
  intro line items outer
  unfold readStructPat
  refine (partsOf _ _ _).bind fun parts hparts => ?_
  refine Gives.bind (fun _ => parts.oneAndRest_eq_ok_iff.1) ?_
  rintro ⟨path, fields⟩ hitems
  refine (reads_readLeadingPath parts path outer).bind ?_
  rintro ⟨ref, span⟩ ⟨href, hspan⟩
  refine (Gives.mapM_rel (readOnce_readField fun value => h.pattern value span) fields).bind
    fun fields' hfields => .ok ?_
  rw [places_spanned hparts hspan rfl rfl, hitems, placesFrom,
    placesFrom_eq_flatMap fun _ => rfl]
  exact href.append (.gathered (fun fields => FieldPattern.referencesAll (fields.map _)) rfl
    (fun _ _ => rfl) hfields)

theorem readOnce_readOrPat : ReadOnceAt .form "or-pat" Pattern.references (readOrPat below) := by
  intro line items outer
  unfold readOrPat
  refine (readOnce_readPatternList h _ outer rfl rfl fun _ => rfl).bind ?_
  rintro ⟨alts, span⟩ halts
  exact .check (.ok halts)

theorem readOnce_readRefPat : ReadOnceAt .form "ref-pat" Pattern.references (readRefPat below) := by
  intro line items outer
  unfold readRefPat
  refine (partsOf _ _ _).bind fun parts hparts => ?_
  refine Gives.bind (fun _ => parts.one_eq_ok_iff.1) fun inner hitems => ?_
  refine (gives_span parts outer).bind fun span hspan => ?_
  refine (h.pattern inner span).bind fun pat hpat => .ok ?_
  rw [places_spanned hparts hspan rfl rfl, hitems]
  simp only [placesFrom, List.append_nil]
  exact hpat

omit h in
theorem readOnce_readLitPat : ReadOnceAt .form "lit-pat" Pattern.references readLitPat := by
  intro line items outer
  unfold readLitPat
  refine (partsOf _ _ _).bind fun parts hparts => ?_
  refine Gives.bind (fun _ => parts.one_eq_ok_iff.1) fun literal hitems => ?_
  refine (gives_span parts outer).bind fun span hspan => .ok ?_
  rw [places_spanned hparts hspan rfl rfl, placesFrom_eq_nil (fun _ => rfl) rfl]
  exact .nil

theorem readOnce_readPattern (value : Sexp) (outer : Span) :
    Gives (readPattern below value outer) fun pat => Reads (places .form value) pat.references := by
  unfold readPattern
  refine Gives.bind (fun _ => Form.ofSexp_eq_ok_iff.1) ?_
  rintro ⟨line, head, items⟩ rfl
  dsimp only
  split
  · exact readOnce_readWildPat _ _ _
  · exact readOnce_readBindingPat h _ _ _
  · exact readOnce_readPathPat _ _ _
  · exact readOnce_readTupleStructPat h _ _ _
  · exact readOnce_readStructPat h _ _ _
  case h_6 | h_7 => -- a tuple or a slice
    refine (readOnce_readPatternList h _ outer rfl rfl fun _ => rfl).bind ?_
    rintro ⟨elems, span⟩ helems
    exact .ok helems
  · exact readOnce_readOrPat h _ _ _
  · exact readOnce_readRefPat h _ _ _
  · exact readOnce_readLitPat _ _ _
  · exact .fault

/-! ## Statements and blocks -/

omit h in
theorem reads_optional {value : Option Sexp} {expr : Option Expr}
    (hread : Option.Rel (fun value (expr : Expr) => Reads (places .form value) expr.references)
      value expr) : Reads (value.elim [] (places .form)) (Expr.referencesOptional expr) :=
  .optional Expr.referencesOptional rfl (fun _ => rfl) hread

omit h in
theorem reads_exprs {values : List Sexp} {exprs : List Expr}
    (hread : List.Forall₂ (fun value (expr : Expr) => Reads (places .form value) expr.references)
      values exprs) : Reads (values.flatMap (places .form)) (Expr.referencesAll exprs) :=
  .gathered Expr.referencesAll rfl (fun _ _ => rfl) hread

theorem readOnce_readLet : ReadOnceAt .form "let" Stmt.references (readLet below) := by
  intro line items outer
  unfold readLet
  refine (partsOf _ _ _).bind fun parts hparts => ?_
  refine Gives.bind (fun _ => parts.one_eq_ok_iff.1) fun pat hitems => ?_
  refine (gives_span parts outer).bind fun span hspan => ?_
  refine (h.pattern pat span).bind fun pat' hpat => ?_
  refine (Gives.mapValue_rel (fun value => h.ty value span) parts "ty").bind fun ty hty => ?_
  refine (Gives.mapValue_rel (fun value => h.expr value span) parts "init").bind
    fun init hinit => ?_
  refine (Gives.mapValue_rel (fun value => h.block value span) parts "else").bind
    fun elseBlock helse => .ok ?_
  rw [places_of_parts hparts (by decide) hspan rfl rfl, hitems]
  simp (disch := decide) only [placesOf_of_not_mem hparts, placesFrom, List.nil_append,
    List.append_nil]
  refine hpat.append (.append (.elim hty) (.append (reads_optional hinit) ?_))
  exact .optional Block.referencesOptional rfl (fun _ => rfl) helse

theorem readOnce_readSemi : ReadOnceAt .form "semi" Stmt.references (readSemi below) := by
  intro line items outer
  unfold readSemi
  refine (partsOf _ _ _).bind fun parts hparts => ?_
  refine Gives.bind (fun _ => parts.one_eq_ok_iff.1) fun content hitems => ?_
  refine (gives_span parts outer).bind fun span hspan => ?_
  refine (h.expr content span).bind fun expr hexpr => .ok ?_
  rw [places_spanned hparts hspan rfl rfl, hitems]
  simp only [placesFrom, List.append_nil]
  exact hexpr

theorem readOnce_readStmt (form : Form) (outer : Span) (hhead : form.head ∈ statementHeads) :
    Gives (readStmt below form outer) fun stmt =>
      Reads (places .form form.toSexp) stmt.references := by
  obtain ⟨line, head, items⟩ := form
  unfold readStmt
  dsimp only
  split
  · exact readOnce_readLet h _ _ _
  · exact readOnce_readSemi h _ _ _
  · -- a nested item
    obtain rfl : head = "item" := by simp_all [statementHeads]
    refine .ok ?_
    rw [places_toSexp rfl]
    exact .nil

theorem readOnce_readTail : ReadOnceAt .form "tail" Expr.references (readTail below) := by
  intro line items outer
  unfold readTail
  refine (partsOf _ _ _).bind fun parts hparts => ?_
  refine Gives.bind (fun _ => parts.one_eq_ok_iff.1) fun content hitems => ?_
  rw [places_plain hparts rfl, hitems]
  simp only [placesFrom, List.append_nil]
  exact h.expr content outer

/-- Statement by statement, as the value of the block is found. -/
theorem readOnce_readStmts (span : Span) (items : List Sexp) :
    Gives (readStmts below span items) fun answer =>
      Reads (items.flatMap (places .form))
        (Stmt.referencesAll answer.1 ++ Expr.referencesOptional answer.2) := by
  induction items with
  | nil =>
      exact .ok .nil
  | cons item rest ih =>
      rw [readStmts, List.flatMap_cons]
      -- Behind each statement the rest of the block is read, whatever form the statement has.
      have hnext (stmt : Stmt) (hstmt : Reads (places .form item) stmt.references) :
          Gives (do
            let answer ← readStmts below span rest
            return (stmt :: answer.1, answer.2)) fun answer =>
              Reads (places .form item ++ rest.flatMap (places .form))
                (Stmt.referencesAll answer.1 ++ Expr.referencesOptional answer.2) := by
        refine ih.bind fun answer hanswer => .ok ?_
        rw [Stmt.referencesAll, List.append_assoc]
        exact .append hstmt hanswer
      refine Gives.bind (fun _ => Form.ofSexp_eq_ok_iff.1) ?_
      rintro ⟨line, head, items⟩ rfl
      split
      · rename_i hhead
        obtain rfl : head = "tail" := by simpa using hhead
        refine .checked fun hrest => (readOnce_readTail h _ _ span).bind fun expr hexpr => .ok ?_
        obtain rfl : rest = [] := by simpa using hrest
        rw [List.flatMap_nil, List.append_nil]
        exact hexpr
      split
      · rename_i hhead
        exact (readOnce_readStmt h _ span (by simpa using hhead)).bind hnext
      · refine (h.expr _ span).bind fun expr hexpr => ?_
        -- An expression is the value where nothing follows it, and a statement elsewhere.
        split
        · rename_i hrest
          obtain rfl : rest = [] := by simpa using hrest
          refine .ok ?_
          rw [List.flatMap_nil, List.append_nil]
          exact hexpr
        · exact hnext (.exprStmt expr span) hexpr

theorem readOnce_readBlock (value : Sexp) (outer : Span) :
    Gives (readBlock below value outer) fun block =>
      Reads (places .form value) block.references := by
  unfold readBlock
  refine Gives.bind (fun _ => Form.ofSexp_eq_ok_iff.1) ?_
  rintro ⟨line, head, items⟩ rfl
  refine .checked fun hhead => ?_
  obtain rfl : head = "block" := by simpa using hhead
  refine (partsOf _ _ _).bind fun parts hparts => (gives_span parts outer).bind fun span hspan => ?_
  refine (readOnce_readStmts h span parts.positional).bind ?_
  rintro ⟨stmts, tail⟩ hstmts
  refine .ok ?_
  rw [places_spanned hparts hspan rfl rfl, placesFrom_eq_flatMap fun _ => rfl]
  exact hstmts

/-! ## Expressions -/

theorem readOnce_readArm (outer : Span) (value : Sexp) :
    Gives (readArm below outer value) fun arm => Reads (places .form value) arm.references := by
  unfold readArm
  refine Gives.bind (fun _ => Form.ofSexp_eq_ok_iff.1) ?_
  rintro ⟨line, head, items⟩ rfl
  refine .checked fun hhead => ?_
  obtain rfl : head = "arm" := by simpa using hhead
  refine (partsOf _ _ _).bind fun parts hparts => ?_
  refine Gives.bind (fun _ => parts.two_eq_ok_iff.1) ?_
  rintro ⟨pat, body⟩ hitems
  refine (gives_span parts outer).bind fun span hspan => ?_
  refine (Gives.mapValue_rel (fun value => h.expr value span) parts "guard").bind
    fun guard hguard => ?_
  refine (h.pattern pat span).bind fun pat' hpat =>
    (h.expr body span).bind fun body' hbody => .ok ?_
  rw [places_of_parts hparts (by decide) hspan rfl rfl, hitems]
  simp (disch := decide) only [placesOf_of_not_mem hparts, placesFrom, List.nil_append,
    List.append_nil, List.append_assoc]
  exact hpat.append (hbody.append (reads_optional hguard))

theorem readOnce_readClosureParam (span : Span) (value : Sexp) :
    Gives (readClosureParam below span value) fun param =>
      Reads (places .form value) param.references := by
  unfold readClosureParam
  refine Gives.bind (fun _ => Form.ofSexp_eq_ok_iff.1) ?_
  rintro ⟨line, head, items⟩ rfl
  refine .checked fun hhead => ?_
  obtain rfl : head = "cparam" := by simpa using hhead
  refine (partsOf _ _ _).bind fun parts hparts => ?_
  refine Gives.bind (fun _ => parts.oneOrTwo_eq_ok_iff.1) ?_
  rintro ⟨pat, ty⟩ hitems
  refine (Gives.optionMapM_rel (fun value => h.ty value span) ty).bind fun ty' hty => ?_
  refine (h.pattern pat span).bind fun pat' hpat => .ok ?_
  rw [places_plain hparts rfl, hitems, placesFrom, placesFrom_toList]
  exact hpat.append (.elim hty)

omit h in
theorem readOnce_readMacro (form : Form) (outer : Span) (hhead : form.head = "macro") :
    Gives (readMacro form outer) fun expr => Reads (places .form form.toSexp) expr.references := by
  have hplaces : places .form form.toSexp = [] := by
    rw [places_toSexp rfl, hhead]
    rfl
  rw [hplaces]
  unfold readMacro
  split
  · exact .fault
  · dsimp only
    split <;> exact .step fun span => .step fun name => .ok .nil

theorem readOnce_exprs (values : List Sexp) (span : Span) :
    Gives (values.mapM (below.expr · span)) fun exprs =>
      Reads (values.flatMap (places .form)) (Expr.referencesAll exprs) :=
  fun exprs hread =>
    reads_exprs (Gives.mapM_rel (fun value => h.expr value span) values exprs hread)

theorem readOnce_optional (value : Option Sexp) (span : Span) :
    Gives (value.mapM (below.expr · span)) fun expr =>
      Reads (value.elim [] (places .form)) (Expr.referencesOptional expr) :=
  fun expr hread =>
    reads_optional (Gives.optionMapM_rel (fun value => h.expr value span) value expr hread)

omit h in
theorem readOnce_readPair {first : Sexp → Span → DumpResult α}
    {second : Sexp → Span → DumpResult β} {make : α → β → Span → Expr} {head : String}
    {referencesA : α → List Reference} {referencesB : β → List Reference}
    (hhead : isTakenApart head) (hflags : flagsOf head = [])
    (hfirst : ∀ value outer, Gives (first value outer) fun a =>
      Reads (places (slotAt head 0) value) (referencesA a))
    (hsecond : ∀ value outer, Gives (second value outer) fun b =>
      Reads (places (slotAt head 1) value) (referencesB b))
    (hmake : ∀ a b span, (make a b span).references = referencesA a ++ referencesB b) :
    ReadOnceAt .form head Expr.references (readPair first second make) := by
  intro line items outer
  unfold readPair
  refine (partsOf _ _ _).bind fun parts hparts => ?_
  have hspanned : PartsOf parts ⟨line, head, items⟩ ["span"] (flagsOf head) := by rwa [hflags]
  refine Gives.bind (fun _ => parts.two_eq_ok_iff.1) ?_
  rintro ⟨a, b⟩ hitems
  refine (gives_span parts outer).bind fun span hspan => ?_
  refine (hfirst a span).bind fun a' ha => (hsecond b span).bind fun b' hb => .ok ?_
  rw [places_spanned hspanned hspan hhead rfl, hitems, hmake]
  simp only [placesFrom, List.append_nil]
  exact ha.append hb

omit h in
theorem readOnce_readLit : ReadOnceAt .form "lit" Expr.references readLit := by
  intro line items outer
  unfold readLit
  refine (partsOf _ _ _).bind fun parts hparts => ?_
  refine Gives.bind (fun _ => parts.one_eq_ok_iff.1) fun literal hitems => ?_
  refine (gives_span parts outer).bind fun span hspan => .ok ?_
  rw [places_spanned hparts hspan rfl rfl, placesFrom_eq_nil (fun _ => rfl) rfl]
  exact .nil

theorem readOnce_readCall : ReadOnceAt .form "call" Expr.references (readCall below) := by
  intro line items outer
  unfold readCall
  refine (partsOf _ _ _).bind fun parts hparts => ?_
  refine Gives.bind (fun _ => parts.oneAndRest_eq_ok_iff.1) ?_
  rintro ⟨func, args⟩ hitems
  refine (gives_span parts outer).bind fun span hspan => ?_
  refine (h.expr func span).bind fun func' hfunc =>
    (readOnce_exprs h args span).bind fun args' hargs => .ok ?_
  rw [places_spanned hparts hspan rfl rfl, hitems, placesFrom, placesFrom_eq_flatMap fun _ => rfl]
  exact hfunc.append hargs

theorem readOnce_readMethodCall :
    ReadOnceAt .form "method-call" Expr.references (readMethodCall below) := by
  intro line items outer
  unfold readMethodCall
  refine (partsOf _ _ _).bind fun parts hparts => ?_
  refine Gives.bind (fun _ => parts.twoAndRest_eq_ok_iff.1) ?_
  rintro ⟨receiver, method, args⟩ hitems
  refine (gives_span parts outer).bind fun span hspan => ?_
  refine (h.expr receiver span).bind fun receiver' hreceiver => ?_
  refine Gives.text.bind fun method' hmethod => ?_
  refine (readOnce_exprs h args span).bind fun args' hargs => .ok ?_
  rw [places_spanned hparts hspan rfl rfl, hitems, placesFrom, placesFrom,
    placesFrom_eq_flatMap fun _ => rfl]
  exact hreceiver.append ((reads_word hmethod).append hargs)

theorem readOnce_readStructExpr :
    ReadOnceAt .form "struct-expr" Expr.references (readStructExpr below) := by
  intro line items outer
  unfold readStructExpr
  refine (partsOf _ _ _).bind fun parts hparts => ?_
  refine Gives.bind (fun _ => parts.oneAndRest_eq_ok_iff.1) ?_
  rintro ⟨path, fields⟩ hitems
  refine (reads_readLeadingPath parts path outer).bind ?_
  rintro ⟨ref, span⟩ ⟨href, hspan⟩
  refine (Gives.mapM_rel (readOnce_readField fun value => h.expr value span) fields).bind
    fun fields' hfields => ?_
  refine (Gives.mapValue_rel (fun value => h.expr value span) parts "base").bind
    fun base hbase => .ok ?_
  have hfields : Reads (fields.flatMap (places .form))
      (FieldInit.referencesAll (fields'.map fun field => ⟨field.1, field.2⟩)) :=
    .gathered (fun fields => FieldInit.referencesAll (fields.map _)) rfl (fun _ _ => rfl) hfields
  rw [places_of_parts hparts (by decide) hspan rfl rfl, hitems, placesFrom,
    placesFrom_eq_flatMap fun _ => rfl]
  simp (disch := decide) only [placesOf_of_not_mem hparts, List.nil_append, List.append_assoc]
  exact href.append (hfields.append (reads_optional hbase))

theorem readOnce_readMatch : ReadOnceAt .form "match" Expr.references (readMatch below) := by
  intro line items outer
  unfold readMatch
  refine (partsOf _ _ _).bind fun parts hparts => ?_
  refine Gives.bind (fun _ => parts.oneAndRest_eq_ok_iff.1) ?_
  rintro ⟨scrutinee, arms⟩ hitems
  refine (gives_span parts outer).bind fun span hspan => ?_
  refine (h.expr scrutinee span).bind fun scrutinee' hscrutinee => ?_
  refine (Gives.mapM_rel (readOnce_readArm h span) arms).bind fun arms' harms => .ok ?_
  rw [places_spanned hparts hspan rfl rfl, hitems, placesFrom, placesFrom_eq_flatMap fun _ => rfl]
  exact hscrutinee.append (.gathered Arm.referencesAll rfl (fun _ _ => rfl) harms)

theorem readOnce_readIf : ReadOnceAt .form "if" Expr.references (readIf below) := by
  intro line items outer
  unfold readIf
  refine (partsOf _ _ _).bind fun parts hparts => ?_
  refine Gives.bind (fun _ => parts.twoOrThree_eq_ok_iff.1) ?_
  rintro ⟨cond, thenBranch, elseBranch⟩ hitems
  refine (gives_span parts outer).bind fun span hspan => ?_
  refine (readOnce_optional h elseBranch span).bind fun elseBranch' helse => ?_
  refine (h.expr cond span).bind fun cond' hcond => ?_
  refine (h.expr thenBranch span).bind fun thenBranch' hthen => .ok ?_
  rw [places_spanned hparts hspan rfl rfl, hitems, placesFrom, placesFrom, placesFrom_toList]
  exact hcond.append (hthen.append helse)

theorem readOnce_readLoop : ReadOnceAt .form "loop" Expr.references (readLoop below) := by
  intro line items outer
  unfold readLoop
  refine (partsOf _ _ _).bind fun parts hparts => ?_
  refine Gives.bind (fun _ => parts.one_eq_ok_iff.1) fun body hitems => ?_
  refine (gives_span parts outer).bind fun span hspan => ?_
  refine (h.block body span).bind fun body' hbody => .ok ?_
  rw [places_spanned hparts hspan rfl rfl, hitems]
  simp only [placesFrom, List.append_nil]
  exact hbody

theorem readOnce_readFor : ReadOnceAt .form "for" Expr.references (readFor below) := by
  intro line items outer
  unfold readFor
  refine (partsOf _ _ _).bind fun parts hparts => ?_
  refine Gives.bind (fun _ => parts.three_eq_ok_iff.1) ?_
  rintro ⟨pat, iter, body⟩ hitems
  refine (gives_span parts outer).bind fun span hspan => ?_
  refine (h.pattern pat span).bind fun pat' hpat => (h.expr iter span).bind fun iter' hiter => ?_
  refine (h.block body span).bind fun body' hbody => .ok ?_
  rw [places_spanned hparts hspan rfl rfl, hitems]
  simp only [placesFrom, List.append_nil]
  exact hpat.append (hiter.append hbody)

theorem readOnce_readClosure : ReadOnceAt .form "closure" Expr.references (readClosure below) := by
  intro line items outer
  unfold readClosure
  refine (partsOf _ _ _).bind fun parts hparts => ?_
  split
  · intro expr hread
    exact absurd hread parts.wrongCount_ne
  · rename_i body hbody
    refine (gives_span parts outer).bind fun span hspan => ?_
    refine (Gives.mapM_rel (readOnce_readClosureParam h span) _).bind fun params hparams => ?_
    refine (h.expr body span).bind fun body' hbody' => .ok ?_
    have hitems : parts.positional = parts.positional.dropLast ++ [body] :=
      (List.dropLast_append_getLast? body hbody).symm
    rw [places_spanned hparts hspan rfl rfl, placesFrom_eq_flatMap fun _ => rfl, hitems,
      List.flatMap_append, List.flatMap_singleton]
    exact (Reads.gathered (·.flatMap ClosureParam.references) rfl
      (fun _ _ => List.flatMap_cons) hparams).append hbody'

theorem readOnce_readUnary : ReadOnceAt .form "unary" Expr.references (readUnary below) := by
  intro line items outer
  unfold readUnary
  refine (partsOf _ _ _).bind fun parts hparts => ?_
  refine Gives.bind (fun _ => parts.two_eq_ok_iff.1) ?_
  rintro ⟨op, operand⟩ hitems
  refine (gives_span parts outer).bind fun span hspan => Gives.text.bind fun op' hop => ?_
  refine (h.expr operand span).bind fun operand' hoperand => .ok ?_
  rw [places_spanned hparts hspan rfl rfl, hitems]
  simp only [placesFrom, List.append_nil]
  exact (reads_word hop).append hoperand

theorem readOnce_readBinary : ReadOnceAt .form "binary" Expr.references (readBinary below) := by
  intro line items outer
  unfold readBinary
  refine (partsOf _ _ _).bind fun parts hparts => ?_
  refine Gives.bind (fun _ => parts.three_eq_ok_iff.1) ?_
  rintro ⟨op, lhs, rhs⟩ hitems
  refine (gives_span parts outer).bind fun span hspan => Gives.text.bind fun op' hop => ?_
  refine (h.expr lhs span).bind fun lhs' hlhs => (h.expr rhs span).bind fun rhs' hrhs => .ok ?_
  rw [places_spanned hparts hspan rfl rfl, hitems]
  simp only [placesFrom, List.append_nil]
  exact (reads_word hop).append (hlhs.append hrhs)

theorem readOnce_readFieldExpr :
    ReadOnceAt .form "field" Expr.references (readFieldExpr below) := by
  intro line items outer
  unfold readFieldExpr
  refine (partsOf _ _ _).bind fun parts hparts => ?_
  refine Gives.bind (fun _ => parts.two_eq_ok_iff.1) ?_
  rintro ⟨base, name⟩ hitems
  refine (gives_span parts outer).bind fun span hspan => ?_
  refine (h.expr base span).bind fun base' hbase => Gives.text.bind fun name' hname => .ok ?_
  rw [places_spanned hparts hspan rfl rfl, hitems]
  simp only [placesFrom, List.append_nil]
  have hboth := hbase.append (reads_word hname)
  rw [List.append_nil] at hboth
  exact hboth

theorem readOnce_readExprList {head : String} {make : List Expr → Span → Expr}
    (hhead : isTakenApart head) (hflags : flagsOf head = [])
    (hslot : ∀ index, slotAt head index = .form)
    (hmake : ∀ exprs span, (make exprs span).references = Expr.referencesAll exprs) :
    ReadOnceAt .form head Expr.references (readExprList below make) := by
  intro line items outer
  unfold readExprList
  refine (partsOf _ _ _).bind fun parts hparts => (gives_span parts outer).bind fun span hspan => ?_
  have hspanned : PartsOf parts ⟨line, head, items⟩ ["span"] (flagsOf head) := by rwa [hflags]
  refine (readOnce_exprs h parts.positional span).bind fun elems helems => .ok ?_
  rw [places_spanned hspanned hspan hhead rfl, placesFrom_eq_flatMap hslot, hmake]
  exact helems

theorem readOnce_readJump {head : String} (hhead : isTakenApart head) (hflags : flagsOf head = [])
    (hslot : slotAt head 0 = .form) (withValue : Bool) :
    ReadOnceAt .form head Expr.references (readJump below withValue) := by
  intro line items outer
  unfold readJump
  refine (partsOf _ _ _).bind fun parts hparts => ?_
  have hspanned : PartsOf parts ⟨line, head, items⟩ ["span"] (flagsOf head) := by rwa [hflags]
  refine Gives.bind (fun _ => parts.atMostOne_eq_ok_iff.1) fun value ⟨hitems, _⟩ => ?_
  refine (gives_span parts outer).bind fun span hspan => ?_
  refine (readOnce_optional h value span).bind fun value' hvalue => .ok ?_
  rw [places_spanned hspanned hspan hhead rfl, hitems, placesFrom_toList, hslot]
  exact hvalue

theorem readOnce_readExpr (value : Sexp) (outer : Span) :
    Gives (readExpr below value outer) fun expr =>
      Reads (places .form value) expr.references := by
  unfold readExpr
  refine Gives.bind (fun _ => Form.ofSexp_eq_ok_iff.1) ?_
  rintro ⟨line, head, items⟩ rfl
  dsimp only
  split
  case h_1 | h_2 | h_3 => -- a path
    refine Gives.self.bind ?_
    rintro ⟨ref, span⟩ hread
    exact .ok (reads_pathForm hread rfl rfl)
  · exact (readOnce_readBlock h _ outer).bind fun block hblock => .ok hblock
  · exact readOnce_readLit _ _ _
  · exact readOnce_readCall h _ _ _
  · exact readOnce_readMethodCall h _ _ _
  · exact readOnce_readStructExpr h _ _ _
  · exact readOnce_readMatch h _ _ _
  · exact readOnce_readIf h _ _ _
  · exact readOnce_readPair rfl rfl h.pattern h.expr (fun _ _ _ => rfl) _ _ _
  · exact readOnce_readLoop h _ _ _
  · exact readOnce_readPair rfl rfl h.expr h.block (fun _ _ _ => rfl) _ _ _
  · exact readOnce_readFor h _ _ _
  · exact readOnce_readClosure h _ _ _
  · exact readOnce_readPair rfl rfl h.expr h.ty (fun _ _ _ => rfl) _ _ _
  · exact readOnce_readUnary h _ _ _
  · exact readOnce_readBinary h _ _ _
  · exact readOnce_readFieldExpr h _ _ _
  · exact readOnce_readPair rfl rfl h.expr h.expr (fun _ _ _ => rfl) _ _ _
  · exact readOnce_readExprList h rfl rfl (fun _ => rfl) (fun _ _ => rfl) _ _ _
  · exact readOnce_readExprList h rfl rfl (fun _ => rfl) (fun _ _ => rfl) _ _ _
  · exact readOnce_readJump h rfl rfl rfl true _ _ _
  · exact readOnce_readJump h rfl rfl rfl true _ _ _
  · exact readOnce_readJump h rfl rfl rfl false _ _ _
  · exact readOnce_readMacro _ outer rfl
  · exact .fault

/-- One level hands it on to the next. -/
theorem readOnce_readersAbove : (readersAbove below).ReadOnce :=
  ⟨readOnce_readTy h, readOnce_readPattern h, readOnce_readExpr h, readOnce_readBlock h⟩

end

theorem readOnce_readers (level : Nat) : (readers level).ReadOnce := by
  induction level with
  | zero =>
      exact ⟨nofun, nofun, nofun, nofun⟩
  | succ level ih =>
      exact readOnce_readersAbove ih

/-! ## Implementation blocks -/

section

variable {below : Readers} (h : below.ReadOnce)
include h

theorem readOnce_readParam (outer : Span) (value : Sexp) :
    Gives (readParam below outer value) fun param =>
      Reads (places .form value) param.references := by
  unfold readParam
  refine Gives.bind (fun _ => Form.ofSexp_eq_ok_iff.1) ?_
  rintro ⟨line, head, items⟩ rfl
  refine .checked fun hhead => ?_
  obtain rfl : head = "param" := by simpa using hhead
  refine (partsOf _ _ _).bind fun parts hparts => ?_
  refine Gives.bind (fun _ => parts.two_eq_ok_iff.1) ?_
  rintro ⟨pat, ty⟩ hitems
  refine (gives_span parts outer).bind fun span hspan => ?_
  refine (h.pattern pat span).bind fun pat' hpat => (h.ty ty span).bind fun ty' hty => .ok ?_
  rw [places_spanned hparts hspan rfl rfl, hitems]
  simp only [placesFrom, List.append_nil]
  exact hpat.append hty

theorem readOnce_readMethod (form : Form) (outer : Span) (hhead : form.head = "fn") :
    Gives (readMethod below form outer) fun method =>
      Reads (places .form form.toSexp) (ImplItem.method method).references := by
  obtain ⟨line, head, items⟩ := form
  obtain rfl : head = "fn" := hhead
  unfold readMethod
  refine (partsOf _ _ _).bind fun parts hparts => ?_
  refine Gives.bind (fun _ => parts.twoAndRest_eq_ok_iff.1) ?_
  rintro ⟨name, second, rest⟩ hitems
  refine (gives_span parts outer).bind fun span hspan => Gives.text.bind fun name' hname => ?_
  refine .check (.step fun bodyForm => .check ?_)
  refine (Gives.mapM_rel (readOnce_readParam h span) _).bind fun params hparams => ?_
  refine (Gives.mapValue_rel (fun value => h.ty value span) parts "ret").bind fun ret hret => ?_
  refine (h.block _ span).bind fun body hbody => .ok ?_
  -- The last item is the body, and those between the name and it are the parameters.
  have hlast := eq_dropLast_concat second rest
  rw [places_of_parts hparts (by decide) hspan rfl rfl, hitems, placesFrom,
    placesFrom_eq_flatMap fun _ => rfl, hlast, List.flatMap_append, List.flatMap_singleton]
  simp (disch := decide) only [placesOf_of_not_mem hparts, List.nil_append, List.append_nil,
    List.append_assoc]
  have hparams : Reads ((second :: rest).dropLast.flatMap (places .form))
      (params.flatMap Param.references) :=
    .gathered (·.flatMap Param.references) rfl (fun _ _ => List.flatMap_cons) hparams
  exact (reads_word hname).append (hparams.append (hbody.append (.elim hret)))

theorem readOnce_readAssocType :
    ReadOnceAt .form "type" (·.ty.references) (readAssocType below) := by
  intro line items outer
  unfold readAssocType
  refine (partsOf _ _ _).bind fun parts hparts => ?_
  refine Gives.bind (fun _ => parts.two_eq_ok_iff.1) ?_
  rintro ⟨name, ty⟩ hitems
  refine (gives_span parts outer).bind fun span hspan => Gives.text.bind fun name' hname => ?_
  refine (h.ty ty span).bind fun ty' hty => .ok ?_
  rw [places_spanned hparts hspan rfl rfl, hitems]
  simp only [placesFrom, List.append_nil]
  exact (reads_word hname).append hty

theorem readOnce_readAssocConst :
    ReadOnceAt .form "const" (fun item => (ImplItem.assocConst item).references)
      (readAssocConst below) := by
  intro line items outer
  unfold readAssocConst
  refine (partsOf _ _ _).bind fun parts hparts => ?_
  refine Gives.bind (fun _ => parts.twoOrThree_eq_ok_iff.1) ?_
  rintro ⟨name, ty, value⟩ hitems
  refine (gives_span parts outer).bind fun span hspan => ?_
  refine (Gives.optionMapM_rel (fun value => h.expr value span) value).bind fun value' hvalue => ?_
  refine Gives.text.bind fun name' hname => (h.ty ty span).bind fun ty' hty => .ok ?_
  rw [places_spanned hparts hspan rfl rfl, hitems, placesFrom, placesFrom, placesFrom_toList]
  exact (reads_word hname).append (hty.append (reads_optional hvalue))

theorem readOnce_readImplItem (outer : Span) (value : Sexp) :
    Gives (readImplItem below outer value) fun item =>
      Reads (places .form value) item.references := by
  unfold readImplItem
  refine Gives.bind (fun _ => Form.ofSexp_eq_ok_iff.1) ?_
  rintro ⟨line, head, items⟩ rfl
  dsimp only
  split
  · exact (readOnce_readAssocType h _ _ outer).bind fun item hitem => .ok hitem
  · exact (readOnce_readMethod h _ outer rfl).bind fun method hmethod => .ok hmethod
  · exact (readOnce_readAssocConst h _ _ outer).bind fun item hitem => .ok hitem
  · exact .fault

theorem readOnce_readImpl (file : String) (form : Form) (hhead : form.head = "impl") :
    Gives (readImpl below file form) fun block =>
      Reads (places .form form.toSexp) block.references := by
  obtain ⟨line, head, items⟩ := form
  obtain rfl : head = "impl" := hhead
  unfold readImpl
  refine (partsOf _ _ _).bind fun parts hparts => ?_
  refine (gives_span parts _).bind fun span hspan => ?_
  have htrait (value : Sexp) : Gives (do
        let text ← Form.text ⟨line, "impl", items⟩ value
        return pathText text none) fun ref => Reads (places .path value) [ref] :=
    Gives.text.bind fun text htext => .ok (reads_bare htext)
  refine (Gives.mapValue_rel htrait parts "trait").bind fun traitRef htraitRef => ?_
  refine (Gives.mapValue_rel (fun value => h.ty value span) parts "self-ty").bind
    fun selfTy hselfTy => ?_
  refine (Gives.mapM_rel (readOnce_readImplItem h span) _).bind fun items' hitems => .ok ?_
  rw [places_of_parts hparts (by decide) hspan rfl rfl, placesFrom_eq_flatMap fun _ => rfl]
  simp (disch := decide) only [placesOf_of_not_mem hparts, List.append_nil]
  refine .append (.optional Option.toList rfl (fun _ => rfl) htraitRef) (.append (.elim hselfTy) ?_)
  exact .gathered (·.flatMap ImplItem.references) rfl (fun _ _ => List.flatMap_cons) hitems

end

/-! ## Crates -/

def formOf? (value : Sexp) : Option Form :=
  (Form.ofSexp value).toOption

/-- The implementation blocks among some items of a crate. -/
def implsAmong (items : List Sexp) : List Form :=
  (items.filterMap formOf?).filter (·.head == "impl")

/-- The implementation blocks of a document. -/
def implForms (values : List Sexp) : List Form :=
  (values.filterMap formOf?).flatMap fun crate => implsAmong crate.items

/-- The places of a document. -/
def documentPlaces (values : List Sexp) : List Place :=
  (implForms values).flatMap fun form => places .form form.toSexp

theorem implsAmong_cons (form : Form) (rest : List Sexp) :
    implsAmong (form.toSexp :: rest) =
      if form.head == "impl" then form :: implsAmong rest else implsAmong rest := by
  have hform : formOf? form.toSexp = some form := rfl
  rw [implsAmong, List.filterMap_cons_some hform, List.filter_cons]
  rfl

theorem implsAmong_cons_none {value : Sexp} (h : formOf? value = none) (rest : List Sexp) :
    implsAmong (value :: rest) = implsAmong rest := by
  rw [implsAmong, List.filterMap_cons_none h]
  rfl

theorem formOf?_of_word {value : Sexp} {text : String} (h : value.word? = some text) :
    formOf? value = none := by
  cases value with
  | symbol | text => rfl
  | _ => cases h

/-- The places of a document that is one form. -/
theorem documentPlaces_toSexp (form : Form) : documentPlaces [form.toSexp] =
    (implsAmong form.items).flatMap fun form => places .form form.toSexp := by
  have himpls : implForms [form.toSexp] = implsAmong form.items := List.append_nil _
  rw [documentPlaces, himpls]

theorem readOnce_readItems {below : Readers} (h : below.ReadOnce) (file : String)
    (items : List Sexp) :
    Gives (readItems below file items) fun answer =>
      Reads ((implsAmong items).flatMap fun form => places .form form.toSexp)
        (answer.1.flatMap ImplBlock.references) := by
  induction items with
  | nil =>
      exact .ok .nil
  | cons item rest ih =>
      rw [readItems]
      refine Gives.bind (fun _ => Form.ofSexp_eq_ok_iff.1) ?_
      rintro form rfl
      rw [implsAmong_cons]
      split
      · rename_i himpl
        refine (readOnce_readImpl h file form (by simpa using himpl)).bind fun block hblock => ?_
        refine ih.bind ?_
        rintro ⟨blocks, marks⟩ hblocks
        refine .ok ?_
        rw [List.flatMap_cons, List.flatMap_cons]
        exact hblock.append hblocks
      · split
        · exact .step fun mark => ih.bind fun (blocks, marks) hblocks => .ok hblocks
        · split
          · exact ih
          · exact .fault

/-- The references of a crate are what is read at the places of its document. -/
theorem readOnce_readCrate (values : List Sexp) :
    Gives (readCrate values) fun crate => Reads (documentPlaces values) crate.references := by
  unfold readCrate
  split
  · exact nofun
  · rename_i value
    refine Gives.bind (fun _ => Form.ofSexp_eq_ok_iff.1) ?_
    rintro form rfl
    refine .check ((positional_parts_nil form).bind fun parts hparts => ?_)
    refine Gives.bind (fun _ => parts.oneAndRest_eq_ok_iff.1) ?_
    rintro ⟨file, items⟩ hitems
    refine Gives.text.bind fun file' hfile => ?_
    refine (readOnce_readItems (readOnce_readers _) file' items).bind ?_
    rintro ⟨impls, marks⟩ himpls
    refine .ok ?_
    rw [documentPlaces_toSexp, ← hparts, hitems, implsAmong_cons_none (formOf?_of_word hfile)]
    exact himpls
  · exact nofun

end Dump

/-- A dump is read where its text has values that are a crate. -/
theorem Crate.ofDump_eq_ok_iff {text name : String} {crate : Crate} :
    Crate.ofDump text name = .ok crate ↔
      ∃ values, Dump.readValues text = .ok values ∧ Dump.readCrate values = .ok crate := by
  constructor
  · intro h
    unfold Crate.ofDump at h
    cases hvalues : Dump.readValues text with
    | error fault =>
        rw [hvalues] at h
        cases h
    | ok values =>
        rw [hvalues] at h
        change (Dump.readCrate values).mapError _ = _ at h
        refine ⟨values, rfl, ?_⟩
        cases hcrate : Dump.readCrate values with
        | error fault =>
            rw [hcrate] at h
            cases h
        | ok crate' =>
            rw [hcrate] at h
            cases h
            rfl
  · rintro ⟨values, hvalues, hcrate⟩
    rw [Crate.ofDump, hvalues]
    change (Dump.readCrate values).mapError _ = _
    rw [hcrate]
    rfl

end AssocLint
