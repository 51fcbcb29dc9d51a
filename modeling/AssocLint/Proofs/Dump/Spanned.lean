import AssocLint.Proofs.Dump.HandedDown

/-!
# Every node has the span handed down to it

The nodes of a tree, with their spans, are those that `spanTrees` tells from its document. The
readers are followed form by form, as in the proof that every place is read once: a form is read
under the span around it, and its parts are read under its own.
-/

namespace AssocLint
namespace Dump

variable {α β : Type}

/-- Readers whose trees have the nodes of a value, with the spans handed down to them. -/
structure Readers.Spanned (below : Readers) : Prop where
  ty : ∀ value outer, Gives (below.ty value outer) fun ty =>
    spanTrees .path value .node outer = [ty.spanTree]
  pattern : ∀ value outer, Gives (below.pattern value outer) fun pat =>
    spanTrees .form value .node outer = [pat.spanTree]
  expr : ∀ value outer, Gives (below.expr value outer) fun expr =>
    spanTrees .form value .node outer = [expr.spanTree]
  block : ∀ value outer, Gives (below.block value outer) fun block =>
    spanTrees .form value .body outer = [block.spanTree]

/-- The trees that are read from forms with a certain head have the nodes of these, with the spans
handed down to them. -/
def SpannedAt (slot : Slot) (head : String) (spanTree : α → SpanTree)
    (read : Form → Span → DumpResult α) : Prop :=
  ∀ line items outer, Gives (read ⟨line, head, items⟩ outer) fun tree =>
    spanTrees slot (Form.toSexp ⟨line, head, items⟩) .node outer = [spanTree tree]

section

variable {below : Readers} (h : below.Spanned)
include h

/-! ## Types -/

omit h in
theorem spanTrees_tys {values : List Sexp} {tys : List Ty} {span : Span}
    (hread : List.Forall₂ (fun value (ty : Ty) => spanTrees .path value .node span = [ty.spanTree])
      values tys) :
    (values.flatMap fun value => spanTrees .path value .node span) = Ty.spanTrees tys :=
  flatMap_eq_gathered Ty.spanTrees rfl (fun _ _ => rfl) hread

theorem spanned_readRefTy : SpannedAt .path "ref" Ty.spanTree (readRefTy below) := by
  intro line items outer
  unfold readRefTy
  refine (partsOf _ _ _).bind fun parts hparts => ?_
  refine Gives.bind (fun _ => parts.one_eq_ok_iff.1) fun inner hitems => ?_
  refine (gives_spanned .path hparts rfl rfl rfl outer).bind fun span hnode => ?_
  refine (h.ty inner span).bind fun ty hty => .ok ?_
  rw [hnode, hitems]
  simp only [spanTreesFrom, List.append_nil]
  exact node_eq hty

theorem spanned_readTupleTy : SpannedAt .path "tuple" Ty.spanTree (readTupleTy below) := by
  intro line items outer
  unfold readTupleTy
  refine (partsOf _ _ _).bind fun parts hparts => ?_
  refine (gives_spanned .path hparts rfl rfl rfl outer).bind fun span hnode => ?_
  refine (Gives.mapM_rel (fun value => h.ty value span) _).bind fun tys htys => .ok ?_
  rw [hnode, spanTreesFrom_eq_flatMap (fun _ => rfl) fun _ _ => rfl]
  exact node_eq (spanTrees_tys htys)

theorem spanned_readSliceTy : SpannedAt .path "slice" Ty.spanTree (readSliceTy below) := by
  intro line items outer
  unfold readSliceTy
  refine (partsOf _ _ _).bind fun parts hparts => ?_
  refine Gives.bind (fun _ => parts.one_eq_ok_iff.1) fun elem hitems => ?_
  refine (gives_spanned .path hparts rfl rfl rfl outer).bind fun span hnode => ?_
  refine (h.ty elem span).bind fun ty hty => .ok ?_
  rw [hnode, hitems]
  simp only [spanTreesFrom, List.append_nil]
  exact node_eq hty

theorem spanned_readArrayTy : SpannedAt .path "array" Ty.spanTree (readArrayTy below) := by
  intro line items outer
  unfold readArrayTy
  refine (partsOf _ _ _).bind fun parts hparts => ?_
  refine Gives.bind (fun _ => parts.two_eq_ok_iff.1) ?_
  rintro ⟨elem, length⟩ hitems
  refine (gives_spanned .path hparts rfl rfl rfl outer).bind fun span hnode => ?_
  refine (h.ty elem span).bind fun ty hty => .ok ?_
  have hlength : spanTrees (slotAt "array" 1) length .node span = [] :=
    spanTrees_eq_nil rfl length
  rw [hnode, hitems]
  simp only [spanTreesFrom, List.append_nil]
  exact node_eq (congrArg₂ (· ++ ·) hty hlength)

omit h in
theorem spanned_readOpaqueTy : SpannedAt .path "opaque" Ty.spanTree readOpaqueTy := by
  intro line items outer
  unfold readOpaqueTy
  refine (partsOf _ _ _).bind fun parts hparts => ?_
  refine Gives.bind (fun _ => parts.one_eq_ok_iff.1) fun value hitems => ?_
  refine Gives.text.bind fun text htext => ?_
  refine (gives_spanned .path hparts rfl rfl rfl outer).bind fun span hnode => .ok ?_
  rw [hnode, hitems]
  simp only [spanTreesFrom, List.append_nil]
  exact node_eq (spanTrees_word htext)

theorem spanned_readTy (value : Sexp) (outer : Span) :
    Gives (readTy below value outer) fun ty =>
      spanTrees .path value .node outer = [ty.spanTree] := by
  unfold readTy
  split
  · rename_i text htext
    exact .ok (spanTrees_bare htext)
  · refine Gives.bind (fun _ => Form.ofSexp_eq_ok_iff.1) ?_
    rintro ⟨line, head, items⟩ rfl
    dsimp only
    split
    case h_1 | h_2 | h_3 => -- a path
      refine Gives.self.bind ?_
      rintro ⟨ref, span⟩ hread
      exact .ok (spanTrees_pathForm hread rfl rfl)
    · exact spanned_readRefTy h _ _ _
    · exact spanned_readTupleTy h _ _ _
    · exact spanned_readSliceTy h _ _ _
    · exact spanned_readArrayTy h _ _ _
    case h_8 | h_9 => -- a type that is one sign
      refine (partsOf _ _ _).bind fun parts hparts => ?_
      refine (gives_spanned .path hparts rfl rfl rfl outer).bind fun span hnode => .ok ?_
      rw [hnode, spanTreesFrom_eq_nil (fun _ => rfl) rfl]
      rfl
    · exact spanned_readOpaqueTy _ _ _
    · exact .fault

/-! ## Patterns -/

omit h in
/-- A named field is no node. Its content stands under the node around it. -/
theorem spanned_readField {problem : DumpProblem} {read : Sexp → DumpResult α}
    {nodesIn : α → List SpanTree} {span : Span}
    (hread : ∀ value, Gives (read value) fun tree =>
      spanTrees .form value .node span = nodesIn tree) (value : Sexp) :
    Gives (readField problem read value) fun field =>
      spanTrees .form value .part span = nodesIn field.2 := by
  unfold readField
  refine Gives.bind (fun _ => Form.ofSexp_eq_ok_iff.1) ?_
  rintro ⟨line, head, items⟩ rfl
  refine .checked fun hhead => ?_
  obtain rfl : head = "field" := by simpa using hhead
  refine (partsOf _ _ _).bind fun parts hparts => ?_
  refine Gives.bind (fun _ => parts.two_eq_ok_iff.1) ?_
  rintro ⟨name, content⟩ hitems
  refine Gives.text.bind fun name hname => (hread content).bind fun tree htree => .ok ?_
  rw [spanTrees_of_parts hparts rfl rfl, nodesOf_part,
    spanTreesOfParts_spanned hparts (List.nil_subset _), hitems, spanTreesFrom_word hname rfl]
  simp only [spanTreesFrom, List.append_nil]
  exact htree

omit h in
theorem spanTrees_patterns {values : List Sexp} {pats : List Pattern} {span : Span}
    (hread : List.Forall₂
      (fun value (pat : Pattern) => spanTrees .form value .node span = [pat.spanTree])
      values pats) :
    (values.flatMap fun value => spanTrees .form value .node span) = Pattern.spanTrees pats :=
  flatMap_eq_gathered Pattern.spanTrees rfl (fun _ _ => rfl) hread

theorem spanned_readPatternList (form : Form) (outer : Span) (hhead : isTakenApart form.head)
    (hnode : (["tail", "block"] ++ ledByPath).contains form.head = false)
    (hflags : flagsOf form.head = []) (hslot : ∀ index, slotAt form.head index = .form)
    (hstanding : ∀ index last, standingAt form.head index last = .node) :
    Gives (readPatternList below form outer) fun answer =>
      spanTrees .form form.toSexp .node outer =
        [.node answer.2 (Pattern.spanTrees answer.1)] := by
  unfold readPatternList
  refine (partsOf _ _ _).bind fun parts hparts => ?_
  have hspanned : PartsOf parts form ["span"] (flagsOf form.head) := by rwa [hflags]
  refine (gives_spanned .form hspanned hhead hnode rfl outer).bind fun span hnode => ?_
  refine (Gives.mapM_rel (fun value => h.pattern value span) _).bind fun pats hpats => .ok ?_
  rw [hnode, spanTreesFrom_eq_flatMap hslot hstanding]
  exact node_eq (spanTrees_patterns hpats)

omit h in
theorem spanned_readWildPat : SpannedAt .form "wild" Pattern.spanTree readWildPat := by
  intro line items outer
  unfold readWildPat
  refine (partsOf _ _ _).bind fun parts hparts => ?_
  refine (gives_spanned .form hparts rfl rfl rfl outer).bind fun span hnode => .ok ?_
  rw [hnode, spanTreesFrom_eq_nil (fun _ => rfl) rfl]
  rfl

theorem spanned_readBindingPat :
    SpannedAt .form "binding" Pattern.spanTree (readBindingPat below) := by
  intro line items outer
  unfold readBindingPat
  refine (partsOf _ _ _).bind fun parts hparts => ?_
  refine Gives.bind (fun _ => parts.oneOrTwo_eq_ok_iff.1) ?_
  rintro ⟨name, sub⟩ hitems
  refine (gives_spanned .form hparts rfl rfl rfl outer).bind fun span hnode => ?_
  refine (Gives.optionMapM_rel (fun value => h.pattern value span) sub).bind fun sub' hsub => ?_
  refine Gives.text.bind fun name' hname => .ok ?_
  rw [hnode, hitems, spanTreesFrom_word hname rfl, spanTreesFrom_toList]
  cases hsub with
  | none => rfl
  | some hsub => exact node_eq hsub

omit h in
theorem spanned_readPathPat : SpannedAt .form "path-pat" Pattern.spanTree readPathPat := by
  intro line items outer
  unfold readPathPat
  refine (partsOf _ _ _).bind fun parts hparts => ?_
  refine Gives.bind (fun _ => parts.one_eq_ok_iff.1) fun path hitems => ?_
  exact (gives_ledSpanned rfl hitems outer hparts).bind fun answer hnode => .ok hnode

theorem spanned_readTupleStructPat :
    SpannedAt .form "tuple-struct" Pattern.spanTree (readTupleStructPat below) := by
  intro line items outer
  unfold readTupleStructPat
  refine (partsOf _ _ _).bind fun parts hparts => ?_
  refine Gives.bind (fun _ => parts.oneAndRest_eq_ok_iff.1) ?_
  rintro ⟨path, elems⟩ hitems
  refine (gives_ledSpanned rfl hitems outer hparts).bind ?_
  rintro ⟨ref, span⟩ hnode
  refine (Gives.mapM_rel (fun value => h.pattern value span) elems).bind fun pats hpats => .ok ?_
  rw [hnode, spanTreesFrom_eq_flatMap (fun _ => rfl) fun _ _ => rfl]
  exact node_eq (spanTrees_patterns hpats)

theorem spanned_readStructPat :
    SpannedAt .form "struct-pat" Pattern.spanTree (readStructPat below) := by
  intro line items outer
  unfold readStructPat
  refine (partsOf _ _ _).bind fun parts hparts => ?_
  refine Gives.bind (fun _ => parts.oneAndRest_eq_ok_iff.1) ?_
  rintro ⟨path, fields⟩ hitems
  refine (gives_ledSpanned rfl hitems outer hparts).bind ?_
  rintro ⟨ref, span⟩ hnode
  refine (Gives.mapM_rel (spanned_readField fun value => h.pattern value span) fields).bind
    fun fields' hfields => .ok ?_
  rw [hnode, spanTreesFrom_eq_flatMap (fun _ => rfl) fun _ _ => rfl]
  exact node_eq (flatMap_eq_gathered (fun fields => FieldPattern.spanTrees (fields.map _)) rfl
    (fun _ _ => rfl) hfields)

theorem spanned_readOrPat : SpannedAt .form "or-pat" Pattern.spanTree (readOrPat below) := by
  intro line items outer
  unfold readOrPat
  refine (spanned_readPatternList h _ outer rfl rfl rfl (fun _ => rfl) fun _ _ => rfl).bind ?_
  rintro ⟨alts, span⟩ halts
  exact .check (.ok halts)

theorem spanned_readRefPat : SpannedAt .form "ref-pat" Pattern.spanTree (readRefPat below) := by
  intro line items outer
  unfold readRefPat
  refine (partsOf _ _ _).bind fun parts hparts => ?_
  refine Gives.bind (fun _ => parts.one_eq_ok_iff.1) fun inner hitems => ?_
  refine (gives_spanned .form hparts rfl rfl rfl outer).bind fun span hnode => ?_
  refine (h.pattern inner span).bind fun pat hpat => .ok ?_
  rw [hnode, hitems]
  simp only [spanTreesFrom, List.append_nil]
  exact node_eq hpat

omit h in
theorem spanned_readLitPat : SpannedAt .form "lit-pat" Pattern.spanTree readLitPat := by
  intro line items outer
  unfold readLitPat
  refine (partsOf _ _ _).bind fun parts hparts => ?_
  refine Gives.bind (fun _ => parts.one_eq_ok_iff.1) fun literal hitems => ?_
  refine (gives_spanned .form hparts rfl rfl rfl outer).bind fun span hnode => .ok ?_
  rw [hnode, spanTreesFrom_eq_nil (fun _ => rfl) rfl]
  rfl

theorem spanned_readPattern (value : Sexp) (outer : Span) :
    Gives (readPattern below value outer) fun pat =>
      spanTrees .form value .node outer = [pat.spanTree] := by
  unfold readPattern
  refine Gives.bind (fun _ => Form.ofSexp_eq_ok_iff.1) ?_
  rintro ⟨line, head, items⟩ rfl
  dsimp only
  split
  · exact spanned_readWildPat _ _ _
  · exact spanned_readBindingPat h _ _ _
  · exact spanned_readPathPat _ _ _
  · exact spanned_readTupleStructPat h _ _ _
  · exact spanned_readStructPat h _ _ _
  case h_6 | h_7 => -- a tuple or a slice
    refine (spanned_readPatternList h _ outer rfl rfl rfl (fun _ => rfl) fun _ _ => rfl).bind ?_
    rintro ⟨elems, span⟩ helems
    exact .ok helems
  · exact spanned_readOrPat h _ _ _
  · exact spanned_readRefPat h _ _ _
  · exact spanned_readLitPat _ _ _
  · exact .fault

/-! ## Statements and blocks -/

omit h in
theorem spanTrees_exprs {values : List Sexp} {exprs : List Expr} {span : Span}
    (hread : List.Forall₂
      (fun value (expr : Expr) => spanTrees .form value .node span = [expr.spanTree])
      values exprs) :
    (values.flatMap fun value => spanTrees .form value .node span) = Expr.spanTrees exprs :=
  flatMap_eq_gathered Expr.spanTrees rfl (fun _ _ => rfl) hread

omit h in
theorem spanTrees_optional {value : Option Sexp} {expr : Option Expr} {span : Span}
    (hread : Option.Rel
      (fun value (expr : Expr) => spanTrees .form value .node span = [expr.spanTree])
      value expr) :
    (value.elim [] fun value => spanTrees .form value .node span) =
      Expr.spanTreesOptional expr :=
  elim_eq_optional Expr.spanTreesOptional rfl (fun _ => rfl) hread

omit h in
theorem spanTrees_optionalTy {value : Option Sexp} {ty : Option Ty} {span : Span}
    (hread : Option.Rel
      (fun value (ty : Ty) => spanTrees .path value .node span = [ty.spanTree]) value ty) :
    (value.elim [] fun value => spanTrees .path value .node span) =
      (ty.map Ty.spanTree).toList :=
  elim_eq_optional (fun ty => (ty.map Ty.spanTree).toList) rfl (fun _ => rfl) hread

theorem spanned_readLet : SpannedAt .form "let" Stmt.spanTree (readLet below) := by
  intro line items outer
  unfold readLet
  refine (partsOf _ _ _).bind fun parts hparts => ?_
  refine Gives.bind (fun _ => parts.one_eq_ok_iff.1) fun pat hitems => ?_
  refine (gives_node .form hparts rfl rfl rfl outer).bind fun span hnode => ?_
  refine (h.pattern pat span).bind fun pat' hpat => ?_
  refine (Gives.mapValue_rel (fun value => h.ty value span) parts "ty").bind fun ty hty => ?_
  refine (Gives.mapValue_rel (fun value => h.expr value span) parts "init").bind
    fun init hinit => ?_
  refine (Gives.mapValue_rel (fun value => h.block value span) parts "else").bind
    fun elseBlock helse => .ok ?_
  rw [hnode, spanTreesOfParts_eq hparts, hitems]
  simp (disch := decide) only [spanTreesOf_of_not_mem hparts, spanTreesFrom, List.nil_append,
    List.append_nil]
  have helse := elim_eq_optional Block.spanTreesOptional rfl (fun _ => rfl) helse
  exact node_eq (congrArg₂ (· ++ ·) hpat (congrArg₂ (· ++ ·) (spanTrees_optionalTy hty)
    (congrArg₂ (· ++ ·) (spanTrees_optional hinit) helse)))

omit h in
/-- A statement is one at the end of a block as well. -/
theorem spanTrees_statement {form : Form} (hhead : form.head ∈ statementHeads) (index : Nat)
    (last : Bool) (span : Span) :
    spanTrees .form form.toSexp (standingAt "block" index last) span =
      spanTrees .form form.toSexp .node span := by
  cases last with
  | true => rfl
  | false =>
      rw [spanTrees_toSexp rfl, spanTrees_toSexp rfl]
      exact nodesOf_statement hhead

theorem spanned_readSemi : SpannedAt .form "semi" Stmt.spanTree (readSemi below) := by
  intro line items outer
  unfold readSemi
  refine (partsOf _ _ _).bind fun parts hparts => ?_
  refine Gives.bind (fun _ => parts.one_eq_ok_iff.1) fun content hitems => ?_
  refine (gives_spanned .form hparts rfl rfl rfl outer).bind fun span hnode => ?_
  refine (h.expr content span).bind fun expr hexpr => .ok ?_
  rw [hnode, hitems]
  simp only [spanTreesFrom, List.append_nil]
  exact node_eq hexpr

theorem spanned_readStmt (form : Form) (outer : Span) (hhead : form.head ∈ statementHeads) :
    Gives (readStmt below form outer) fun stmt =>
      spanTrees .form form.toSexp .node outer = [stmt.spanTree] := by
  obtain ⟨line, head, items⟩ := form
  unfold readStmt
  dsimp only
  split
  · exact spanned_readLet h _ _ _
  · exact spanned_readSemi h _ _ _
  · -- a nested item
    obtain rfl : head = "item" := by simp_all [statementHeads]
    refine .ok ?_
    rw [spanTrees_toSexp rfl]
    rfl

theorem spanned_readTail : SpannedAt .form "tail" Expr.spanTree (readTail below) := by
  intro line items outer
  unfold readTail
  refine (partsOf _ _ _).bind fun parts hparts => ?_
  refine Gives.bind (fun _ => parts.one_eq_ok_iff.1) fun content hitems => ?_
  rw [spanTrees_of_parts hparts rfl rfl, nodesOf_tail rfl,
    spanTreesOfParts_spanned hparts (List.nil_subset _), hitems]
  simp only [spanTreesFrom, List.append_nil]
  exact h.expr content outer

/-- Statement by statement, as the value of the block is found. -/
theorem spanned_readStmts (span : Span) (index : Nat) (items : List Sexp) :
    Gives (readStmts below span items) fun answer =>
      spanTreesFrom "block" span index items =
        Stmt.spanTrees answer.1 ++ Expr.spanTreesOptional answer.2 := by
  induction items generalizing index with
  | nil =>
      exact .ok rfl
  | cons item rest ih =>
      rw [readStmts, spanTreesFrom]
      -- Behind each statement the rest of the block is read, whatever form the statement has.
      have hnext (stmt : Stmt)
          (hstmt : spanTrees .form item (standingAt "block" index rest.isEmpty) span =
            [stmt.spanTree]) :
          Gives (do
            let answer ← readStmts below span rest
            return (stmt :: answer.1, answer.2)) fun answer =>
              spanTrees .form item (standingAt "block" index rest.isEmpty) span ++
                  spanTreesFrom "block" span (index + 1) rest =
                Stmt.spanTrees answer.1 ++ Expr.spanTreesOptional answer.2 := by
        refine (ih (index + 1)).bind fun answer hanswer => .ok ?_
        rw [hstmt, hanswer]
        rfl
      refine Gives.bind (fun _ => Form.ofSexp_eq_ok_iff.1) ?_
      rintro ⟨line, head, items⟩ rfl
      split
      · rename_i hhead
        obtain rfl : head = "tail" := by simpa using hhead
        refine .checked fun hrest => (spanned_readTail h _ _ span).bind fun expr hexpr => .ok ?_
        obtain rfl : rest = [] := by simpa using hrest
        exact congrArg (· ++ []) hexpr
      split
      · rename_i hhead
        have hhead : head ∈ statementHeads := by simpa using hhead
        refine (spanned_readStmt h _ span hhead).bind fun stmt hstmt => hnext stmt ?_
        exact (spanTrees_statement hhead index rest.isEmpty span).trans hstmt
      · rename_i htail hstatement
        refine (h.expr _ span).bind fun expr hexpr => ?_
        -- An expression is the value where nothing follows it, and a statement elsewhere.
        split
        · rename_i hrest
          obtain rfl : rest = [] := by simpa using hrest
          exact .ok (congrArg (· ++ []) hexpr)
        · rename_i hrest
          refine hnext (.exprStmt expr span) ?_
          have hlast : rest.isEmpty = false := by simpa using hrest
          rw [spanTrees_toSexp rfl] at hexpr ⊢
          rw [hlast]
          exact (nodesOf_wrapped (by simpa using hstatement) (by simpa using htail)).trans
            (node_eq hexpr)

theorem spanned_readBlock (value : Sexp) (outer : Span) :
    Gives (readBlock below value outer) fun block =>
      spanTrees .form value .body outer = [block.spanTree] := by
  unfold readBlock
  refine Gives.bind (fun _ => Form.ofSexp_eq_ok_iff.1) ?_
  rintro ⟨line, head, items⟩ rfl
  refine .checked fun hhead => ?_
  obtain rfl : head = "block" := by simpa using hhead
  refine (partsOf _ _ _).bind fun parts hparts => ?_
  refine (gives_nodeSpan hparts rfl rfl outer).bind fun span hspan => ?_
  refine (spanned_readStmts h span 0 parts.positional).bind fun answer hanswer => .ok ?_
  rw [spanTrees_of_parts hparts rfl rfl, nodesOf_body rfl, hspan,
    spanTreesOfParts_spanned hparts (List.Subset.refl _)]
  exact node_eq hanswer

/-! ## Expressions -/

theorem spanned_readArm (outer : Span) (value : Sexp) :
    Gives (readArm below outer value) fun arm =>
      spanTrees .form value .node outer = [arm.spanTree] := by
  unfold readArm
  refine Gives.bind (fun _ => Form.ofSexp_eq_ok_iff.1) ?_
  rintro ⟨line, head, items⟩ rfl
  refine .checked fun hhead => ?_
  obtain rfl : head = "arm" := by simpa using hhead
  refine (partsOf _ _ _).bind fun parts hparts => ?_
  refine Gives.bind (fun _ => parts.two_eq_ok_iff.1) ?_
  rintro ⟨pat, body⟩ hitems
  refine (gives_node .form hparts rfl rfl rfl outer).bind fun span hnode => ?_
  refine (Gives.mapValue_rel (fun value => h.expr value span) parts "guard").bind
    fun guard hguard => ?_
  refine (h.pattern pat span).bind fun pat' hpat =>
    (h.expr body span).bind fun body' hbody => .ok ?_
  rw [hnode, spanTreesOfParts_eq hparts, hitems]
  simp (disch := decide) only [spanTreesOf_of_not_mem hparts, spanTreesFrom, List.nil_append,
    List.append_nil, List.append_assoc]
  exact node_eq (congrArg₂ (· ++ ·) hpat (congrArg₂ (· ++ ·) hbody (spanTrees_optional hguard)))

/-- A parameter of a closure is no node. What it holds stands under the node of the closure. -/
theorem spanned_readClosureParam (span : Span) (value : Sexp) :
    Gives (readClosureParam below span value) fun param =>
      spanTrees .form value .part span = param.spanTrees := by
  unfold readClosureParam
  refine Gives.bind (fun _ => Form.ofSexp_eq_ok_iff.1) ?_
  rintro ⟨line, head, items⟩ rfl
  refine .checked fun hhead => ?_
  obtain rfl : head = "cparam" := by simpa using hhead
  refine (partsOf _ _ _).bind fun parts hparts => ?_
  refine Gives.bind (fun _ => parts.oneOrTwo_eq_ok_iff.1) ?_
  rintro ⟨pat, ty⟩ hitems
  refine (Gives.optionMapM_rel (fun value => h.ty value span) ty).bind fun ty' hty => ?_
  refine (h.pattern pat span).bind fun pat' hpat => .ok ?_
  rw [spanTrees_of_parts hparts rfl rfl, nodesOf_part,
    spanTreesOfParts_spanned hparts (List.nil_subset _), hitems, spanTreesFrom,
    spanTreesFrom_toList]
  exact congrArg₂ (· ++ ·) hpat (spanTrees_optionalTy hty)

omit h in
theorem spanned_readMacro (form : Form) (outer : Span) (hhead : form.head = "macro") :
    Gives (readMacro form outer) fun expr =>
      spanTrees .form form.toSexp .node outer = [expr.spanTree] := by
  obtain ⟨line, head, items⟩ := form
  obtain rfl : head = "macro" := hhead
  have hnode : spanTrees .form (Form.toSexp ⟨line, "macro", items⟩) .node outer =
      [.node (nodeSpan ⟨line, "macro", items⟩ outer) []] := by
    rw [spanTrees_toSexp rfl]
    rfl
  rw [hnode]
  unfold readMacro
  dsimp only
  split
  · exact .fault
  · rename_i name tokens
    have hspan : nodeSpan ⟨line, "macro", name :: tokens⟩ outer =
        ((macroSpan? tokens).bind (writtenSpan? outer.file)).getD outer := by
      rw [macroSpan?_eq]
      rfl
    rw [hspan]
    -- The reader takes the span around the macro where no token follows a `:span`.
    split
    · rename_i hvalue
      refine (Gives.ok (P := (outer = ·)) rfl).bind fun span hspan => .step fun name => .ok ?_
      rw [hvalue, ← hspan]
      rfl
    · rename_i value hvalue
      refine Gives.bind (fun _ => spanOf_eq_ok_iff.1) fun span hspan => .step fun name => .ok ?_
      rw [hvalue, Option.bind_some, hspan]
      rfl

omit h in
/-- A block that is an expression takes the span of the block. -/
theorem spanTrees_blockExpr {form : Form} {block : Block} {outer : Span}
    (hhead : form.head = "block")
    (hblock : spanTrees .form form.toSexp .body outer = [block.spanTree]) :
    spanTrees .form form.toSexp .node outer = [(Expr.block block block.span).spanTree] := by
  rw [spanTrees_toSexp rfl] at hblock ⊢
  rw [nodesOf_block hhead, hblock]
  rw [nodesOf_body hhead] at hblock
  obtain ⟨stmts, tail, span⟩ := block
  -- Both nodes have the span of the form, and the inner one is known to have that of the block.
  have hspan : nodeSpan form outer = span :=
    (SpanTree.node.inj (List.cons.inj hblock).1).1
  rw [hspan]
  rfl

theorem spanned_exprs (values : List Sexp) (span : Span) :
    Gives (values.mapM (below.expr · span)) fun exprs =>
      (values.flatMap fun value => spanTrees .form value .node span) = Expr.spanTrees exprs :=
  fun exprs hread =>
    spanTrees_exprs (Gives.mapM_rel (fun value => h.expr value span) values exprs hread)

theorem spanned_optional (value : Option Sexp) (span : Span) :
    Gives (value.mapM (below.expr · span)) fun expr =>
      (value.elim [] fun value => spanTrees .form value .node span) =
        Expr.spanTreesOptional expr :=
  fun expr hread =>
    spanTrees_optional (Gives.optionMapM_rel (fun value => h.expr value span) value expr hread)

omit h in
theorem spanned_readPair {first : Sexp → Span → DumpResult α}
    {second : Sexp → Span → DumpResult β} {make : α → β → Span → Expr} {head : String}
    {spanTreeA : α → SpanTree} {spanTreeB : β → SpanTree} (hhead : isTakenApart head)
    (hnode : (["tail", "block"] ++ ledByPath).contains head = false) (hflags : flagsOf head = [])
    (hfirst : ∀ value outer, Gives (first value outer) fun a =>
      spanTrees (slotAt head 0) value (standingAt head 0 false) outer = [spanTreeA a])
    (hsecond : ∀ value outer, Gives (second value outer) fun b =>
      spanTrees (slotAt head 1) value (standingAt head 1 true) outer = [spanTreeB b])
    (hmake : ∀ a b span, (make a b span).spanTree = .node span [spanTreeA a, spanTreeB b]) :
    SpannedAt .form head Expr.spanTree (readPair first second make) := by
  intro line items outer
  unfold readPair
  refine (partsOf _ _ _).bind fun parts hparts => ?_
  have hspanned : PartsOf parts ⟨line, head, items⟩ ["span"] (flagsOf head) := by rwa [hflags]
  refine Gives.bind (fun _ => parts.two_eq_ok_iff.1) ?_
  rintro ⟨a, b⟩ hitems
  refine (gives_spanned .form hspanned hhead hnode rfl outer).bind fun span hnode => ?_
  refine (hfirst a span).bind fun a' ha => (hsecond b span).bind fun b' hb => .ok ?_
  rw [hnode, hitems, hmake]
  simp only [spanTreesFrom, List.append_nil]
  exact node_eq (congrArg₂ (· ++ ·) ha hb)

omit h in
theorem spanned_readLit : SpannedAt .form "lit" Expr.spanTree readLit := by
  intro line items outer
  unfold readLit
  refine (partsOf _ _ _).bind fun parts hparts => ?_
  refine Gives.bind (fun _ => parts.one_eq_ok_iff.1) fun literal hitems => ?_
  refine (gives_spanned .form hparts rfl rfl rfl outer).bind fun span hnode => .ok ?_
  rw [hnode, spanTreesFrom_eq_nil (fun _ => rfl) rfl]
  rfl

theorem spanned_readCall : SpannedAt .form "call" Expr.spanTree (readCall below) := by
  intro line items outer
  unfold readCall
  refine (partsOf _ _ _).bind fun parts hparts => ?_
  refine Gives.bind (fun _ => parts.oneAndRest_eq_ok_iff.1) ?_
  rintro ⟨func, args⟩ hitems
  refine (gives_spanned .form hparts rfl rfl rfl outer).bind fun span hnode => ?_
  refine (h.expr func span).bind fun func' hfunc =>
    (spanned_exprs h args span).bind fun args' hargs => .ok ?_
  rw [hnode, hitems, spanTreesFrom, spanTreesFrom_eq_flatMap (fun _ => rfl) fun _ _ => rfl]
  exact node_eq (congrArg₂ (· ++ ·) hfunc hargs)

theorem spanned_readMethodCall :
    SpannedAt .form "method-call" Expr.spanTree (readMethodCall below) := by
  intro line items outer
  unfold readMethodCall
  refine (partsOf _ _ _).bind fun parts hparts => ?_
  refine Gives.bind (fun _ => parts.twoAndRest_eq_ok_iff.1) ?_
  rintro ⟨receiver, method, args⟩ hitems
  refine (gives_spanned .form hparts rfl rfl rfl outer).bind fun span hnode => ?_
  refine (h.expr receiver span).bind fun receiver' hreceiver => ?_
  refine Gives.text.bind fun method' hmethod => ?_
  refine (spanned_exprs h args span).bind fun args' hargs => .ok ?_
  rw [hnode, hitems, spanTreesFrom, spanTreesFrom_word hmethod rfl,
    spanTreesFrom_eq_flatMap (fun _ => rfl) fun _ _ => rfl]
  exact node_eq (congrArg₂ (· ++ ·) hreceiver hargs)

theorem spanned_readStructExpr :
    SpannedAt .form "struct-expr" Expr.spanTree (readStructExpr below) := by
  intro line items outer
  unfold readStructExpr
  refine (partsOf _ _ _).bind fun parts hparts => ?_
  refine Gives.bind (fun _ => parts.oneAndRest_eq_ok_iff.1) ?_
  rintro ⟨path, fields⟩ hitems
  refine (gives_led rfl hitems outer hparts).bind ?_
  rintro ⟨ref, span⟩ hnode
  refine (Gives.mapM_rel (spanned_readField fun value => h.expr value span) fields).bind
    fun fields' hfields => ?_
  refine (Gives.mapValue_rel (fun value => h.expr value span) parts "base").bind
    fun base hbase => .ok ?_
  rw [hnode, spanTreesOfParts_eq hparts, hitems, spanTreesFrom_led rfl,
    spanTreesFrom_eq_flatMap (fun _ => rfl) fun _ _ => rfl]
  simp (disch := decide) only [spanTreesOf_of_not_mem hparts, List.nil_append]
  have hfields := flatMap_eq_gathered
    (fun fields => FieldInit.spanTrees (fields.map fun field => ⟨field.1, field.2⟩)) rfl
    (fun _ _ => rfl) hfields
  exact node_eq (congrArg₂ (· ++ ·) hfields (spanTrees_optional hbase))

theorem spanned_readMatch : SpannedAt .form "match" Expr.spanTree (readMatch below) := by
  intro line items outer
  unfold readMatch
  refine (partsOf _ _ _).bind fun parts hparts => ?_
  refine Gives.bind (fun _ => parts.oneAndRest_eq_ok_iff.1) ?_
  rintro ⟨scrutinee, arms⟩ hitems
  refine (gives_spanned .form hparts rfl rfl rfl outer).bind fun span hnode => ?_
  refine (h.expr scrutinee span).bind fun scrutinee' hscrutinee => ?_
  refine (Gives.mapM_rel (spanned_readArm h span) arms).bind fun arms' harms => .ok ?_
  rw [hnode, hitems, spanTreesFrom, spanTreesFrom_eq_flatMap (fun _ => rfl) fun _ _ => rfl]
  have harms := flatMap_eq_gathered Arm.spanTrees rfl (fun _ _ => rfl) harms
  exact node_eq (congrArg₂ (· ++ ·) hscrutinee harms)

theorem spanned_readIf : SpannedAt .form "if" Expr.spanTree (readIf below) := by
  intro line items outer
  unfold readIf
  refine (partsOf _ _ _).bind fun parts hparts => ?_
  refine Gives.bind (fun _ => parts.twoOrThree_eq_ok_iff.1) ?_
  rintro ⟨cond, thenBranch, elseBranch⟩ hitems
  refine (gives_spanned .form hparts rfl rfl rfl outer).bind fun span hnode => ?_
  refine (spanned_optional h elseBranch span).bind fun elseBranch' helse => ?_
  refine (h.expr cond span).bind fun cond' hcond => ?_
  refine (h.expr thenBranch span).bind fun thenBranch' hthen => .ok ?_
  rw [hnode, hitems, spanTreesFrom, spanTreesFrom, spanTreesFrom_toList]
  exact node_eq (congrArg₂ (· ++ ·) hcond (congrArg₂ (· ++ ·) hthen helse))

theorem spanned_readLoop : SpannedAt .form "loop" Expr.spanTree (readLoop below) := by
  intro line items outer
  unfold readLoop
  refine (partsOf _ _ _).bind fun parts hparts => ?_
  refine Gives.bind (fun _ => parts.one_eq_ok_iff.1) fun body hitems => ?_
  refine (gives_spanned .form hparts rfl rfl rfl outer).bind fun span hnode => ?_
  refine (h.block body span).bind fun body' hbody => .ok ?_
  rw [hnode, hitems]
  simp only [spanTreesFrom, List.append_nil]
  exact node_eq hbody

theorem spanned_readFor : SpannedAt .form "for" Expr.spanTree (readFor below) := by
  intro line items outer
  unfold readFor
  refine (partsOf _ _ _).bind fun parts hparts => ?_
  refine Gives.bind (fun _ => parts.three_eq_ok_iff.1) ?_
  rintro ⟨pat, iter, body⟩ hitems
  refine (gives_spanned .form hparts rfl rfl rfl outer).bind fun span hnode => ?_
  refine (h.pattern pat span).bind fun pat' hpat => (h.expr iter span).bind fun iter' hiter => ?_
  refine (h.block body span).bind fun body' hbody => .ok ?_
  rw [hnode, hitems]
  simp only [spanTreesFrom, List.append_nil]
  exact node_eq (congrArg₂ (· ++ ·) hpat (congrArg₂ (· ++ ·) hiter hbody))

theorem spanned_readClosure : SpannedAt .form "closure" Expr.spanTree (readClosure below) := by
  intro line items outer
  unfold readClosure
  refine (partsOf _ _ _).bind fun parts hparts => ?_
  split
  · intro expr hread
    exact absurd hread parts.wrongCount_ne
  · rename_i body hbody
    refine (gives_spanned .form hparts rfl rfl rfl outer).bind fun span hnode => ?_
    refine (Gives.mapM_rel (spanned_readClosureParam h span) _).bind fun params hparams => ?_
    refine (h.expr body span).bind fun body' hbody' => .ok ?_
    have hitems : parts.positional = parts.positional.dropLast ++ [body] :=
      (List.dropLast_append_getLast? body hbody).symm
    rw [hnode, hitems, spanTreesFrom_concat (fun _ => rfl) fun _ => rfl]
    have hparams := flatMap_eq_gathered (·.flatMap ClosureParam.spanTrees) rfl
      (fun _ _ => List.flatMap_cons) hparams
    exact node_eq (congrArg₂ (· ++ ·) hparams hbody')

theorem spanned_readUnary : SpannedAt .form "unary" Expr.spanTree (readUnary below) := by
  intro line items outer
  unfold readUnary
  refine (partsOf _ _ _).bind fun parts hparts => ?_
  refine Gives.bind (fun _ => parts.two_eq_ok_iff.1) ?_
  rintro ⟨op, operand⟩ hitems
  refine (gives_spanned .form hparts rfl rfl rfl outer).bind fun span hnode => ?_
  refine Gives.text.bind fun op' hop => (h.expr operand span).bind fun operand' hoperand => .ok ?_
  rw [hnode, hitems, spanTreesFrom_word hop rfl]
  simp only [spanTreesFrom, List.append_nil]
  exact node_eq hoperand

theorem spanned_readBinary : SpannedAt .form "binary" Expr.spanTree (readBinary below) := by
  intro line items outer
  unfold readBinary
  refine (partsOf _ _ _).bind fun parts hparts => ?_
  refine Gives.bind (fun _ => parts.three_eq_ok_iff.1) ?_
  rintro ⟨op, lhs, rhs⟩ hitems
  refine (gives_spanned .form hparts rfl rfl rfl outer).bind fun span hnode => ?_
  refine Gives.text.bind fun op' hop => ?_
  refine (h.expr lhs span).bind fun lhs' hlhs => (h.expr rhs span).bind fun rhs' hrhs => .ok ?_
  rw [hnode, hitems, spanTreesFrom_word hop rfl]
  simp only [spanTreesFrom, List.append_nil]
  exact node_eq (congrArg₂ (· ++ ·) hlhs hrhs)

theorem spanned_readFieldExpr : SpannedAt .form "field" Expr.spanTree (readFieldExpr below) := by
  intro line items outer
  unfold readFieldExpr
  refine (partsOf _ _ _).bind fun parts hparts => ?_
  refine Gives.bind (fun _ => parts.two_eq_ok_iff.1) ?_
  rintro ⟨base, name⟩ hitems
  refine (gives_spanned .form hparts rfl rfl rfl outer).bind fun span hnode => ?_
  refine (h.expr base span).bind fun base' hbase => Gives.text.bind fun name' hname => .ok ?_
  rw [hnode, hitems, spanTreesFrom, spanTreesFrom_word hname rfl]
  exact node_eq (congrArg (· ++ []) hbase)

theorem spanned_readExprList {head : String} {make : List Expr → Span → Expr}
    (hhead : isTakenApart head) (hnode : (["tail", "block"] ++ ledByPath).contains head = false)
    (hflags : flagsOf head = []) (hslot : ∀ index, slotAt head index = .form)
    (hstanding : ∀ index last, standingAt head index last = .node)
    (hmake : ∀ exprs span, (make exprs span).spanTree = .node span (Expr.spanTrees exprs)) :
    SpannedAt .form head Expr.spanTree (readExprList below make) := by
  intro line items outer
  unfold readExprList
  refine (partsOf _ _ _).bind fun parts hparts => ?_
  have hspanned : PartsOf parts ⟨line, head, items⟩ ["span"] (flagsOf head) := by rwa [hflags]
  refine (gives_spanned .form hspanned hhead hnode rfl outer).bind fun span hnode => ?_
  refine (spanned_exprs h parts.positional span).bind fun elems helems => .ok ?_
  rw [hnode, hmake, spanTreesFrom_eq_flatMap hslot hstanding]
  exact node_eq helems

theorem spanned_readJump {head : String} (hhead : isTakenApart head)
    (hnode : (["tail", "block"] ++ ledByPath).contains head = false) (hflags : flagsOf head = [])
    (hslot : slotAt head 0 = .form) (hstanding : standingAt head 0 true = .node)
    (withValue : Bool) : SpannedAt .form head Expr.spanTree (readJump below withValue) := by
  intro line items outer
  unfold readJump
  refine (partsOf _ _ _).bind fun parts hparts => ?_
  have hspanned : PartsOf parts ⟨line, head, items⟩ ["span"] (flagsOf head) := by rwa [hflags]
  refine Gives.bind (fun _ => parts.atMostOne_eq_ok_iff.1) fun value ⟨hitems, _⟩ => ?_
  refine (gives_spanned .form hspanned hhead hnode rfl outer).bind fun span hnode => ?_
  refine (spanned_optional h value span).bind fun value' hvalue => .ok ?_
  rw [hnode, hitems, spanTreesFrom_toList, hslot, hstanding]
  exact node_eq hvalue

theorem spanned_readExpr (value : Sexp) (outer : Span) :
    Gives (readExpr below value outer) fun expr =>
      spanTrees .form value .node outer = [expr.spanTree] := by
  unfold readExpr
  refine Gives.bind (fun _ => Form.ofSexp_eq_ok_iff.1) ?_
  rintro ⟨line, head, items⟩ rfl
  dsimp only
  split
  case h_1 | h_2 | h_3 => -- a path
    refine Gives.self.bind ?_
    rintro ⟨ref, span⟩ hread
    exact .ok (spanTrees_pathForm hread rfl rfl)
  · refine (spanned_readBlock h _ outer).bind fun block hblock => .ok ?_
    exact spanTrees_blockExpr rfl hblock
  · exact spanned_readLit _ _ _
  · exact spanned_readCall h _ _ _
  · exact spanned_readMethodCall h _ _ _
  · exact spanned_readStructExpr h _ _ _
  · exact spanned_readMatch h _ _ _
  · exact spanned_readIf h _ _ _
  · exact spanned_readPair rfl rfl rfl h.pattern h.expr (fun _ _ _ => rfl) _ _ _
  · exact spanned_readLoop h _ _ _
  · exact spanned_readPair rfl rfl rfl h.expr h.block (fun _ _ _ => rfl) _ _ _
  · exact spanned_readFor h _ _ _
  · exact spanned_readClosure h _ _ _
  · exact spanned_readPair rfl rfl rfl h.expr h.ty (fun _ _ _ => rfl) _ _ _
  · exact spanned_readUnary h _ _ _
  · exact spanned_readBinary h _ _ _
  · exact spanned_readFieldExpr h _ _ _
  · exact spanned_readPair rfl rfl rfl h.expr h.expr (fun _ _ _ => rfl) _ _ _
  · exact spanned_readExprList h rfl rfl rfl (fun _ => rfl) (fun _ _ => rfl) (fun _ _ => rfl) _ _ _
  · exact spanned_readExprList h rfl rfl rfl (fun _ => rfl) (fun _ _ => rfl) (fun _ _ => rfl) _ _ _
  · exact spanned_readJump h rfl rfl rfl rfl rfl true _ _ _
  · exact spanned_readJump h rfl rfl rfl rfl rfl true _ _ _
  · exact spanned_readJump h rfl rfl rfl rfl rfl false _ _ _
  · exact spanned_readMacro _ outer rfl
  · exact .fault

/-- One level hands it on to the next. -/
theorem spanned_readersAbove : (readersAbove below).Spanned :=
  ⟨spanned_readTy h, spanned_readPattern h, spanned_readExpr h, spanned_readBlock h⟩

end

theorem spanned_readers (level : Nat) : (readers level).Spanned := by
  induction level with
  | zero => exact ⟨nofun, nofun, nofun, nofun⟩
  | succ level ih => exact spanned_readersAbove ih

/-! ## Implementation blocks -/

section

variable {below : Readers} (h : below.Spanned)
include h

theorem spanned_readParam (outer : Span) (value : Sexp) :
    Gives (readParam below outer value) fun param =>
      spanTrees .form value .node outer = [param.spanTree] := by
  unfold readParam
  refine Gives.bind (fun _ => Form.ofSexp_eq_ok_iff.1) ?_
  rintro ⟨line, head, items⟩ rfl
  refine .checked fun hhead => ?_
  obtain rfl : head = "param" := by simpa using hhead
  refine (partsOf _ _ _).bind fun parts hparts => ?_
  refine Gives.bind (fun _ => parts.two_eq_ok_iff.1) ?_
  rintro ⟨pat, ty⟩ hitems
  refine (gives_spanned .form hparts rfl rfl rfl outer).bind fun span hnode => ?_
  refine (h.pattern pat span).bind fun pat' hpat => (h.ty ty span).bind fun ty' hty => .ok ?_
  rw [hnode, hitems]
  simp only [spanTreesFrom, List.append_nil]
  exact node_eq (congrArg₂ (· ++ ·) hpat hty)

theorem spanned_readMethod (form : Form) (outer : Span) (hhead : form.head = "fn") :
    Gives (readMethod below form outer) fun method =>
      spanTrees .form form.toSexp .node outer = [(ImplItem.method method).spanTree] := by
  obtain ⟨line, head, items⟩ := form
  obtain rfl : head = "fn" := hhead
  unfold readMethod
  refine (partsOf _ _ _).bind fun parts hparts => ?_
  refine Gives.bind (fun _ => parts.twoAndRest_eq_ok_iff.1) ?_
  rintro ⟨name, second, rest⟩ hitems
  refine (gives_node .form hparts rfl rfl rfl outer).bind fun span hnode => ?_
  refine Gives.text.bind fun name' hname => .check (.step fun bodyForm => .check ?_)
  refine (Gives.mapM_rel (spanned_readParam h span) _).bind fun params hparams => ?_
  refine (Gives.mapValue_rel (fun value => h.ty value span) parts "ret").bind fun ret hret => ?_
  refine (h.block _ span).bind fun body hbody => .ok ?_
  -- The last item is the body, and those between the name and it are the parameters.
  have hlast := eq_dropLast_concat second rest
  rw [hnode, spanTreesOfParts_eq hparts, hitems, spanTreesFrom_word hname rfl, hlast,
    spanTreesFrom_concat (fun _ => rfl) fun _ => rfl]
  simp (disch := decide) only [spanTreesOf_of_not_mem hparts, List.nil_append, List.append_nil,
    List.append_assoc]
  have hparams := flatMap_eq_gathered (List.map Param.spanTree) rfl (fun _ _ => rfl) hparams
  exact node_eq (congrArg₂ (· ++ ·) hparams
    (congrArg₂ (· ++ ·) hbody (spanTrees_optionalTy hret)))

theorem spanned_readAssocType :
    SpannedAt .form "type" (fun item => (ImplItem.assocType item).spanTree)
      (readAssocType below) := by
  intro line items outer
  unfold readAssocType
  refine (partsOf _ _ _).bind fun parts hparts => ?_
  refine Gives.bind (fun _ => parts.two_eq_ok_iff.1) ?_
  rintro ⟨name, ty⟩ hitems
  refine (gives_spanned .form hparts rfl rfl rfl outer).bind fun span hnode => ?_
  refine Gives.text.bind fun name' hname => (h.ty ty span).bind fun ty' hty => .ok ?_
  rw [hnode, hitems, spanTreesFrom_word hname rfl]
  simp only [spanTreesFrom, List.append_nil]
  exact node_eq hty

theorem spanned_readAssocConst :
    SpannedAt .form "const" (fun item => (ImplItem.assocConst item).spanTree)
      (readAssocConst below) := by
  intro line items outer
  unfold readAssocConst
  refine (partsOf _ _ _).bind fun parts hparts => ?_
  refine Gives.bind (fun _ => parts.twoOrThree_eq_ok_iff.1) ?_
  rintro ⟨name, ty, value⟩ hitems
  refine (gives_spanned .form hparts rfl rfl rfl outer).bind fun span hnode => ?_
  refine (Gives.optionMapM_rel (fun value => h.expr value span) value).bind fun value' hvalue => ?_
  refine Gives.text.bind fun name' hname => (h.ty ty span).bind fun ty' hty => .ok ?_
  rw [hnode, hitems, spanTreesFrom_word hname rfl, spanTreesFrom, spanTreesFrom_toList]
  exact node_eq (congrArg₂ (· ++ ·) hty (spanTrees_optional hvalue))

theorem spanned_readImplItem (outer : Span) (value : Sexp) :
    Gives (readImplItem below outer value) fun item =>
      spanTrees .form value .node outer = [item.spanTree] := by
  unfold readImplItem
  refine Gives.bind (fun _ => Form.ofSexp_eq_ok_iff.1) ?_
  rintro ⟨line, head, items⟩ rfl
  dsimp only
  split
  · exact (spanned_readAssocType h _ _ outer).bind fun item hitem => .ok hitem
  · exact (spanned_readMethod h _ outer rfl).bind fun method hmethod => .ok hmethod
  · exact (spanned_readAssocConst h _ _ outer).bind fun item hitem => .ok hitem
  · exact .fault

theorem spanned_readImpl (file : String) (form : Form) (hhead : form.head = "impl") :
    Gives (readImpl below file form) fun block =>
      spanTrees .form form.toSexp .node { file } = [block.spanTree] := by
  obtain ⟨line, head, items⟩ := form
  obtain rfl : head = "impl" := hhead
  unfold readImpl
  refine (partsOf _ _ _).bind fun parts hparts => ?_
  refine (gives_node .form hparts rfl rfl rfl _).bind fun span hnode => .step fun traitRef => ?_
  refine (Gives.mapValue_rel (fun value => h.ty value span) parts "self-ty").bind
    fun selfTy hselfTy => ?_
  refine (Gives.mapM_rel (spanned_readImplItem h span) _).bind fun items' hitems => .ok ?_
  rw [hnode, spanTreesOfParts_eq hparts, spanTreesFrom_eq_flatMap (fun _ => rfl) fun _ _ => rfl]
  simp (disch := decide) only [spanTreesOf_of_not_mem hparts, List.append_nil]
  have hitems := flatMap_eq_gathered (List.map ImplItem.spanTree) rfl (fun _ _ => rfl) hitems
  exact node_eq (congrArg₂ (· ++ ·) (spanTrees_optionalTy hselfTy) hitems)

theorem spanned_readItems (file : String) (items : List Sexp) :
    Gives (readItems below file items) fun answer =>
      ((implsAmong items).flatMap fun form => spanTrees .form form.toSexp .node { file }) =
        answer.1.map ImplBlock.spanTree := by
  induction items with
  | nil =>
      exact .ok rfl
  | cons item rest ih =>
      rw [readItems]
      refine Gives.bind (fun _ => Form.ofSexp_eq_ok_iff.1) ?_
      rintro form rfl
      rw [implsAmong_cons]
      split
      · rename_i himpl
        refine (spanned_readImpl h file form (by simpa using himpl)).bind fun block hblock => ?_
        refine ih.bind fun answer hanswer => .ok ?_
        rw [List.flatMap_cons]
        exact congrArg₂ (· ++ ·) hblock hanswer
      · split
        · exact .step fun mark => ih.bind fun answer hanswer => .ok hanswer
        · split
          · exact ih
          · exact .fault

end

/-! ## Crates -/

/-- The file that a document names in the header of its crate. -/
def headerFile? : List Sexp → Option String
  | [value] => (formOf? value).bind fun crate => crate.items.head?.bind Sexp.word?
  | _ => none

theorem spanned_readCrate (values : List Sexp) :
    Gives (readCrate values) fun crate =>
      headerFile? values = some crate.file ∧
        crate.spanTrees = documentSpanTrees crate.file values := by
  unfold readCrate
  split
  · exact nofun
  · refine Gives.bind (fun _ => Form.ofSexp_eq_ok_iff.1) ?_
    rintro form rfl
    refine .check ((positional_parts_nil form).bind fun parts hparts => ?_)
    refine Gives.bind (fun _ => parts.oneAndRest_eq_ok_iff.1) ?_
    rintro ⟨file, items⟩ hitems
    refine Gives.text.bind fun file' hfile => ?_
    refine (spanned_readItems (spanned_readers _) file' items).bind ?_
    rintro ⟨impls, marks⟩ himpls
    have hform : formOf? form.toSexp = some form := rfl
    have himpls' : implForms [form.toSexp] = implsAmong form.items := List.append_nil _
    refine .ok ⟨?_, ?_⟩
    · rw [headerFile?, hform, Option.bind_some, ← hparts, hitems]
      exact hfile
    · rw [documentSpanTrees, himpls', ← hparts, hitems,
        implsAmong_cons_none (formOf?_of_word hfile)]
      exact himpls.symm
  · exact nofun

end Dump

open Dump in
/-- The nodes of a crate have the spans that its document hands down to them, and all of them are in
the file that the document names. -/
theorem Crate.spanTrees_of_ofDump {text name : String} {crate : Crate}
    (h : Crate.ofDump text name = .ok crate) :
    ∃ values, readValues text = .ok values ∧ headerFile? values = some crate.file ∧
      crate.spanTrees = documentSpanTrees crate.file values ∧
      ∀ span ∈ SpanTree.spansAll crate.spanTrees, span.file = crate.file := by
  obtain ⟨values, hvalues, hcrate⟩ := Crate.ofDump_eq_ok_iff.1 h
  obtain ⟨hfile, htrees⟩ := spanned_readCrate values crate hcrate
  refine ⟨values, hvalues, hfile, htrees, ?_⟩
  rw [htrees]
  exact allInFile_flatMap fun form _ => allInFile_spanTrees .form form.toSexp .node _

open Dump in
/-- A struct literal takes the span of its path and hands it to the value of its field. The
statement around it and the nested item take that of the block, which is the one of the method, and
the macro takes the first span among its tokens. -/
theorem Crate.spanTrees_of_ofDump_method :
    let text := "(crate a (impl (fn f :span (3 5) (block
      (struct-expr (path A :span (4 9)) (field x (lit 1)))
      (item :span (9 9)) (macro m t :span (5 9))))))"
    ∃ crate values, Crate.ofDump text "dump" = .ok crate ∧ readValues text = .ok values ∧
      headerFile? values = some crate.file ∧
      crate.spanTrees = documentSpanTrees crate.file values ∧
      (∀ span ∈ SpanTree.spansAll crate.spanTrees, span.file = crate.file) ∧
      crate.file = "a" ∧
      (SpanTree.spansAll crate.spanTrees).map (fun span => (span.line, span.column)) =
        [(0, 0), (3, 5), (3, 5), (3, 5), (4, 9), (4, 9), (3, 5), (5, 9)] := by
  intro text
  have hread : (Crate.ofDump text "dump").toOption.map (fun crate => (crate.file,
      (SpanTree.spansAll crate.spanTrees).map fun span => (span.line, span.column))) =
      some ("a", [(0, 0), (3, 5), (3, 5), (3, 5), (4, 9), (4, 9), (3, 5), (5, 9)]) := by
    decide +kernel
  obtain ⟨crate, hcrate, hfound⟩ := Option.map_eq_some_iff.1 hread
  obtain ⟨hfile, hspans⟩ := Prod.mk.inj hfound
  have hcrate := eq_ok_of_toOption hcrate
  obtain ⟨values, hvalues, hheader, htrees, hfiles⟩ := Crate.spanTrees_of_ofDump hcrate
  exact ⟨crate, values, hcrate, hvalues, hheader, htrees, hfiles, hfile, hspans⟩

end AssocLint
