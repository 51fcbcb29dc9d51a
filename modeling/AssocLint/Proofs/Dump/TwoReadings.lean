import AssocLint.Proofs.Dump.Alike
import AssocLint.Proofs.Tree.Mapped

/-!
# Documents that are read alike give the same tree

Where a document is read, every document like it is read too, and its tree is the same but for
references that a given function does not tell apart. The readers are followed form by form, twice
at once: what a form holds is related to what the other form holds, and so are the trees made of
it.
-/

namespace AssocLint
namespace Dump

variable {α β γ : Type} {f : Reference → Reference} {like : Likeness}

/-- Readers that make the same of related values, but for references. -/
structure Readers.Alike (f : Reference → Reference) (like : Likeness) (below : Readers) : Prop where
  ty : ∀ value value', like .path value value' → ∀ outer,
    Carries (below.ty value outer) (below.ty value' outer) fun ty ty' =>
      ty'.mapReferences f = ty.mapReferences f
  pattern : ∀ value value', like .form value value' → ∀ outer,
    Carries (below.pattern value outer) (below.pattern value' outer) fun pat pat' =>
      pat'.mapReferences f = pat.mapReferences f
  expr : ∀ value value', like .form value value' → ∀ outer,
    Carries (below.expr value outer) (below.expr value' outer) fun expr expr' =>
      expr'.mapReferences f = expr.mapReferences f
  block : ∀ value value', like .form value value' → ∀ outer,
    Carries (below.block value outer) (below.block value' outer) fun block block' =>
      block'.mapReferences f = block.mapReferences f

/-- The trees that are read from like forms with a certain head are the same, but for what a
function makes of their references. -/
def AlikeAt (f : Reference → Reference) (like : Likeness) (head : String) (map : α → α)
    (read : Form → Span → DumpResult α) : Prop :=
  ∀ line items line' items', FormsAlike f like ⟨line, head, items⟩ ⟨line', head, items'⟩ →
    ∀ outer, Carries (read ⟨line, head, items⟩ outer) (read ⟨line', head, items'⟩ outer)
      fun tree tree' => map tree' = map tree

/-! ## Several trees -/

/-- What is made of several trees one by one. -/
theorem eq_of_forall₂ {R : α → β → Prop} {all : List α → γ} {all' : List β → γ}
    (hnil : all' [] = all [])
    (hcons : ∀ {tree tree' rest rest'}, R tree tree' → all' rest' = all rest →
      all' (tree' :: rest') = all (tree :: rest)) {trees : List α} {trees' : List β}
    (h : List.Forall₂ R trees trees') : all' trees' = all trees := by
  induction h with
  | nil => exact hnil
  | cons h _ ih => exact hcons h ih

/-- What is made of a tree that may be missing. -/
theorem map_eq_of_rel {g : α → β} {tree tree' : Option α}
    (h : Option.Rel (fun tree tree' => g tree' = g tree) tree tree') :
    tree'.map g = tree.map g := by
  cases h with
  | none => rfl
  | some h => exact congrArg some h

theorem map_eq_of_forall₂ {g : α → β} {trees trees' : List α}
    (h : List.Forall₂ (fun tree tree' => g tree' = g tree) trees trees') :
    trees'.map g = trees.map g := by
  refine eq_of_forall₂ ?_ ?_ h
  · rfl
  · exact fun htree hrest => congrArg₂ List.cons htree hrest

/-- The last of several related values, and those before it. -/
theorem forall₂_dropLast {R : α → β → Prop} {values : List α} {values' : List β}
    (h : List.Forall₂ R values values') :
    List.Forall₂ R values.dropLast values'.dropLast ∧
      Option.Rel R values.getLast? values'.getLast? := by
  have hlength := h.length_eq
  refine ⟨?_, ?_⟩
  · rw [List.dropLast_eq_take, List.dropLast_eq_take, hlength]
    exact List.forall₂_take _ h
  · rw [← List.head?_reverse, ← List.head?_reverse]
    have hreverse := List.rel_reverse h
    generalize values.reverse = reversed at hreverse
    generalize values'.reverse = reversed' at hreverse
    cases hreverse with
    | nil => exact .none
    | cons hlast _ => exact .some hlast

section

variable (hlike : ReadAlike f like) {below : Readers} (h : below.Alike f like)
include hlike

/-! ## Paths -/

theorem alike_readPath {value value' : Sexp} (hvalue : like .path value value') (outer : Span) :
    Carries (readPath value outer) (readPath value' outer) fun answer answer' =>
      f answer'.1 = f answer.1 ∧ answer'.2 = answer.2 := by
  have hbare := hlike.bare hvalue
  unfold readPath
  generalize value.word? = word at hbare
  generalize value'.word? = word' at hbare
  cases hbare with
  | some hbare =>
      exact .ok ⟨hbare, rfl⟩
  | none =>
      refine hlike.ofSexp rfl hvalue fun form form' _ _ hforms answer hread => ?_
      have hhead := pathHeads_of_readPathForm form outer answer hread
      exact hforms.path hhead outer answer hread

theorem alike_readLeadingPath {head : String} {parts parts' : Form.Parts}
    (hparts : PartsLike like head parts parts') {path path' : Sexp} (hpath : like .path path path')
    (outer : Span) :
    Carries (readLeadingPath parts path outer) (readLeadingPath parts' path' outer)
      fun answer answer' => f answer'.1 = f answer.1 ∧ answer'.2 = answer.2 := by
  unfold readLeadingPath
  refine (alike_readPath hlike hpath outer).bind fun (ref, span) (ref', span') ⟨href, hspan⟩ => ?_
  obtain rfl : span' = span := hspan
  exact (hlike.spanOf hparts span').step fun span => .ok ⟨href, rfl⟩

/-! ## Types -/

include h

theorem alike_readRefTy : AlikeAt f like "ref" (Ty.mapReferences f) (readRefTy below) := by
  intro line items line' items' hforms outer
  unfold readRefTy
  refine (hforms.parts rfl ["span"]).bind fun parts parts' hparts => ?_
  refine hparts.one.bind fun inner inner' hinner => ?_
  refine (hlike.spanOf hparts outer).step fun span => ?_
  refine (h.ty inner inner' hinner span).bind fun ty ty' hty => .ok ?_
  simp only [Ty.mapReferences, hty, hparts.has]

theorem alike_readTupleTy : AlikeAt f like "tuple" (Ty.mapReferences f) (readTupleTy below) := by
  intro line items line' items' hforms outer
  unfold readTupleTy
  refine (hforms.parts rfl ["span"]).bind fun parts parts' hparts => ?_
  refine (hlike.spanOf hparts outer).step fun span => ?_
  have hitems := hparts.positional.forall₂ fun _ => rfl
  refine (Carries.mapM (fun value value' hvalue => h.ty value value' hvalue span) hitems).bind
    fun tys tys' htys => .ok ?_
  exact congrArg (Ty.tuple · span) (eq_of_forall₂ rfl (congrArg₂ List.cons) htys)

theorem alike_readSliceTy : AlikeAt f like "slice" (Ty.mapReferences f) (readSliceTy below) := by
  intro line items line' items' hforms outer
  unfold readSliceTy
  refine (hforms.parts rfl ["span"]).bind fun parts parts' hparts => ?_
  refine hparts.one.bind fun elem elem' helem => ?_
  refine (hlike.spanOf hparts outer).step fun span => ?_
  refine (h.ty elem elem' helem span).bind fun ty ty' hty => .ok ?_
  simp only [Ty.mapReferences, hty]

theorem alike_readArrayTy : AlikeAt f like "array" (Ty.mapReferences f) (readArrayTy below) := by
  intro line items line' items' hforms outer
  unfold readArrayTy
  refine (hforms.parts rfl ["span"]).bind fun parts parts' hparts => ?_
  refine hparts.two.bind fun (elem, length) (elem', length') ⟨helem, hlength⟩ => ?_
  refine (hlike.spanOf hparts outer).step fun span => ?_
  refine (h.ty elem elem' helem span).bind fun ty ty' hty => .ok ?_
  exact congrArg₂ (Ty.array · · span) hty (hlike.length hlength)

omit h in
theorem alike_readOpaqueTy : AlikeAt f like "opaque" (Ty.mapReferences f) readOpaqueTy := by
  intro line items line' items' hforms outer
  unfold readOpaqueTy
  refine (hforms.parts rfl ["span"]).bind fun parts parts' hparts => ?_
  refine hparts.one.bind fun value value' hvalue => ?_
  refine (hlike.text hvalue _ _).step fun text => ?_
  exact (hlike.spanOf hparts outer).step fun span => .ok rfl

theorem alike_readTy (value value' : Sexp) (hvalue : like .path value value') (outer : Span) :
    Carries (readTy below value outer) (readTy below value' outer) fun ty ty' =>
      ty'.mapReferences f = ty.mapReferences f := by
  have hbare := hlike.bare hvalue
  unfold readTy
  generalize value.word? = word at hbare
  generalize value'.word? = word' at hbare
  cases hbare with
  | some hbare =>
      exact .ok (congrArg (Ty.path · outer) hbare)
  | none =>
      refine hlike.ofSexp rfl hvalue ?_
      rintro ⟨line, head, items⟩ ⟨line', head', items'⟩ rfl rfl hforms
      obtain rfl : head' = head := hforms.head_eq
      dsimp only
      split
      case h_1 | h_2 | h_3 => -- a path
        refine (hforms.path rfl outer).bind fun (ref, span) (ref', span') ⟨href, hspan⟩ => .ok ?_
        exact congrArg₂ Ty.path href hspan
      · exact alike_readRefTy hlike h _ _ _ _ hforms outer
      · exact alike_readTupleTy hlike h _ _ _ _ hforms outer
      · exact alike_readSliceTy hlike h _ _ _ _ hforms outer
      · exact alike_readArrayTy hlike h _ _ _ _ hforms outer
      case h_8 | h_9 => -- a type that is one sign
        refine (hforms.parts rfl ["span"]).bind fun parts parts' hparts => ?_
        exact (hlike.spanOf hparts outer).step fun span => .ok rfl
      · exact alike_readOpaqueTy hlike _ _ _ _ hforms outer
      · exact .fault

/-! ## Patterns -/

omit h in
theorem alike_readField {R : α → α → Prop} {problem : DumpProblem} {read : Sexp → DumpResult α}
    (hread : ∀ value value', like .form value value' → Carries (read value) (read value') R)
    (value value' : Sexp) (hvalue : like .form value value') :
    Carries (readField problem read value) (readField problem read value') fun field field' =>
      field'.1 = field.1 ∧ R field.2 field'.2 := by
  unfold readField
  refine hlike.ofSexp rfl hvalue ?_
  rintro ⟨line, head, items⟩ ⟨line', head', items'⟩ rfl rfl hforms
  obtain rfl : head' = head := hforms.head_eq
  refine .checked id fun hhead => ?_
  obtain rfl : head' = "field" := by simpa using hhead
  refine (hforms.parts rfl []).bind fun parts parts' hparts => ?_
  refine hparts.two.bind fun (name, content) (name', content') ⟨hname, hcontent⟩ => ?_
  refine (hlike.text hname _ _).step fun name => ?_
  exact (hread content content' hcontent).bind fun tree tree' htree => .ok ⟨rfl, htree⟩

theorem alike_readPatternList {form form' : Form} (hforms : FormsAlike f like form form')
    (hhead : isTakenApart form.head) (hflags : flagsOf form.head = [])
    (hslot : ∀ index, slotAt form.head index = .form) (outer : Span) :
    Carries (readPatternList below form outer) (readPatternList below form' outer)
      fun answer answer' =>
        Pattern.mapReferencesAll f answer'.1 = Pattern.mapReferencesAll f answer.1 ∧
          answer'.1.length = answer.1.length ∧ answer'.2 = answer.2 := by
  unfold readPatternList
  have hcarries := hforms.parts hhead ["span"]
  rw [hflags] at hcarries
  refine hcarries.bind fun parts parts' hparts => (hlike.spanOf hparts outer).step fun span => ?_
  refine (Carries.mapM (fun value value' hvalue => h.pattern value value' hvalue span)
    (hparts.positional.forall₂ hslot)).bind fun pats pats' hpats => .ok ⟨?_, ?_, rfl⟩
  · exact eq_of_forall₂ rfl (congrArg₂ List.cons) hpats
  · exact hpats.length_eq.symm

omit h in
theorem alike_readWildPat : AlikeAt f like "wild" (Pattern.mapReferences f) readWildPat := by
  intro line items line' items' hforms outer
  unfold readWildPat
  refine (hforms.parts rfl ["span"]).bind fun parts parts' hparts => ?_
  exact (hlike.spanOf hparts outer).step fun span => .ok rfl

theorem alike_readBindingPat :
    AlikeAt f like "binding" (Pattern.mapReferences f) (readBindingPat below) := by
  intro line items line' items' hforms outer
  unfold readBindingPat
  refine (hforms.parts rfl ["span"]).bind fun parts parts' hparts => ?_
  refine hparts.oneOrTwo.bind fun (name, sub) (name', sub') ⟨hname, hsub⟩ => ?_
  refine (hlike.spanOf hparts outer).step fun span => ?_
  refine (Carries.optionMapM (fun value value' hvalue => h.pattern value value' hvalue span)
    hsub).bind fun sub sub' hsub => ?_
  refine (hlike.text hname _ _).step fun name => .ok ?_
  cases hsub with
  | none => simp only [Pattern.mapReferences, hparts.has]
  | some hsub => simp only [Pattern.mapReferences, hsub, hparts.has]

omit h in
theorem alike_readPathPat : AlikeAt f like "path-pat" (Pattern.mapReferences f) readPathPat := by
  intro line items line' items' hforms outer
  unfold readPathPat
  refine (hforms.parts rfl ["span"]).bind fun parts parts' hparts => ?_
  refine hparts.one.bind fun path path' hpath => ?_
  refine (alike_readLeadingPath hlike hparts hpath outer).bind
    fun (ref, span) (ref', span') ⟨href, hspan⟩ => .ok ?_
  exact congrArg₂ Pattern.path href hspan

theorem alike_readTupleStructPat :
    AlikeAt f like "tuple-struct" (Pattern.mapReferences f) (readTupleStructPat below) := by
  intro line items line' items' hforms outer
  unfold readTupleStructPat
  refine (hforms.parts rfl ["span"]).bind fun parts parts' hparts => ?_
  refine hparts.oneAndRest.bind fun (path, elems) (path', elems') ⟨hpath, helems⟩ => ?_
  refine (alike_readLeadingPath hlike hparts hpath outer).bind
    fun (ref, span) (ref', span') ⟨href, hspan⟩ => ?_
  obtain rfl : span' = span := hspan
  refine (Carries.mapM (fun value value' hvalue => h.pattern value value' hvalue span')
    (helems.forall₂ fun _ => rfl)).bind fun pats pats' hpats => .ok ?_
  exact congrArg₂ (Pattern.tupleStruct · · span') href
    (eq_of_forall₂ rfl (congrArg₂ List.cons) hpats)

theorem alike_readStructPat :
    AlikeAt f like "struct-pat" (Pattern.mapReferences f) (readStructPat below) := by
  intro line items line' items' hforms outer
  unfold readStructPat
  refine (hforms.parts rfl ["span"]).bind fun parts parts' hparts => ?_
  refine hparts.oneAndRest.bind fun (path, fields) (path', fields') ⟨hpath, hfields⟩ => ?_
  refine (alike_readLeadingPath hlike hparts hpath outer).bind
    fun (ref, span) (ref', span') ⟨href, hspan⟩ => ?_
  obtain rfl : span' = span := hspan
  refine (Carries.mapM (alike_readField hlike fun value value' hvalue =>
    h.pattern value value' hvalue span') (hfields.forall₂ fun _ => rfl)).bind
      fun fields fields' hfields => .ok ?_
  have hmapped : FieldPattern.mapReferencesAll f (fields'.map fun field => ⟨field.1, field.2⟩) =
      FieldPattern.mapReferencesAll f (fields.map fun field => ⟨field.1, field.2⟩) := by
    induction hfields with
    | nil => rfl
    | cons hfield _ hrest =>
        simp only [List.map_cons, FieldPattern.mapReferencesAll, hfield.1, hfield.2, hrest]
  simp only [Pattern.mapReferences, href, hmapped, hparts.has]

theorem alike_readOrPat : AlikeAt f like "or-pat" (Pattern.mapReferences f) (readOrPat below) := by
  intro line items line' items' hforms outer
  unfold readOrPat
  refine (alike_readPatternList hlike h hforms rfl rfl (fun _ => rfl) outer).bind
    fun (pats, span) (pats', span') ⟨hpats, hlength, hspan⟩ => ?_
  obtain rfl : span' = span := hspan
  refine .checked (fun hfew => ?_) fun _ => .ok ?_
  · rwa [← hlength]
  · simp only [Pattern.mapReferences, hpats]

theorem alike_readRefPat :
    AlikeAt f like "ref-pat" (Pattern.mapReferences f) (readRefPat below) := by
  intro line items line' items' hforms outer
  unfold readRefPat
  refine (hforms.parts rfl ["span"]).bind fun parts parts' hparts => ?_
  refine hparts.one.bind fun inner inner' hinner => ?_
  refine (hlike.spanOf hparts outer).step fun span => ?_
  refine (h.pattern inner inner' hinner span).bind fun pat pat' hpat => .ok ?_
  simp only [Pattern.mapReferences, hpat]

omit h in
theorem alike_readLitPat : AlikeAt f like "lit-pat" (Pattern.mapReferences f) readLitPat := by
  intro line items line' items' hforms outer
  unfold readLitPat
  refine (hforms.parts rfl ["span"]).bind fun parts parts' hparts => ?_
  refine hparts.one.bind fun literal literal' hliteral => ?_
  refine (hlike.spanOf hparts outer).step fun span => .ok ?_
  rw [hlike.literal hliteral]

theorem alike_readPattern (value value' : Sexp) (hvalue : like .form value value') (outer : Span) :
    Carries (readPattern below value outer) (readPattern below value' outer) fun pat pat' =>
      pat'.mapReferences f = pat.mapReferences f := by
  unfold readPattern
  refine hlike.ofSexp rfl hvalue ?_
  rintro ⟨line, head, items⟩ ⟨line', head', items'⟩ rfl rfl hforms
  obtain rfl : head' = head := hforms.head_eq
  dsimp only
  split
  · exact alike_readWildPat hlike _ _ _ _ hforms outer
  · exact alike_readBindingPat hlike h _ _ _ _ hforms outer
  · exact alike_readPathPat hlike _ _ _ _ hforms outer
  · exact alike_readTupleStructPat hlike h _ _ _ _ hforms outer
  · exact alike_readStructPat hlike h _ _ _ _ hforms outer
  case h_6 | h_7 => -- a tuple or a slice
    refine (alike_readPatternList hlike h hforms rfl rfl (fun _ => rfl) outer).bind
      fun (pats, span) (pats', span') ⟨hpats, _, hspan⟩ => .ok ?_
    obtain rfl : span' = span := hspan
    simp only [Pattern.mapReferences, hpats]
  · exact alike_readOrPat hlike h _ _ _ _ hforms outer
  · exact alike_readRefPat hlike h _ _ _ _ hforms outer
  · exact alike_readLitPat hlike _ _ _ _ hforms outer
  · exact .fault

/-! ## Statements and blocks -/

omit hlike h in
theorem mapReferencesOptional_eq {expr expr' : Option Expr}
    (hexpr : Option.Rel (fun expr expr' => Expr.mapReferences f expr' = expr.mapReferences f)
      expr expr') : Expr.mapReferencesOptional f expr' = Expr.mapReferencesOptional f expr := by
  cases hexpr with
  | none => rfl
  | some hexpr => exact congrArg some hexpr

omit hlike h in
theorem mapReferencesAll_eq {exprs exprs' : List Expr}
    (hexprs : List.Forall₂ (fun expr expr' => Expr.mapReferences f expr' = expr.mapReferences f)
      exprs exprs') : Expr.mapReferencesAll f exprs' = Expr.mapReferencesAll f exprs :=
  eq_of_forall₂ rfl (congrArg₂ List.cons) hexprs

theorem alike_readLet : AlikeAt f like "let" (Stmt.mapReferences f) (readLet below) := by
  intro line items line' items' hforms outer
  unfold readLet
  refine (hforms.parts rfl ["span", "ty", "init", "else"]).bind fun parts parts' hparts => ?_
  refine hparts.one.bind fun pat pat' hpat => (hlike.spanOf hparts outer).step fun span => ?_
  refine (h.pattern pat pat' hpat span).bind fun pat pat' hpat => ?_
  refine (Carries.mapValue (fun value value' hvalue => h.ty value value' hvalue span)
    (hparts.value? "ty")).bind fun ty ty' hty => ?_
  refine (Carries.mapValue (fun value value' hvalue => h.expr value value' hvalue span)
    (hparts.value? "init")).bind fun init init' hinit => ?_
  refine (Carries.mapValue (fun value value' hvalue => h.block value value' hvalue span)
    (hparts.value? "else")).bind fun elseBlock elseBlock' helse => .ok ?_
  have helse :
      Block.mapReferencesOptional f elseBlock' = Block.mapReferencesOptional f elseBlock := by
    cases helse with
    | none => rfl
    | some helse => exact congrArg some helse
  simp only [Stmt.mapReferences, hpat, map_eq_of_rel hty, mapReferencesOptional_eq hinit, helse]

theorem alike_readSemi : AlikeAt f like "semi" (Stmt.mapReferences f) (readSemi below) := by
  intro line items line' items' hforms outer
  unfold readSemi
  refine (hforms.parts rfl ["span"]).bind fun parts parts' hparts => ?_
  refine hparts.one.bind fun content content' hcontent => ?_
  refine (hlike.spanOf hparts outer).step fun span => ?_
  refine (h.expr content content' hcontent span).bind fun expr expr' hexpr => .ok ?_
  exact congrArg (Stmt.exprStmt · span) hexpr

theorem alike_readStmt {form form' : Form} (hforms : FormsAlike f like form form') (outer : Span) :
    Carries (readStmt below form outer) (readStmt below form' outer) fun stmt stmt' =>
      stmt'.mapReferences f = stmt.mapReferences f := by
  obtain ⟨line, head, items⟩ := form
  obtain ⟨line', head', items'⟩ := form'
  obtain rfl : head' = head := hforms.head_eq
  unfold readStmt
  dsimp only
  split
  · exact alike_readLet hlike h _ _ _ _ hforms outer
  · exact alike_readSemi hlike h _ _ _ _ hforms outer
  · exact .ok rfl

omit hlike in
theorem alike_readTail : AlikeAt f like "tail" (Expr.mapReferences f) (readTail below) := by
  intro line items line' items' hforms outer
  unfold readTail
  refine (hforms.parts rfl []).bind fun parts parts' hparts => ?_
  exact hparts.one.bind fun content content' hcontent => h.expr content content' hcontent outer

/-- Statement by statement, as the value of the block is found. -/
theorem alike_readStmts (span : Span) {items items' : List Sexp}
    (hitems : List.Forall₂ (like .form) items items') :
    Carries (readStmts below span items) (readStmts below span items') fun answer answer' =>
      Stmt.mapReferencesAll f answer'.1 = Stmt.mapReferencesAll f answer.1 ∧
        Expr.mapReferencesOptional f answer'.2 = Expr.mapReferencesOptional f answer.2 := by
  induction hitems with
  | nil =>
      exact .ok ⟨rfl, rfl⟩
  | @cons item item' rest rest' hitem hrest ih =>
      rw [readStmts, readStmts]
      have hempty : rest'.isEmpty = rest.isEmpty := by
        cases hrest <;> rfl
      -- Behind each statement the rest of the block is read, whatever form the statement has.
      have hnext (stmt stmt' : Stmt) (hstmt : stmt'.mapReferences f = stmt.mapReferences f) :
          Carries (do
            let answer ← readStmts below span rest
            return (stmt :: answer.1, answer.2)) (do
            let answer ← readStmts below span rest'
            return (stmt' :: answer.1, answer.2)) fun answer answer' =>
              Stmt.mapReferencesAll f answer'.1 = Stmt.mapReferencesAll f answer.1 ∧
                Expr.mapReferencesOptional f answer'.2 =
                  Expr.mapReferencesOptional f answer.2 :=
        ih.bind fun answer answer' hanswer => .ok ⟨congrArg₂ List.cons hstmt hanswer.1, hanswer.2⟩
      refine hlike.ofSexp rfl hitem ?_
      rintro ⟨line, head, items⟩ ⟨line', head', items'⟩ rfl rfl hforms
      obtain rfl : head' = head := hforms.head_eq
      dsimp only
      split
      · rename_i hhead
        obtain rfl : head' = "tail" := by simpa using hhead
        refine .checked (fun hfailed => hempty ▸ hfailed) fun _ => ?_
        refine (alike_readTail h _ _ _ _ hforms span).bind fun expr expr' hexpr => .ok ⟨rfl, ?_⟩
        exact congrArg some hexpr
      split
      · exact (alike_readStmt hlike h hforms span).bind hnext
      · refine (h.expr _ _ hitem span).bind fun expr expr' hexpr => ?_
        -- An expression is the value where nothing follows it, and a statement elsewhere.
        rw [hempty]
        split
        · exact .ok ⟨rfl, congrArg some hexpr⟩
        · exact hnext _ _ (congrArg (Stmt.exprStmt · span) hexpr)

theorem alike_readBlock (value value' : Sexp) (hvalue : like .form value value') (outer : Span) :
    Carries (readBlock below value outer) (readBlock below value' outer) fun block block' =>
      block'.mapReferences f = block.mapReferences f := by
  unfold readBlock
  refine hlike.ofSexp rfl hvalue ?_
  rintro ⟨line, head, items⟩ ⟨line', head', items'⟩ rfl rfl hforms
  obtain rfl : head' = head := hforms.head_eq
  refine .checked id fun hhead => ?_
  obtain rfl : head' = "block" := by simpa using hhead
  refine (hforms.parts rfl ["span"]).bind fun parts parts' hparts => ?_
  refine (hlike.spanOf hparts outer).step fun span => ?_
  refine (alike_readStmts hlike h span (hparts.positional.forall₂ fun _ => rfl)).bind
    fun (stmts, tail) (stmts', tail') ⟨hstmts, htail⟩ => .ok ?_
  simp only [Block.mapReferences, hstmts, htail]

/-! ## Expressions -/

theorem alike_readArm (outer : Span) (value value' : Sexp) (hvalue : like .form value value') :
    Carries (readArm below outer value) (readArm below outer value') fun arm arm' =>
      arm'.mapReferences f = arm.mapReferences f := by
  unfold readArm
  refine hlike.ofSexp rfl hvalue ?_
  rintro ⟨line, head, items⟩ ⟨line', head', items'⟩ rfl rfl hforms
  obtain rfl : head' = head := hforms.head_eq
  refine .checked id fun hhead => ?_
  obtain rfl : head' = "arm" := by simpa using hhead
  refine (hforms.parts rfl ["span", "guard"]).bind fun parts parts' hparts => ?_
  refine hparts.two.bind fun (pat, body) (pat', body') ⟨hpat, hbody⟩ => ?_
  refine (hlike.spanOf hparts outer).step fun span => ?_
  refine (Carries.mapValue (fun value value' hvalue => h.expr value value' hvalue span)
    (hparts.value? "guard")).bind fun guard guard' hguard => ?_
  refine (h.pattern pat pat' hpat span).bind fun pat pat' hpat => ?_
  refine (h.expr body body' hbody span).bind fun body body' hbody => .ok ?_
  simp only [Arm.mapReferences, hpat, hbody, mapReferencesOptional_eq hguard]

theorem alike_readClosureParam (span : Span) (value value' : Sexp)
    (hvalue : like .form value value') :
    Carries (readClosureParam below span value) (readClosureParam below span value')
      fun param param' => param'.mapReferences f = param.mapReferences f := by
  unfold readClosureParam
  refine hlike.ofSexp rfl hvalue ?_
  rintro ⟨line, head, items⟩ ⟨line', head', items'⟩ rfl rfl hforms
  obtain rfl : head' = head := hforms.head_eq
  refine .checked id fun hhead => ?_
  obtain rfl : head' = "cparam" := by simpa using hhead
  refine (hforms.parts rfl []).bind fun parts parts' hparts => ?_
  refine hparts.oneOrTwo.bind fun (pat, ty) (pat', ty') ⟨hpat, hty⟩ => ?_
  refine (Carries.optionMapM (fun value value' hvalue => h.ty value value' hvalue span) hty).bind
    fun ty ty' hty => ?_
  refine (h.pattern pat pat' hpat span).bind fun pat pat' hpat => .ok ?_
  simp only [ClosureParam.mapReferences, hpat, map_eq_of_rel hty]

omit hlike in
theorem alike_exprs (span : Span) {values values' : List Sexp}
    (hvalues : List.Forall₂ (like .form) values values') :
    Carries (values.mapM (below.expr · span)) (values'.mapM (below.expr · span))
      fun exprs exprs' => Expr.mapReferencesAll f exprs' = Expr.mapReferencesAll f exprs :=
  (Carries.mapM (fun value value' hvalue => h.expr value value' hvalue span) hvalues).mono
    fun _ _ => mapReferencesAll_eq

omit hlike in
theorem alike_optional (span : Span) {value value' : Option Sexp}
    (hvalue : Option.Rel (like .form) value value') :
    Carries (value.mapM (below.expr · span)) (value'.mapM (below.expr · span)) fun expr expr' =>
      Expr.mapReferencesOptional f expr' = Expr.mapReferencesOptional f expr :=
  (Carries.optionMapM (fun value value' hvalue => h.expr value value' hvalue span) hvalue).mono
    fun _ _ => mapReferencesOptional_eq

omit h in
theorem alike_readPair {first : Sexp → Span → DumpResult α} {second : Sexp → Span → DumpResult β}
    {make : α → β → Span → Expr} {mapA : α → α} {mapB : β → β} (head : String)
    (hhead : isTakenApart head) (hflags : flagsOf head = [])
    (hfirst : ∀ value value', like (slotAt head 0) value value' → ∀ outer,
      Carries (first value outer) (first value' outer) fun a a' => mapA a' = mapA a)
    (hsecond : ∀ value value', like (slotAt head 1) value value' → ∀ outer,
      Carries (second value outer) (second value' outer) fun b b' => mapB b' = mapB b)
    (hmake : ∀ a b span, (make a b span).mapReferences f = make (mapA a) (mapB b) span) :
    AlikeAt f like head (Expr.mapReferences f) (readPair first second make) := by
  intro line items line' items' hforms outer
  unfold readPair
  have hcarries := hforms.parts hhead ["span"]
  rw [hflags] at hcarries
  refine hcarries.bind fun parts parts' hparts => ?_
  refine hparts.two.bind fun (a, b) (a', b') ⟨ha, hb⟩ => ?_
  refine (hlike.spanOf hparts outer).step fun span => ?_
  refine (hfirst a a' ha span).bind fun a a' ha => ?_
  refine (hsecond b b' hb span).bind fun b b' hb => .ok ?_
  rw [hmake, hmake, ha, hb]

omit h in
theorem alike_readLit : AlikeAt f like "lit" (Expr.mapReferences f) readLit := by
  intro line items line' items' hforms outer
  unfold readLit
  refine (hforms.parts rfl ["span"]).bind fun parts parts' hparts => ?_
  refine hparts.one.bind fun literal literal' hliteral => ?_
  refine (hlike.spanOf hparts outer).step fun span => .ok ?_
  rw [hlike.literal hliteral]

theorem alike_readCall : AlikeAt f like "call" (Expr.mapReferences f) (readCall below) := by
  intro line items line' items' hforms outer
  unfold readCall
  refine (hforms.parts rfl ["span"]).bind fun parts parts' hparts => ?_
  refine hparts.oneAndRest.bind fun (func, args) (func', args') ⟨hfunc, hargs⟩ => ?_
  refine (hlike.spanOf hparts outer).step fun span => ?_
  refine (h.expr func func' hfunc span).bind fun func func' hfunc => ?_
  refine (alike_exprs h span (hargs.forall₂ fun _ => rfl)).bind fun args args' hargs => .ok ?_
  simp only [Expr.mapReferences, hfunc, hargs]

theorem alike_readMethodCall :
    AlikeAt f like "method-call" (Expr.mapReferences f) (readMethodCall below) := by
  intro line items line' items' hforms outer
  unfold readMethodCall
  refine (hforms.parts rfl ["span"]).bind fun parts parts' hparts => ?_
  refine hparts.twoAndRest.bind fun (receiver, method, args) (receiver', method', args')
    ⟨hreceiver, hmethod, hargs⟩ => ?_
  refine (hlike.spanOf hparts outer).step fun span => ?_
  refine (h.expr receiver receiver' hreceiver span).bind fun receiver receiver' hreceiver => ?_
  refine (hlike.text hmethod _ _).step fun method => ?_
  refine (alike_exprs h span (hargs.forall₂ fun _ => rfl)).bind fun args args' hargs => .ok ?_
  simp only [Expr.mapReferences, hreceiver, hargs]

theorem alike_readStructExpr :
    AlikeAt f like "struct-expr" (Expr.mapReferences f) (readStructExpr below) := by
  intro line items line' items' hforms outer
  unfold readStructExpr
  refine (hforms.parts rfl ["span", "base"]).bind fun parts parts' hparts => ?_
  refine hparts.oneAndRest.bind fun (path, fields) (path', fields') ⟨hpath, hfields⟩ => ?_
  refine (alike_readLeadingPath hlike hparts hpath outer).bind
    fun (ref, span) (ref', span') ⟨href, hspan⟩ => ?_
  obtain rfl : span' = span := hspan
  refine (Carries.mapM (alike_readField hlike fun value value' hvalue =>
    h.expr value value' hvalue span') (hfields.forall₂ fun _ => rfl)).bind
      fun fields fields' hfields => ?_
  refine (Carries.mapValue (fun value value' hvalue => h.expr value value' hvalue span')
    (hparts.value? "base")).bind fun base base' hbase => .ok ?_
  have hmapped : FieldInit.mapReferencesAll f (fields'.map fun field => ⟨field.1, field.2⟩) =
      FieldInit.mapReferencesAll f (fields.map fun field => ⟨field.1, field.2⟩) := by
    induction hfields with
    | nil => rfl
    | cons hfield _ hrest =>
        simp only [List.map_cons, FieldInit.mapReferencesAll, hfield.1, hfield.2, hrest]
  simp only [Expr.mapReferences, href, hmapped, mapReferencesOptional_eq hbase]

theorem alike_readMatch : AlikeAt f like "match" (Expr.mapReferences f) (readMatch below) := by
  intro line items line' items' hforms outer
  unfold readMatch
  refine (hforms.parts rfl ["span"]).bind fun parts parts' hparts => ?_
  refine hparts.oneAndRest.bind
    fun (scrutinee, arms) (scrutinee', arms') ⟨hscrutinee, harms⟩ => ?_
  refine (hlike.spanOf hparts outer).step fun span => ?_
  refine (h.expr scrutinee scrutinee' hscrutinee span).bind
    fun scrutinee scrutinee' hscrutinee => ?_
  refine (Carries.mapM (alike_readArm hlike h span) (harms.forall₂ fun _ => rfl)).bind
    fun arms arms' harms => .ok ?_
  have hmapped : Arm.mapReferencesAll f arms' = Arm.mapReferencesAll f arms :=
    eq_of_forall₂ rfl (congrArg₂ List.cons) harms
  simp only [Expr.mapReferences, hscrutinee, hmapped]

theorem alike_readIf : AlikeAt f like "if" (Expr.mapReferences f) (readIf below) := by
  intro line items line' items' hforms outer
  unfold readIf
  refine (hforms.parts rfl ["span"]).bind fun parts parts' hparts => ?_
  refine hparts.twoOrThree.bind fun (cond, thenBranch, elseBranch)
    (cond', thenBranch', elseBranch') ⟨hcond, hthen, helse⟩ => ?_
  refine (hlike.spanOf hparts outer).step fun span => ?_
  refine (alike_optional h span helse).bind fun elseBranch elseBranch' helse => ?_
  refine (h.expr cond cond' hcond span).bind fun cond cond' hcond => ?_
  refine (h.expr thenBranch thenBranch' hthen span).bind
    fun thenBranch thenBranch' hthen => .ok ?_
  simp only [Expr.mapReferences, hcond, hthen, helse]

theorem alike_readLoop : AlikeAt f like "loop" (Expr.mapReferences f) (readLoop below) := by
  intro line items line' items' hforms outer
  unfold readLoop
  refine (hforms.parts rfl ["span"]).bind fun parts parts' hparts => ?_
  refine hparts.one.bind fun body body' hbody => (hlike.spanOf hparts outer).step fun span => ?_
  refine (h.block body body' hbody span).bind fun body body' hbody => .ok ?_
  simp only [Expr.mapReferences, hbody]

theorem alike_readFor : AlikeAt f like "for" (Expr.mapReferences f) (readFor below) := by
  intro line items line' items' hforms outer
  unfold readFor
  refine (hforms.parts rfl ["span"]).bind fun parts parts' hparts => ?_
  refine hparts.three.bind fun (pat, iter, body) (pat', iter', body') ⟨hpat, hiter, hbody⟩ => ?_
  refine (hlike.spanOf hparts outer).step fun span => ?_
  refine (h.pattern pat pat' hpat span).bind fun pat pat' hpat => ?_
  refine (h.expr iter iter' hiter span).bind fun iter iter' hiter => ?_
  refine (h.block body body' hbody span).bind fun body body' hbody => .ok ?_
  simp only [Expr.mapReferences, hpat, hiter, hbody]

theorem alike_readClosure :
    AlikeAt f like "closure" (Expr.mapReferences f) (readClosure below) := by
  intro line items line' items' hforms outer
  unfold readClosure
  refine (hforms.parts rfl ["span"]).bind fun parts parts' hparts => ?_
  obtain ⟨hparams, hlast⟩ := forall₂_dropLast (hparts.positional.forall₂ fun _ => rfl)
  generalize parts.positional.getLast? = last at hlast
  generalize parts'.positional.getLast? = last' at hlast
  cases hlast with
  | none =>
      intro expr hread
      exact absurd hread parts.wrongCount_ne
  | some hbody =>
      refine (hlike.spanOf hparts outer).step fun span => ?_
      refine (Carries.mapM (alike_readClosureParam hlike h span) hparams).bind
        fun params params' hparams => ?_
      refine (h.expr _ _ hbody span).bind fun body body' hbody => .ok ?_
      simp only [Expr.mapReferences, map_eq_of_forall₂ hparams, hbody]

theorem alike_readUnary : AlikeAt f like "unary" (Expr.mapReferences f) (readUnary below) := by
  intro line items line' items' hforms outer
  unfold readUnary
  refine (hforms.parts rfl ["span"]).bind fun parts parts' hparts => ?_
  refine hparts.two.bind fun (op, operand) (op', operand') ⟨hop, hoperand⟩ => ?_
  refine (hlike.spanOf hparts outer).step fun span => (hlike.text hop _ _).step fun op => ?_
  refine (h.expr operand operand' hoperand span).bind fun operand operand' hoperand => .ok ?_
  simp only [Expr.mapReferences, hoperand]

theorem alike_readBinary : AlikeAt f like "binary" (Expr.mapReferences f) (readBinary below) := by
  intro line items line' items' hforms outer
  unfold readBinary
  refine (hforms.parts rfl ["span"]).bind fun parts parts' hparts => ?_
  refine hparts.three.bind fun (op, lhs, rhs) (op', lhs', rhs') ⟨hop, hlhs, hrhs⟩ => ?_
  refine (hlike.spanOf hparts outer).step fun span => (hlike.text hop _ _).step fun op => ?_
  refine (h.expr lhs lhs' hlhs span).bind fun lhs lhs' hlhs => ?_
  refine (h.expr rhs rhs' hrhs span).bind fun rhs rhs' hrhs => .ok ?_
  simp only [Expr.mapReferences, hlhs, hrhs]

theorem alike_readFieldExpr :
    AlikeAt f like "field" (Expr.mapReferences f) (readFieldExpr below) := by
  intro line items line' items' hforms outer
  unfold readFieldExpr
  refine (hforms.parts rfl ["span"]).bind fun parts parts' hparts => ?_
  refine hparts.two.bind fun (base, name) (base', name') ⟨hbase, hname⟩ => ?_
  refine (hlike.spanOf hparts outer).step fun span => ?_
  refine (h.expr base base' hbase span).bind fun base base' hbase => ?_
  refine (hlike.text hname _ _).step fun name => .ok ?_
  simp only [Expr.mapReferences, hbase]

theorem alike_readExprList {head : String} {make : List Expr → Span → Expr}
    (hhead : isTakenApart head) (hflags : flagsOf head = [])
    (hslot : ∀ index, slotAt head index = .form)
    (hmake : ∀ exprs span, (make exprs span).mapReferences f =
      make (Expr.mapReferencesAll f exprs) span) :
    AlikeAt f like head (Expr.mapReferences f) (readExprList below make) := by
  intro line items line' items' hforms outer
  unfold readExprList
  have hcarries := hforms.parts hhead ["span"]
  rw [hflags] at hcarries
  refine hcarries.bind fun parts parts' hparts => ?_
  refine (hlike.spanOf hparts outer).step fun span => ?_
  refine (alike_exprs h span (hparts.positional.forall₂ hslot)).bind
    fun elems elems' helems => .ok ?_
  rw [hmake, hmake, helems]

theorem alike_readJump {head : String} (hhead : isTakenApart head)
    (hflags : flagsOf head = []) (hslot : slotAt head 0 = .form) (withValue : Bool) :
    AlikeAt f like head (Expr.mapReferences f) (readJump below withValue) := by
  intro line items line' items' hforms outer
  unfold readJump
  have hcarries := hforms.parts hhead ["span"]
  rw [hflags] at hcarries
  refine hcarries.bind fun parts parts' hparts => ?_
  refine (hparts.atMostOne withValue).bind fun value value' hvalue => ?_
  refine (hlike.spanOf hparts outer).step fun span => ?_
  refine (alike_optional h span (hslot ▸ hvalue)).bind fun value value' hvalue => .ok ?_
  simp only [Expr.mapReferences, hvalue]

theorem alike_readExpr (value value' : Sexp) (hvalue : like .form value value') (outer : Span) :
    Carries (readExpr below value outer) (readExpr below value' outer) fun expr expr' =>
      expr'.mapReferences f = expr.mapReferences f := by
  unfold readExpr
  refine hlike.ofSexp rfl hvalue ?_
  rintro ⟨line, head, items⟩ ⟨line', head', items'⟩ rfl rfl hforms
  obtain rfl : head' = head := hforms.head_eq
  dsimp only
  split
  case h_1 | h_2 | h_3 => -- a path
    refine (hforms.path rfl outer).bind fun (ref, span) (ref', span') ⟨href, hspan⟩ => .ok ?_
    exact congrArg₂ Expr.path href hspan
  · -- a block
    refine (alike_readBlock hlike h _ _ hvalue outer).bind fun block block' hblock => .ok ?_
    have hspan : block'.span = block.span := by
      rw [← Block.span_mapReferences f block', hblock, Block.span_mapReferences]
    simp only [Expr.mapReferences, hblock, hspan]
  · exact alike_readLit hlike _ _ _ _ hforms outer
  · exact alike_readCall hlike h _ _ _ _ hforms outer
  · exact alike_readMethodCall hlike h _ _ _ _ hforms outer
  · exact alike_readStructExpr hlike h _ _ _ _ hforms outer
  · exact alike_readMatch hlike h _ _ _ _ hforms outer
  · exact alike_readIf hlike h _ _ _ _ hforms outer
  · exact alike_readPair hlike "let-expr" rfl rfl h.pattern h.expr (fun _ _ _ => rfl) _ _ _ _
      hforms outer
  · exact alike_readLoop hlike h _ _ _ _ hforms outer
  · exact alike_readPair hlike "while" rfl rfl h.expr h.block (fun _ _ _ => rfl) _ _ _ _
      hforms outer
  · exact alike_readFor hlike h _ _ _ _ hforms outer
  · exact alike_readClosure hlike h _ _ _ _ hforms outer
  · exact alike_readPair hlike "cast" rfl rfl h.expr h.ty (fun _ _ _ => rfl) _ _ _ _ hforms outer
  · exact alike_readUnary hlike h _ _ _ _ hforms outer
  · exact alike_readBinary hlike h _ _ _ _ hforms outer
  · exact alike_readFieldExpr hlike h _ _ _ _ hforms outer
  · exact alike_readPair hlike "index" rfl rfl h.expr h.expr (fun _ _ _ => rfl) _ _ _ _ hforms outer
  · exact alike_readExprList hlike h rfl rfl (fun _ => rfl) (fun _ _ => rfl) _ _ _ _ hforms outer
  · exact alike_readExprList hlike h rfl rfl (fun _ => rfl) (fun _ _ => rfl) _ _ _ _ hforms outer
  · exact alike_readJump hlike h rfl rfl rfl true _ _ _ _ hforms outer
  · exact alike_readJump hlike h rfl rfl rfl true _ _ _ _ hforms outer
  · exact alike_readJump hlike h rfl rfl rfl false _ _ _ _ hforms outer
  · exact (hforms.macroCall rfl outer).mono fun expr expr' heq => by rw [heq]
  · exact .fault

end

/-- One level hands it on to the next. -/
theorem alike_readersAbove (hlike : ReadAlike f like) {below : Readers} (h : below.Alike f like) :
    (readersAbove below).Alike f like :=
  ⟨alike_readTy hlike h, alike_readPattern hlike h, alike_readExpr hlike h,
    alike_readBlock hlike h⟩

theorem alike_readers (hlike : ReadAlike f like) (level : Nat) : (readers level).Alike f like := by
  induction level with
  | zero =>
      exact ⟨nofun, nofun, nofun, nofun⟩
  | succ level ih =>
      exact alike_readersAbove hlike ih

/-! ## Implementation blocks -/

section

variable (hlike : ReadAlike f like) {below : Readers} (h : below.Alike f like)
include hlike h

theorem alike_readParam (outer : Span) (value value' : Sexp) (hvalue : like .form value value') :
    Carries (readParam below outer value) (readParam below outer value') fun param param' =>
      param'.mapReferences f = param.mapReferences f := by
  unfold readParam
  refine hlike.ofSexp rfl hvalue ?_
  rintro ⟨line, head, items⟩ ⟨line', head', items'⟩ rfl rfl hforms
  obtain rfl : head' = head := hforms.head_eq
  refine .checked id fun hhead => ?_
  obtain rfl : head' = "param" := by simpa using hhead
  refine (hforms.parts rfl ["span"]).bind fun parts parts' hparts => ?_
  refine hparts.two.bind fun (pat, ty) (pat', ty') ⟨hpat, hty⟩ => ?_
  refine (hlike.spanOf hparts outer).step fun span => ?_
  refine (h.pattern pat pat' hpat span).bind fun pat pat' hpat => ?_
  refine (h.ty ty ty' hty span).bind fun ty ty' hty => .ok ?_
  simp only [Param.mapReferences, hpat, hty]

theorem alike_readMethod {form form' : Form} (hforms : FormsAlike f like form form')
    (hhead : form.head = "fn") (outer : Span) :
    Carries (readMethod below form outer) (readMethod below form' outer) fun method method' =>
      (ImplItem.method method').mapReferences f = (ImplItem.method method).mapReferences f := by
  obtain ⟨line, head, items⟩ := form
  obtain rfl : head = "fn" := hhead
  unfold readMethod
  refine (hforms.parts rfl ["span", "ret"]).bind fun parts parts' hparts => ?_
  refine hparts.twoAndRest.bind fun (name, second, rest) (name', second', rest')
    ⟨hname, hsecond, hrest⟩ => ?_
  refine (hlike.spanOf hparts outer).step fun span => (hlike.text hname _ _).step fun name => ?_
  dsimp only
  have hitems : List.Forall₂ (like .form) (second :: rest) (second' :: rest') :=
    .cons hsecond (hrest.forall₂ fun _ => rfl)
  obtain ⟨hparams, hlast⟩ := forall₂_dropLast hitems
  have hbody : like .form ((second :: rest).getLast?.getD second)
      ((second' :: rest').getLast?.getD second') := by
    cases hlast with
    | some hlast => exact hlast
  generalize (second :: rest).getLast?.getD second = body at hbody
  generalize (second' :: rest').getLast?.getD second' = body' at hbody
  -- Where the body is no form the method is not read at all.
  cases hform : Form.ofSexp body with
  | error fault =>
      intro method hread
      split at hread <;> cases hread
  | ok blockForm =>
      obtain rfl := Form.ofSexp_eq_ok_iff.1 hform
      obtain ⟨blockForm', rfl, hblock⟩ := hlike.form rfl hbody
      refine .checked (fun hnone => ?_) fun _ => ?_
      · cases hnone
      refine .bind (R := fun form form' : Form => form'.head = form.head) (.ok hblock.head_eq)
        fun form form' hhead => .checked (fun hfailed => ?_) fun _ => ?_
      · rwa [hhead] at hfailed
      refine (Carries.mapM (alike_readParam hlike h span) hparams).bind
        fun params params' hparams => ?_
      refine (Carries.mapValue (fun value value' hvalue => h.ty value value' hvalue span)
        (hparts.value? "ret")).bind fun ret ret' hret => ?_
      refine (h.block _ _ hbody span).bind fun body body' hbody => .ok ?_
      simp only [ImplItem.mapReferences, map_eq_of_forall₂ hparams, hbody, map_eq_of_rel hret]

theorem alike_readAssocType {form form' : Form} (hforms : FormsAlike f like form form')
    (hhead : form.head = "type") (outer : Span) :
    Carries (readAssocType below form outer) (readAssocType below form' outer) fun item item' =>
      (ImplItem.assocType item').mapReferences f = (ImplItem.assocType item).mapReferences f := by
  obtain ⟨line, head, items⟩ := form
  obtain rfl : head = "type" := hhead
  unfold readAssocType
  refine (hforms.parts rfl ["span"]).bind fun parts parts' hparts => ?_
  refine hparts.two.bind ?_
  rintro ⟨name, ty⟩ ⟨name', ty'⟩ ⟨hname, hty⟩
  refine (hlike.spanOf hparts outer).step fun span => (hlike.text hname _ _).step fun name => ?_
  refine (h.ty ty ty' hty span).bind fun ty ty' hty => .ok ?_
  simp only [ImplItem.mapReferences, hty]

theorem alike_readAssocConst {form form' : Form} (hforms : FormsAlike f like form form')
    (hhead : form.head = "const") (outer : Span) :
    Carries (readAssocConst below form outer) (readAssocConst below form' outer) fun item item' =>
      (ImplItem.assocConst item').mapReferences f = (ImplItem.assocConst item).mapReferences f := by
  obtain ⟨line, head, items⟩ := form
  obtain rfl : head = "const" := hhead
  unfold readAssocConst
  refine (hforms.parts rfl ["span"]).bind fun parts parts' hparts => ?_
  refine hparts.twoOrThree.bind ?_
  rintro ⟨name, ty, value⟩ ⟨name', ty', value'⟩ ⟨hname, hty, hvalue⟩
  refine (hlike.spanOf hparts outer).step fun span => ?_
  refine (Carries.optionMapM (fun value value' hvalue => h.expr value value' hvalue span)
    hvalue).bind fun value value' hvalue => ?_
  refine (hlike.text hname _ _).step fun name => (h.ty ty ty' hty span).bind fun ty ty' hty => ?_
  refine .ok ?_
  simp only [ImplItem.mapReferences, hty, map_eq_of_rel hvalue]

theorem alike_readImplItem (outer : Span) (value value' : Sexp) (hvalue : like .form value value') :
    Carries (readImplItem below outer value) (readImplItem below outer value') fun item item' =>
      item'.mapReferences f = item.mapReferences f := by
  unfold readImplItem
  refine hlike.ofSexp rfl hvalue ?_
  rintro ⟨line, head, items⟩ ⟨line', head', items'⟩ rfl rfl hforms
  obtain rfl : head' = head := hforms.head_eq
  dsimp only
  split
  · exact (alike_readAssocType hlike h hforms rfl outer).bind fun item item' hitem => .ok hitem
  · exact (alike_readMethod hlike h hforms rfl outer).bind fun method method' hmethod => .ok hmethod
  · exact (alike_readAssocConst hlike h hforms rfl outer).bind fun item item' hitem => .ok hitem
  · exact .fault

theorem alike_readImpl {form form' : Form} (hforms : FormsAlike f like form form')
    (hhead : form.head = "impl") (file : String) :
    Carries (readImpl below file form) (readImpl below file form') fun block block' =>
      block'.mapReferences f = block.mapReferences f := by
  obtain ⟨line, head, items⟩ := form
  obtain rfl : head = "impl" := hhead
  unfold readImpl
  refine (hforms.parts rfl ["span", "trait", "self-ty"]).bind fun parts parts' hparts => ?_
  refine (hlike.spanOf hparts _).step fun span => ?_
  have htrait (value value' : Sexp) (hvalue : like .path value value') :
      Carries (do
        let text ← Form.text ⟨line, "impl", items⟩ value
        return pathText text none) (do
        let text ← form'.text value'
        return pathText text none) fun ref ref' => f ref' = f ref :=
    (Carries.text (hlike.bare hvalue)).bind fun _ _ hbare => .ok hbare
  refine (Carries.mapValue htrait (hparts.value? "trait")).bind
    fun traitRef traitRef' htraitRef => ?_
  refine (Carries.mapValue (fun value value' hvalue => h.ty value value' hvalue span)
    (hparts.value? "self-ty")).bind fun selfTy selfTy' hselfTy => ?_
  refine (Carries.mapM (alike_readImplItem hlike h span)
    (hparts.positional.forall₂ fun _ => rfl)).bind fun items items' hitems => .ok ?_
  simp only [ImplBlock.mapReferences, map_eq_of_rel htraitRef, map_eq_of_rel hselfTy,
    map_eq_of_forall₂ hitems]

end

/-! ## Crates -/

/-- A mark is read in both documents where words and numbers are the same. -/
theorem carries_readMark
    (hword : ∀ {value value'}, like .form value value' → value'.word? = value.word?)
    (hint : ∀ {value value'} {number : Int}, like .form value value' → value = .int number →
      value' = .int number) {form form' : Form}
    (hparts : ∀ allowed, Carries (form.parts allowed []) (form'.parts allowed [])
      (PartsLike like "suppress")) (file : String) :
    Carries (readMark file form) (readMark file form') Eq := by
  unfold readMark
  refine (hparts ["line", "file"]).bind fun parts parts' hparts => ?_
  refine hparts.one.bind fun id id' hid => ?_
  have hline : Option.Rel (like .form) (parts.value? "line") (parts'.value? "line") :=
    hparts.value? "line"
  have hfile : Option.Rel (like .form) (parts.value? "file") (parts'.value? "file") :=
    hparts.value? "file"
  generalize parts.value? "line" = line at hline
  generalize parts'.value? "line" = line' at hline
  cases hline with
  | none => exact .fault
  | some hline =>
      refine (Carries.mapValue_eq (fun value value' hvalue => .text_eq (hword hvalue)) hfile).step
        fun written => ?_
      refine (Carries.self _).step fun file => (Carries.text_eq (hword hid)).step fun id => ?_
      refine .step (fun number hnumber => ?_) fun line => .ok rfl
      rw [hint hline (Gives.int number hnumber)]
      exact ⟨number, rfl, rfl⟩

/-- Two items of a crate are read alike. Of an item that is no implementation block and no mark only
the head counts. -/
structure ItemAlike (f : Reference → Reference) (like : Likeness) (item item' : Sexp) : Prop where
  word : ∀ text, item.word? = some text → item'.word? = some text
  form : ∀ form : Form, item = form.toSexp → ∃ form' : Form, item' = form'.toSexp ∧
    form'.head = form.head ∧ (form.head = "impl" → FormsAlike f like form form') ∧
    (form.head = "suppress" → ∀ file, Carries (readMark file form) (readMark file form') Eq)

theorem alike_readItems (hlike : ReadAlike f like) {below : Readers} (h : below.Alike f like)
    (file : String) {items items' : List Sexp}
    (hitems : List.Forall₂ (ItemAlike f like) items items') :
    Carries (readItems below file items) (readItems below file items') fun answer answer' =>
      answer'.1.map (ImplBlock.mapReferences f) = answer.1.map (ImplBlock.mapReferences f) ∧
        answer'.2 = answer.2 := by
  induction hitems with
  | nil =>
      exact .ok ⟨rfl, rfl⟩
  | @cons item item' rest rest' hitem hrest ih =>
      rw [readItems, readItems]
      cases hform : Form.ofSexp item with
      | error fault =>
          intro answer hread
          cases hread
      | ok form =>
          obtain ⟨form', rfl, hhead, himpl, hmark⟩ :=
            hitem.form form (Form.ofSexp_eq_ok_iff.1 hform)
          refine .bind (R := fun found found' => form = found ∧ form' = found') (.ok ⟨rfl, rfl⟩) ?_
          rintro _ _ ⟨rfl, rfl⟩
          rw [hhead]
          split
          · rename_i hblock
            have hblock : form.head = "impl" := by simpa using hblock
            refine (alike_readImpl hlike h (himpl hblock) hblock file).bind
              fun block block' hblock => ih.bind
                fun (blocks, marks) (blocks', marks') ⟨hblocks, hmarks⟩ => .ok ⟨?_, hmarks⟩
            exact congrArg₂ List.cons hblock hblocks
          · split
            · rename_i hsuppress
              refine (hmark (by simpa using hsuppress) file).step fun mark => ih.bind
                fun (blocks, marks) (blocks', marks') ⟨hblocks, hmarks⟩ => .ok ⟨hblocks, ?_⟩
              exact congrArg (mark :: ·) hmarks
            · split
              · exact ih
              · exact .fault

/-- Crates whose items are read alike are the same but for their references. -/
theorem alike_readCrate (hlike : ReadAlike f like) {form form' : Form}
    (hhead : form'.head = form.head) (hdepth : form'.toSexp.depth = form.toSexp.depth)
    (hparts : Carries (form.parts [] []) (form'.parts [] []) fun parts parts' =>
      List.Forall₂ (ItemAlike f like) parts.positional parts'.positional) :
    Carries (readCrate [form.toSexp]) (readCrate [form'.toSexp]) fun crate crate' =>
      crate'.mapReferences f = crate.mapReferences f := by
  unfold readCrate
  refine .bind (R := fun found found' => form = found ∧ form' = found') (.ok ⟨rfl, rfl⟩) ?_
  rintro _ _ ⟨rfl, rfl⟩
  rw [hhead, hdepth]
  refine .checked id fun _ => hparts.bind fun parts parts' hitems => ?_
  refine .bind (R := fun items items' => ItemAlike f like items.1 items'.1 ∧
    List.Forall₂ (ItemAlike f like) items.2 items'.2) ?_ ?_
  · intro items hread
    rw [parts.oneAndRest_eq_ok_iff.1 hread] at hitems
    generalize hpositional : parts'.positional = positional' at hitems
    cases hitems with
    | cons hfile hrest => exact ⟨(_, _), parts'.oneAndRest_eq_ok_iff.2 hpositional, hfile, hrest⟩
  · rintro ⟨file, items⟩ ⟨file', items'⟩ ⟨hfile, hitems⟩
    refine .step (fun name hname => ⟨name, ?_, rfl⟩) fun name => ?_
    · exact Form.text_eq_ok_iff.2 (hfile.word name (Gives.text name hname))
    · refine (alike_readItems hlike (alike_readers hlike _) name hitems).bind ?_
      rintro ⟨impls, marks⟩ ⟨impls', marks'⟩ ⟨himpls, hmarks⟩
      exact .ok (congrArg₂ (Crate.mk name · ·) himpls hmarks)

end Dump
end AssocLint
