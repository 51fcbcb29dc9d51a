import AssocLint.Proofs.Dump.Inherited

/-!
# The spans that readers take

A reader that is given the span around a form takes for the form the span that `nodeSpan` tells, so
the node of the form has that span, and the parts of the form stand under it (`gives_node`). For a
form that begins with a path it is the span of the path where the form has none (`gives_led`).
-/

namespace AssocLint
namespace Dump

variable {α β : Type}

/-! ## The span of a form -/

/-- The first `:span` among the tokens of a macro that another token follows. -/
theorem macroSpan?_eq (tokens : List Sexp) : macroSpan? tokens = tokenAfterSpan? tokens := by
  induction tokens with
  | nil => rfl
  | cons token rest ih =>
      by_cases htoken : token = .symbol ":span"
      · subst htoken
        rw [tokenAfterSpan?, List.dropWhile_cons_of_neg (by simp)]
        cases rest <;> rfl
      · -- The token is passed over by both.
        rw [tokenAfterSpan?, List.dropWhile_cons_of_pos (by simpa using htoken), ← tokenAfterSpan?,
          ← ih, macroSpan?]
        exact fun _ _ h => (htoken h).elim

theorem ownSpan?_eq {form : Form} (hhead : unreadHeads.contains form.head = false) (file : String) :
    ownSpan? file form = (keywordValue? form "span").bind (writtenSpan? file) := by
  unfold ownSpan?
  split
  · rename_i heq
    rw [heq] at hhead
    cases hhead
  · rename_i heq
    rw [heq] at hhead
    cases hhead
  · rfl

section Parts

variable {parts : Form.Parts} {form : Form} {allowed : List String}

theorem gives_ownSpan (hparts : PartsOf parts form allowed (flagsOf form.head))
    (hhead : unreadHeads.contains form.head = false) (outer : Span) :
    Gives (parts.span outer) fun span => (ownSpan? outer.file form).getD outer = span := by
  rw [ownSpan?_eq hhead, keywordValue?_eq hparts]
  unfold Form.Parts.span
  cases parts.value? "span" with
  | none =>
      exact .ok rfl
  | some value =>
      intro span hspan
      rw [Option.bind_some, spanOf_eq_ok_iff.1 hspan, Option.getD_some]

theorem unreadHeads_of_isTakenApart {head : String} (h : isTakenApart head) :
    unreadHeads.contains head = false := by
  rw [isTakenApart, Bool.and_eq_true] at h
  simpa using h.2

/-- The node that a form stands for has the span that its reader takes for it. -/
theorem spanTrees_node (slot : Slot) {outer span : Span}
    (hparts : PartsOf parts form allowed (flagsOf form.head)) (hhead : isTakenApart form.head)
    (hnode : ["tail", "block"].contains form.head = false) (hslot : slot.isRead)
    (hspan : nodeSpan form outer = span) :
    spanTrees slot form.toSexp .node outer = [.node span (spanTreesOfParts parts span)] := by
  have hhead' : form.head ≠ "tail" ∧ form.head ≠ "block" := by simpa using hnode
  rw [spanTrees_of_parts hparts hhead hslot, nodesOf_node hhead'.1 hhead'.2, hspan]

/-- A form that begins with no path, and the span that its reader takes for it. -/
theorem gives_nodeSpan (hparts : PartsOf parts form allowed (flagsOf form.head))
    (hhead : isTakenApart form.head) (hled : ledByPath.contains form.head = false) (outer : Span) :
    Gives (parts.span outer) fun span => nodeSpan form outer = span := by
  unfold nodeSpan
  rw [hled]
  exact gives_ownSpan hparts (unreadHeads_of_isTakenApart hhead) outer

/-- The same with the node that the form stands for. -/
theorem gives_node (slot : Slot) (hparts : PartsOf parts form allowed (flagsOf form.head))
    (hhead : isTakenApart form.head)
    (hnode : (["tail", "block"] ++ ledByPath).contains form.head = false) (hslot : slot.isRead)
    (outer : Span) :
    Gives (parts.span outer) fun span =>
      spanTrees slot form.toSexp .node outer = [.node span (spanTreesOfParts parts span)] := by
  rw [List.contains_append, Bool.or_eq_false_iff] at hnode
  exact fun span hspan => spanTrees_node slot hparts hhead hnode.1 hslot
    (gives_nodeSpan hparts hhead hnode.2 outer span hspan)

/-- The same for a form that may have a span and no other keyword. -/
theorem gives_spanned (slot : Slot) (hparts : PartsOf parts form ["span"] (flagsOf form.head))
    (hhead : isTakenApart form.head)
    (hnode : (["tail", "block"] ++ ledByPath).contains form.head = false) (hslot : slot.isRead)
    (outer : Span) :
    Gives (parts.span outer) fun span => spanTrees slot form.toSexp .node outer =
      [.node span (spanTreesFrom form.head span 0 parts.positional)] := by
  intro span hspan
  rw [gives_node slot hparts hhead hnode hslot outer span hspan,
    spanTreesOfParts_spanned hparts (List.Subset.refl _)]

end Parts

/-! ## Several values -/

theorem node_eq {span : Span} {trees inside : List SpanTree} (h : trees = inside) :
    [SpanTree.node span trees] = [.node span inside] := by
  rw [h]

/-- What is handed down item by item, and gathered item by item. -/
theorem flatMap_eq_gathered {treesIn : α → List SpanTree} {nodesIn : β → List SpanTree}
    (all : List β → List SpanTree) (hnil : all [] = [])
    (hcons : ∀ tree rest, all (tree :: rest) = nodesIn tree ++ all rest) {values : List α}
    {trees : List β} (h : List.Forall₂ (fun value tree => treesIn value = nodesIn tree)
      values trees) : values.flatMap treesIn = all trees := by
  induction h with
  | nil => rw [hnil, List.flatMap_nil]
  | cons h _ ih => rw [List.flatMap_cons, h, ih, hcons]

/-- The same where a value may be missing. -/
theorem elim_eq_optional {treesIn : α → List SpanTree} {nodesIn : β → List SpanTree}
    (all : Option β → List SpanTree) (hnone : all none = [])
    (hsome : ∀ tree, all (some tree) = nodesIn tree) {value : Option α} {tree : Option β}
    (h : Option.Rel (fun value tree => treesIn value = nodesIn tree) value tree) :
    value.elim [] treesIn = all tree := by
  cases h with
  | none => exact hnone.symm
  | some h => rw [Option.elim_some, h, hsome]

theorem spanTreesFrom_eq_nil {head : String} {index : Nat} {slot : Slot}
    (hslot : ∀ more, slotAt head (more + index) = slot) (hread : slot.isRead = false)
    (span : Span) (items : List Sexp) : spanTreesFrom head span index items = [] := by
  induction items generalizing index with
  | nil => rfl
  | cons item rest ih =>
      obtain ⟨hfirst, hrest⟩ := at_and_behind (P := fun index => slotAt head index = slot) hslot
      rw [spanTreesFrom, hfirst, spanTrees_eq_nil hread, List.nil_append, ih hrest]

theorem mem_ledByPath {head : String} (h : ledByPath.contains head) :
    head = "path-pat" ∨ head = "tuple-struct" ∨ head = "struct-pat" ∨ head = "struct-expr" := by
  simpa [ledByPath] using h

/-- The path that a form begins with belongs to the node of the form. -/
theorem spanTreesFrom_led {head : String} (hled : ledByPath.contains head) {span : Span}
    {path : Sexp} {rest : List Sexp} :
    spanTreesFrom head span 0 (path :: rest) = spanTreesFrom head span 1 rest := by
  have hstanding (last : Bool) : standingAt head 0 last = .path := by
    rcases mem_ledByPath hled with rfl | rfl | rfl | rfl <;> rfl
  rw [spanTreesFrom, hstanding, spanTrees_path, List.nil_append]

/-- A name stands for no node. -/
theorem spanTreesFrom_word {head : String} {index : Nat} {span : Span} {item : Sexp}
    {rest : List Sexp} {text : String} (hword : item.word? = some text)
    (hslot : slotAt head index = .form) :
    spanTreesFrom head span index (item :: rest) = spanTreesFrom head span (index + 1) rest := by
  rw [spanTreesFrom, hslot, spanTrees_word hword, List.nil_append]

/-! ## Paths -/

/-- A path takes its own span, or else the one around it. -/
theorem gives_pathSpan (form : Form) (outer : Span) :
    Gives (readPathForm form outer) fun answer =>
      (ownSpan? outer.file form).getD outer = answer.2 := by
  obtain ⟨line, head, items⟩ := form
  unfold readPathForm
  dsimp only
  split
  · refine (partsOf _ _ _).bind fun parts hparts => .step fun value => .step fun text => ?_
    refine .step fun res => (gives_ownSpan hparts rfl outer).bind fun span hspan => .ok hspan
  · refine (partsOf _ _ _).bind fun parts hparts => .step ?_
    rintro ⟨base, member⟩
    refine .step fun base => .step fun member => ?_
    have hspan := gives_ownSpan hparts rfl outer
    split
    · exact hspan.bind fun span hspan => .ok hspan
    · exact .step fun res => hspan.bind fun span hspan => .ok hspan
  · refine (partsOf _ _ _).bind fun parts hparts => .step fun value => .step fun tag => ?_
    exact (gives_ownSpan hparts rfl outer).bind fun span hspan => .ok hspan
  · exact .fault

/-- A path that is a node by itself. -/
theorem spanTrees_pathForm {form : Form} {outer span : Span} {ref : Reference}
    (h : readPathForm form outer = .ok (ref, span)) (hhead : pathHeads.contains form.head)
    {slot : Slot} (hslot : slot.isRead) :
    spanTrees slot form.toSexp .node outer = [.node span []] := by
  have hspan : (ownSpan? outer.file form).getD outer = span := gives_pathSpan form outer _ h
  obtain ⟨line, head, items⟩ := form
  have hheads : head = "path" ∨ head = "relative" ∨ head = "lang-item" := by
    simpa [pathHeads] using hhead
  rw [spanTrees_toSexp hslot, ← hspan]
  rcases hheads with rfl | rfl | rfl <;> rfl

/-- A path that a form begins with. -/
theorem gives_readPath (value : Sexp) (outer : Span) :
    Gives (readPath value outer) fun answer =>
      ((formOf? value).bind (ownSpan? outer.file)).getD outer = answer.2 := by
  unfold readPath
  split
  · rename_i text htext
    rw [formOf?_of_word htext]
    exact .ok rfl
  · refine Gives.bind (fun _ => Form.ofSexp_eq_ok_iff.1) ?_
    rintro form rfl
    exact gives_pathSpan form outer

section Led

variable {parts : Form.Parts} {form : Form} {path : Sexp} {rest : List Sexp}
  (hled : ledByPath.contains form.head) (hitems : parts.positional = path :: rest) (outer : Span)
include hled hitems

/-- The node of a form that begins with a path takes its own span, or else that of the path. -/
theorem gives_led {allowed : List String}
    (hparts : PartsOf parts form allowed (flagsOf form.head)) :
    Gives (readLeadingPath parts path outer) fun answer =>
      spanTrees .form form.toSexp .node outer =
        [.node answer.2 (spanTreesOfParts parts answer.2)] := by
  obtain ⟨hhead, hnode⟩ : isTakenApart form.head = true ∧
      ["tail", "block"].contains form.head = false := by
    rcases mem_ledByPath hled with hhead | hhead | hhead | hhead <;> rw [hhead] <;> exact ⟨rfl, rfl⟩
  unfold readLeadingPath
  refine (gives_readPath path outer).bind ?_
  rintro ⟨ref, _⟩ rfl
  -- The form is read under the span of the path, which is in the file of the span around it.
  have hfile := file_ownSpan?_getD (formOf? path) outer
  refine (gives_ownSpan hparts (unreadHeads_of_isTakenApart hhead) _).bind
    fun span hspan => .ok (spanTrees_node .form hparts hhead hnode rfl ?_)
  rw [hfile] at hspan
  rw [nodeSpan, if_pos hled, firstForm?_eq hparts, hitems]
  exact hspan

/-- The same for a form that may have a span and no other keyword. -/
theorem gives_ledSpanned (hparts : PartsOf parts form ["span"] (flagsOf form.head)) :
    Gives (readLeadingPath parts path outer) fun answer =>
      spanTrees .form form.toSexp .node outer =
        [.node answer.2 (spanTreesFrom form.head answer.2 1 rest)] := by
  intro answer hanswer
  rw [gives_led hled hitems outer hparts answer hanswer,
    spanTreesOfParts_spanned hparts (List.Subset.refl _), hitems, spanTreesFrom_led hled]

end Led

end Dump
end AssocLint
