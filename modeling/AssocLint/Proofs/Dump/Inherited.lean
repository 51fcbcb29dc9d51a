import AssocLint.Proofs.Dump.ReadOnce
import AssocLint.Proofs.Sexp.Equality
import AssocLint.Proofs.Tree.Spans

/-!
# Spans that a document hands down

Which span every node should have is told by the document alone, by one rule for all forms
(`nodeSpan`): its own `:span` where one is written; for a form that begins with a path, the one of
the path; and else the span around it. `spanTrees` hands spans down from the outside in by this
rule, and says of each form which nodes it stands for.
-/

namespace AssocLint
namespace Dump

/-! ## The span of a node -/

def keywordValue? (form : Form) (name : String) : Option Sexp :=
  (fieldsOf (flagsOf form.head) form.items).findSome? (Field.value? name)

/-- The token after the first `:span` among some tokens. -/
def tokenAfterSpan? (tokens : List Sexp) : Option Sexp :=
  ((tokens.dropWhile fun token => decide (token ≠ .symbol ":span")).drop 1).head?

/-- The span that a form writes for itself. What stands in a nested item is not looked at, and what
stands in a macro behind its name are tokens. -/
def ownSpan? (file : String) (form : Form) : Option Span :=
  match form.head with
  | "item" => none
  | "macro" => (tokenAfterSpan? (form.items.drop 1)).bind (writtenSpan? file)
  | _ => (keywordValue? form "span").bind (writtenSpan? file)

/-- The heads of forms that begin with a path and are no paths themselves. -/
def ledByPath : List String :=
  ["path-pat", "tuple-struct", "struct-pat", "struct-expr"]

/-- The form that stands first among the items of a form. -/
def firstForm? (form : Form) : Option Form :=
  ((fieldsOf (flagsOf form.head) form.items).findSome? Field.item?).bind formOf?

/-- The span of the node that a form stands for, given the span around it. -/
def nodeSpan (form : Form) (outer : Span) : Span :=
  (ownSpan? outer.file form).getD
    (if ledByPath.contains form.head then
      ((firstForm? form).bind (ownSpan? outer.file)).getD outer
    else outer)

/-! ## The nodes of a document -/

/-- What a value is to the form around it. -/
inductive Standing
  /-- A node. -/
  | node
  /-- A path that belongs to the node around it. -/
  | path
  /-- A named field or a parameter of a closure, which is no node itself. -/
  | part
  /-- A block that is no expression. -/
  | body
  /-- What stands in a block before its end, where an expression is wrapped in a statement. -/
  | statement
  deriving DecidableEq

/-- What an item is to its form, given its place without keywords and whether it is the last. -/
def standingAt (head : String) (index : Nat) (last : Bool) : Standing :=
  match head, index, last with
  | "path-pat", 0, _ | "tuple-struct", 0, _ | "struct-pat", 0, _ | "struct-expr", 0, _ => .path
  | "struct-pat", _, _ | "struct-expr", _, _ | "closure", _, false => .part
  | "block", _, false => .statement
  | "fn", _, true | "loop", _, _ | "while", 1, _ | "for", 2, _ => .body
  | _, _, _ => .node

/-- What the value of a keyword is to its form. -/
def standingOf (name : String) : Standing :=
  if name = "else" then .body else .node

/-- The places of the fields of a form among the nodes inside its node: of the keywords in order,
and of the items. -/
def nodeOrder : List (Option String) :=
  [some "self-ty", none, some "ty", some "init", some "else", some "guard", some "ret", some "base"]

/-- The nodes that a form stands for, given those inside it under each span. A block that is an
expression stands for two nodes, and so does an expression among the statements of a block. -/
def nodesOf (form : Form) (standing : Standing) (outer : Span) (inside : Span → List SpanTree) :
    List SpanTree :=
  if standing = .path then []
  else if standing = .part ∨ form.head = "tail" then inside outer
  else
    let span := nodeSpan form outer
    let node := SpanTree.node span (inside span)
    let nodes := if form.head = "block" ∧ standing ≠ .body then [.node span [node]] else [node]
    if standing = .statement ∧ form.head ∉ statementHeads then [.node outer nodes] else nodes

/-- The nodes that the items of a form stand for, given how many items come before. -/
def itemsIn (head : String) (span : Span) :
    Nat → List (Standing → Span → List SpanTree) → List SpanTree
  | _, [] => []
  | index, item :: rest =>
    item (standingAt head index rest.isEmpty) span ++ itemsIn head span (index + 1) rest

/-- The nodes that the fields of a form stand for. -/
def fieldsIn (head : String) (fields : List (Field (Standing → Span → List SpanTree)))
    (span : Span) : List SpanTree :=
  nodeOrder.flatMap fun name =>
    name.elim (itemsIn head span 0 (fields.filterMap Field.item?)) fun name =>
      (fields.filterMap (Field.value? name)).flatMap fun value => value (standingOf name) span

/-- The nodes that a value stands for, given those for the values inside it. -/
def spanTreesIn (slot : Slot) (value : Sexp) (inside : Inside (Standing → Span → List SpanTree))
    (standing : Standing) (outer : Span) : List SpanTree :=
  match inside with
  | .nothing =>
    if slot = .path ∧ standing ≠ .path ∧ value.word?.isSome then [.node outer []] else []
  | .items _ => []
  | .fields form fields =>
    if slot.isRead then
      nodesOf form standing outer (if isTakenApart form.head then fieldsIn form.head fields
        else fun _ => [])
    else []

/-- The nodes that a value stands for, with their spans, given the span around it. -/
def spanTrees (slot : Slot) (value : Sexp) (standing : Standing) (outer : Span) : List SpanTree :=
  survey spanTreesIn slot value standing outer

/-- The nodes that a document stands for. Implementation blocks begin with the file alone. -/
def documentSpanTrees (file : String) (values : List Sexp) : List SpanTree :=
  (implForms values).flatMap fun form => spanTrees .form form.toSexp .node { file }

/-! ## One form -/

section NodesOf

variable {form : Form} {standing : Standing} {outer : Span} {inside : Span → List SpanTree}

theorem nodesOf_part : nodesOf form .part outer inside = inside outer := by
  rw [nodesOf, if_neg (by decide), if_pos (.inl rfl)]

theorem nodesOf_tail (h : form.head = "tail") : nodesOf form .node outer inside = inside outer := by
  rw [nodesOf, if_neg (by decide), if_pos (.inr h)]

theorem nodesOf_node (h : form.head ≠ "tail") (h' : form.head ≠ "block") :
    nodesOf form .node outer inside =
      [.node (nodeSpan form outer) (inside (nodeSpan form outer))] := by
  simp [nodesOf, h, h']

theorem nodesOf_body (h : form.head = "block") :
    nodesOf form .body outer inside =
      [.node (nodeSpan form outer) (inside (nodeSpan form outer))] := by
  simp [nodesOf, h]

/-- A block that is an expression. -/
theorem nodesOf_block (h : form.head = "block") :
    nodesOf form .node outer inside =
      [.node (nodeSpan form outer) (nodesOf form .body outer inside)] := by
  simp [nodesOf, h]

/-- A statement that is written as one. -/
theorem nodesOf_statement (h : form.head ∈ statementHeads) :
    nodesOf form .statement outer inside = nodesOf form .node outer inside := by
  simp [nodesOf, h]

/-- An expression among the statements of a block. -/
theorem nodesOf_wrapped (h : form.head ∉ statementHeads) (h' : form.head ≠ "tail") :
    nodesOf form .statement outer inside = [.node outer (nodesOf form .node outer inside)] := by
  simp [nodesOf, h, h']

end NodesOf

/-! ## Values that are no forms -/

section Values

variable {slot : Slot} {standing : Standing} {outer : Span} {value : Sexp} {text : String}

theorem spanTrees_bare (h : value.word? = some text) :
    spanTrees .path value .node outer = [.node outer []] := by
  cases value <;> cases h <;> rfl

theorem spanTrees_word (h : value.word? = some text) :
    spanTrees .form value standing outer = [] := by
  cases value <;> cases h <;> rfl

theorem spanTrees_toSexp (hslot : slot.isRead) (form : Form) :
    spanTrees slot form.toSexp standing outer =
      nodesOf form standing outer (if isTakenApart form.head then
        fieldsIn form.head
          (surveyEach spanTreesIn form.head 0 (fieldsOf (flagsOf form.head) form.items))
        else fun _ => []) := by
  rw [spanTrees, survey_toSexp, spanTreesIn, if_pos hslot]

/-- What is not read stands for no nodes. -/
theorem spanTrees_eq_nil (hslot : slot.isRead = false) (value : Sexp) :
    spanTrees slot value standing outer = [] := by
  have hpath : slot ≠ .path := fun hpath => by rw [hpath] at hslot; cases hslot
  have hin (value : Sexp) (inside : Inside (Standing → Span → List SpanTree)) :
      spanTreesIn slot value inside standing outer = [] := by
    cases inside <;> simp [spanTreesIn, hslot, hpath]
  cases slot, value using survey_induction with
  | form slot form _ => rw [spanTrees, survey_toSexp, hin]
  | list slot value items hsurvey _ => rw [spanTrees, hsurvey, hin]
  | atom slot value hsurvey => rw [spanTrees, hsurvey, hin]

/-- A path that belongs to the node around it is no node. -/
theorem spanTrees_path (slot : Slot) (value : Sexp) : spanTrees slot value .path outer = [] := by
  have hin (slot : Slot) (value : Sexp) (inside : Inside (Standing → Span → List SpanTree)) :
      spanTreesIn slot value inside .path outer = [] := by
    cases inside <;> simp [spanTreesIn, nodesOf]
  cases slot, value using survey_induction with
  | form slot form _ => rw [spanTrees, survey_toSexp, hin]
  | list slot value items hsurvey _ => rw [spanTrees, hsurvey, hin]
  | atom slot value hsurvey => rw [spanTrees, hsurvey, hin]

end Values

/-! ## The parts of a form -/

/-- The nodes that the items of a form stand for, given how many items come before. -/
def spanTreesFrom (head : String) (span : Span) : Nat → List Sexp → List SpanTree
  | _, [] => []
  | index, item :: rest =>
    spanTrees (slotAt head index) item (standingAt head index rest.isEmpty) span ++
      spanTreesFrom head span (index + 1) rest

/-- The nodes that the value of a keyword stands for. -/
def spanTreesOf (parts : Form.Parts) (span : Span) (name : String) : List SpanTree :=
  (parts.value? name).elim [] fun value => spanTrees (slotOf name) value (standingOf name) span

/-- The nodes that the parts of a form stand for. -/
def spanTreesOfParts (parts : Form.Parts) (span : Span) : List SpanTree :=
  nodeOrder.flatMap fun name =>
    name.elim (spanTreesFrom parts.form.head span 0 parts.positional) (spanTreesOf parts span)

theorem isEmpty_items_surveyEach {β : Type} (combine : Slot → Sexp → Inside β → β) (head : String)
    (index : Nat) (fields : List (Field Sexp)) :
    ((surveyEach combine head index fields).filterMap Field.item?).isEmpty =
      (fields.filterMap Field.item?).isEmpty := by
  induction fields generalizing index with
  | nil => rfl
  | cons field rest ih =>
      cases field with
      | item value => rfl
      | _ => exact ih index

theorem itemsIn_surveyEach (head : String) (span : Span) (index : Nat)
    (fields : List (Field Sexp)) :
    itemsIn head span index
        ((surveyEach spanTreesIn head index fields).filterMap Field.item?) =
      spanTreesFrom head span index (fields.filterMap Field.item?) := by
  induction fields generalizing index with
  | nil => rfl
  | cons field rest ih =>
      cases field with
      | item value =>
          simp only [surveyEach, List.filterMap_cons, Field.item?, itemsIn, spanTreesFrom,
            isEmpty_items_surveyEach, ih]
          rfl
      | _ => exact ih index

section Parts

variable {parts : Form.Parts} {form : Form} {allowed : List String} {slot : Slot}
  {standing : Standing} {outer span : Span}
  (hparts : PartsOf parts form allowed (flagsOf form.head))
include hparts

theorem fieldsIn_eq (span : Span) :
    fieldsIn form.head
        (surveyEach spanTreesIn form.head 0 (fieldsOf (flagsOf form.head) form.items)) span =
      spanTreesOfParts parts span := by
  refine List.flatMap_congr fun name _ => ?_
  cases name with
  | none =>
      rw [Option.elim_none, Option.elim_none, itemsIn_surveyEach, hparts.form_eq,
        hparts.positional]
  | some name =>
      rw [Option.elim_some, Option.elim_some, value_surveyEach, ← hparts.value?, spanTreesOf]
      cases parts.value? name with
      | none => rfl
      | some value => exact List.append_nil _

/-- The nodes that a form stands for, once it has been taken apart. -/
theorem spanTrees_of_parts (hhead : isTakenApart form.head) (hslot : slot.isRead) :
    spanTrees slot form.toSexp standing outer =
      nodesOf form standing outer (spanTreesOfParts parts) := by
  rw [spanTrees_toSexp hslot, if_pos hhead, funext (fieldsIn_eq hparts)]

theorem spanTreesOf_of_not_mem {name : String} (h : name ∉ allowed) :
    spanTreesOf parts span name = [] := by
  rw [spanTreesOf, hparts.value?_eq_none h]
  rfl

/-- The parts of a form in their order. -/
theorem spanTreesOfParts_eq : spanTreesOfParts parts span =
    spanTreesOf parts span "self-ty" ++ (spanTreesFrom form.head span 0 parts.positional ++
      (spanTreesOf parts span "ty" ++ (spanTreesOf parts span "init" ++
        (spanTreesOf parts span "else" ++ (spanTreesOf parts span "guard" ++
          (spanTreesOf parts span "ret" ++ spanTreesOf parts span "base")))))) := by
  rw [spanTreesOfParts, hparts.form_eq]
  simp only [nodeOrder, List.flatMap_cons, List.flatMap_nil, Option.elim_some, Option.elim_none,
    List.append_nil]

theorem keywordValue?_eq (name : String) : keywordValue? form name = parts.value? name := by
  rw [keywordValue?, ← List.head?_filterMap, ← hparts.value?, Option.head?_toList]

theorem firstForm?_eq : firstForm? form = parts.positional.head?.bind formOf? := by
  rw [firstForm?, ← List.head?_filterMap, ← hparts.positional]

end Parts

/-- The nodes of a form that may have no keyword besides its span stand in its items. -/
theorem spanTreesOfParts_spanned {parts : Form.Parts} {form : Form} {allowed : List String}
    (hparts : PartsOf parts form allowed (flagsOf form.head)) (hallowed : allowed ⊆ ["span"])
    (span : Span) :
    spanTreesOfParts parts span = spanTreesFrom form.head span 0 parts.positional := by
  have habsent {name : String} (hname : name ≠ "span") : spanTreesOf parts span name = [] :=
    spanTreesOf_of_not_mem hparts fun hmem => hname (List.mem_singleton.1 (hallowed hmem))
  rw [spanTreesOfParts_eq hparts]
  simp (disch := decide) only [habsent, List.nil_append, List.append_nil]

section Items

variable {head : String} {span : Span} {index : Nat} {slot : Slot} {standing : Standing}

/-- Items from some point on that all stand there in the same way. -/
theorem spanTreesFrom_eq_flatMap (hslot : ∀ more, slotAt head (more + index) = slot)
    (hstanding : ∀ more last, standingAt head (more + index) last = standing) (items : List Sexp) :
    spanTreesFrom head span index items =
      items.flatMap fun item => spanTrees slot item standing span := by
  induction items generalizing index with
  | nil => rfl
  | cons item rest ih =>
      obtain ⟨hfirst, hrest⟩ := at_and_behind (P := fun index => slotAt head index = slot) hslot
      obtain ⟨hfirst', hrest'⟩ :=
        at_and_behind (P := fun index => ∀ last, standingAt head index last = standing) hstanding
      rw [spanTreesFrom, hfirst, hfirst', ih hrest hrest', List.flatMap_cons]

/-- The same where the last item stands there in another way. -/
theorem spanTreesFrom_concat (hslot : ∀ more, slotAt head (more + index) = slot)
    (hstanding : ∀ more, standingAt head (more + index) false = standing) (items : List Sexp)
    (last : Sexp) :
    spanTreesFrom head span index (items ++ [last]) =
      (items.flatMap fun item => spanTrees slot item standing span) ++
        spanTrees slot last (standingAt head (items.length + index) true) span := by
  induction items generalizing index with
  | nil =>
      have hfirst := hslot 0
      rw [Nat.zero_add] at hfirst
      rw [List.nil_append, spanTreesFrom, spanTreesFrom, hfirst, List.length_nil, Nat.zero_add]
      exact List.append_nil _
  | cons item rest ih =>
      obtain ⟨hfirst, hrest⟩ := at_and_behind (P := fun index => slotAt head index = slot) hslot
      obtain ⟨hfirst', hrest'⟩ :=
        at_and_behind (P := fun index => standingAt head index false = standing) hstanding
      have hempty : (rest ++ [last]).isEmpty = false := by
        cases rest <;> rfl
      have hlength : rest.length + (index + 1) = (item :: rest).length + index := by
        rw [List.length_cons]
        omega
      rw [List.cons_append, spanTreesFrom, hempty, hfirst, hfirst', ih hrest hrest', hlength,
        List.flatMap_cons, List.append_assoc]

/-- An item that may be missing. -/
theorem spanTreesFrom_toList (item : Option Sexp) :
    spanTreesFrom head span index item.toList = item.elim [] fun item =>
      spanTrees (slotAt head index) item (standingAt head index true) span := by
  cases item with
  | none => rfl
  | some item => exact List.append_nil _

end Items

/-! ## The file of a span -/

/-- All spans of some nodes are in a file. -/
def AllInFile (file : String) (trees : List SpanTree) : Prop :=
  ∀ span ∈ SpanTree.spansAll trees, span.file = file

section File

variable {file : String} {trees trees' : List SpanTree} {form : Form} {outer span : Span}

theorem allInFile_nil : AllInFile file [] :=
  List.forall_mem_nil _

theorem allInFile_append (h : AllInFile file trees) (h' : AllInFile file trees') :
    AllInFile file (trees ++ trees') := by
  rw [AllInFile, SpanTree.spansAll_eq, List.flatMap_append, ← SpanTree.spansAll_eq,
    ← SpanTree.spansAll_eq]
  exact List.forall_mem_append.2 ⟨h, h'⟩

theorem allInFile_node (hspan : span.file = file) (h : AllInFile file trees) :
    AllInFile file [.node span trees] := by
  rw [AllInFile, SpanTree.spansAll, SpanTree.spans]
  exact List.forall_mem_append.2 ⟨List.forall_mem_cons.2 ⟨hspan, h⟩, List.forall_mem_nil _⟩

theorem allInFile_flatMap {α : Type} {values : List α} {treesIn : α → List SpanTree}
    (h : ∀ value ∈ values, AllInFile file (treesIn value)) :
    AllInFile file (values.flatMap treesIn) := by
  induction values with
  | nil => exact allInFile_nil
  | cons value rest ih =>
      obtain ⟨hvalue, hrest⟩ := List.forall_mem_cons.1 h
      exact allInFile_append hvalue (ih hrest)

theorem file_of_writtenSpan? {value : Sexp} (h : writtenSpan? file value = some span) :
    span.file = file := by
  unfold writtenSpan? at h
  split at h <;> cases h <;> rfl

theorem file_of_ownSpan? (h : ownSpan? file form = some span) : span.file = file := by
  unfold ownSpan? at h
  split at h
  · cases h
  · obtain ⟨value, -, hvalue⟩ := Option.bind_eq_some_iff.1 h
    exact file_of_writtenSpan? hvalue
  · obtain ⟨value, -, hvalue⟩ := Option.bind_eq_some_iff.1 h
    exact file_of_writtenSpan? hvalue

theorem file_getD {span? : Option Span} {other : Span}
    (h : ∀ span, span? = some span → span.file = file) (hother : other.file = file) :
    (span?.getD other).file = file := by
  cases span? with
  | none => exact hother
  | some span => exact h span rfl

/-- A form that may be missing takes no other file than the one around it. -/
theorem file_ownSpan?_getD (form? : Option Form) (outer : Span) :
    ((form?.bind (ownSpan? outer.file)).getD outer).file = outer.file := by
  refine file_getD (fun span hspan => ?_) rfl
  obtain ⟨form, -, hform⟩ := Option.bind_eq_some_iff.1 hspan
  exact file_of_ownSpan? hform

/-- A node is in the file of the span around it. -/
theorem file_nodeSpan (form : Form) (outer : Span) : (nodeSpan form outer).file = outer.file := by
  refine file_getD (fun _ => file_of_ownSpan?) ?_
  split
  · exact file_ownSpan?_getD (firstForm? form) outer
  · rfl

theorem allInFile_nodesOf {standing : Standing} {inside : Span → List SpanTree}
    (h : ∀ span, span.file = outer.file → AllInFile outer.file (inside span)) :
    AllInFile outer.file (nodesOf form standing outer inside) := by
  have hspan := file_nodeSpan form outer
  have hnode := allInFile_node hspan (h _ hspan)
  unfold nodesOf
  dsimp only
  -- No node, the nodes inside, and then with or without the statement and the block around.
  split_ifs
  · exact allInFile_nil
  · exact h outer rfl
  · exact allInFile_node rfl (allInFile_node hspan hnode)
  · exact allInFile_node rfl hnode
  · exact allInFile_node hspan hnode
  · exact hnode

theorem allInFile_itemsIn {head : String} {items : List (Standing → Span → List SpanTree)}
    (h : ∀ item ∈ items, ∀ standing, AllInFile span.file (item standing span)) (index : Nat) :
    AllInFile span.file (itemsIn head span index items) := by
  induction items generalizing index with
  | nil => exact allInFile_nil
  | cons item rest ih =>
      obtain ⟨hitem, hrest⟩ := List.forall_mem_cons.1 h
      exact allInFile_append (hitem _) (ih hrest (index + 1))

theorem allInFile_fieldsIn {head : String} {fields : List (Field Sexp)}
    (h : AllFields (fun slot value => ∀ standing outer,
      AllInFile outer.file (spanTrees slot value standing outer)) head 0 fields) (span : Span) :
    AllInFile span.file (fieldsIn head (surveyEach spanTreesIn head 0 fields) span) := by
  obtain ⟨hitems, hvalues⟩ := @forall_mem_surveyEach _ spanTreesIn _ (fun trees =>
    ∀ standing outer, AllInFile outer.file (trees standing outer)) _ _ _ h fun _ _ hvalue => hvalue
  refine allInFile_flatMap fun name _ => ?_
  cases name with
  | none => exact allInFile_itemsIn (fun item hitem standing => hitems item hitem standing span) 0
  | some name => exact allInFile_flatMap fun value hvalue => hvalues name value hvalue _ span

end File

/-- Every node that a value stands for is in the file of the span around it. -/
theorem allInFile_spanTrees (slot : Slot) (value : Sexp) (standing : Standing) (outer : Span) :
    AllInFile outer.file (spanTrees slot value standing outer) := by
  induction slot, value using survey_induction generalizing standing outer with
  | form slot form hfields =>
      rw [spanTrees, survey_toSexp, spanTreesIn]
      split
      · refine allInFile_nodesOf fun span hspan => ?_
        rw [← hspan]
        split
        · exact allInFile_fieldsIn hfields span
        · exact allInFile_nil
      · exact allInFile_nil
  | list slot value items hsurvey _ =>
      rw [spanTrees, hsurvey]
      exact allInFile_nil
  | atom slot value hsurvey =>
      rw [spanTrees, hsurvey, spanTreesIn]
      split
      · exact allInFile_node rfl allInFile_nil
      · exact allInFile_nil

end Dump
end AssocLint
