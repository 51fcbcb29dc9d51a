import AssocLint.Proofs.Analysis.Findings
import AssocLint.Proofs.Analysis.Order

/-!
# Blocks with one more associated type

An associated type at the end of a block comes after all others: it adds one binding at most, which
is registered last, and an index in which more is registered finds first what it found first before.
So no finding is lost, none gets another binding and none changes places with another
(`findings_addType`).
-/

namespace AssocLint

namespace BindingIndex

variable {bindings : List Binding} {policy : Policy} {use : Occurrence}

/-- Bindings that are registered later do not take the place of a match. -/
theorem firstMatch_append {binding : Binding}
    (h : (ofBindings bindings).firstMatch policy use = some binding) (more : List Binding) :
    (ofBindings (bindings ++ more)).firstMatch policy use = some binding := by
  rw [firstMatch_ofBindings] at h ⊢
  rw [List.find?_append, h, Option.some_or]

theorem report_append {finding : Finding}
    (h : (ofBindings bindings).report policy use = some finding) (more : List Binding) :
    (ofBindings (bindings ++ more)).report policy use = some finding := by
  obtain ⟨huse, hfirst⟩ := report_eq_some_iff.1 h
  exact report_eq_some_iff.2 ⟨huse, firstMatch_append hfirst more⟩

end BindingIndex

/-- What finds more than before keeps what it found, in the same order. -/
theorem filterMap_sublist_filterMap {α β : Type} {f g : α → Option β}
    (h : ∀ a b, f a = some b → g a = some b) (l : List α) :
    (l.filterMap f).Sublist (l.filterMap g) := by
  induction l with
  | nil =>
      exact List.Sublist.refl _
  | cons a l ih =>
      cases hf : f a with
      | some b =>
          rw [List.filterMap_cons_some hf, List.filterMap_cons_some (h a b hf)]
          exact ih.cons_cons b
      | none =>
          rw [List.filterMap_cons_none hf]
          cases hg : g a with
          | none => rwa [List.filterMap_cons_none hg]
          | some b => rw [List.filterMap_cons_some hg]; exact ih.cons b

namespace ImplBlock

/-- The block with one more associated type, at its end. -/
def addType (block : ImplBlock) (item : AssocType) : ImplBlock :=
  { block with items := block.items ++ [.assocType item] }

@[simp] theorem assocTypes_addType (block : ImplBlock) (item : AssocType) :
    (block.addType item).assocTypes = block.assocTypes ++ [item] := by
  rw [assocTypes, addType, List.filterMap_append]
  rfl

@[simp] theorem occurrences_addType (block : ImplBlock) (item : AssocType) :
    (block.addType item).occurrences = block.occurrences := by
  rw [occurrences, methods, addType, List.filterMap_append]
  exact congrArg _ (List.append_nil _)

/-! ## Bindings -/

/-- The binding that an associated type gives, where its name is not defined yet. -/
def bindingAfter? (defined : List String) (item : AssocType) : Option Binding :=
  if item.name ∈ defined then none
  else item.target?.map fun target => ⟨item.name, target, item.span⟩

theorem bindingAfter?_congr {defined defined' : List String} {item : AssocType}
    (h : item.name ∈ defined ↔ item.name ∈ defined') :
    bindingAfter? defined item = bindingAfter? defined' item := by
  simp only [bindingAfter?, h]

theorem bindingsFrom_singleton (defined : List String) (item : AssocType) :
    bindingsFrom defined [item] = (bindingAfter? defined item).toList := by
  simp only [bindingsFrom, bindingAfter?, List.contains_iff_mem]
  split
  · rfl
  · cases item.target? <;> rfl

/-- The last associated type gives a binding where no other one has its name. -/
theorem bindingsFrom_concat (defined : List String) (items : List AssocType) (item : AssocType) :
    bindingsFrom defined (items ++ [item]) =
      bindingsFrom defined items ++
        (bindingAfter? (defined ++ items.map (·.name)) item).toList := by
  induction items generalizing defined with
  | nil =>
      simpa [bindingsFrom] using bindingsFrom_singleton defined item
  | cons first rest ih =>
      have hnew : bindingAfter? (first.name :: defined ++ rest.map (·.name)) item =
          bindingAfter? (defined ++ (first :: rest).map (·.name)) item :=
        bindingAfter?_congr (by grind)
      -- A name that is defined again is defined as before.
      have hagain (hmem : first.name ∈ defined) :
          bindingAfter? (defined ++ rest.map (·.name)) item =
            bindingAfter? (defined ++ (first :: rest).map (·.name)) item :=
        bindingAfter?_congr (by grind)
      simp only [List.cons_append, bindingsFrom, List.contains_iff_mem]
      split
      · rw [ih, hagain ‹_›]
      · cases first.target? with
        | none => rw [ih, ← hnew, List.cons_append]
        | some target => rw [ih, ← hnew, List.cons_append, List.cons_append]

theorem bindings_addType (block : ImplBlock) (item : AssocType) :
    (block.addType item).bindings =
      block.bindings ++ (bindingAfter? (block.assocTypes.map (·.name)) item).toList := by
  rw [bindings, assocTypes_addType, bindingsFrom_concat, List.nil_append]
  rfl

/-! ## Findings -/

/-- An associated type at the end of a block adds one binding at most. All findings of the block
are still there, with the same bindings and in the same order. -/
theorem findings_addType (block : ImplBlock) (policy : Policy) (item : AssocType) :
    (∃ added : Option Binding,
        (block.addType item).bindings = block.bindings ++ added.toList) ∧
      (block.analyze policy).findings.Sublist ((block.addType item).analyze policy).findings := by
  have hbindings := bindings_addType block item
  refine ⟨⟨_, hbindings⟩, ?_⟩
  rw [findings_analyze, findings_analyze, occurrences_addType]
  refine Finding.sort_sublist_sort (filterMap_sublist_filterMap (fun use finding hreport => ?_) _)
  rw [index, hbindings]
  exact BindingIndex.report_append hreport _

end ImplBlock
end AssocLint
