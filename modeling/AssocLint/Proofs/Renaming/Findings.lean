import AssocLint.Proofs.Analysis.Findings
import AssocLint.Proofs.Renaming.Walk

/-!
# Findings about renamed local variables

A local variable is no type and no member of one, so no index reports it, under whatever name. All
other occurrences stay as they are when local variables are renamed, and the definitions of
associated types hold no local names. So the analysis of a block gives the same result when every
method of it is renamed in its own way (`ImplBlock.analyze_rename`).
-/

namespace AssocLint

/-- A member of a block with other names for its local variables. -/
def ImplItem.rename (f : String → String) : ImplItem → ImplItem
  | .assocType item => .assocType item
  | .method item => .method (item.rename f)
  | .assocConst item => .assocConst item

/-- Members with other names for their local variables: at each position, those of its own. -/
def ImplItem.renameAll (f : Nat → String ↪ String) (items : List ImplItem) : List ImplItem :=
  items.mapIdx fun position item => item.rename (f position)

/-- A block whose methods have other names for their local variables. -/
def ImplBlock.rename (f : Nat → String ↪ String) (block : ImplBlock) : ImplBlock :=
  { block with items := ImplItem.renameAll f block.items }

theorem ImplItem.renameAll_cons (f : Nat → String ↪ String) (item : ImplItem)
    (items : List ImplItem) :
    renameAll f (item :: items) = item.rename (f 0) :: renameAll (fun i => f (i + 1)) items :=
  List.mapIdx_cons

/-! ## Reports -/

theorem BindingIndex.report_eq_none_of_local (index : BindingIndex) (policy : Policy)
    {use : Occurrence} {segments : List (Segment Reference)}
    (h : use.ref = .resolved none segments .localVar) : index.report policy use = none := by
  have hportion : use.ref.typePortion? = none := by
    rw [h]
    rfl
  simp [report, firstMatch, candidates, hportion]

/-- An index reports the same of an occurrence whose local names are changed. -/
theorem Occurrence.Renamed.report_eq {f : String → String} {use use' : Occurrence}
    (h : use.Renamed f use') (index : BindingIndex) (policy : Policy) :
    index.report policy use' = index.report policy use := by
  rcases h.ref_eq with href | ⟨-, name, args, href, href'⟩
  · have huse : use' = use := by
      cases use
      cases use'
      rcases h with ⟨rfl, rfl, rfl, rfl, -⟩
      cases href
      rfl
    rw [huse]
  · rw [index.report_eq_none_of_local policy href, index.report_eq_none_of_local policy href']

theorem filterMap_report_renamed {uses uses' : List Occurrence}
    (h : List.Forall₂ (fun use use' => ∃ f, Occurrence.Renamed f use use') uses uses')
    (index : BindingIndex) (policy : Policy) :
    uses'.filterMap (index.report policy) = uses.filterMap (index.report policy) := by
  induction h with
  | nil =>
      rfl
  | cons huse _ ih =>
      rcases huse with ⟨f, huse⟩
      rw [List.filterMap_cons, List.filterMap_cons, huse.report_eq index policy, ih]

/-! ## Blocks -/

namespace ImplBlock

variable (f : Nat → String ↪ String) (block : ImplBlock)

theorem assocTypes_rename : (block.rename f).assocTypes = block.assocTypes := by
  have hitems (items : List ImplItem) (f : Nat → String ↪ String) :
      { block with items := ImplItem.renameAll f items }.assocTypes =
        { block with items }.assocTypes := by
    induction items generalizing f with
    | nil =>
        rfl
    | cons item rest ih =>
        rw [ImplItem.renameAll_cons]
        cases item with
        | method item =>
            exact ih _
        | assocType item =>
            exact congrArg (item :: ·) (ih _)
        | assocConst item =>
            exact ih _
  exact hitems block.items f

/-- Renaming local variables changes no binding. -/
theorem index_rename : (block.rename f).index = block.index := by
  simp only [index, bindings, assocTypes_rename]

/-- The occurrences in a block are those before the renaming, each with its local name changed. -/
theorem renamed_occurrences :
    List.Forall₂ (fun use use' => ∃ f, Occurrence.Renamed f use use') block.occurrences
      (block.rename f).occurrences := by
  have hitems (items : List ImplItem) (f : Nat → String ↪ String) :
      List.Forall₂ (fun use use' => ∃ f, Occurrence.Renamed f use use')
        { block with items }.occurrences
        { block with items := ImplItem.renameAll f items }.occurrences := by
    -- Only methods have occurrences.
    induction items generalizing f with
    | nil =>
        exact .nil
    | cons item rest ih =>
        rw [ImplItem.renameAll_cons]
        cases item with
        | method item =>
            have hmethod := item.renamed_occurrences (f 0)
            exact List.rel_append (hmethod.imp fun _ _ huse => ⟨f 0, huse⟩) (ih _)
        | assocType item =>
            exact ih _
        | assocConst item =>
            exact ih _
  exact hitems block.items f

end ImplBlock

/-- The local variables of a method do not show by their names: with other names for them, distinct
ones for distinct ones, a method has the same occurrences but for these names, and a block the same
analysis whatever the names in each of its methods. -/
theorem ImplBlock.analyze_rename :
    (∀ (f : String ↪ String) (method : Method),
        List.Forall₂ (Occurrence.Renamed f) method.occurrences (method.rename f).occurrences) ∧
      ∀ (f : Nat → String ↪ String) (block : ImplBlock) (policy : Policy),
        (block.rename f).analyze policy = block.analyze policy := by
  refine ⟨Method.renamed_occurrences, ?_⟩
  intro f block policy
  have huses := block.renamed_occurrences f
  have hlength := huses.length_eq
  have hreports := filterMap_report_renamed huses block.index policy
  unfold BindingIndex.report at hreports
  simp only [analyze, index_rename, hreports, hlength]

end AssocLint
