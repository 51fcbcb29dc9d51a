import AssocLint.Proofs.Analysis.Findings
import AssocLint.Proofs.Index.Acceptance
import AssocLint.Proofs.Reference.Plain

/-!
# The strict analysis, declaratively

What the analysis of a block reports under the strict policy, said without an index, a key or a
comparison of argument lists: an occurrence is reported with the first binding of the block whose
target is written like its type portion, up to empty lists (`Binding.IsSuggestedFor`).
`findings_strict` states soundness, completeness and multiplicity at once: the findings are the
occurrences of the block, each with its suggested binding where it has one, up to their order.
-/

namespace AssocLint

namespace Binding

/-- A binding whose name could stand for a type portion. -/
structure Fits (binding : Binding) (use : Occurrence) (portion : Reference) : Prop where
  identified : binding.target.identity?.isSome
  alike : portion.sameUpToEmptyLists binding.target
  declared : use.IsDeclaredThrough binding

/-- The first of some bindings whose name could stand for the type portion of an occurrence. -/
def IsSuggestedFor (binding : Binding) (use : Occurrence) (bindings : List Binding) : Prop :=
  ∃ portion before after, use.IsReplaceable portion ∧ bindings = before ++ binding :: after ∧
    binding.Fits use portion ∧ ∀ earlier ∈ before, ¬ earlier.Fits use portion

end Binding

namespace IndexedBinding

theorem accepts_strict_iff (binding : Binding) (use : Occurrence) :
    (ofBinding binding).accepts .strict use = true ↔
      ∃ portion, use.IsReplaceable portion ∧ binding.Fits use portion := by
  rw [accepts_iff]
  constructor
  · rintro ⟨hkey, hdeclared, portion, hreplaceable, hequivalent⟩
    rw [Reference.equivalent_strict, Bool.and_eq_true] at hequivalent
    exact ⟨portion, hreplaceable, hkey, hequivalent.2, hdeclared⟩
  · rintro ⟨portion, hreplaceable, hkey, halike, hdeclared⟩
    have hpath := Reference.isPath_of_typePortion? hreplaceable.typePortion
    refine ⟨hkey, hdeclared, portion, hreplaceable, ?_⟩
    rw [Reference.equivalent_strict, hpath, halike]
    rfl

theorem sharesKey_of_accepts_strict {binding : Binding} {use : Occurrence}
    (h : (ofBinding binding).accepts .strict use = true) :
    (ofBinding binding).sharesKey use.ref = true := by
  rcases (accepts_strict_iff binding use).1 h with ⟨portion, hreplaceable, hfits⟩
  have hkey : portion.identity? = binding.target.identity? :=
    Reference.identity?_eq_of_sameUpToEmptyLists hfits.alike
  simp [sharesKey, hreplaceable.typePortion, hfits.identified, hkey]

end IndexedBinding

namespace BindingIndex

/-- Under the strict policy no entry that accepts an occurrence is passed over. -/
theorem firstMatch_strict (bindings : List Binding) (use : Occurrence) :
    (ofBindings bindings).firstMatch .strict use =
      bindings.find? fun binding => (IndexedBinding.ofBinding binding).accepts .strict use := by
  rw [firstMatch_ofBindings]
  congr 1
  funext binding
  cases haccepts : (IndexedBinding.ofBinding binding).accepts .strict use with
  | false =>
      simp
  | true =>
      simp [IndexedBinding.sharesKey_of_accepts_strict haccepts]

theorem firstMatch_strict_eq_some_iff (bindings : List Binding) (use : Occurrence)
    (binding : Binding) :
    (ofBindings bindings).firstMatch .strict use = some binding ↔
      binding.IsSuggestedFor use bindings := by
  rw [firstMatch_strict, List.find?_eq_some_iff_append]
  constructor
  · rintro ⟨haccepts, before, after, hbindings, hbefore⟩
    rcases (IndexedBinding.accepts_strict_iff binding use).1 haccepts with
      ⟨portion, hreplaceable, hfits⟩
    refine ⟨portion, before, after, hreplaceable, hbindings, hfits, ?_⟩
    intro earlier hearlier hfits'
    have hrejects := hbefore earlier hearlier
    have haccepts' :=
      (IndexedBinding.accepts_strict_iff earlier use).2 ⟨portion, hreplaceable, hfits'⟩
    simp [haccepts'] at hrejects
  · rintro ⟨portion, before, after, hreplaceable, hbindings, hfits, hbefore⟩
    refine ⟨(IndexedBinding.accepts_strict_iff binding use).2 ⟨portion, hreplaceable, hfits⟩,
      before, after, hbindings, ?_⟩
    intro earlier hearlier
    rw [Bool.not_eq_true', ← Bool.not_eq_true]
    intro haccepts
    rcases (IndexedBinding.accepts_strict_iff earlier use).1 haccepts with
      ⟨portion', hreplaceable', hfits'⟩
    -- An occurrence has one type portion, so the earlier binding fits the same one.
    have hportion : portion' = portion :=
      Option.some.inj (hreplaceable'.typePortion.symm.trans hreplaceable.typePortion)
    exact hbefore earlier hearlier (hportion ▸ hfits')

end BindingIndex

/-- Under the strict policy a block reports each of its occurrences once for every time that it
occurs, with the binding suggested for it, and reports nothing else. -/
theorem ImplBlock.findings_strict (block : ImplBlock) :
    ∃ suggestion : Occurrence → Option Binding,
      (∀ use binding, suggestion use = some binding ↔
        binding.IsSuggestedFor use block.bindings) ∧
      (block.analyze .strict).findings.Perm
        (block.occurrences.filterMap fun use => (suggestion use).map (⟨use, ·⟩)) := by
  refine ⟨block.index.firstMatch .strict, ?_, ?_⟩
  · intro use binding
    exact BindingIndex.firstMatch_strict_eq_some_iff block.bindings use binding
  · exact perm_findings_analyze block .strict

end AssocLint
