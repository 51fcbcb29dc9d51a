import AssocLint.Proofs.Analysis.Findings
import AssocLint.Proofs.Index.Acceptance
import AssocLint.Proofs.Reference.Lenience
import Mathlib.Data.List.Basic
import Mathlib.Data.List.Perm.Subperm

/-!
# Strict and lenient findings

The strict policy reports no more than the lenient one (`strict_findings_within_lenient`). Each
occurrence that it reports is reported under the lenient policy as well, as often, though perhaps
with another binding: an earlier one, which the strict policy turns down.
-/

namespace AssocLint

theorem IndexedBinding.accepts_lenient {binding : Binding} {use : Occurrence}
    (h : (ofBinding binding).accepts .strict use = true) :
    (ofBinding binding).accepts .lenient use = true := by
  rcases (accepts_iff .strict binding use).1 h with
    ⟨hkey, hdeclared, portion, hreplaceable, hequivalent⟩
  have hlenient := Reference.equivalent_lenient hequivalent
  exact (accepts_iff .lenient binding use).2 ⟨hkey, hdeclared, portion, hreplaceable, hlenient⟩

namespace BindingIndex

/-- Where the strict policy finds a binding, the lenient one finds it or an earlier one. -/
theorem exists_firstMatch_lenient {bindings : List Binding} {use : Occurrence} {binding : Binding}
    (h : (ofBindings bindings).firstMatch .strict use = some binding) :
    ∃ before found after, (ofBindings bindings).firstMatch .lenient use = some found ∧
      bindings = before ++ found :: after ∧ binding ∈ found :: after := by
  rw [firstMatch_ofBindings] at h ⊢
  have hlenient : ∀ binding' : Binding,
      ((IndexedBinding.ofBinding binding').sharesKey use.ref &&
        (IndexedBinding.ofBinding binding').accepts .strict use) = true →
      ((IndexedBinding.ofBinding binding').sharesKey use.ref &&
        (IndexedBinding.ofBinding binding').accepts .lenient use) = true := by
    intro binding' haccepts
    rw [Bool.and_eq_true] at haccepts ⊢
    exact ⟨haccepts.1, IndexedBinding.accepts_lenient haccepts.2⟩
  obtain ⟨before, found, after, hfound, hbindings, hmem, -⟩ := exists_find?_of_imp hlenient h
  exact ⟨before, found, after, hfound, hbindings, hmem⟩

theorem map_use_filterMap_report (index : BindingIndex) (policy : Policy)
    (uses : List Occurrence) :
    (uses.filterMap (index.report policy)).map (·.use) =
      uses.filter fun use => (index.firstMatch policy use).isSome := by
  induction uses with
  | nil =>
      rfl
  | cons use rest ih =>
      cases hfirst : index.firstMatch policy use <;> simp [report, hfirst] <;> exact ih

end BindingIndex

namespace ImplBlock

theorem map_use_findings_perm (block : ImplBlock) (policy : Policy) :
    ((block.analyze policy).findings.map (·.use)).Perm
      (block.occurrences.filter fun use => (block.index.firstMatch policy use).isSome) := by
  rw [← BindingIndex.map_use_filterMap_report]
  exact (perm_findings_analyze block policy).map _

/-- What is reported under the strict policy is reported under the lenient one at least as often,
with the same binding or an earlier one. -/
theorem strict_findings_within_lenient (block : ImplBlock) :
    ((block.analyze .strict).findings.map (·.use)).Subperm
        ((block.analyze .lenient).findings.map (·.use)) ∧
      ∀ strict ∈ (block.analyze .strict).findings,
        ∀ lenient ∈ (block.analyze .lenient).findings, lenient.use = strict.use →
          ∃ before after, block.bindings = before ++ lenient.binding :: after ∧
            strict.binding ∈ lenient.binding :: after := by
  constructor
  · have hsublist :
        (block.occurrences.filter fun use => (block.index.firstMatch .strict use).isSome).Sublist
          (block.occurrences.filter fun use => (block.index.firstMatch .lenient use).isSome) := by
      apply List.monotone_filter_right
      intro use hstrict
      rcases Option.isSome_iff_exists.1 hstrict with ⟨binding, hfirst⟩
      rcases BindingIndex.exists_firstMatch_lenient hfirst with ⟨-, found, -, hfound, -⟩
      exact Option.isSome_iff_exists.2 ⟨found, hfound⟩
    have hstrict := (map_use_findings_perm block .strict).subperm
    have hlenient := (map_use_findings_perm block .lenient).symm.subperm
    exact (hstrict.trans hsublist.subperm).trans hlenient
  · intro strict hstrict lenient hlenient huse
    have hfirst := (mem_findings_analyze.1 hstrict).2
    have hfirst' := (mem_findings_analyze.1 hlenient).2
    rcases BindingIndex.exists_firstMatch_lenient hfirst with
      ⟨before, found, after, hfound, hbindings, hmem⟩
    -- An index finds one binding for one occurrence.
    have hsame : found = lenient.binding := by
      rw [huse] at hfirst'
      exact Option.some.inj (hfound.symm.trans hfirst')
    subst hsame
    exact ⟨before, after, hbindings, hmem⟩

/-- The path `Vec<u8>` in a block that defines `type Any = Vec` and `type Bytes = Vec<u8>`: it
stands for the second binding under the strict policy and for the first under the lenient one. -/
theorem strict_findings_within_lenient_earlier_binding :
    let bytes : Reference :=
      .resolved none [⟨"Vec", some [.resolved none [⟨"u8", none⟩] .type]⟩] .type
    let first : Binding := ⟨"Any", .resolved none [⟨"Vec", none⟩] .type, {}⟩
    let second : Binding := ⟨"Bytes", bytes, {}⟩
    let use : Occurrence := ⟨bytes, .expression, {}, none, "make"⟩
    let block : ImplBlock :=
      { items := [.assocType ⟨"Any", .path first.target {}, {}⟩,
          .assocType ⟨"Bytes", .path second.target {}, {}⟩,
          .method ⟨"make", [], ⟨[], some (.path bytes {}), {}⟩, none, {}⟩]
        traitRef := none, selfTy := none, span := {} }
    (⟨use, second⟩ : Finding) ∈ (block.analyze .strict).findings ∧
      (⟨use, first⟩ : Finding) ∈ (block.analyze .lenient).findings ∧
      ∃ before after, block.bindings = before ++ first :: after ∧ second ∈ first :: after := by
  intro bytes first second use block
  have huse : use ∈ block.occurrences := List.mem_cons_self
  have hstrict : (⟨use, second⟩ : Finding) ∈ (block.analyze .strict).findings :=
    mem_findings_analyze.2 ⟨huse, rfl⟩
  have hlenient : (⟨use, first⟩ : Finding) ∈ (block.analyze .lenient).findings :=
    mem_findings_analyze.2 ⟨huse, rfl⟩
  exact ⟨hstrict, hlenient,
    (strict_findings_within_lenient block).2 _ hstrict _ hlenient rfl⟩

end ImplBlock
end AssocLint
