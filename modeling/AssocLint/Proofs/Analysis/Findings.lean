import AssocLint.Analysis
import AssocLint.Proofs.Index.Candidates

/-!
# Findings of a block

The findings of a block are what its index reports on its occurrences, one after another, put in
the order of findings (`findings_analyze`). That the analysis looks at no occurrence where no
binding can be found makes no difference: such an index reports nothing.
-/

namespace AssocLint

namespace BindingIndex

/-- The finding that an index makes of an occurrence. -/
def report (index : BindingIndex) (policy : Policy) (use : Occurrence) : Option Finding :=
  (index.firstMatch policy use).map (⟨use, ·⟩)

theorem report_eq_some_iff {index : BindingIndex} {policy : Policy} {use : Occurrence}
    {finding : Finding} :
    index.report policy use = some finding ↔
      finding.use = use ∧ index.firstMatch policy use = some finding.binding := by
  rcases finding with ⟨use', binding⟩
  constructor
  · intro h
    rcases Option.map_eq_some_iff.1 h with ⟨binding', hfirst, heq⟩
    cases heq
    exact ⟨rfl, hfirst⟩
  · rintro ⟨rfl, hfirst⟩
    exact Option.map_eq_some_iff.2 ⟨binding, hfirst, rfl⟩

theorem firstMatch_eq_none_of_supported_eq_nil {bindings : List Binding}
    (h : (ofBindings bindings).supported = []) (policy : Policy) (use : Occurrence) :
    (ofBindings bindings).firstMatch policy use = none := by
  unfold firstMatch
  rw [candidates_ofBindings]
  have hnone : (ofBindings bindings).entries.filter (·.sharesKey use.ref) = [] := by
    apply List.filter_eq_nil_iff.2
    intro entry hentry hshares
    have hunsupported := List.filter_eq_nil_iff.1 h entry hentry
    have hsupported : entry.isSupported = true := (Bool.and_eq_true_iff.1 hshares).1
    exact hunsupported hsupported
  rw [hnone]
  rfl

end BindingIndex

namespace ImplBlock

theorem findings_analyze (block : ImplBlock) (policy : Policy) :
    (block.analyze policy).findings =
      Finding.sort (block.occurrences.filterMap (block.index.report policy)) := by
  unfold analyze
  cases hempty : block.index.supported.isEmpty with
  | false =>
      simp only [hempty, Bool.false_eq_true, if_false]
      rfl
  | true =>
      have hnil : block.index.supported = [] := List.isEmpty_iff.1 hempty
      have hnothing : block.occurrences.filterMap (block.index.report policy) = [] := by
        apply List.filterMap_eq_nil_iff.2
        intro use _
        have hnone : block.index.firstMatch policy use = none :=
          BindingIndex.firstMatch_eq_none_of_supported_eq_nil hnil policy use
        simp [BindingIndex.report, hnone]
      simp [hempty, hnothing, Finding.sort]

theorem findings_analyze_of_report {block : ImplBlock} {policy : Policy} {finding : Finding}
    (h : block.occurrences.filterMap (block.index.report policy) = [finding]) :
    (block.analyze policy).findings = [finding] := by
  rw [findings_analyze, h]
  exact List.mergeSort_singleton finding

theorem perm_findings_analyze (block : ImplBlock) (policy : Policy) :
    (block.analyze policy).findings.Perm
      (block.occurrences.filterMap (block.index.report policy)) := by
  rw [findings_analyze]
  exact List.mergeSort_perm _ _

theorem mem_findings_analyze {block : ImplBlock} {policy : Policy} {finding : Finding} :
    finding ∈ (block.analyze policy).findings ↔
      finding.use ∈ block.occurrences ∧
        block.index.firstMatch policy finding.use = some finding.binding := by
  rw [(perm_findings_analyze block policy).mem_iff, List.mem_filterMap]
  constructor
  · rintro ⟨use, huse, hreport⟩
    rcases BindingIndex.report_eq_some_iff.1 hreport with ⟨rfl, hfirst⟩
    exact ⟨huse, hfirst⟩
  · rintro ⟨huse, hfirst⟩
    exact ⟨finding.use, huse, BindingIndex.report_eq_some_iff.2 ⟨rfl, hfirst⟩⟩

end ImplBlock
end AssocLint
