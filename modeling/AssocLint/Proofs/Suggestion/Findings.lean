import AssocLint.Proofs.Analysis.Order
import AssocLint.Proofs.Suggestion.Replaced
import AssocLint.Proofs.Suggestion.Walk

/-!
# Findings of a block that follows its suggestions

What is suggested for a finding is to write the path `Self::Name`. `ImplBlock.suggestions` plans
that for any choice among the findings on expressions and patterns. Following it removes the
findings on the chosen paths, those on the paths inside what is replaced, and no others; it makes no
new ones, and leaves the rest in order (`findings_follow`).
-/

namespace AssocLint
namespace ImplBlock

/-- The plan to follow the suggestions for some occurrences, by their numbers. What is chosen
besides the findings on expressions and patterns counts for nothing. -/
def suggestions (block : ImplBlock) (policy : Policy) (chosen : Nat → Bool) : Plan :=
  fun number =>
    if chosen number then
      block.occurrences[number]?.bind fun use =>
        if use.kind = .ascription then none
        else (block.index.firstMatch policy use).map (·.name)
    else none

/-- The findings of a block in order, each with the number of its occurrence. -/
def numberedFindings (block : ImplBlock) (policy : Policy) : List (Finding × Nat) :=
  Finding.sortEntries <| block.occurrences.zipIdx.filterMap fun (use, number) =>
    (block.index.report policy use).map (·, number)

theorem isFor_suggestions (block : ImplBlock) (policy : Policy) (chosen : Nat → Bool) :
    (block.suggestions policy chosen).IsFor block.occurrences (block.index.report policy) := by
  intro number hplanned
  unfold suggestions at hplanned
  split at hplanned
  · rcases Option.isSome_iff_exists.1 hplanned with ⟨name, hname⟩
    rcases Option.bind_eq_some_iff.1 hname with ⟨use, huse, hname⟩
    rcases Option.ite_none_left_eq_some.1 hname with ⟨hkind, hname⟩
    rcases Option.map_eq_some_iff.1 hname with ⟨binding, hfirst, -⟩
    refine ⟨use, huse, hkind, ?_⟩
    simp [BindingIndex.report, hfirst]
  · cases hplanned

/-- Leaving out numbered findings is leaving out occurrences. -/
theorem filter_numberedFindings (block : ImplBlock) (policy : Policy) (stays : Nat → Bool) :
    ((block.numberedFindings policy).filter fun entry => stays entry.2).map (·.1) =
      Finding.sort (((block.occurrences.zipIdx.filter fun entry => stays entry.2).map
        (·.1)).filterMap (block.index.report policy)) := by
  rw [numberedFindings, Finding.filter_sortEntries, Finding.map_sortEntries, List.filter_filterMap,
    List.map_filterMap, List.filterMap_map, List.filterMap_filter]
  congr 1
  -- What is left is a statement about one occurrence and its number.
  apply List.filterMap_congr
  rintro ⟨use, number⟩ -
  cases hstays : stays number <;> cases hreport : block.index.report policy use <;>
    simp [hstays, hreport]

theorem map_numberedFindings (block : ImplBlock) (policy : Policy) :
    (block.numberedFindings policy).map (·.1) = (block.analyze policy).findings := by
  have hall := block.filter_numberedFindings policy fun _ => true
  simpa only [List.filter_true, List.zipIdx_map_fst, ← findings_analyze] using hall

/-- Following the suggestions for any of the findings of a block on expressions and patterns removes
these and the findings inside the paths that are replaced, and leaves the others as they are. -/
theorem findings_follow (block : ImplBlock) (policy : Policy) (chosen : Nat → Bool) :
    let plan := block.suggestions policy chosen
    (block.analyze policy).findings = (block.numberedFindings policy).map (·.1) ∧
      ((block.follow plan).analyze policy).findings =
        ((block.numberedFindings policy).filter fun entry =>
          !plan.replaces block.occurrences entry.2).map (·.1) := by
  intro plan
  refine ⟨(block.map_numberedFindings policy).symm, ?_⟩
  have hrewritten := block.rewritten_follow plan
  -- Nothing stands before the first occurrence.
  have hsettled : plan.IsSettled block.occurrences 0 := by
    intro start hstart
    cases hstart
  have hreports := @Rewritten.filterMap_report block.index policy plan block.occurrences []
    block.occurrences _ _ _ hrewritten rfl rfl (block.isFor_suggestions policy chosen) hsettled
  rw [findings_analyze, block.index_follow plan, hreports,
    block.filter_numberedFindings policy fun number => !plan.replaces block.occurrences number]
  rfl

/-- With `Source` for `State` and `Table` for `Map`, the path `Map<State>::collect<State>` is
written `Self::Table::collect<State>`. The `State` in its type portion goes, the other one stays. -/
example :
    let state : Reference := .resolved none [⟨"State", none⟩] .type
    let collect : Reference :=
      .resolved none [⟨"Map", some [state]⟩, ⟨"collect", some [state]⟩] .assocItem
    let block : ImplBlock :=
      { items := [.assocType ⟨"Source", .path state {}, {}⟩,
          .assocType ⟨"Table", .path (.resolved none [⟨"Map", none⟩] .type) {}, {}⟩,
          .method ⟨"run", [], ⟨[], some (.path collect {}), {}⟩, none, {}⟩]
        traitRef := none, selfTy := none, span := {} }
    let plan := block.suggestions .lenient fun number => number == 0
    block.occurrences.map (·.ref.render) = ["Map<State>::collect<State>", "State", "State"] ∧
      (block.follow plan).occurrences.map (·.ref.render) =
        ["Self::Table::collect<State>", "Self::Table", "Self", "State"] ∧
      (List.range 3).map (plan.replaces block.occurrences) = [true, true, false] := by
  decide

end ImplBlock
end AssocLint
