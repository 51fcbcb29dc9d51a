import AssocLint.Proofs.Reference.Shape

/-!
# Paths inside a path

Of the references inside a path those that are text are no paths. The walk over a body goes by all
the others, language items among them, each as often as it stands there.
-/

namespace AssocLint
namespace Reference

/-- Whether a reference is text that is no path. -/
def isVerbatim : Reference → Bool
  | .verbatim _ => true
  | _ => false

/-- The paths and language items among some references. -/
def withoutText (refs : List Reference) : List Reference :=
  refs.filter (!·.isVerbatim)

theorem withoutText_append (refs refs' : List Reference) :
    withoutText (refs ++ refs') = withoutText refs ++ withoutText refs' :=
  List.filter_append refs refs'

-- By recursion on the outermost reference.

mutual

theorem withNested_eq_withoutText : ∀ ref : Reference, ref.withNested = withoutText ref.nodes
  | .resolved qualifier segments res => by
      rw [withNested, nestedOptional_eq_withoutText qualifier,
        nestedSegments_eq_withoutText segments, ← withoutText_append]
      rfl
  | .relative base segment res => by
      rw [withNested, withNested_eq_withoutText base, nestedSegment_eq_withoutText segment,
        ← withoutText_append]
      rfl
  | .languageItem _ => rfl
  | .verbatim _ => rfl
termination_by structural ref => ref

theorem nestedOptional_eq_withoutText :
    ∀ qualifier : Option Reference, nestedOptional qualifier = withoutText (nodesOptional qualifier)
  | none => rfl
  | some ref => withNested_eq_withoutText ref
termination_by structural qualifier => qualifier

theorem nestedSegment_eq_withoutText :
    ∀ segment : Segment Reference, nestedSegment segment = withoutText (nodesSegment segment)
  | ⟨_, none⟩ => rfl
  | ⟨_, some args⟩ => nestedAll_eq_withoutText args
termination_by structural segment => segment

theorem nestedSegments_eq_withoutText :
    ∀ segments : List (Segment Reference),
      nestedSegments segments = withoutText (nodesSegments segments)
  | [] => rfl
  | segment :: rest => by
      rw [nestedSegments, nestedSegment_eq_withoutText segment, nestedSegments_eq_withoutText rest,
        ← withoutText_append]
      rfl
termination_by structural segments => segments

theorem nestedAll_eq_withoutText :
    ∀ refs : List Reference, nestedAll refs = withoutText (nodesAll refs)
  | [] => rfl
  | ref :: rest => by
      rw [nestedAll, withNested_eq_withoutText ref, nestedAll_eq_withoutText rest,
        ← withoutText_append]
      rfl
termination_by structural refs => refs

end

/-- The paths inside a reference are the parts of it that are not text. -/
theorem nested_eq_withoutText_parts (ref : Reference) : ref.nested = withoutText ref.parts := by
  rw [nested, withNested_eq_withoutText, nodes_eq_cons]
  cases ref <;> rfl

end Reference
end AssocLint
