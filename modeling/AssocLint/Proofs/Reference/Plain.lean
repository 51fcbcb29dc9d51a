import AssocLint.Proofs.Reference.Identity
import AssocLint.Proofs.Reference.Path

/-!
# References up to empty argument lists

`Reference.plain` reads every empty list of generic arguments in a reference as no list.
`sameUpToEmptyLists` compares what is left, resolutions aside. The strict policy is that comparison
(`argEquivalent_strict`, `equivalent_strict`): five functions that compare shapes, qualifiers,
names and argument lists come down to one equality of plain references.
-/

namespace AssocLint
namespace Reference

mutual

/-- A reference with every empty list of generic arguments in it read as no list. -/
def plain : Reference → Reference
  | .resolved qualifier segments res =>
    .resolved (plainOptional qualifier) (plainSegments segments) res
  | .relative base segment res => .relative base.plain (plainSegment segment) res
  | .languageItem tag => .languageItem tag
  | .verbatim text => .verbatim text
termination_by structural ref => ref

def plainOptional : Option Reference → Option Reference
  | none => none
  | some ref => some ref.plain
termination_by structural ref => ref

def plainSegment : Segment Reference → Segment Reference
  | ⟨name, none⟩ => ⟨name, none⟩
  | ⟨name, some args⟩ => ⟨name, if args.isEmpty then none else some (plainAll args)⟩
termination_by structural segment => segment

def plainSegments : List (Segment Reference) → List (Segment Reference)
  | [] => []
  | segment :: rest => plainSegment segment :: plainSegments rest
termination_by structural segments => segments

def plainAll : List Reference → List Reference
  | [] => []
  | ref :: rest => ref.plain :: plainAll rest
termination_by structural refs => refs

end

/-- Whether two references are written alike once empty lists count as no lists. -/
def sameUpToEmptyLists (ref ref' : Reference) : Bool :=
  ref.plain.same ref'.plain

/-! ## The strict comparison -/

-- The comparison and the plain form recurse in the same way, so each function of the one is joined
-- to its counterpart in the other. Argument lists are where the two could part.

mutual

theorem argEquivalent_strict :
    ∀ ref ref' : Reference, argEquivalent .strict ref ref' = ref.plain.same ref'.plain
  | .resolved qualifier segments _, ref' => by
      cases ref' with
      | resolved qualifier' segments' res' =>
          simp only [argEquivalent, plain, same, qualifierEquivalent_strict qualifier qualifier',
            segmentsEquivalent_strict segments segments']
      | _ =>
          simp [argEquivalent, plain, same]
  | .relative base segment _, ref' => by
      cases ref' with
      | relative base' segment' res' =>
          simp only [argEquivalent, plain, same, argEquivalent_strict base base',
            segmentEquivalent_strict segment segment']
      | _ =>
          simp [argEquivalent, plain, same]
  | .languageItem tag, ref' => by
      cases ref' <;> simp [argEquivalent, plain, same]
  | .verbatim text, ref' => by
      cases ref' <;> simp [argEquivalent, plain, same]

theorem qualifierEquivalent_strict :
    ∀ qualifier qualifier' : Option Reference,
      qualifierEquivalent .strict qualifier qualifier' =
        sameOptional (plainOptional qualifier) (plainOptional qualifier')
  | none, qualifier' => by
      cases qualifier' <;> simp [qualifierEquivalent, plainOptional, sameOptional]
  | some ref, qualifier' => by
      cases qualifier' with
      | none =>
          simp [qualifierEquivalent, plainOptional, sameOptional]
      | some ref' =>
          simp only [qualifierEquivalent, plainOptional, sameOptional,
            argEquivalent_strict ref ref']

theorem segmentEquivalent_strict :
    ∀ segment segment' : Segment Reference,
      segmentEquivalent .strict segment segment' =
        sameSegment (plainSegment segment) (plainSegment segment')
  | ⟨name, none⟩, segment' => by
      rcases segment' with ⟨name', _ | args'⟩
      · simp [segmentEquivalent, argsEquivalent, plainSegment, sameSegment]
      · cases args' <;> simp [segmentEquivalent, argsEquivalent, plainSegment, sameSegment]
  | ⟨name, some args⟩, segment' => by
      rcases segment' with ⟨name', _ | args'⟩
      · cases args <;> simp [segmentEquivalent, argsEquivalent, plainSegment, sameSegment]
      · have hall := allEquivalent_strict args args'
        cases args <;> cases args' <;>
          simp_all [segmentEquivalent, argsEquivalent, plainSegment, sameSegment, allEquivalent]

theorem segmentsEquivalent_strict :
    ∀ segments segments' : List (Segment Reference),
      segmentsEquivalent .strict segments segments' =
        sameSegments (plainSegments segments) (plainSegments segments')
  | [], segments' => by
      cases segments' <;> simp [segmentsEquivalent, plainSegments, sameSegments]
  | segment :: rest, segments' => by
      cases segments' with
      | nil =>
          simp [segmentsEquivalent, plainSegments, sameSegments]
      | cons segment' rest' =>
          simp only [segmentsEquivalent, plainSegments, sameSegments,
            segmentEquivalent_strict segment segment', segmentsEquivalent_strict rest rest']

theorem allEquivalent_strict :
    ∀ args args' : List Reference,
      allEquivalent .strict args args' = sameAll (plainAll args) (plainAll args')
  | [], args' => by
      cases args' <;> simp [allEquivalent, plainAll, sameAll]
  | arg :: rest, args' => by
      cases args' with
      | nil =>
          simp [allEquivalent, plainAll, sameAll]
      | cons arg' rest' =>
          simp only [allEquivalent, plainAll, sameAll, argEquivalent_strict arg arg',
            allEquivalent_strict rest rest']

end

theorem isPath_plain (ref : Reference) : ref.plain.isPath = ref.isPath := by
  cases ref <;> simp [plain, isPath]

/-- References that are written alike up to empty lists have one shape. -/
theorem isPath_eq_of_sameUpToEmptyLists {ref ref' : Reference}
    (h : sameUpToEmptyLists ref ref' = true) : ref.isPath = ref'.isPath := by
  simpa only [isPath_plain] using isPath_eq_of_same h

/-- Under the strict policy two references count as the same type when they are paths that are
written alike up to empty lists. -/
theorem equivalent_strict (ref ref' : Reference) :
    equivalent .strict ref ref' = (ref.isPath && sameUpToEmptyLists ref ref') := by
  rw [equivalent_eq, argEquivalent_strict]
  cases hsame : ref.plain.same ref'.plain with
  | false =>
      simp [sameUpToEmptyLists, hsame]
  | true =>
      have hpath : ref.isPath = ref'.isPath := isPath_eq_of_sameUpToEmptyLists hsame
      simp [sameUpToEmptyLists, hsame, hpath]

/-! ## Identities -/

theorem map_name_plainSegments (segments : List (Segment Reference)) :
    (plainSegments segments).map (·.name) = segments.map (·.name) := by
  induction segments with
  | nil =>
      simp [plainSegments]
  | cons segment rest ih =>
      rcases segment with ⟨name, _ | args⟩ <;> simp [plainSegments, plainSegment, ih]

/-- Empty lists leave no trace in the identity of a path. -/
theorem identity?_plain (ref : Reference) : ref.plain.identity? = ref.identity? := by
  induction ref using ownerInduction with
  | unqualified segments res =>
      simp only [plain, plainOptional, identity?_resolved, map_name_plainSegments]
  | qualified qualifier segments res ih =>
      simp only [plain, plainOptional, identity?_resolved, map_name_plainSegments, ih]
  | relative base segment res ih =>
      rcases segment with ⟨name, _ | args⟩ <;> simp only [plain, plainSegment, identity?, ih]
  | _ =>
      simp only [plain]

theorem identity?_eq_of_sameUpToEmptyLists {ref ref' : Reference}
    (h : sameUpToEmptyLists ref ref' = true) : ref.identity? = ref'.identity? := by
  calc
    ref.identity? = ref.plain.identity? := (identity?_plain ref).symm
    _ = ref'.plain.identity? := identity?_eq_of_same h
    _ = ref'.identity? := identity?_plain ref'

end Reference
end AssocLint
