import AssocLint.Proofs.Reference.Plain

/-!
# Written shapes

`Reference.withoutRes` forgets what a path and the paths inside it resolve to, so that equality of
references sees nothing but how they are written. `Reference.same` decides that equality
(`same_iff`).

The strict comparison is therefore an equality as well: of written shapes, after empty lists of
generic arguments are read as no lists (`equivalent_strict_iff_eq`). What it inherits from equality,
that it is reflexive, symmetric and transitive, it has on paths only. A language item does not even
count as the same type as itself.
-/

namespace AssocLint
namespace Reference

mutual

/-- A reference with every resolution in it set to `type`. -/
def withoutRes : Reference → Reference
  | .resolved qualifier segments _ =>
    .resolved (withoutResOptional qualifier) (withoutResSegments segments) .type
  | .relative base segment _ => .relative base.withoutRes (withoutResSegment segment) .type
  | .languageItem tag => .languageItem tag
  | .verbatim text => .verbatim text
termination_by structural ref => ref

def withoutResOptional : Option Reference → Option Reference
  | none => none
  | some ref => some ref.withoutRes
termination_by structural ref => ref

def withoutResSegment : Segment Reference → Segment Reference
  | ⟨name, none⟩ => ⟨name, none⟩
  | ⟨name, some args⟩ => ⟨name, some (withoutResAll args)⟩
termination_by structural segment => segment

def withoutResSegments : List (Segment Reference) → List (Segment Reference)
  | [] => []
  | segment :: rest => withoutResSegment segment :: withoutResSegments rest
termination_by structural segments => segments

def withoutResAll : List Reference → List Reference
  | [] => []
  | ref :: rest => ref.withoutRes :: withoutResAll rest
termination_by structural refs => refs

end

/-! ## Sameness is equality of written shapes -/

-- Both functions recurse in the same way, so the two sides are taken apart together. References of
-- different kinds are neither the same nor equal.

mutual

theorem same_iff : ∀ ref ref' : Reference,
    ref.same ref' = true ↔ ref.withoutRes = ref'.withoutRes
  | .resolved qualifier segments _, ref' => by
      cases ref' with
      | resolved qualifier' segments' res' =>
          simp only [same, withoutRes, Bool.and_eq_true, sameOptional_iff qualifier qualifier',
            sameSegments_iff segments segments', resolved.injEq, and_true]
      | _ =>
          simp [same, withoutRes]
  | .relative base segment _, ref' => by
      cases ref' with
      | relative base' segment' res' =>
          simp only [same, withoutRes, Bool.and_eq_true, same_iff base base',
            sameSegment_iff segment segment', relative.injEq, and_true]
      | _ =>
          simp [same, withoutRes]
  | .languageItem tag, ref' => by
      cases ref' <;> simp [same, withoutRes]
  | .verbatim text, ref' => by
      cases ref' <;> simp [same, withoutRes]

theorem sameOptional_iff : ∀ ref ref' : Option Reference,
    sameOptional ref ref' = true ↔ withoutResOptional ref = withoutResOptional ref'
  | none, ref' => by
      cases ref' <;> simp [sameOptional, withoutResOptional]
  | some ref, ref' => by
      cases ref' with
      | none =>
          simp [sameOptional, withoutResOptional]
      | some ref' =>
          simp only [sameOptional, withoutResOptional, same_iff ref ref', Option.some.injEq]

theorem sameSegment_iff : ∀ segment segment' : Segment Reference,
    sameSegment segment segment' = true ↔ withoutResSegment segment = withoutResSegment segment'
  | ⟨name, none⟩, segment' => by
      rcases segment' with ⟨name', _ | args'⟩ <;> simp [sameSegment, withoutResSegment]
  | ⟨name, some args⟩, segment' => by
      rcases segment' with ⟨name', _ | args'⟩
      · simp [sameSegment, withoutResSegment]
      · simp only [sameSegment, withoutResSegment, Bool.and_eq_true, beq_iff_eq,
          sameAll_iff args args', Segment.mk.injEq, Option.some.injEq]

theorem sameSegments_iff : ∀ segments segments' : List (Segment Reference),
    sameSegments segments segments' = true ↔
      withoutResSegments segments = withoutResSegments segments'
  | [], segments' => by
      cases segments' <;> simp [sameSegments, withoutResSegments]
  | segment :: rest, segments' => by
      cases segments' with
      | nil =>
          simp [sameSegments, withoutResSegments]
      | cons segment' rest' =>
          simp only [sameSegments, withoutResSegments, Bool.and_eq_true,
            sameSegment_iff segment segment', sameSegments_iff rest rest', List.cons.injEq]

theorem sameAll_iff : ∀ refs refs' : List Reference,
    sameAll refs refs' = true ↔ withoutResAll refs = withoutResAll refs'
  | [], refs' => by
      cases refs' <;> simp [sameAll, withoutResAll]
  | ref :: rest, refs' => by
      cases refs' with
      | nil =>
          simp [sameAll, withoutResAll]
      | cons ref' rest' =>
          simp only [sameAll, withoutResAll, Bool.and_eq_true, same_iff ref ref',
            sameAll_iff rest rest', List.cons.injEq]

end

/-! ## The strict comparison is an equality -/

theorem sameUpToEmptyLists_iff (ref ref' : Reference) :
    ref.sameUpToEmptyLists ref' = true ↔ ref.plain.withoutRes = ref'.plain.withoutRes :=
  same_iff ref.plain ref'.plain

/-- Under the strict policy two references count as the same type if and only if both are paths and
their written shapes are equal once empty lists are read as no lists. Among paths this is an
equivalence. -/
theorem equivalent_strict_iff_eq :
    (∀ ref ref' : Reference, equivalent .strict ref ref' = true ↔
      ref.isPath = true ∧ ref'.isPath = true ∧ ref.plain.withoutRes = ref'.plain.withoutRes) ∧
    Equivalence fun path path' : { ref : Reference // ref.isPath = true } =>
      equivalent .strict path.val path'.val = true := by
  have hiff : ∀ ref ref' : Reference, equivalent .strict ref ref' = true ↔
      ref.isPath = true ∧ ref'.isPath = true ∧
        ref.plain.withoutRes = ref'.plain.withoutRes := by
    intro ref ref'
    rw [equivalent_strict, Bool.and_eq_true, ← sameUpToEmptyLists_iff]
    constructor
    · rintro ⟨hpath, hsame⟩
      exact ⟨hpath, isPath_eq_of_sameUpToEmptyLists hsame ▸ hpath, hsame⟩
    · rintro ⟨hpath, -, hsame⟩
      exact ⟨hpath, hsame⟩
  refine ⟨hiff, ?_, ?_, ?_⟩
  · intro path
    exact (hiff _ _).2 ⟨path.property, path.property, rfl⟩
  · intro path path' h
    obtain ⟨hpath, hpath', heq⟩ := (hiff _ _).1 h
    exact (hiff _ _).2 ⟨hpath', hpath, heq.symm⟩
  · intro path path' path'' h h'
    obtain ⟨hpath, -, heq⟩ := (hiff _ _).1 h
    obtain ⟨-, hpath'', heq'⟩ := (hiff _ _).1 h'
    exact (hiff _ _).2 ⟨hpath, hpath'', heq.trans heq'⟩

end Reference
end AssocLint
