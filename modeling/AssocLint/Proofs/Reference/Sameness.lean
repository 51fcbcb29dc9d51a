import AssocLint.Proofs.Reference.Identity
import AssocLint.Proofs.Reference.Path

/-!
# Paths that are written alike

References that are written alike agree as arguments under either policy (`argEquivalent_of_same`),
whatever they hold: inferred arguments, text, language items. Paths that are written alike count as
the same type (`equivalent_of_same`).
-/

namespace AssocLint
namespace Reference

theorem length_eq_of_sameAll {args args' : List Reference} (h : sameAll args args' = true) :
    args.length = args'.length := by
  induction args generalizing args' with
  | nil =>
      cases args' with
      | nil => rfl
      | cons arg' rest' => simp [sameAll] at h
  | cons arg rest ih =>
      cases args' with
      | nil => simp [sameAll] at h
      | cons arg' rest' =>
          simp only [sameAll, Bool.and_eq_true] at h
          simp only [List.length_cons, ih h.2]

-- By recursion on the first reference. The lenient policy asks for less at every list, the strict
-- one for just as much.

mutual

theorem argEquivalent_of_same (policy : Policy) :
    ∀ {ref ref' : Reference}, ref.same ref' = true → argEquivalent policy ref ref' = true
  | .resolved qualifier segments _, ref', h => by
      cases ref' with
      | resolved qualifier' segments' res' =>
          simp only [same, Bool.and_eq_true] at h
          have hqualifier := qualifierEquivalent_of_same policy h.1
          have hsegments := segmentsEquivalent_of_same policy h.2
          simp only [argEquivalent, hqualifier, hsegments, Bool.and_self]
      | _ =>
          simp [same] at h
  | .relative base segment _, ref', h => by
      cases ref' with
      | relative base' segment' res' =>
          simp only [same, Bool.and_eq_true] at h
          have hbase := argEquivalent_of_same policy h.1
          have hsegment := segmentEquivalent_of_same policy h.2
          simp only [argEquivalent, hbase, hsegment, Bool.and_self]
      | _ =>
          simp [same] at h
  | .languageItem tag, ref', h => by
      cases ref' <;> simp_all [same, argEquivalent]
  | .verbatim text, ref', h => by
      cases ref' <;> simp_all [same, argEquivalent]

theorem qualifierEquivalent_of_same (policy : Policy) :
    ∀ {qualifier qualifier' : Option Reference}, sameOptional qualifier qualifier' = true →
      qualifierEquivalent policy qualifier qualifier' = true
  | none, qualifier', h => by
      cases qualifier' <;> simp_all [sameOptional, qualifierEquivalent]
  | some ref, qualifier', h => by
      cases qualifier' with
      | none =>
          simp [sameOptional] at h
      | some ref' =>
          simp only [sameOptional] at h
          simp only [qualifierEquivalent, argEquivalent_of_same policy h]

theorem segmentEquivalent_of_same (policy : Policy) :
    ∀ {segment segment' : Segment Reference}, sameSegment segment segment' = true →
      segmentEquivalent policy segment segment' = true
  | ⟨name, none⟩, segment', h => by
      rcases segment' with ⟨name', _ | args'⟩ <;>
        simp_all [sameSegment, segmentEquivalent, argsEquivalent]
  | ⟨name, some args⟩, segment', h => by
      rcases segment' with ⟨name', _ | args'⟩
      · simp [sameSegment] at h
      · simp only [sameSegment, Bool.and_eq_true] at h
        have hlength := length_eq_of_sameAll h.2
        have hall := allEquivalent_of_same policy h.2
        cases policy <;> simp [segmentEquivalent, argsEquivalent, h.1, hlength, hall]

theorem segmentsEquivalent_of_same (policy : Policy) :
    ∀ {segments segments' : List (Segment Reference)}, sameSegments segments segments' = true →
      segmentsEquivalent policy segments segments' = true
  | [], segments', h => by
      cases segments' <;> simp_all [sameSegments, segmentsEquivalent]
  | segment :: rest, segments', h => by
      cases segments' with
      | nil =>
          simp [sameSegments] at h
      | cons segment' rest' =>
          simp only [sameSegments, Bool.and_eq_true] at h
          have hsegment := segmentEquivalent_of_same policy h.1
          have hrest := segmentsEquivalent_of_same policy h.2
          simp only [segmentsEquivalent, hsegment, hrest, Bool.and_self]

theorem allEquivalent_of_same (policy : Policy) :
    ∀ {args args' : List Reference}, sameAll args args' = true →
      allEquivalent policy args args' = true
  | [], args', h => by
      cases args' <;> simp_all [sameAll, allEquivalent]
  | arg :: rest, args', h => by
      cases args' with
      | nil =>
          simp [sameAll] at h
      | cons arg' rest' =>
          simp only [sameAll, Bool.and_eq_true] at h
          have harg := argEquivalent_of_same policy h.1
          have hrest := allEquivalent_of_same policy h.2
          simp only [allEquivalent, harg, hrest, Bool.and_self]

end

theorem equivalent_of_same (policy : Policy) {ref ref' : Reference} (hpath : ref.isPath = true)
    (h : ref.same ref' = true) : equivalent policy ref ref' = true := by
  have hpath' : ref'.isPath = true := isPath_eq_of_same h ▸ hpath
  rw [equivalent_eq, hpath, hpath', argEquivalent_of_same policy h]
  rfl

end Reference
end AssocLint
