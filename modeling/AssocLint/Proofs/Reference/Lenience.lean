import AssocLint.Proofs.Reference.Path

/-!
# The lenient policy is the weaker one

The two policies part at argument lists: where a list is missing or empty, and at the inferred
argument `_`. In each of these places the lenient policy asks for less. So what agrees under the
strict policy agrees under the lenient one (`argEquivalent_lenient`), however deep the lists stand
inside one another, and the same goes for counting as one type (`equivalent_lenient`).
-/

namespace AssocLint
namespace Reference

theorem length_eq_of_allEquivalent {policy : Policy} {args args' : List Reference}
    (h : allEquivalent policy args args' = true) : args.length = args'.length := by
  induction args generalizing args' with
  | nil =>
      cases args' with
      | nil => rfl
      | cons arg' rest' => simp [allEquivalent] at h
  | cons arg rest ih =>
      cases args' with
      | nil => simp [allEquivalent] at h
      | cons arg' rest' =>
          simp only [allEquivalent, Bool.and_eq_true] at h
          simp only [List.length_cons, ih h.2]

-- By recursion on the first reference, as the comparison goes. Only argument lists and text know
-- which policy it is.

mutual

theorem argEquivalent_lenient :
    ∀ {ref ref' : Reference}, argEquivalent .strict ref ref' = true →
      argEquivalent .lenient ref ref' = true
  | .resolved qualifier segments _, ref', h => by
      cases ref' with
      | resolved qualifier' segments' res' =>
          simp only [argEquivalent, Bool.and_eq_true] at h
          have hqualifier := qualifierEquivalent_lenient h.1
          have hsegments := segmentsEquivalent_lenient h.2
          simp only [argEquivalent, hqualifier, hsegments, Bool.and_self]
      | _ =>
          simp [argEquivalent] at h
  | .relative base segment _, ref', h => by
      cases ref' with
      | relative base' segment' res' =>
          simp only [argEquivalent, Bool.and_eq_true] at h
          have hbase := argEquivalent_lenient h.1
          have hsegment := segmentEquivalent_lenient h.2
          simp only [argEquivalent, hbase, hsegment, Bool.and_self]
      | _ =>
          simp [argEquivalent] at h
  | .languageItem tag, ref', h => by
      cases ref' <;> simp_all [argEquivalent]
  | .verbatim text, ref', h => by
      cases ref' <;> simp_all [argEquivalent]

theorem qualifierEquivalent_lenient :
    ∀ {qualifier qualifier' : Option Reference},
      qualifierEquivalent .strict qualifier qualifier' = true →
        qualifierEquivalent .lenient qualifier qualifier' = true
  | none, qualifier', h => by
      cases qualifier' <;> simp_all [qualifierEquivalent]
  | some ref, qualifier', h => by
      cases qualifier' with
      | none =>
          simp [qualifierEquivalent] at h
      | some ref' =>
          simp only [qualifierEquivalent] at h
          simp only [qualifierEquivalent, argEquivalent_lenient h]

theorem segmentEquivalent_lenient :
    ∀ {segment segment' : Segment Reference}, segmentEquivalent .strict segment segment' = true →
      segmentEquivalent .lenient segment segment' = true
  | ⟨name, none⟩, ⟨name', args'⟩, h => by
      cases args' <;> simp_all [segmentEquivalent, argsEquivalent]
  | ⟨name, some args⟩, ⟨name', args'⟩, h => by
      cases args' with
      | none =>
          simp_all [segmentEquivalent, argsEquivalent]
      | some args' =>
          simp only [segmentEquivalent, argsEquivalent, Bool.and_eq_true] at h
          have hlength := length_eq_of_allEquivalent h.2
          have hall := allEquivalent_lenient h.2
          simp [segmentEquivalent, argsEquivalent, h.1, hlength, hall]

theorem segmentsEquivalent_lenient :
    ∀ {segments segments' : List (Segment Reference)},
      segmentsEquivalent .strict segments segments' = true →
        segmentsEquivalent .lenient segments segments' = true
  | [], segments', h => by
      cases segments' <;> simp_all [segmentsEquivalent]
  | segment :: rest, segments', h => by
      cases segments' with
      | nil =>
          simp [segmentsEquivalent] at h
      | cons segment' rest' =>
          simp only [segmentsEquivalent, Bool.and_eq_true] at h
          have hsegment := segmentEquivalent_lenient h.1
          have hrest := segmentsEquivalent_lenient h.2
          simp only [segmentsEquivalent, hsegment, hrest, Bool.and_self]

theorem allEquivalent_lenient :
    ∀ {args args' : List Reference}, allEquivalent .strict args args' = true →
      allEquivalent .lenient args args' = true
  | [], args', h => by
      cases args' <;> simp_all [allEquivalent]
  | arg :: rest, args', h => by
      cases args' with
      | nil =>
          simp [allEquivalent] at h
      | cons arg' rest' =>
          simp only [allEquivalent, Bool.and_eq_true] at h
          have harg := argEquivalent_lenient h.1
          have hrest := allEquivalent_lenient h.2
          simp only [allEquivalent, harg, hrest, Bool.and_self]

end

theorem equivalent_lenient {ref ref' : Reference} (h : equivalent .strict ref ref' = true) :
    equivalent .lenient ref ref' = true := by
  rw [equivalent_eq, Bool.and_eq_true] at h ⊢
  exact ⟨h.1, argEquivalent_lenient h.2⟩

end Reference
end AssocLint
