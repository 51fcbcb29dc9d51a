import AssocLint.Reference.Identity

/-!
# What an identity keeps

The identity of a reference follows its qualifiers and bases inwards and takes the names on the
way. `ownerInduction` is the induction that goes with it. References that are written alike have one
identity (`identity?_eq_of_same`).
-/

namespace AssocLint
namespace Reference

/-- Induction along the qualifiers and bases that a reference stands on. -/
@[elab_as_elim]
theorem ownerInduction {motive : Reference → Prop}
    (unqualified : ∀ segments res, motive (.resolved none segments res))
    (qualified : ∀ qualifier segments res, motive qualifier →
      motive (.resolved (some qualifier) segments res))
    (relative : ∀ base segment res, motive base → motive (.relative base segment res))
    (languageItem : ∀ tag, motive (.languageItem tag))
    (verbatim : ∀ text, motive (.verbatim text)) : ∀ ref, motive ref
  | .resolved none segments res => unqualified segments res
  | .resolved (some qualifier) segments res =>
      qualified qualifier segments res
        (ownerInduction unqualified qualified relative languageItem verbatim qualifier)
  | .relative base segment res =>
      relative base segment res
        (ownerInduction unqualified qualified relative languageItem verbatim base)
  | .languageItem tag => languageItem tag
  | .verbatim text => verbatim text

/-! ## Names -/

/-- The identity of a path depends on its segments through their names alone. -/
theorem identity?_resolved (qualifier : Option Reference) (segments : List (Segment Reference))
    (res : Resolution) :
    (resolved qualifier segments res).identity? =
      if segments.map (·.name) = [] then none
      else match qualifier with
        | none => some (.resolved (segments.map (·.name)))
        | some qualifier => qualifier.identity?.map (.qualified · (segments.map (·.name))) := by
  cases segments with
  | nil => simp [identity?]
  | cons segment rest => cases qualifier <;> simp [identity?]

theorem name_eq_of_sameSegment {segment segment' : Segment Reference}
    (h : sameSegment segment segment' = true) : segment.name = segment'.name := by
  rcases segment with ⟨name, _ | args⟩ <;> rcases segment' with ⟨name', _ | args'⟩ <;>
    simp_all [sameSegment]

theorem map_name_eq_of_sameSegments {segments segments' : List (Segment Reference)}
    (h : sameSegments segments segments' = true) :
    segments.map (·.name) = segments'.map (·.name) := by
  induction segments generalizing segments' with
  | nil =>
      cases segments' with
      | nil => rfl
      | cons segment' rest' => simp [sameSegments] at h
  | cons segment rest ih =>
      cases segments' with
      | nil => simp [sameSegments] at h
      | cons segment' rest' =>
          simp only [sameSegments, Bool.and_eq_true] at h
          simp only [List.map_cons, name_eq_of_sameSegment h.1, ih h.2]

/-! ## Sameness -/

theorem identity?_eq_of_same {ref ref' : Reference} (h : ref.same ref' = true) :
    ref.identity? = ref'.identity? := by
  induction ref using ownerInduction generalizing ref' with
  | unqualified segments res =>
      cases ref' with
      | resolved qualifier' segments' res' =>
          cases qualifier' with
          | none =>
              simp only [same, Bool.and_eq_true] at h
              rw [identity?_resolved, identity?_resolved, map_name_eq_of_sameSegments h.2]
          | some qualifier' =>
              simp [same, sameOptional] at h
      | _ =>
          simp [same] at h
  | qualified qualifier segments res ih =>
      cases ref' with
      | resolved qualifier' segments' res' =>
          cases qualifier' with
          | none =>
              simp [same, sameOptional] at h
          | some qualifier' =>
              simp only [same, sameOptional, Bool.and_eq_true] at h
              have hqualifier : qualifier.identity? = qualifier'.identity? := ih h.1
              rw [identity?_resolved, identity?_resolved, map_name_eq_of_sameSegments h.2]
              simp only [hqualifier]
      | _ =>
          simp [same] at h
  | relative base segment res ih =>
      cases ref' with
      | relative base' segment' res' =>
          simp only [same, Bool.and_eq_true] at h
          have hbase : base.identity? = base'.identity? := ih h.1
          simp only [identity?, hbase, name_eq_of_sameSegment h.2]
      | _ =>
          simp [same] at h
  | languageItem tag =>
      cases ref' <;> simp_all [same, identity?]
  | verbatim text =>
      cases ref' <;> simp_all [same, identity?]

end Reference
end AssocLint
