import AssocLint.Proofs.Reference.Identity
import AssocLint.Proofs.Reference.Path

/-!
# Inferred qualifiers and bases

An inferred `_` agrees with every argument under the lenient policy, and it does so too where it
stands as the qualifier or base of a path. The identity of a path knows nothing of that: there `_`
is a text like any other. Of two paths that count as the same type, the identities are therefore
equal exactly when `_` owns both or neither, all the way inwards
(`identity?_eq_iff_inferredAlike`).
-/

namespace AssocLint
namespace Reference

/-- Whether two references have their inferred qualifiers and bases in the same places. -/
def inferredAlike : Reference → Reference → Bool
  | .resolved (some qualifier) _ _, .resolved (some qualifier') _ _ =>
    qualifier.isInferred == qualifier'.isInferred && inferredAlike qualifier qualifier'
  | .relative base _ _, .relative base' _ _ =>
    base.isInferred == base'.isInferred && inferredAlike base base'
  | _, _ => true
termination_by structural ref => ref

/-! ## Names of equivalent segments -/

theorem name_eq_of_segmentEquivalent {policy : Policy} {segment segment' : Segment Reference}
    (h : segmentEquivalent policy segment segment' = true) : segment.name = segment'.name := by
  rcases segment with ⟨name, args⟩
  rcases segment' with ⟨name', args'⟩
  simp only [segmentEquivalent, Bool.and_eq_true, beq_iff_eq] at h
  exact h.1

theorem map_name_eq_of_segmentsEquivalent {policy : Policy} :
    ∀ {segments segments' : List (Segment Reference)},
      segmentsEquivalent policy segments segments' = true →
        segments.map (·.name) = segments'.map (·.name) := by
  intro segments
  induction segments with
  | nil =>
      intro segments' h
      cases segments' with
      | nil => rfl
      | cons segment' rest' => simp [segmentsEquivalent] at h
  | cons segment rest ih =>
      intro segments' h
      cases segments' with
      | nil => simp [segmentsEquivalent] at h
      | cons segment' rest' =>
          simp only [segmentsEquivalent, Bool.and_eq_true] at h
          simp only [List.map_cons, name_eq_of_segmentEquivalent h.1, ih h.2]

/-! ## Identities -/

theorem isInferred_eq_true_iff (ref : Reference) :
    ref.isInferred = true ↔ ref.identity? = some (.verbatim "_") := by
  cases ref with
  | resolved qualifier segments res =>
      rw [identity?_resolved]
      cases qualifier <;> split <;> simp [isInferred]
  | relative base segment res =>
      simp [isInferred, identity?]
  | languageItem tag =>
      simp [isInferred, identity?]
  | verbatim text =>
      simp [isInferred, identity?]

theorem isInferred_eq_of_identity?_eq {ref ref' : Reference} (h : ref.identity? = ref'.identity?) :
    ref.isInferred = ref'.isInferred := by
  rw [Bool.eq_iff_iff, isInferred_eq_true_iff, isInferred_eq_true_iff, h]

/-- Equivalent references have one identity where their inferred owners face each other. -/
theorem identity?_eq_of_argEquivalent {policy : Policy} {ref ref' : Reference}
    (h : argEquivalent policy ref ref' = true) (hself : ref.isInferred = ref'.isInferred)
    (howners : inferredAlike ref ref' = true) : ref.identity? = ref'.identity? := by
  induction ref using ownerInduction generalizing ref' with
  | unqualified segments res =>
      cases ref' with
      | resolved qualifier' segments' res' =>
          cases qualifier' with
          | none =>
              simp only [argEquivalent, Bool.and_eq_true] at h
              rw [identity?_resolved, identity?_resolved, map_name_eq_of_segmentsEquivalent h.2]
          | some qualifier' =>
              simp [argEquivalent, qualifierEquivalent] at h
      | _ =>
          simp_all [argEquivalent, isInferred]
  | qualified qualifier segments res ih =>
      cases ref' with
      | resolved qualifier' segments' res' =>
          cases qualifier' with
          | none =>
              simp [argEquivalent, qualifierEquivalent] at h
          | some qualifier' =>
              simp only [argEquivalent, qualifierEquivalent, Bool.and_eq_true] at h
              simp only [inferredAlike, Bool.and_eq_true, beq_iff_eq] at howners
              have hqualifier : qualifier.identity? = qualifier'.identity? :=
                ih h.1 howners.1 howners.2
              rw [identity?_resolved, identity?_resolved, map_name_eq_of_segmentsEquivalent h.2]
              simp only [hqualifier]
      | _ =>
          simp_all [argEquivalent, isInferred]
  | relative base segment res ih =>
      cases ref' with
      | relative base' segment' res' =>
          simp only [argEquivalent, Bool.and_eq_true] at h
          simp only [inferredAlike, Bool.and_eq_true, beq_iff_eq] at howners
          have hbase : base.identity? = base'.identity? := ih h.1 howners.1 howners.2
          simp only [identity?, hbase, name_eq_of_segmentEquivalent h.2]
      | _ =>
          simp_all [argEquivalent, isInferred]
  | languageItem tag =>
      cases ref' with
      | languageItem tag' =>
          rfl
      | _ =>
          simp_all [argEquivalent, isInferred]
  | verbatim text =>
      cases ref' with
      | verbatim text' =>
          simp only [argEquivalent, Bool.or_eq_true, Bool.and_eq_true, beq_iff_eq] at h
          rw [isInferred, isInferred, Bool.eq_iff_iff, beq_iff_eq, beq_iff_eq] at hself
          -- One of the two may be inferred, but then both are.
          have htext : text = text' := by
            rcases h with ⟨-, htext | htext'⟩ | h
            · rw [htext, hself.1 htext]
            · rw [htext', hself.2 htext']
            · exact h
          rw [htext]
      | _ =>
          simp_all [argEquivalent, isInferred]

/-- References with one identity have their inferred owners in the same places. -/
theorem inferredAlike_of_identity?_eq {ref ref' : Reference} {key : Identity}
    (h : ref.identity? = some key) (h' : ref'.identity? = some key) :
    inferredAlike ref ref' = true := by
  induction ref using ownerInduction generalizing ref' key with
  | qualified qualifier segments res ih =>
      cases ref' with
      | resolved qualifier' segments' res' =>
          cases qualifier' with
          | none =>
              rfl
          | some qualifier' =>
              rw [identity?_resolved] at h h'
              simp only [Option.ite_none_left_eq_some, Option.map_eq_some_iff] at h h'
              obtain ⟨-, owner, howner, rfl⟩ := h
              obtain ⟨-, owner', howner', heq⟩ := h'
              -- The key of the whole holds the owner's, so the owners have one key as well.
              have hsame : owner' = owner := (Identity.qualified.inj heq).1
              rw [hsame] at howner'
              simp only [inferredAlike, Bool.and_eq_true, beq_iff_eq]
              exact ⟨isInferred_eq_of_identity?_eq (howner.trans howner'.symm), ih howner howner'⟩
      | _ =>
          rfl
  | relative base segment res ih =>
      cases ref' with
      | relative base' segment' res' =>
          simp only [identity?, Option.map_eq_some_iff] at h h'
          obtain ⟨owner, howner, rfl⟩ := h
          obtain ⟨owner', howner', heq⟩ := h'
          have hsame : owner' = owner := (Identity.relative.inj heq).1
          rw [hsame] at howner'
          simp only [inferredAlike, Bool.and_eq_true, beq_iff_eq]
          exact ⟨isInferred_eq_of_identity?_eq (howner.trans howner'.symm), ih howner howner'⟩
      | _ =>
          rfl
  | _ =>
      rfl

/-! ## Paths that count as the same type -/

/-- Of two paths that count as the same type, the one is found under the identity of the other
exactly when their inferred owners are in the same places. -/
theorem identity?_eq_iff_inferredAlike {policy : Policy} {ref ref' : Reference}
    (h : equivalent policy ref ref' = true) (hkey : ref'.identity?.isSome) :
    ref'.identity? = ref.identity? ↔ inferredAlike ref ref' = true := by
  rw [equivalent_eq, Bool.and_eq_true, Bool.and_eq_true] at h
  rcases h with ⟨⟨hpath, hpath'⟩, harg⟩
  constructor
  · intro heq
    rcases Option.isSome_iff_exists.1 hkey with ⟨key, hkey⟩
    exact inferredAlike_of_identity?_eq (heq ▸ hkey) hkey
  · intro halike
    have hself : ref.isInferred = ref'.isInferred := by
      rw [isInferred_eq_false_of_isPath hpath, isInferred_eq_false_of_isPath hpath']
    exact (identity?_eq_of_argEquivalent harg hself halike).symm

end Reference
end AssocLint
