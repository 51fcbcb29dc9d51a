import AssocLint.Reference.Equivalence
import AssocLint.Reference.Identity

/-!
# Paths and other references

Of the four kinds of references two are paths. What counts as the same type is a path, and then it
is a matter of agreeing as arguments (`equivalent_eq`).
-/

namespace AssocLint
namespace Reference

/-- Whether a reference is a path, and neither a language item nor text. -/
def isPath : Reference → Bool
  | .resolved _ _ _ | .relative _ _ _ => true
  | _ => false

theorem isPath_of_typePortion? {ref portion : Reference}
    (h : ref.typePortion? = some portion) : portion.isPath = true := by
  cases ref with
  | resolved qualifier segments res =>
      simp only [typePortion?] at h
      split at h
      · cases h
        rfl
      · split at h
        · cases h
          rfl
        · cases h
  | relative base segment res =>
      simp only [typePortion?] at h
      split at h
      · cases h
        rfl
      · split at h
        · rename_i hmember
          cases h
          cases portion <;> simp_all [isRelative, isPath]
        · cases h
  | _ =>
      cases h

/-- To count as the same type is to be paths that agree as arguments. -/
theorem equivalent_eq (policy : Policy) (ref ref' : Reference) :
    equivalent policy ref ref' = (ref.isPath && ref'.isPath && argEquivalent policy ref ref') := by
  cases ref <;> cases ref' <;>
    simp [equivalent, sameShape, ownersAgree, segmentsAgree, argEquivalent, isPath]

theorem isInferred_eq_false_of_isPath {ref : Reference} (h : ref.isPath = true) :
    ref.isInferred = false := by
  cases ref <;> simp_all [isPath, isInferred]

theorem isPath_eq_of_same {ref ref' : Reference} (h : ref.same ref' = true) :
    ref.isPath = ref'.isPath := by
  cases ref <;> cases ref' <;> simp_all [same, isPath]

end Reference
end AssocLint
