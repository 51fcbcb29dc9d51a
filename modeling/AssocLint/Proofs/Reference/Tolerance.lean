import AssocLint.Proofs.Reference.Sameness
import AssocLint.Proofs.Reference.WrittenShape

/-!
# The lenient comparison is a tolerance

Which of two references is the occurrence and which the target makes no difference to the
comparison, under either policy (`argEquivalent_comm`, `equivalent_comm`). As arguments, references
agree with themselves, whatever they are; to count as the same type as itself a reference has to be
a path (`equivalent_self`).

Under the lenient policy that is all there is: a list of arguments that is left out agrees with two
lists that do not agree, so the comparison is a tolerance and no equivalence
(`lenient_tolerance`).
-/

namespace AssocLint
namespace Reference

/-! ## Symmetry -/

-- By recursion on the first reference; the second is taken apart along with it. At two lists of
-- arguments the lenient policy looks for inferred ones on either side before it compares.

mutual

theorem argEquivalent_comm (policy : Policy) : ∀ ref ref' : Reference,
    argEquivalent policy ref ref' = argEquivalent policy ref' ref
  | .resolved qualifier segments _, ref' => by
      cases ref' with
      | resolved qualifier' segments' res' =>
          simp only [argEquivalent, qualifierEquivalent_comm policy qualifier qualifier',
            segmentsEquivalent_comm policy segments segments']
      | _ =>
          rfl
  | .relative base segment _, ref' => by
      cases ref' with
      | relative base' segment' res' =>
          simp only [argEquivalent, argEquivalent_comm policy base base',
            segmentEquivalent_comm policy segment segment']
      | _ =>
          rfl
  | .languageItem tag, ref' => by
      cases ref' with
      | languageItem tag' =>
          simp only [argEquivalent, Bool.beq_comm (a := tag)]
      | _ =>
          rfl
  | .verbatim text, ref' => by
      cases ref' with
      | verbatim text' =>
          simp only [argEquivalent]
          rw [Bool.or_comm (text == "_"), Bool.beq_comm (a := text) (b := text')]
      | _ =>
          rfl

theorem qualifierEquivalent_comm (policy : Policy) : ∀ qualifier qualifier' : Option Reference,
    qualifierEquivalent policy qualifier qualifier' =
      qualifierEquivalent policy qualifier' qualifier
  | none, qualifier' => by
      cases qualifier' <;> rfl
  | some ref, qualifier' => by
      cases qualifier' with
      | none =>
          rfl
      | some ref' =>
          simp only [qualifierEquivalent, argEquivalent_comm policy ref ref']

theorem segmentEquivalent_comm (policy : Policy) : ∀ segment segment' : Segment Reference,
    segmentEquivalent policy segment segment' = segmentEquivalent policy segment' segment
  | ⟨name, none⟩, ⟨name', args'⟩ => by
      cases args' <;> simp only [segmentEquivalent, argsEquivalent, Bool.beq_comm (a := name)]
  | ⟨name, some args⟩, ⟨name', args'⟩ => by
      cases args' with
      | none =>
          simp only [segmentEquivalent, argsEquivalent, Bool.beq_comm (a := name)]
      | some args' =>
          simp only [segmentEquivalent, argsEquivalent, Bool.beq_comm (a := name),
            Bool.beq_comm (a := args.length), Bool.or_comm (args.any isInferred),
            allEquivalent_comm policy args args']

theorem segmentsEquivalent_comm (policy : Policy) :
    ∀ segments segments' : List (Segment Reference),
      segmentsEquivalent policy segments segments' = segmentsEquivalent policy segments' segments
  | [], segments' => by
      cases segments' <;> rfl
  | segment :: rest, segments' => by
      cases segments' with
      | nil =>
          rfl
      | cons segment' rest' =>
          simp only [segmentsEquivalent, segmentEquivalent_comm policy segment segment',
            segmentsEquivalent_comm policy rest rest']

theorem allEquivalent_comm (policy : Policy) : ∀ args args' : List Reference,
    allEquivalent policy args args' = allEquivalent policy args' args
  | [], args' => by
      cases args' <;> rfl
  | arg :: rest, args' => by
      cases args' with
      | nil =>
          rfl
      | cons arg' rest' =>
          simp only [allEquivalent, argEquivalent_comm policy arg arg',
            allEquivalent_comm policy rest rest']

end

theorem equivalent_comm (policy : Policy) (ref ref' : Reference) :
    equivalent policy ref ref' = equivalent policy ref' ref := by
  rw [equivalent_eq, equivalent_eq, argEquivalent_comm policy ref ref',
    Bool.and_comm ref.isPath ref'.isPath]

/-! ## Reflexivity -/

theorem argEquivalent_self (policy : Policy) (ref : Reference) :
    argEquivalent policy ref ref = true :=
  argEquivalent_of_same policy ((same_iff ref ref).2 rfl)

theorem equivalent_self (policy : Policy) (ref : Reference) :
    equivalent policy ref ref = ref.isPath := by
  rw [equivalent_eq, argEquivalent_self, Bool.and_self, Bool.and_true]

/-! ## Tolerance -/

/-- Under the lenient policy, both ways to compare references are symmetric. As arguments all
references agree with themselves; the paths among them count as the same type as themselves. -/
theorem lenient_tolerance :
    (∀ ref ref' : Reference, equivalent .lenient ref ref' = equivalent .lenient ref' ref) ∧
      (∀ ref : Reference, equivalent .lenient ref ref = ref.isPath) ∧
      (∀ ref ref' : Reference,
        argEquivalent .lenient ref ref' = argEquivalent .lenient ref' ref) ∧
      ∀ ref : Reference, argEquivalent .lenient ref ref = true :=
  ⟨equivalent_comm .lenient, equivalent_self .lenient, argEquivalent_comm .lenient,
    argEquivalent_self .lenient⟩

/-- The type `Vec` counts as the same type as `Vec<u8>` and as `Vec<u16>`. -/
example :
    let vec (args : Option (List Reference)) : Reference := .resolved none [⟨"Vec", args⟩] .type
    let of (name : String) : Reference := vec (some [.resolved none [⟨name, none⟩] .type])
    equivalent .lenient (of "u8") (vec none) = true ∧
      equivalent .lenient (vec none) (of "u16") = true ∧
      equivalent .lenient (of "u8") (of "u16") = false := by
  decide

end Reference
end AssocLint
