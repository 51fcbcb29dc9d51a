import AssocLint.Proofs.Index.Candidates

/-!
# When an entry accepts an occurrence

An entry accepts an occurrence on three counts that have little to do with each other: the path
must be one that could be written through an associated type (`Occurrence.IsReplaceable`), a
pattern must have the right subject, and the type portion must count as the same type as the target
(`accepts_iff`).
-/

namespace AssocLint

/-- A use of a path that could be written through an associated type, by the part of it that names
a type. -/
structure Occurrence.IsReplaceable (use : Occurrence) (portion : Reference) : Prop where
  resolution : use.ref.res? = some .type ∨ use.ref.res? = some .variant ∨
    use.ref.res? = some .assocItem
  unrouted : use.ref.routedName? = none
  typePortion : use.ref.typePortion? = some portion

/-- Whether the value that a pattern is matched with is declared through a binding. Other
occurrences have no such value. -/
def Occurrence.IsDeclaredThrough (use : Occurrence) (binding : Binding) : Prop :=
  use.kind = .pattern → use.subjectName? = some binding.name

theorem Resolution.any_isConcrete_iff (res? : Option Resolution) :
    res?.any isConcrete = true ↔
      res? = some .type ∨ res? = some .variant ∨ res? = some .assocItem := by
  cases res? with
  | none =>
      simp
  | some res =>
      cases res <;> simp [isConcrete]

namespace IndexedBinding

theorem accepts_iff (policy : Policy) (binding : Binding) (use : Occurrence) :
    (ofBinding binding).accepts policy use = true ↔
      binding.target.identity?.isSome ∧ use.IsDeclaredThrough binding ∧
        ∃ portion, use.IsReplaceable portion ∧
          Reference.equivalent policy portion binding.target = true := by
  have hsubject : (use.kind != .pattern || use.subjectName? == some binding.name) = true ↔
      use.IsDeclaredThrough binding := by
    cases hkind : use.kind <;> simp [Occurrence.IsDeclaredThrough, hkind]
  constructor
  · intro h
    simp only [accepts, isSupported_ofBinding, binding_ofBinding, Bool.and_eq_true,
      Option.any_eq_true (p := fun portion => Reference.equivalent policy portion binding.target),
      Option.isNone_iff_eq_none, Resolution.any_isConcrete_iff, hsubject] at h
    rcases h with ⟨⟨⟨⟨hkey, hresolution⟩, hunrouted⟩, hdeclared⟩, portion, hportion, hequivalent⟩
    exact ⟨hkey, hdeclared, portion, ⟨hresolution, hunrouted, hportion⟩, hequivalent⟩
  · rintro ⟨hkey, hdeclared, portion, ⟨hresolution, hunrouted, hportion⟩, hequivalent⟩
    have hconcrete := (Resolution.any_isConcrete_iff _).2 hresolution
    have hsubject' := hsubject.2 hdeclared
    simp only [accepts, isSupported_ofBinding, binding_ofBinding, hkey, hconcrete, hunrouted,
      hsubject', hportion, hequivalent, Option.isNone_none, Option.any_some, Bool.and_self]

end IndexedBinding
end AssocLint
