import AssocLint.Proofs.Reference.WrittenShape

/-!
# Erased references

Looking a binding up compares identities, which are nested keys of names. `Reference.erased` says
what such a key stands for in terms of references: what is left of one without resolutions and
without the generic arguments of its own segments and of those along its qualifiers and bases. The
arguments go as whole lists, so nothing inside them is left to erase.

A key is no coarser and no finer than that. It can be read back as the erased reference that it was
made from (`erased_of_identity?`), so two references have one key exactly when they are equal after
erasure (`identity?_eq_iff_erased_eq`). A reference without a key stands on a language item or on a
path without segments (`identity?_eq_none_iff`).
-/

namespace AssocLint
namespace Reference

/-- A reference with resolutions and generic arguments erased, in its own segments and along its
qualifiers and bases. -/
def erased : Reference → Reference
  | .resolved none segments _ =>
    .resolved none (segments.map fun segment => ⟨segment.name, none⟩) .type
  | .resolved (some qualifier) segments _ =>
    .resolved (some qualifier.erased) (segments.map fun segment => ⟨segment.name, none⟩) .type
  | .relative base segment _ => .relative base.erased ⟨segment.name, none⟩ .type
  | .languageItem tag => .languageItem tag
  | .verbatim text => .verbatim text
termination_by structural ref => ref

/-- A reference, its qualifier or base, the qualifier or base of that, and so on inwards. -/
def owners : Reference → List Reference
  | .resolved none segments res => [.resolved none segments res]
  | .resolved (some qualifier) segments res =>
    .resolved (some qualifier) segments res :: qualifier.owners
  | .relative base segment res => .relative base segment res :: base.owners
  | .languageItem tag => [.languageItem tag]
  | .verbatim text => [.verbatim text]
termination_by structural ref => ref

/-- Whether a reference has no name to be found by: a language item, or a path without segments. -/
def isNameless : Reference → Bool
  | .resolved _ [] _ => true
  | .languageItem _ => true
  | _ => false

end Reference

/-- The erased reference that an identity stands for. -/
def Identity.toReference : Identity → Reference
  | .resolved names => .resolved none (names.map fun name => ⟨name, none⟩) .type
  | .qualified qualifier names =>
    .resolved (some qualifier.toReference) (names.map fun name => ⟨name, none⟩) .type
  | .relative base name => .relative base.toReference ⟨name, none⟩ .type
  | .verbatim text => .verbatim text

namespace Reference

/-! ## Erased references are equal or not -/

theorem withoutResSegments_map_name (segments : List (Segment Reference)) :
    withoutResSegments (segments.map fun segment => ⟨segment.name, none⟩) =
      segments.map fun segment => ⟨segment.name, none⟩ := by
  induction segments with
  | nil =>
      rfl
  | cons segment rest ih =>
      simp only [List.map_cons, withoutResSegments, withoutResSegment, ih]

/-- In an erased reference there is no resolution left to forget. -/
theorem withoutRes_erased (ref : Reference) : ref.erased.withoutRes = ref.erased := by
  induction ref using ownerInduction with
  | unqualified segments res =>
      simp only [erased, withoutRes, withoutResOptional, withoutResSegments_map_name]
  | qualified qualifier segments res ih =>
      simp only [erased, withoutRes, withoutResOptional, withoutResSegments_map_name, ih]
  | relative base segment res ih =>
      simp only [erased, withoutRes, withoutResSegment, ih]
  | languageItem tag =>
      rfl
  | verbatim text =>
      rfl

theorem same_erased_iff (ref ref' : Reference) :
    ref.erased.same ref'.erased = true ↔ ref.erased = ref'.erased := by
  rw [same_iff, withoutRes_erased, withoutRes_erased]

instance (ref ref' : Reference) : Decidable (ref.erased = ref'.erased) :=
  decidable_of_iff (ref.erased.same ref'.erased = true) (same_erased_iff ref ref')

/-! ## Keys and erased references -/

/-- Erasing leaves the identity as it is. -/
theorem identity?_erased (ref : Reference) : ref.erased.identity? = ref.identity? := by
  have hnames : ∀ segments : List (Segment Reference),
      (segments.map fun segment => (⟨segment.name, none⟩ : Segment Reference)).map (·.name) =
        segments.map (·.name) := by
    intro segments
    rw [List.map_map]
    rfl
  induction ref using ownerInduction with
  | unqualified segments res =>
      simp only [erased, identity?_resolved, hnames]
  | qualified qualifier segments res ih =>
      simp only [erased, identity?_resolved, hnames, ih]
  | relative base segment res ih =>
      simp only [erased, identity?, ih]
  | languageItem tag =>
      rfl
  | verbatim text =>
      rfl

/-- A key can be read back: it determines the erased reference that it was made from. -/
theorem erased_of_identity? {ref : Reference} {key : Identity} (h : ref.identity? = some key) :
    ref.erased = key.toReference := by
  -- Along qualifiers and bases a key keeps the shape and all names, which is what is left to read.
  induction ref using ownerInduction generalizing key with
  | unqualified segments res =>
      rw [identity?_resolved] at h
      obtain ⟨-, hkey⟩ := Option.ite_none_left_eq_some.1 h
      cases hkey
      simp only [erased, Identity.toReference, List.map_map]
      rfl
  | qualified qualifier segments res ih =>
      rw [identity?_resolved] at h
      obtain ⟨-, hkey⟩ := Option.ite_none_left_eq_some.1 h
      obtain ⟨owner, howner, rfl⟩ := Option.map_eq_some_iff.1 hkey
      simp only [erased, Identity.toReference, List.map_map, ih howner]
      rfl
  | relative base segment res ih =>
      rw [identity?] at h
      obtain ⟨owner, howner, rfl⟩ := Option.map_eq_some_iff.1 h
      simp only [erased, Identity.toReference, ih howner]
  | languageItem tag =>
      simp [identity?] at h
  | verbatim text =>
      simp only [identity?, Option.some.injEq] at h
      subst h
      rfl

/-- Two references, one of which has a key, have one key exactly when they are equal after
erasure. -/
theorem identity?_eq_iff_erased_eq {ref ref' : Reference} (h : ref'.identity?.isSome) :
    ref.identity? = ref'.identity? ↔ ref.erased = ref'.erased := by
  obtain ⟨key, hkey⟩ := Option.isSome_iff_exists.1 h
  constructor
  · intro heq
    calc
      ref.erased = key.toReference := erased_of_identity? (heq.trans hkey)
      _ = ref'.erased := (erased_of_identity? hkey).symm
  · intro heq
    calc
      ref.identity? = ref.erased.identity? := (identity?_erased ref).symm
      _ = ref'.erased.identity? := by rw [heq]
      _ = ref'.identity? := identity?_erased ref'

/-! ## References without a key -/

/-- A reference has no key exactly when something that it stands on has no name. -/
theorem identity?_eq_none_iff (ref : Reference) :
    ref.identity? = none ↔ ∃ owner ∈ ref.owners, owner.isNameless = true := by
  induction ref using ownerInduction with
  | unqualified segments res =>
      cases segments <;> simp [identity?_resolved, owners, isNameless]
  | qualified qualifier segments res ih =>
      cases segments <;> simp [identity?_resolved, owners, isNameless, ih]
  | relative base segment res ih =>
      simp [identity?, owners, isNameless, ih]
  | languageItem tag =>
      simp [identity?, owners, isNameless]
  | verbatim text =>
      simp [identity?, owners, isNameless]

end Reference
end AssocLint
