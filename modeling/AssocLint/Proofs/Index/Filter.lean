import AssocLint.Proofs.Index.Candidates
import AssocLint.Proofs.Reference.Erased

/-!
# Looking up is filtering

The groups of an index are an aid for finding bindings fast, and nothing more. What is found for a
path are the bindings whose target equals the type portion of the path after erasure, each as often
as it was registered and in the order of registration (`candidates_eq_filter`). A scan of the
bindings that compares references, and knows neither keys nor groups, gives the same list.
-/

namespace AssocLint

theorem IndexedBinding.sharesKey_eq (binding : Binding) (ref : Reference) :
    (ofBinding binding).sharesKey ref =
      (binding.target.identity?.isSome &&
        ref.typePortion?.any fun portion => portion.erased = binding.target.erased) := by
  rw [sharesKey, isSupported_ofBinding, key_ofBinding]
  cases hkey : binding.target.identity?.isSome with
  | false =>
      rfl
  | true =>
      cases hportion : ref.typePortion? with
      | none =>
          -- A key that is there is not the key that a path without a type portion lacks.
          obtain ⟨key, hkey⟩ := Option.isSome_iff_exists.1 hkey
          simp [hkey]
      | some portion =>
          have hiff : portion.identity? = binding.target.identity? ↔
              portion.erased = binding.target.erased := Reference.identity?_eq_iff_erased_eq hkey
          rw [Bool.eq_iff_iff]
          simp only [Option.bind_some, Option.any_some, Bool.true_and, beq_iff_eq,
            decide_eq_true_eq]
          rw [← hiff, eq_comm]

namespace BindingIndex

/-- Looking a path up lists the bindings with a key whose target equals the type portion of the path
after erasure, each once for every time that it was registered and in that order. Nothing is found
for a path without a type portion, or with one that stands on something without a name. -/
theorem candidates_eq_filter (bindings : List Binding) (ref : Reference) :
    (ofBindings bindings).candidates ref =
        (bindings.filter fun binding => binding.target.identity?.isSome &&
          ref.typePortion?.any fun portion => portion.erased = binding.target.erased).map
            IndexedBinding.ofBinding ∧
      (ref.typePortion? = none ∨
          (∃ portion, ref.typePortion? = some portion ∧
            ∃ owner ∈ portion.owners, owner.isNameless = true) →
        (ofBindings bindings).candidates ref = []) := by
  constructor
  · calc
      (ofBindings bindings).candidates ref
          = (bindings.map IndexedBinding.ofBinding).filter (·.sharesKey ref) :=
            candidates_ofBindings bindings ref
      _ = (bindings.filter fun binding => (IndexedBinding.ofBinding binding).sharesKey ref).map
            IndexedBinding.ofBinding := List.filter_map
      _ = _ := by simp only [IndexedBinding.sharesKey_eq]
  · intro h
    have hkey : ref.typePortion?.bind Reference.identity? = none := by
      rcases h with hnone | ⟨portion, hportion, hnameless⟩
      · rw [hnone]
        rfl
      · rw [hportion]
        exact (Reference.identity?_eq_none_iff portion).2 hnameless
    rw [candidates, hkey]

/-- The function `<Vec<_> as Make>::Out::new` among bindings whose targets differ from its type
portion in generic arguments, in their qualifier, and in that they stand on a language item. -/
theorem candidates_eq_filter_qualified :
    let out (qualifier : Reference) : Reference :=
      .resolved (some qualifier) [⟨"Make", none⟩, ⟨"Out", none⟩] .type
    let vec (args : Option (List Reference)) : Reference := .resolved none [⟨"Vec", args⟩] .type
    let bytes : Binding := ⟨"Bytes", out (vec (some [.resolved none [⟨"u8", none⟩] .type])), {}⟩
    let other : Binding := ⟨"Other", out (.resolved none [⟨"State", none⟩] .type), {}⟩
    let range : Binding := ⟨"Range", out (.languageItem "Range"), {}⟩
    let any : Binding := ⟨"Any", out (vec none), {}⟩
    let index := ofBindings [bytes, other, range, any, bytes]
    let function : Reference :=
      .resolved (some (vec (some [.verbatim "_"])))
        [⟨"Make", none⟩, ⟨"Out", some []⟩, ⟨"new", none⟩] .assocItem
    index.candidates function = [bytes, any, bytes].map IndexedBinding.ofBinding ∧
      index.candidates range.target = [] := by
  intro out vec bytes other range any index function
  constructor
  · exact (candidates_eq_filter [bytes, other, range, any, bytes] function).1
  · apply (candidates_eq_filter [bytes, other, range, any, bytes] range.target).2
    right
    exact ⟨range.target, rfl, .languageItem "Range", by simp [range, out, Reference.owners], rfl⟩

end BindingIndex
end AssocLint
