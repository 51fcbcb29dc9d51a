import AssocLint.Proofs.Index.Acceptance
import AssocLint.Proofs.Reference.Detail

/-!
# Occurrences in less detail

Under the lenient policy an occurrence loses no match by being written in less detail. What is left
out has no part in the key of a path, in its route through an associated type or in which part of it
names a type, and the comparison only gets easier. So every entry that an occurrence is found to
stand for stays one when generic arguments are left out. An earlier entry may come to accept the
occurrence as well and take its place (`firstMatch_of_lessDetailed`).

The strict policy has no such law: there a list that is left out is an empty one.
-/

namespace AssocLint

/-- An occurrence of the same kind and with the same subject, the path in less detail. -/
structure Occurrence.LessDetailed (use' use : Occurrence) : Prop where
  ref : use'.ref.LessDetailed use.ref
  kind : use'.kind = use.kind
  subject : use'.subject = use.subject

namespace IndexedBinding

variable {binding : Binding} {use' use : Occurrence}

theorem sharesKey_of_lessDetailed (h : use'.LessDetailed use)
    (hshares : (ofBinding binding).sharesKey use.ref = true) :
    (ofBinding binding).sharesKey use'.ref = true := by
  simp only [sharesKey, isSupported_ofBinding, key_ofBinding, Bool.and_eq_true, beq_iff_eq]
    at hshares ⊢
  obtain ⟨hsupported, hkey⟩ := hshares
  cases hportion : use.ref.typePortion? with
  | none =>
      simp [hkey, hportion] at hsupported
  | some portion =>
      obtain ⟨portion', hportion', hless⟩ := h.ref.exists_typePortion? hportion
      refine ⟨hsupported, ?_⟩
      calc
        binding.target.identity? = portion.identity? := by rw [hkey, hportion, Option.bind_some]
        _ = portion'.identity? := hless.identity?_eq.symm
        _ = use'.ref.typePortion?.bind Reference.identity? := by rw [hportion', Option.bind_some]

theorem accepts_of_lessDetailed (h : use'.LessDetailed use)
    (haccepts : (ofBinding binding).accepts .lenient use = true) :
    (ofBinding binding).accepts .lenient use' = true := by
  obtain ⟨hkey, hdeclared, portion, hreplaceable, hequivalent⟩ :=
    (accepts_iff .lenient binding use).1 haccepts
  obtain ⟨portion', hportion', hless⟩ := h.ref.exists_typePortion? hreplaceable.typePortion
  -- Of what an entry looks at only the generic arguments of the type portion are others now.
  have hdeclared' : use'.IsDeclaredThrough binding := by
    intro hpattern
    have hname := hdeclared (h.kind ▸ hpattern)
    rwa [Occurrence.subjectName?, h.subject]
  have hreplaceable' : use'.IsReplaceable portion' :=
    { resolution := h.ref.res?_eq ▸ hreplaceable.resolution
      unrouted := h.ref.routedName?_eq.trans hreplaceable.unrouted
      typePortion := hportion' }
  have hequivalent' := Reference.equivalent_of_lessDetailed hless hequivalent
  exact (accepts_iff .lenient binding use').2
    ⟨hkey, hdeclared', portion', hreplaceable', hequivalent'⟩

end IndexedBinding

namespace BindingIndex

/-- Where a binding is found for an occurrence under the lenient policy, one is found for the
occurrence in less detail, and it is registered at the same place or earlier. -/
theorem firstMatch_of_lessDetailed {bindings : List Binding} {use' use : Occurrence}
    {binding : Binding} (h : use'.LessDetailed use)
    (hfirst : (ofBindings bindings).firstMatch .lenient use = some binding) :
    ∃ before found after, (ofBindings bindings).firstMatch .lenient use' = some found ∧
      bindings = before ++ found :: after ∧ binding ∈ found :: after ∧ binding ∉ before := by
  rw [firstMatch_ofBindings] at hfirst ⊢
  apply exists_find?_of_imp _ hfirst
  intro binding' hfound
  rw [Bool.and_eq_true] at hfound ⊢
  exact ⟨IndexedBinding.sharesKey_of_lessDetailed h hfound.1,
    IndexedBinding.accepts_of_lessDetailed h hfound.2⟩

/-- The path `<Pair<u8, Vec<u8>> as Make>::Out` stands for the second binding. With `_` for the
first argument of its qualifier and no list in the second argument it stands for the first binding,
whose arguments are others. -/
theorem firstMatch_of_lessDetailed_qualifier :
    let name (name : String) (args : Option (List Reference)) : Reference :=
      .resolved none [⟨name, args⟩] .type
    let out (args : List Reference) : Reference :=
      .resolved (some (name "Pair" (some args))) [⟨"Make", none⟩, ⟨"Out", none⟩] .type
    let first : Binding := ⟨"First", out [name "u16" none, name "u16" none], {}⟩
    let second : Binding := ⟨"Second", out [name "u8" none, name "Vec" (some [name "u8" none])], {}⟩
    let use : Occurrence := ⟨second.target, .expression, {}, none, "make"⟩
    let use' : Occurrence := { use with ref := out [.verbatim "_", name "Vec" none] }
    use'.LessDetailed use ∧
      (ofBindings [first, second]).firstMatch .lenient use = some second ∧
      (ofBindings [first, second]).firstMatch .lenient use' = some first ∧
      ∃ before found after, (ofBindings [first, second]).firstMatch .lenient use' = some found ∧
        [first, second] = before ++ found :: after ∧ second ∈ found :: after ∧ second ∉ before := by
  intro name out first second use use'
  have hvec : (name "Vec" none).LessDetailed (name "Vec" (some [name "u8" none])) :=
    .resolved .type .none (.cons (.dropped "Vec" _) .nil)
  have hpair : (name "Pair" (some [.verbatim "_", name "Vec" none])).LessDetailed
      (name "Pair" (some [name "u8" none, name "Vec" (some [name "u8" none])])) :=
    .resolved .type .none (.cons (.kept "Pair" (.inferred _ (.kept hvec .nil))) .nil)
  have hless : use'.LessDetailed use :=
    { ref := .resolved .type (.some hpair)
        (.cons (.dropped "Make" none) (.cons (.dropped "Out" none) .nil))
      kind := rfl
      subject := rfl }
  have hsecond : (ofBindings [first, second]).firstMatch .lenient use = some second := rfl
  exact ⟨hless, hsecond, rfl, firstMatch_of_lessDetailed hless hsecond⟩

end BindingIndex
end AssocLint
