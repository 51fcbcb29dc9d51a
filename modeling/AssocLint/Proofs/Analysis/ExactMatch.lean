import AssocLint.Proofs.Analysis.Findings
import AssocLint.Proofs.Binding.Distinct
import AssocLint.Proofs.Index.Acceptance
import AssocLint.Proofs.Reference.Sameness

/-!
# Exact matches

A path spells out a target when it is written like the target itself, or like the target with one
more segment for a member of it (`Reference.SpellsOut`). Under either policy an occurrence that
spells out the target of a binding is reported, unless it is written through an associated type
already or is a pattern on a value of another type (`exact_match_reported`). It may be reported
with an earlier binding, but not where it is a pattern: its subject then singles the binding out.
-/

namespace AssocLint

/-- A reference that is written like a target, or like a target with one segment more that names a
member of it. -/
inductive Reference.SpellsOut (target : Reference) : Reference → Prop where
  | whole {ref : Reference} (res : ref.res? = some .type) (same : ref.same target = true) :
      SpellsOut target ref
  | resolvedMember {qualifier : Option Reference} {segments : List (Segment Reference)}
      {last : Segment Reference} {res res' : Resolution}
      (member : res = .variant ∨ res = .assocItem)
      (same : (Reference.resolved qualifier segments res').same target = true) :
      SpellsOut target (.resolved qualifier (segments ++ [last]) res)
  | relativeMember {base : Reference} {last : Segment Reference} {res : Resolution}
      (member : res = .variant ∨ res = .assocItem) (relative : target.isRelative = true)
      (same : base.same target = true) :
      SpellsOut target (.relative base last res)

namespace Reference

theorem isMember_iff (res : Resolution) :
    res.isMember = true ↔ res = .variant ∨ res = .assocItem := by
  cases res <;> simp [Resolution.isMember]

theorem isRelative_eq_of_same {ref ref' : Reference} (h : ref.same ref' = true) :
    ref.isRelative = ref'.isRelative := by
  cases ref <;> cases ref' <;> simp_all [same, isRelative]

theorem typePortion?_of_res?_eq_type {ref : Reference} (h : ref.res? = some .type) :
    ref.typePortion? = some ref := by
  cases ref <;> simp_all [res?, typePortion?]

/-- A path of segments without segments has no identity, so a target that has one is not empty. -/
theorem ne_nil_of_isSome_identity? {qualifier : Option Reference}
    {segments : List (Segment Reference)} {res : Resolution}
    (h : (resolved qualifier segments res).identity?.isSome) : segments ≠ [] := by
  rintro rfl
  simp [identity?] at h

theorem SpellsOut.res? {target ref : Reference} (h : target.SpellsOut ref) :
    ref.res? = some .type ∨ ref.res? = some .variant ∨ ref.res? = some .assocItem := by
  cases h with
  | whole res same => exact Or.inl res
  | resolvedMember member same => simpa [Reference.res?] using Or.inr member
  | relativeMember member relative same => simpa [Reference.res?] using Or.inr member

/-- The type portion of a path that spells out a target is written like the target. -/
theorem SpellsOut.exists_typePortion? {target ref : Reference} (h : target.SpellsOut ref)
    (hkey : target.identity?.isSome) :
    ∃ portion, ref.typePortion? = some portion ∧ portion.same target = true := by
  cases h with
  | whole res same =>
      exact ⟨ref, typePortion?_of_res?_eq_type res, same⟩
  | @resolvedMember qualifier segments last res res' member same =>
      have hkey' : (resolved qualifier segments res').identity?.isSome := by
        rw [identity?_eq_of_same same]
        exact hkey
      have hne : segments ≠ [] := ne_nil_of_isSome_identity? hkey'
      refine ⟨resolved qualifier segments .type, ?_, ?_⟩
      · have hmember := (isMember_iff res).2 member
        have htype : (res == .type) = false := by
          rcases member with rfl | rfl <;> rfl
        simp [typePortion?, htype, hmember, hne]
      · -- Sameness does not look at resolutions.
        cases target <;> simp_all [Reference.same]
  | @relativeMember base last res member relative same =>
      refine ⟨base, ?_, same⟩
      have hmember := (isMember_iff res).2 member
      have htype : (res == .type) = false := by
        rcases member with rfl | rfl <;> rfl
      have hrelative : base.isRelative = true := (isRelative_eq_of_same same).trans relative
      simp [typePortion?, htype, hmember, hrelative]

end Reference

namespace IndexedBinding

/-- The entry of a binding is found for an occurrence that spells out its target, and accepts it. -/
theorem sharesKey_and_accepts_of_spellsOut (policy : Policy) {binding : Binding} {use : Occurrence}
    (hkey : binding.target.identity?.isSome) (hunrouted : use.ref.routedName? = none)
    (hspells : binding.target.SpellsOut use.ref) (hdeclared : use.IsDeclaredThrough binding) :
    ((ofBinding binding).sharesKey use.ref && (ofBinding binding).accepts policy use) = true := by
  rcases hspells.exists_typePortion? hkey with ⟨portion, hportion, hsame⟩
  -- Being written alike is more than sharing a key, and more than agreeing under a policy.
  have hidentity : portion.identity? = binding.target.identity? :=
    Reference.identity?_eq_of_same hsame
  have hshares : (ofBinding binding).sharesKey use.ref = true := by
    simp [sharesKey, hportion, hkey, hidentity]
  have haccepts : (ofBinding binding).accepts policy use = true := by
    have hpath := Reference.isPath_of_typePortion? hportion
    refine (accepts_iff policy binding use).2 ⟨hkey, hdeclared, portion, ?_, ?_⟩
    · exact ⟨hspells.res?, hunrouted, hportion⟩
    · exact Reference.equivalent_of_same policy hpath hsame
  rw [hshares, haccepts]
  rfl

end IndexedBinding

theorem BindingIndex.isDeclaredThrough_of_firstMatch {bindings : List Binding} {policy : Policy}
    {use : Occurrence} {binding : Binding}
    (h : (ofBindings bindings).firstMatch policy use = some binding) :
    use.IsDeclaredThrough binding := by
  rw [firstMatch_ofBindings] at h
  have hfound := List.find?_some h
  rw [Bool.and_eq_true, IndexedBinding.accepts_iff] at hfound
  exact hfound.2.2.1

/-- Under the lenient policy an occurrence that spells out the target of a binding is reported,
with that binding or an earlier one, and a pattern always with that binding. -/
theorem ImplBlock.exact_match_reported (block : ImplBlock) (binding : Binding) (use : Occurrence)
    (hbinding : binding ∈ block.bindings) (hkey : binding.target.identity?.isSome)
    (huse : use ∈ block.occurrences) (hunrouted : use.ref.routedName? = none)
    (hspells : binding.target.SpellsOut use.ref) (hdeclared : use.IsDeclaredThrough binding) :
    ∃ before reported after, block.bindings = before ++ reported :: after ∧
      binding ∈ reported :: after ∧ ⟨use, reported⟩ ∈ (block.analyze .lenient).findings ∧
      (use.kind = .pattern → reported = binding) := by
  have hfits := IndexedBinding.sharesKey_and_accepts_of_spellsOut .lenient hkey hunrouted hspells
    hdeclared
  cases hfirst : block.index.firstMatch .lenient use with
  | none =>
      have hnone : block.bindings.find? _ = none :=
        (BindingIndex.firstMatch_ofBindings block.bindings .lenient use).symm.trans hfirst
      exact absurd hfits (List.find?_eq_none.1 hnone binding hbinding)
  | some reported =>
      have hsome : block.bindings.find? _ = some reported :=
        (BindingIndex.firstMatch_ofBindings block.bindings .lenient use).symm.trans hfirst
      rcases List.find?_eq_some_iff_append.1 hsome with ⟨-, before, after, hsplit, hbefore⟩
      refine ⟨before, reported, after, hsplit, ?_, mem_findings_analyze.2 ⟨huse, hfirst⟩, ?_⟩
      · -- The binding itself would do, so it does not stand before the one that was reported.
        rw [hsplit, List.mem_append] at hbinding
        rcases hbinding with hearlier | hlater
        · have hrejects := hbefore binding hearlier
          rw [hfits] at hrejects
          cases hrejects
        · exact hlater
      · -- A pattern goes by the one name through which its subject is declared.
        intro hpattern
        have hreported : reported ∈ block.bindings := by
          rw [hsplit]
          exact List.mem_append_right _ List.mem_cons_self
        have hname : some reported.name = some binding.name :=
          (BindingIndex.isDeclaredThrough_of_firstMatch hfirst hpattern).symm.trans
            (hdeclared hpattern)
        exact eq_of_name_eq hreported hbinding (Option.some.inj hname)

/-- The pattern `State<_>::A` on a value of the type `&Self::Source`, in a block that defines
`type Source = State<_>`. -/
theorem ImplBlock.exact_match_reported_variant_pattern :
    let segment : Segment Reference := ⟨"State", some [.verbatim "_"]⟩
    let binding : Binding := ⟨"Source", .resolved none [segment] .type, {}⟩
    let declared : Ty := .ref (.path (.relative .selfPath ⟨"Source", none⟩ .type) {}) false {}
    let written : Reference := .resolved none ([segment] ++ [⟨"A", none⟩]) .variant
    let use : Occurrence := ⟨written, .pattern, {}, some declared, "run"⟩
    let block : ImplBlock :=
      { items := [.assocType ⟨"Source", .path binding.target {}, {}⟩,
          .method ⟨"run", [⟨.path written {}, declared, {}⟩], ⟨[], none, {}⟩, none, {}⟩]
        traitRef := none, selfTy := none, span := {} }
    binding ∈ block.bindings ∧ binding.target.identity?.isSome ∧ use ∈ block.occurrences ∧
      use.ref.routedName? = none ∧ binding.target.SpellsOut use.ref ∧
      use.IsDeclaredThrough binding ∧
      ∃ before reported after, block.bindings = before ++ reported :: after ∧
        binding ∈ reported :: after ∧ ⟨use, reported⟩ ∈ (block.analyze .lenient).findings ∧
        (use.kind = .pattern → reported = binding) := by
  intro segment binding declared written use block
  have hbinding : binding ∈ block.bindings := List.mem_cons_self
  have huse : use ∈ block.occurrences := List.mem_cons_self
  have hspells : binding.target.SpellsOut use.ref :=
    @Reference.SpellsOut.resolvedMember _ none [segment] ⟨"A", none⟩ .variant .type (Or.inl rfl)
      (by decide)
  have hdeclared : use.IsDeclaredThrough binding := fun _ => rfl
  exact ⟨hbinding, rfl, huse, rfl, hspells, hdeclared,
    block.exact_match_reported binding use hbinding rfl huse rfl hspells hdeclared⟩

end AssocLint
