import AssocLint.Proofs.Binding.Distinct
import AssocLint.Proofs.Index.Acceptance
import Mathlib.Data.List.Find

/-!
# Patterns and the order of bindings

Where several bindings have one target, an expression stands for the one that is registered first.
A pattern knows better: the value that it is matched with is declared through one binding, and the
pattern stands for that one or for none. As names are distinct, the order in which bindings are
registered makes no difference to patterns (`firstMatch_pattern_of_perm`).
-/

namespace AssocLint

/-- An entry that accepts a pattern is the one through which the matched value is declared. -/
theorem IndexedBinding.subjectName?_of_accepts {policy : Policy} {binding : Binding}
    {use : Occurrence} (hpattern : use.kind = .pattern)
    (h : (ofBinding binding).accepts policy use = true) :
    use.subjectName? = some binding.name := by
  obtain ⟨-, hdeclared, -⟩ := (accepts_iff policy binding use).1 h
  exact hdeclared hpattern

namespace BindingIndex

theorem subjectName?_of_firstMatch {bindings : List Binding} {policy : Policy} {use : Occurrence}
    {binding : Binding} (hpattern : use.kind = .pattern)
    (h : (ofBindings bindings).firstMatch policy use = some binding) :
    use.subjectName? = some binding.name := by
  rw [firstMatch_ofBindings] at h
  have hfound := List.find?_some h
  rw [Bool.and_eq_true] at hfound
  exact IndexedBinding.subjectName?_of_accepts hpattern hfound.2

/-- Bindings with distinct names may be registered in any order: a pattern stands for the same
binding, and that is the one whose name the type of the matched value is declared through. -/
theorem firstMatch_pattern_of_perm {bindings bindings' : List Binding}
    (hdistinct : (bindings.map (·.name)).Nodup) (hperm : bindings.Perm bindings') (policy : Policy)
    {use : Occurrence} (hpattern : use.kind = .pattern) :
    (ofBindings bindings).firstMatch policy use = (ofBindings bindings').firstMatch policy use ∧
      ∀ binding, (ofBindings bindings).firstMatch policy use = some binding →
        use.subjectName? = some binding.name := by
  constructor
  · rw [firstMatch_ofBindings, firstMatch_ofBindings]
    apply List.find?_eq_find?_of_perm hperm
    -- Whatever a pattern stands for has the name of the matched value, and no two names are equal.
    rintro binding ⟨hmem, haccepts⟩ binding' ⟨hmem', haccepts'⟩
    rw [Bool.and_eq_true] at haccepts haccepts'
    have hname := IndexedBinding.subjectName?_of_accepts hpattern haccepts.2
    have hname' := IndexedBinding.subjectName?_of_accepts hpattern haccepts'.2
    have hnames : binding.name = binding'.name := Option.some.inj (hname.symm.trans hname')
    exact List.inj_on_of_nodup_map hdistinct hmem hmem' hnames
  · intro binding hfirst
    exact subjectName?_of_firstMatch hpattern hfirst

/-- A block that defines `First` and `Second` as one type. The pattern `State::A` on a value declared
as `&Self::Second` stands for the second binding, also when that is registered first; an expression
stands for whichever comes first. -/
theorem firstMatch_pattern_of_perm_one_target :
    let state : Reference := .resolved none [⟨"State", none⟩] .type
    let block : ImplBlock :=
      ⟨[.assocType ⟨"First", .path state {}, {}⟩, .assocType ⟨"Second", .path state {}, {}⟩],
        none, none, {}⟩
    let subject : Ty := .ref (.path (.relative .selfPath ⟨"Second", none⟩ .type) {}) false {}
    let variant : Reference := .resolved none [⟨"State", none⟩, ⟨"A", none⟩] .variant
    let use : Occurrence := ⟨variant, .pattern, {}, some subject, "f"⟩
    let index := ofBindings block.bindings
    let index' := ofBindings block.bindings.reverse
    index.firstMatch .lenient use = some ⟨"Second", state, {}⟩ ∧
      (index.firstMatch .lenient use = index'.firstMatch .lenient use ∧
        ∀ binding, index.firstMatch .lenient use = some binding →
          use.subjectName? = some binding.name) ∧
      (index.firstMatch .lenient { use with kind := .expression }).map (·.name) = some "First" ∧
      (index'.firstMatch .lenient { use with kind := .expression }).map (·.name) =
        some "Second" := by
  intro state block subject variant use index index'
  refine ⟨rfl, ?_, rfl, rfl⟩
  exact firstMatch_pattern_of_perm (ImplBlock.nodup_map_name_bindings block)
    block.bindings.reverse_perm.symm .lenient rfl

end BindingIndex
end AssocLint
