import AssocLint.Proofs.Analysis.Findings
import AssocLint.Proofs.Index.LinearScan

/-!
# Two spellings of a variant

The variant `A` of the type `State` can be spelled as one path, `State::A`, or as a member of its
type, which is a path of its own then. As a pattern the one path stands only for the binding through
which the matched value is declared. The other spelling has no type portion, so that the pattern as
such stands for nothing; but its base counts as a type that is written out, and with that the matched
value is not asked for.

So the spelling as a member leads to a finding whenever the spelling as one path does, and also where
the matched value is declared through another binding or through none
(`variantPattern_spellings`).
-/

namespace AssocLint

namespace Reference

/-- A path of names, without generic arguments. -/
def ofNames (names : List String) (res : Resolution) : Reference :=
  .resolved none (names.map (⟨·, none⟩)) res

/-- A variant spelled as one path. -/
def variantPath (names : List String) (variant : String) : Reference :=
  ofNames (names ++ [variant]) .variant

/-- A variant spelled as a member of its type. -/
def variantMember (names : List String) (variant : String) : Reference :=
  .relative (ofNames names .type) ⟨variant, none⟩ .variant

theorem nested_ofNames (names : List String) (res : Resolution) :
    (ofNames names res).nested = [] := by
  have hnone : nestedSegments (names.map (⟨·, none⟩)) = [] := by
    induction names with
    | nil => rfl
    | cons name rest ih => exact ih
  simp [ofNames, nested, withNested, nestedOptional, hnone]

theorem nested_variantMember (names : List String) (variant : String) :
    (variantMember names variant).nested = [ofNames names .type] := by
  have hbase : (ofNames names .type).withNested = [ofNames names .type] :=
    congrArg (ofNames names .type :: ·) (nested_ofNames names .type)
  simp [variantMember, nested, withNested, nestedSegment, hbase]

theorem typePortion?_variantPath {names : List String} (h : names ≠ []) (variant : String) :
    (variantPath names variant).typePortion? = some (ofNames names .type) := by
  simp [variantPath, ofNames, typePortion?, Resolution.isMember, List.dropLast_append_of_ne_nil,
    Nat.one_le_iff_ne_zero, h]

/-- Paths of names have no qualifier that could be inferred. -/
theorem inferredAlike_ofNames (names : List String) (res : Resolution) (ref : Reference) :
    inferredAlike (ofNames names res) ref = true := by
  cases ref <;> rfl

end Reference

/-- Whether a path counts as the target of a binding that can be found. -/
def Binding.isNamedBy (binding : Binding) (policy : Policy) (ref : Reference) : Bool :=
  binding.target.identity?.isSome && Reference.equivalent policy ref binding.target

/-- A path without names counts as no target that has a key. -/
theorem Binding.ne_nil_of_isNamedBy {binding : Binding} {policy : Policy} {names : List String}
    (h : binding.isNamedBy policy (.ofNames names .type) = true) : names ≠ [] := by
  rintro rfl
  rw [isNamedBy, Bool.and_eq_true] at h
  obtain ⟨hkey, hequivalent⟩ := h
  have hsame : binding.target.identity? = (Reference.ofNames [] .type).identity? :=
    (Reference.identity?_eq_iff_inferredAlike hequivalent hkey).2
      (Reference.inferredAlike_ofNames [] .type binding.target)
  rw [hsame] at hkey
  cases hkey

namespace IndexedBinding

/-- An entry accepts the uses of a path that counts as its target, patterns only where the matched
value is declared through it. -/
theorem accepts_iff_isNamedBy {binding : Binding} {policy : Policy} {use : Occurrence}
    {portion : Reference} (h : use.IsReplaceable portion) :
    (ofBinding binding).accepts policy use = true ↔
      binding.isNamedBy policy portion = true ∧ use.IsDeclaredThrough binding := by
  rw [accepts_iff, Binding.isNamedBy, Bool.and_eq_true]
  constructor
  · rintro ⟨hkey, hdeclared, portion', hreplaceable, hequivalent⟩
    have hportion : portion' = portion :=
      Option.some.inj (hreplaceable.typePortion.symm.trans h.typePortion)
    exact ⟨⟨hkey, hportion ▸ hequivalent⟩, hdeclared⟩
  · rintro ⟨⟨hkey, hequivalent⟩, hdeclared⟩
    exact ⟨hkey, hdeclared, portion, h, hequivalent⟩

end IndexedBinding

namespace BindingIndex

/-- What a path of names stands for is found, as no inferred qualifier hides it. -/
theorem isSome_firstMatch_iff {bindings : List Binding} {policy : Policy} {use : Occurrence}
    {names : List String} (h : use.IsReplaceable (.ofNames names .type)) :
    ((ofBindings bindings).firstMatch policy use).isSome ↔
      ∃ binding ∈ bindings, binding.isNamedBy policy (.ofNames names .type) = true ∧
        use.IsDeclaredThrough binding := by
  rw [firstMatch_ofBindings, List.find?_isSome]
  constructor
  · rintro ⟨binding, hmem, hfound⟩
    rw [Bool.and_eq_true] at hfound
    exact ⟨binding, hmem, (IndexedBinding.accepts_iff_isNamedBy h).1 hfound.2⟩
  · rintro ⟨binding, hmem, hnamed⟩
    have haccepts := (IndexedBinding.accepts_iff_isNamedBy h).2 hnamed
    have hvisible : (IndexedBinding.ofBinding binding).isHidden use = false := by
      simp [IndexedBinding.isHidden, h.typePortion, Reference.inferredAlike_ofNames]
    refine ⟨binding, hmem, ?_⟩
    rw [IndexedBinding.sharesKey_ofBinding haccepts, hvisible, haccepts]
    rfl

/-- The findings that a path leads to as a pattern: those on the path itself and on the paths inside
it. -/
def patternFindings (index : BindingIndex) (policy : Policy) (function : String)
    (subject : Option Ty) (ref : Reference) (span : Span) : List Finding :=
  ((Pattern.path ref span).occurrences function subject).filterMap (index.report policy)

theorem filterMap_report_ne_nil_iff {index : BindingIndex} {policy : Policy}
    {uses : List Occurrence} :
    uses.filterMap (index.report policy) ≠ [] ↔
      ∃ use ∈ uses, (index.firstMatch policy use).isSome := by
  rw [ne_eq, List.filterMap_eq_nil_iff]
  simp [report, Option.isSome_iff_ne_none]

theorem patternFindings_variantPath (bindings : List Binding) (policy : Policy) (function : String)
    (subject : Option Ty) (names : List String) (variant : String) (span : Span) :
    (ofBindings bindings).patternFindings policy function subject
        (.variantPath names variant) span ≠ [] ↔
      ∃ binding ∈ bindings, binding.isNamedBy policy (.ofNames names .type) = true ∧
        subject.bind Ty.routedName? = some binding.name := by
  let use : Occurrence := ⟨.variantPath names variant, .pattern, span, subject, function⟩
  have huses : (Pattern.path (.variantPath names variant) span).occurrences function subject =
      [use] :=
    congrArg (use :: ·) (congrArg _ (Reference.nested_ofNames _ .variant))
  have hdeclared (binding : Binding) :
      use.IsDeclaredThrough binding ↔ subject.bind Ty.routedName? = some binding.name :=
    ⟨fun h => h rfl, fun h _ => h⟩
  rw [patternFindings, huses, filterMap_report_ne_nil_iff]
  simp only [List.mem_singleton, exists_eq_left]
  by_cases hnames : names = []
  · -- A variant without a type is not looked up, and no target is a path without names.
    subst hnames
    constructor
    · intro hfound
      cases hfound
    · rintro ⟨binding, -, hnamed, -⟩
      exact absurd rfl (Binding.ne_nil_of_isNamedBy hnamed)
  · have hreplaceable : use.IsReplaceable (.ofNames names .type) :=
      { resolution := .inr (.inl rfl)
        unrouted := rfl
        typePortion := Reference.typePortion?_variantPath hnames variant }
    simp only [isSome_firstMatch_iff hreplaceable, hdeclared]

theorem patternFindings_variantMember (bindings : List Binding) (policy : Policy)
    (function : String) (subject : Option Ty) (names : List String) (variant : String)
    (span : Span) :
    (ofBindings bindings).patternFindings policy function subject
        (.variantMember names variant) span ≠ [] ↔
      ∃ binding ∈ bindings, binding.isNamedBy policy (.ofNames names .type) = true := by
  let use : Occurrence := ⟨.variantMember names variant, .pattern, span, subject, function⟩
  let base : Occurrence := ⟨.ofNames names .type, .ascription, span, none, function⟩
  have huses : (Pattern.path (.variantMember names variant) span).occurrences function subject =
      [use, base] :=
    congrArg (use :: ·) (congrArg _ (Reference.nested_variantMember names variant))
  have hnothing : (ofBindings bindings).firstMatch policy use = none := rfl
  have hreplaceable : base.IsReplaceable (.ofNames names .type) :=
    { resolution := .inl rfl
      unrouted := rfl
      typePortion := rfl }
  have hdeclared (binding : Binding) : base.IsDeclaredThrough binding := nofun
  rw [patternFindings, huses, filterMap_report_ne_nil_iff]
  simp [hnothing, isSome_firstMatch_iff hreplaceable, hdeclared]

/-- As a pattern, a variant spelled as one path leads to a finding if and only if the matched value
is declared through one of the bindings that its type counts as the target of. Spelled as a member of
the type it leads to one if and only if there is such a binding. So the two spellings are judged
alike if and only if there is none or the value is declared through one. -/
theorem variantPattern_spellings (bindings : List Binding) (policy : Policy) (function : String)
    (subject : Option Ty) (names : List String) (variant : String) (span : Span) :
    let index := ofBindings bindings
    let path := index.patternFindings policy function subject (.variantPath names variant) span
    let member := index.patternFindings policy function subject (.variantMember names variant) span
    let named := bindings.filter (·.isNamedBy policy (.ofNames names .type))
    let isDeclared := ∃ binding ∈ named, subject.bind Ty.routedName? = some binding.name
    (path ≠ [] ↔ isDeclared) ∧ (member ≠ [] ↔ named ≠ []) ∧
      ((path ≠ [] ↔ member ≠ []) ↔ named = [] ∨ isDeclared) := by
  intro index path member named isDeclared
  have hpath : path ≠ [] ↔ isDeclared := by
    rw [patternFindings_variantPath]
    simp only [isDeclared, named, List.mem_filter, and_assoc]
  have hmember : member ≠ [] ↔ named ≠ [] := by
    rw [patternFindings_variantMember, ne_eq, List.filter_eq_nil_iff]
    simp only [not_forall, not_not, exists_prop]
  refine ⟨hpath, hmember, ?_⟩
  rw [hpath, hmember]
  constructor
  · intro halike
    exact (em (named = [])).imp_right halike.2
  · rintro (hnone | hdeclared)
    · -- Where the type stands for no binding, the value is declared through none of them.
      constructor
      · rintro ⟨binding, hmem, -⟩
        exact List.ne_nil_of_mem hmem
      · exact fun hsome => absurd hnone hsome
    · have hnamed : named ≠ [] := by
        obtain ⟨binding, hmem, -⟩ := hdeclared
        exact List.ne_nil_of_mem hmem
      exact iff_of_true hdeclared hnamed

/-- On a value declared as `State`, the pattern `State::A` leads to no finding where it is spelled as
one path, and to one where it is spelled as a member of `State`. -/
theorem variantPattern_spellings_concrete_subject :
    let index := ofBindings [⟨"Item", .ofNames ["State"] .type, {}⟩]
    let subject : Ty := .path (.ofNames ["State"] .type) {}
    let findings (ref : Reference) : List Finding :=
      index.patternFindings .lenient "f" (some subject) ref {}
    subject.routedName? = none ∧ (Reference.ofNames ["State"] .type).isSelf = false ∧
      findings (.variantPath ["State"] "A") = [] ∧
      (findings (.variantMember ["State"] "A")).map (·.binding.name) = ["Item"] := by
  intro index subject findings
  exact ⟨rfl, by decide, rfl, rfl⟩

end BindingIndex
end AssocLint
