import AssocLint.Proofs.Binding.Distinct
import AssocLint.Proofs.Reference.Shape

/-!
# First definitions

A block may define one name several times. Its bindings are what the first definitions of names
give, in the order of these definitions (`bindings_first_definitions`). A first definition takes its
name even where it gives no binding itself, so what comes later under that name never counts.
-/

namespace AssocLint

/-- A path that an associated type can stand for: a language item, or a path that resolves to
something else than a type parameter, `Self`, a local variable or nothing. -/
def Reference.IsConcrete (ref : Reference) : Prop :=
  ref.isLanguageItem = true ∨
    ref.res? ∉ [some .typeParam, some .selfType, some .unresolved, some .localVar]

theorem Reference.all_isConcrete_iff (ref : Reference) :
    ref.res?.all Resolution.isConcrete = true ↔ ref.IsConcrete := by
  cases ref with
  | resolved _ _ res | relative _ _ res =>
      cases res <;> simp [IsConcrete, res?, isLanguageItem, Resolution.isConcrete]
  | languageItem tag =>
      simp [IsConcrete, res?, isLanguageItem]
  | verbatim text =>
      simp [IsConcrete, res?]

namespace AssocType

/-- What an associated type is defined as is a concrete path. -/
def StandsFor (item : AssocType) (target : Reference) : Prop :=
  ∃ span, item.ty = .path target span ∧ target.IsConcrete

/-- A binding is what an associated type defines: it has the name, the path and the span of it. -/
structure Defines (item : AssocType) (binding : Binding) : Prop where
  name_eq : binding.name = item.name
  standsFor : item.StandsFor binding.target
  span_eq : binding.span = item.span

theorem target?_eq_some_iff {item : AssocType} {target : Reference} :
    item.target? = some target ↔ item.StandsFor target := by
  unfold target? StandsFor
  cases item.ty with
  | path ref span =>
      simp only [Option.ite_none_right_eq_some, Option.some.injEq, Ty.path.injEq,
        Reference.all_isConcrete_iff]
      constructor
      · rintro ⟨hconcrete, rfl⟩
        exact ⟨span, ⟨rfl, rfl⟩, hconcrete⟩
      · rintro ⟨_, ⟨rfl, rfl⟩, hconcrete⟩
        exact ⟨hconcrete, rfl⟩
  | _ =>
      simp

theorem defines_iff {item : AssocType} {binding : Binding} :
    item.Defines binding ↔ item.binding? = some binding := by
  rw [binding?_eq_some_iff, target?_eq_some_iff]
  constructor
  · exact fun h => ⟨h.name_eq, h.standsFor, h.span_eq⟩
  · rintro ⟨hname, hstands, hspan⟩
    exact ⟨hname, hstands, hspan⟩

end AssocType

namespace ImplBlock

/-! ## Definitions that make no difference -/

/-- A definition of a name that is defined before it makes no difference. -/
theorem bindingsFrom_append_cons {defined : List String} {before : List AssocType}
    {later : AssocType} (h : later.name ∈ defined ++ before.map (·.name))
    (after : List AssocType) :
    bindingsFrom defined (before ++ later :: after) = bindingsFrom defined (before ++ after) := by
  induction before generalizing defined with
  | nil =>
      have hdefined : later.name ∈ defined := by
        simpa using h
      simp [bindingsFrom, hdefined]
  | cons item before ih =>
      have hlater : later.name ∈ (item.name :: defined) ++ before.map (·.name) := by
        simpa [or_left_comm] using h
      rw [List.cons_append, List.cons_append, bindingsFrom_cons, bindingsFrom_cons, ih hlater]

/-! ## Bindings of a block -/

theorem mem_bindings_iff {block : ImplBlock} {binding : Binding} :
    binding ∈ block.bindings ↔
      ∃ item, block.assocTypes.find? (·.name == binding.name) = some item ∧
        item.Defines binding := by
  simp [bindings, mem_bindingsFrom_iff, AssocType.defines_iff]

theorem exists_mem_bindings_iff {block : ImplBlock} {name : String} :
    (∃ binding ∈ block.bindings, binding.name = name) ↔
      ∃ item target, block.assocTypes.find? (·.name == name) = some item ∧
        item.StandsFor target := by
  constructor
  · rintro ⟨binding, hbinding, rfl⟩
    obtain ⟨item, hfind, hdefines⟩ := mem_bindings_iff.1 hbinding
    exact ⟨item, binding.target, hfind, hdefines.standsFor⟩
  · rintro ⟨item, target, hfind, hstands⟩
    obtain rfl : item.name = name := by simpa using List.find?_some hfind
    exact ⟨⟨item.name, target, item.span⟩, mem_bindings_iff.2 ⟨item, hfind, rfl, hstands, rfl⟩, rfl⟩

def withItems (block : ImplBlock) (items : List ImplItem) : ImplBlock :=
  { block with items }

theorem bindings_append_cons {before after : List ImplItem} {later : AssocType}
    (h : ∃ earlier, .assocType earlier ∈ before ∧ earlier.name = later.name)
    (block : ImplBlock) :
    (block.withItems (before ++ .assocType later :: after)).bindings =
      (block.withItems (before ++ after)).bindings := by
  obtain ⟨earlier, hearlier, hname⟩ := h
  simp only [bindings, assocTypes, withItems, List.filterMap_append]
  refine bindingsFrom_append_cons ?_ _
  exact List.mem_map.2 ⟨earlier, List.mem_filterMap.2 ⟨.assocType earlier, hearlier, rfl⟩, hname⟩

/-- The bindings of a block have different names and stand in the order of their definitions. There
is one of a given name exactly where the first definition of the name is a concrete path, and then
it is what this definition says. A later definition of the name makes no difference. -/
theorem bindings_first_definitions (block : ImplBlock) :
    (block.bindings.map (·.name)).Nodup ∧
    block.bindings.Pairwise (fun first second =>
      block.assocTypes.findIdx (·.name == first.name) <
        block.assocTypes.findIdx (·.name == second.name)) ∧
    (∀ name, (∃ binding ∈ block.bindings, binding.name = name) ↔
      ∃ item target, block.assocTypes.find? (·.name == name) = some item ∧
        item.StandsFor target) ∧
    (∀ binding ∈ block.bindings, ∃ item,
      block.assocTypes.find? (·.name == binding.name) = some item ∧ item.Defines binding) ∧
    ∀ before later after, block.items = before ++ .assocType later :: after →
      (∃ earlier, .assocType earlier ∈ before ∧ earlier.name = later.name) →
        block.bindings = (block.withItems (before ++ after)).bindings := by
  refine ⟨nodup_map_name_bindings block, pairwise_bindingsFrom [] block.assocTypes,
    fun name => exists_mem_bindings_iff, fun binding hbinding => mem_bindings_iff.1 hbinding, ?_⟩
  intro before later after hitems hearlier
  calc
    block.bindings = (block.withItems (before ++ .assocType later :: after)).bindings := by
      rw [← hitems]
      rfl
    _ = (block.withItems (before ++ after)).bindings := bindings_append_cons hearlier block

/-- The first `Item` is `Self` and takes the name, and of two concrete definitions of `Other` the
first one counts. -/
theorem bindings_first_definitions_shadowed :
    let path (name : String) (res : Resolution) : Ty := .path (.resolved none [⟨name, none⟩] res) {}
    let self : AssocType := ⟨"Item", path "Self" .selfType, {}⟩
    let first : AssocType := ⟨"Other", path "State" .type, {}⟩
    let second : AssocType := ⟨"Other", path "Value" .type, {}⟩
    let again : AssocType := ⟨"Item", path "State" .type, {}⟩
    let items : List ImplItem := [.assocType self, .assocType first, .assocType second]
    let block : ImplBlock := ⟨items ++ [.assocType again], none, none, {}⟩
    block.bindings.map (fun binding => (binding.name, binding.target.render)) =
        [("Other", "State")] ∧
      (∃ earlier, .assocType earlier ∈ items ∧ earlier.name = again.name) ∧
      block.bindings = (block.withItems (items ++ [])).bindings := by
  intro path self first second again items block
  have hearlier : ∃ earlier, ImplItem.assocType earlier ∈ items ∧ earlier.name = again.name :=
    ⟨self, List.mem_cons_self, rfl⟩
  obtain ⟨-, -, -, -, hlater⟩ := bindings_first_definitions block
  exact ⟨by decide, hearlier, hlater items again [] rfl hearlier⟩

end ImplBlock
end AssocLint
