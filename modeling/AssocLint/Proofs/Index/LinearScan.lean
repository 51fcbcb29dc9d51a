import AssocLint.Proofs.Index.Acceptance
import AssocLint.Proofs.Reference.InferredOwner

/-!
# Looking up and scanning

An index is there to spare the scan of all its entries. It stands in for the scan as long as
entries that accept an occurrence also share its key. The lenient policy breaks that in one place:
it lets an inferred qualifier or base agree with any other, while the key takes `_` for a name.
An entry is *hidden* from an occurrence when the two have their inferred owners in different places.

`firstMatch_lenient` says what the look-up gives for all indexes and occurrences, and exactly when
that is what the scan gives; `firstMatch_lenient_inferred_qualifier` is a place where it is not.
-/

namespace AssocLint

namespace IndexedBinding

/-- Whether an inferred qualifier or base stands between an occurrence and an entry. -/
def isHidden (entry : IndexedBinding) (use : Occurrence) : Bool :=
  use.ref.typePortion?.any fun portion => !portion.inferredAlike entry.binding.target

theorem isHidden_congr {entry entry' : IndexedBinding} (h : entry.binding = entry'.binding)
    (use : Occurrence) : entry.isHidden use = entry'.isHidden use := by
  unfold isHidden
  rw [h]

/-- The key of an occurrence leads to an entry that accepts it unless the entry is hidden. -/
theorem sharesKey_ofBinding {policy : Policy} {binding : Binding} {use : Occurrence}
    (h : (ofBinding binding).accepts policy use = true) :
    (ofBinding binding).sharesKey use.ref = !(ofBinding binding).isHidden use := by
  rcases (accepts_iff policy binding use).1 h with ⟨hkey, -, portion, hreplaceable, hequivalent⟩
  have hportion := hreplaceable.typePortion
  rw [Bool.eq_iff_iff]
  calc
    (ofBinding binding).sharesKey use.ref = true
        ↔ binding.target.identity? = portion.identity? := by
          simp [sharesKey, hkey, hportion]
    _ ↔ portion.inferredAlike binding.target = true :=
          Reference.identity?_eq_iff_inferredAlike hequivalent hkey
    _ ↔ (!(ofBinding binding).isHidden use) = true := by
          simp [isHidden, hportion]

end IndexedBinding

namespace BindingIndex

/-- The first registered entry that accepts an occurrence. -/
def scan? (index : BindingIndex) (policy : Policy) (use : Occurrence) : Option IndexedBinding :=
  index.entries.find? (·.accepts policy use)

/-- The look-up finds the first entry that accepts the occurrence and is not hidden from it. -/
theorem firstMatch_eq_find?_not_isHidden (bindings : List Binding) (policy : Policy)
    (use : Occurrence) :
    (ofBindings bindings).firstMatch policy use =
      ((ofBindings bindings).entries.find? fun entry =>
        entry.accepts policy use && !entry.isHidden use).map (·.binding) := by
  rw [firstMatch_ofBindings, find?_entries_ofBindings]
  congr 1
  funext binding
  cases haccepts : (IndexedBinding.ofBinding binding).accepts policy use with
  | false =>
      simp
  | true =>
      simp [IndexedBinding.sharesKey_ofBinding haccepts]

theorem find?_not_isHidden_of_scan? {index : BindingIndex} {policy : Policy} {use : Occurrence}
    (h : ∀ entry, index.scan? policy use = some entry → entry.isHidden use = false) :
    (index.entries.find? fun entry => entry.accepts policy use && !entry.isHidden use) =
      index.scan? policy use := by
  cases hscan : index.scan? policy use with
  | none =>
      have hnone := List.find?_eq_none.1 hscan
      apply List.find?_eq_none.2
      intro entry hentry haccepts
      exact hnone entry hentry (Bool.and_eq_true .. ▸ haccepts).1
  | some entry =>
      -- The entries before the one at which the scan stops do not accept the occurrence at all.
      obtain ⟨haccepts, before, after, hentries, hbefore⟩ := List.find?_eq_some_iff_append.1 hscan
      apply List.find?_eq_some_iff_append.2
      refine ⟨by simp [haccepts, h entry hscan], before, after, hentries, ?_⟩
      intro earlier hearlier
      have hrejects := hbefore earlier hearlier
      simp_all

/-- The look-up and the scan agree exactly where the scan stops at an entry that is not hidden. -/
theorem firstMatch_eq_scan?_iff (bindings : List Binding) (policy : Policy) (use : Occurrence) :
    (ofBindings bindings).firstMatch policy use =
        ((ofBindings bindings).scan? policy use).map (·.binding) ↔
      ∀ entry, (ofBindings bindings).scan? policy use = some entry →
        entry.isHidden use = false := by
  rw [firstMatch_eq_find?_not_isHidden]
  constructor
  · intro h entry hscan
    rw [hscan] at h
    obtain ⟨entry', hfind, hbinding⟩ := Option.map_eq_some_iff.1 h
    have hvisible := List.find?_some hfind
    rw [Bool.and_eq_true, Bool.not_eq_true'] at hvisible
    rw [← IndexedBinding.isHidden_congr hbinding]
    exact hvisible.2
  · intro h
    rw [find?_not_isHidden_of_scan? h]

/-- Under the lenient policy the look-up passes over hidden entries. It gives what the scan gives
exactly where the scan does not stop at one of them. -/
theorem firstMatch_lenient (bindings : List Binding) (use : Occurrence) :
    (ofBindings bindings).firstMatch .lenient use =
        ((ofBindings bindings).entries.find? fun entry =>
          entry.accepts .lenient use && !entry.isHidden use).map (·.binding) ∧
      ((ofBindings bindings).firstMatch .lenient use =
          ((ofBindings bindings).scan? .lenient use).map (·.binding) ↔
        ∀ entry, (ofBindings bindings).scan? .lenient use = some entry →
          entry.isHidden use = false) :=
  ⟨firstMatch_eq_find?_not_isHidden bindings .lenient use,
    firstMatch_eq_scan?_iff bindings .lenient use⟩

/-- The path `<_ as T>::X` counts as the same type as the target of `type N = <A as T>::X`, and is
not found to stand for it. -/
theorem firstMatch_lenient_inferred_qualifier :
    let item (qualifier : Reference) : Reference :=
      .resolved (some qualifier) [⟨"T", none⟩, ⟨"X", none⟩] .type
    let index := ofBindings [⟨"N", item (.resolved none [⟨"A", none⟩] .type), {}⟩]
    let use : Occurrence := ⟨item (.verbatim "_"), .expression, {}, none, "f"⟩
    (index.scan? .lenient use).map (·.binding.name) = some "N" ∧
      (index.firstMatch .lenient use).isNone := by
  decide

end BindingIndex
end AssocLint
