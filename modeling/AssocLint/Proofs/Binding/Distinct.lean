import AssocLint.Binding
import Mathlib.Data.List.Nodup

/-!
# Bindings and definitions

A definition gives a binding where its name is new, and from then on the name is no longer new. So
the bindings of a block are those that the first definitions of their names give
(`mem_bindingsFrom_iff`), in the order of these definitions (`pairwise_bindingsFrom`), and no two of
them have one name (`nodup_map_name_bindings`).
-/

namespace AssocLint

/-- The binding that an associated type gives by itself. -/
def AssocType.binding? (item : AssocType) : Option Binding :=
  item.target?.map fun target => ⟨item.name, target, item.span⟩

theorem AssocType.binding?_eq_some_iff {item : AssocType} {binding : Binding} :
    item.binding? = some binding ↔
      binding.name = item.name ∧ item.target? = some binding.target ∧ binding.span = item.span := by
  rw [binding?, Option.map_eq_some_iff]
  constructor
  · rintro ⟨target, htarget, rfl⟩
    exact ⟨rfl, htarget, rfl⟩
  · rintro ⟨hname, htarget, hspan⟩
    exact ⟨binding.target, htarget, by rw [← hname, ← hspan]⟩

namespace ImplBlock

/-! ## Definitions one by one -/

/-- What counts is which names are defined, not in which order or how often. -/
theorem bindingsFrom_congr {defined defined' : List String}
    (h : ∀ name, name ∈ defined ↔ name ∈ defined') (items : List AssocType) :
    bindingsFrom defined items = bindingsFrom defined' items := by
  induction items generalizing defined defined' with
  | nil =>
      rfl
  | cons item rest ih =>
      have hname : defined.contains item.name = defined'.contains item.name := by
        simp [List.contains_eq_mem, h item.name]
      have hcons : ∀ name, name ∈ item.name :: defined ↔ name ∈ item.name :: defined' := by
        simp [h]
      simp only [bindingsFrom, hname, ih h, ih hcons]

/-- A definition gives a binding where its name is new, and from then on its name is defined. -/
theorem bindingsFrom_cons (defined : List String) (item : AssocType) (rest : List AssocType) :
    bindingsFrom defined (item :: rest) =
      (if item.name ∈ defined then [] else item.binding?.toList) ++
        bindingsFrom (item.name :: defined) rest := by
  rw [bindingsFrom]
  by_cases h : item.name ∈ defined
  · have hsame : ∀ name, name ∈ defined ↔ name ∈ item.name :: defined := by
      simp [h]
    simp [h, bindingsFrom_congr hsame]
  · cases htarget : item.target? with
    | none => simp [h, AssocType.binding?, htarget]
    | some target => simp [h, AssocType.binding?, htarget]

/-- A name that is new has the binding that its first definition gives, and no other. -/
theorem mem_bindingsFrom_iff {defined : List String} {items : List AssocType} {binding : Binding} :
    binding ∈ bindingsFrom defined items ↔
      binding.name ∉ defined ∧
        ∃ item, items.find? (·.name == binding.name) = some item ∧
          item.binding? = some binding := by
  induction items generalizing defined with
  | nil =>
      simp [bindingsFrom]
  | cons item rest ih =>
      have hmem : binding ∈ bindingsFrom defined (item :: rest) ↔
          item.name ∉ defined ∧ item.binding? = some binding ∨
            binding ∈ bindingsFrom (item.name :: defined) rest := by
        by_cases h : item.name ∈ defined <;> simp [bindingsFrom_cons, h]
      rw [hmem, ih, List.find?_cons]
      by_cases hname : item.name = binding.name
      · -- The name is defined here for the first time, so nothing behind it matters.
        simp [hname]
      · have hother : item.binding? ≠ some binding :=
          fun h => hname (AssocType.binding?_eq_some_iff.1 h).1.symm
        have hbeq : (item.name == binding.name) = false := beq_false_of_ne hname
        simp [hother, hbeq, Ne.symm hname]

/-- Bindings stand in the order of the first definitions of their names. -/
theorem pairwise_bindingsFrom (defined : List String) (items : List AssocType) :
    (bindingsFrom defined items).Pairwise fun first second =>
      items.findIdx (·.name == first.name) < items.findIdx (·.name == second.name) := by
  induction items generalizing defined with
  | nil =>
      exact .nil
  | cons item rest ih =>
      -- The bindings behind a definition have other names than it.
      have hbehind {binding : Binding} (h : binding ∈ bindingsFrom (item.name :: defined) rest) :
          (item :: rest).findIdx (·.name == binding.name) =
            rest.findIdx (·.name == binding.name) + 1 := by
        have hname : item.name ≠ binding.name := by
          have hnew := (mem_bindingsFrom_iff.1 h).1
          exact fun e => hnew (e ▸ List.mem_cons_self)
        rw [List.findIdx_cons, beq_false_of_ne hname]
        rfl
      rw [bindingsFrom_cons, List.pairwise_append]
      refine ⟨?_, ?_, ?_⟩
      · split
        · exact .nil
        · cases item.binding? with
          | none => exact .nil
          | some binding => exact List.pairwise_singleton _ binding
      · refine (ih (item.name :: defined)).imp_of_mem fun hfirst hsecond hless => ?_
        rw [hbehind hfirst, hbehind hsecond]
        exact Nat.succ_lt_succ hless
      · intro first hfirst second hsecond
        have hname : first.name = item.name := by
          split at hfirst
          · cases hfirst
          · exact (AssocType.binding?_eq_some_iff.1 (Option.mem_toList.1 hfirst)).1
        rw [hbehind hsecond, List.findIdx_cons, hname, BEq.rfl]
        exact Nat.succ_pos _

/-! ## Bindings of a block -/

theorem nodup_map_name_bindings (block : ImplBlock) : (block.bindings.map (·.name)).Nodup := by
  refine List.pairwise_map.2 ((pairwise_bindingsFrom [] block.assocTypes).imp ?_)
  intro first second hless hname
  rw [hname] at hless
  exact Nat.lt_irrefl _ hless

theorem eq_of_name_eq {block : ImplBlock} {binding binding' : Binding}
    (h : binding ∈ block.bindings) (h' : binding' ∈ block.bindings)
    (hname : binding.name = binding'.name) : binding = binding' :=
  List.inj_on_of_nodup_map (nodup_map_name_bindings block) h h' hname

end ImplBlock
end AssocLint
