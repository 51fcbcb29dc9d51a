import AssocLint.Matching
import Mathlib.Data.List.Induction

/-!
# Candidates of an index

Grouping bindings by identity loses none of them and keeps their order: the candidates for a path
are the entries with its key, as a scan of the registered entries would list them
(`candidates_ofBindings`). Hence the first match is the first binding, in the order of registration,
whose entry shares the key of the path and accepts the occurrence (`firstMatch_ofBindings`).
-/

namespace AssocLint

/-- A search that asks for less stops no later. -/
theorem exists_find?_of_imp {α : Type} {p q : α → Bool} (hpq : ∀ a, p a = true → q a = true)
    {l : List α} {a : α} (h : l.find? p = some a) :
    ∃ before b after, l.find? q = some b ∧ l = before ++ b :: after ∧ a ∈ b :: after ∧
      a ∉ before := by
  have hq : q a = true := hpq a (List.find?_some h)
  cases hfind : l.find? q with
  | none =>
      have hnone := List.find?_eq_none.1 hfind a (List.mem_of_find?_eq_some h)
      exact absurd hq hnone
  | some b =>
      obtain ⟨-, before, after, hl, hbefore⟩ := List.find?_eq_some_iff_append.1 hfind
      -- Before the place where the search stops nothing is good enough.
      have hnew : a ∉ before := by
        intro hearlier
        have hrejects := hbefore a hearlier
        simp [hq] at hrejects
      have hmem : a ∈ before ++ b :: after := hl ▸ List.mem_of_find?_eq_some h
      exact ⟨before, b, after, rfl, hl, (List.mem_append.1 hmem).resolve_left hnew, hnew⟩

namespace IndexedBinding

/-- Whether an entry stands in the group that a path is looked up in. -/
def sharesKey (entry : IndexedBinding) (ref : Reference) : Bool :=
  entry.isSupported && entry.key == ref.typePortion?.bind Reference.identity?

@[simp] theorem binding_ofBinding (binding : Binding) : (ofBinding binding).binding = binding :=
  rfl

@[simp] theorem key_ofBinding (binding : Binding) :
    (ofBinding binding).key = binding.target.identity? :=
  rfl

@[simp] theorem isSupported_ofBinding (binding : Binding) :
    (ofBinding binding).isSupported = binding.target.identity?.isSome :=
  rfl

end IndexedBinding

namespace BindingIndex

/-! ## Groups -/

theorem lookup_addToGroups (key key' : Identity) (entry : IndexedBinding)
    (groups : List (Identity × List IndexedBinding)) :
    ((addToGroups key entry groups).lookup key').getD [] =
      (groups.lookup key').getD [] ++ if key' = key then [entry] else [] := by
  induction groups with
  | nil =>
      by_cases h : key' = key
      · simp [addToGroups, h]
      · have hb : (key' == key) = false := by simpa using h
        simp [addToGroups, List.lookup_cons, h, hb]
  | cons head rest ih =>
      rcases head with ⟨first, members⟩
      by_cases h : first = key
      · subst h
        by_cases h' : key' = first
        · simp [addToGroups, h']
        · have hb : (key' == first) = false := by simpa using h'
          simp [addToGroups, List.lookup_cons, h', hb]
      · simp only [addToGroups, h, if_false, List.lookup_cons]
        by_cases h' : key' = first
        · have hne : ¬ key' = key := fun e => h (h'.symm.trans e)
          simp [h', h]
        · have hb : (key' == first) = false := by simpa using h'
          simp [hb, ih]

theorem group_concat_some {key : Identity} {entry : IndexedBinding} (h : entry.key = some key)
    (entries : List IndexedBinding) :
    group (entries ++ [entry]) = addToGroups key entry (group entries) := by
  simp [group, List.foldl_append, h]

theorem group_concat_none {entry : IndexedBinding} (h : entry.key = none)
    (entries : List IndexedBinding) : group (entries ++ [entry]) = group entries := by
  simp [group, List.foldl_append, h]

/-- The group of a key holds the entries with that key, in the order of their registration. -/
theorem lookup_group (key : Identity) (entries : List IndexedBinding) :
    ((group entries).lookup key).getD [] = entries.filter fun entry => entry.key == some key := by
  -- Entries are registered one after another, so the last one is the newest.
  induction entries using List.reverseRecOn with
  | nil =>
      rfl
  | append_singleton entries entry ih =>
      cases hkey : entry.key with
      | none =>
          rw [group_concat_none hkey, ih]
          simp [hkey]
      | some key' =>
          rw [group_concat_some hkey, lookup_addToGroups, ih]
          by_cases h : key = key'
          · simp [hkey, h]
          · have h' : ¬ key' = key := fun e => h e.symm
            simp [hkey, h, h']

/-! ## Look-up -/

/-- Looking a path up lists the entries that share its key, in the order of their registration. -/
theorem candidates_ofBindings (bindings : List Binding) (ref : Reference) :
    (ofBindings bindings).candidates ref =
      (ofBindings bindings).entries.filter (·.sharesKey ref) := by
  have hgroups : (ofBindings bindings).groups = group (ofBindings bindings).entries := rfl
  unfold candidates
  cases hkey : ref.typePortion?.bind Reference.identity? with
  | none =>
      -- Entries without a key are in no group, so they share none with a path without one.
      symm
      apply List.filter_eq_nil_iff.2
      intro entry _ hshares
      simp only [IndexedBinding.sharesKey, IndexedBinding.isSupported, hkey, Bool.and_eq_true,
        beq_iff_eq] at hshares
      simp [hshares.2] at hshares
  | some key =>
      simp only [hgroups, lookup_group]
      apply List.filter_congr
      intro entry _
      simp only [IndexedBinding.sharesKey, IndexedBinding.isSupported, hkey]
      cases entry.key <;> simp

theorem find?_entries_ofBindings (bindings : List Binding) (p : IndexedBinding → Bool) :
    ((ofBindings bindings).entries.find? p).map (·.binding) =
      bindings.find? fun binding => p (.ofBinding binding) := by
  have hcomp : p ∘ IndexedBinding.ofBinding = fun binding => p (.ofBinding binding) := rfl
  simp only [ofBindings, List.find?_map, hcomp, Option.map_map]
  cases bindings.find? fun binding => p (.ofBinding binding) <;> simp

theorem firstMatch_ofBindings (bindings : List Binding) (policy : Policy) (use : Occurrence) :
    (ofBindings bindings).firstMatch policy use =
      bindings.find? fun binding =>
        (IndexedBinding.ofBinding binding).sharesKey use.ref &&
          (IndexedBinding.ofBinding binding).accepts policy use := by
  unfold firstMatch
  rw [candidates_ofBindings, List.find?_filter]
  simp only [Bool.decide_and, Bool.decide_eq_true, find?_entries_ofBindings]

end BindingIndex
end AssocLint
