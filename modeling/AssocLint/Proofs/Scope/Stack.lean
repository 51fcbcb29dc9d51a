import AssocLint.Scope

/-!
# Stacks of scopes

All that a stack of scopes tells of a name is its latest declaration in sight: the scopes one after
another, innermost first, are one list of declarations, latest first (`lookup_eq`). Declaring names
puts them in front of this list, as long as there is a scope to put them in (`declareAll_cons`).
-/

namespace AssocLint
namespace ScopeStack

theorem declareAll_cons (names : List (String × Option Ty)) (scope : Scope) (outer : ScopeStack) :
    declareAll (scope :: outer) names = (names.reverse ++ scope) :: outer := by
  induction names generalizing scope with
  | nil =>
      rfl
  | cons entry rest ih =>
      have hrest := ih (entry :: scope)
      rw [List.reverse_cons, List.append_assoc]
      exact hrest

theorem findSome?_lookup (name : String) (stack : ScopeStack) :
    stack.findSome? (List.lookup name) = stack.flatten.lookup name := by
  induction stack with
  | nil =>
      rfl
  | cons scope outer ih =>
      rw [List.findSome?_cons, List.flatten_cons, List.lookup_append, ih]
      cases scope.lookup name <;> rfl

/-- The type of a name is that of its latest declaration, in the innermost scope or one around. -/
theorem lookup_eq (stack : ScopeStack) (name : String) :
    stack.lookup name = (stack.flatten.lookup name).join := by
  rw [lookup, findSome?_lookup]

theorem lookup_eq_some_iff {stack : ScopeStack} {name : String} {ty : Ty} :
    stack.lookup name = some ty ↔
      ∃ before after, stack.flatten = before ++ (name, some ty) :: after ∧
        ∀ entry ∈ before, entry.1 ≠ name := by
  rw [lookup_eq, Option.join_eq_some_iff, List.lookup_eq_some_iff]
  simp only [bne_iff_ne, ne_comm]

/-- Of several declarations of a name the last one counts. -/
theorem lookup_declareAll (names : List (String × Option Ty)) (scope : Scope) (outer : ScopeStack)
    (name : String) :
    (declareAll (scope :: outer) names).lookup name =
      (names.reverse.lookup name).getD (lookup (scope :: outer) name) := by
  rw [declareAll_cons, lookup_eq, lookup_eq, List.flatten_cons, List.flatten_cons,
    List.append_assoc, List.lookup_append]
  cases names.reverse.lookup name <;> rfl

theorem exists_mem_of_lookup {stack : ScopeStack} {name : String} {ty : Ty}
    (h : stack.lookup name = some ty) : ∃ scope ∈ stack, (name, some ty) ∈ scope := by
  rcases lookup_eq_some_iff.1 h with ⟨before, after, hflatten, -⟩
  have hmem : (name, some ty) ∈ stack.flatten := by
    rw [hflatten]
    exact List.mem_append_right _ List.mem_cons_self
  exact List.mem_flatten.1 hmem

end ScopeStack
end AssocLint
