import AssocLint.Report
import Mathlib.Algebra.Ring.Nat
import Mathlib.Data.List.Nodup
import Mathlib.Data.List.Perm.Basic

/-!
# The lists of a report

A report holds its diagnostics twice: all in one list, and once more in the lists of its checkers.
`Report.Accounts` says how the two agree, up to diagnostics that no list of a checker has any more.
Adding a checker that is new to the report and merging two reports lose nothing; a checker that is
added again loses what it had.
-/

namespace AssocLint

/-! ## Tables of lists -/

namespace Table

variable {κ α : Type} [DecidableEq κ]

/-- An adjustment puts a new list in the place of an old one. -/
theorem perm_flatten_adjustEntries (key : κ) (change : Option (List α) → List α)
    (entries : List (κ × List α)) :
    (((adjustEntries key change entries).map (·.2)).flatten ++ (entries.lookup key).getD []).Perm
      ((entries.map (·.2)).flatten ++ change (entries.lookup key)) := by
  induction entries with
  | nil =>
      exact .of_eq (by simp [adjustEntries])
  | cons entry rest ih =>
      obtain ⟨first, old⟩ := entry
      by_cases h : first = key
      · subst h
        simp only [adjustEntries, if_true, List.map_cons, List.flatten_cons, List.lookup_cons,
          beq_self_eq_true, Option.getD_some]
        rw [List.append_assoc old]
        exact List.perm_append_comm.trans (List.perm_append_comm.append_left old)
      · have hkey : (key == first) = false := by simpa using fun e : key = first => h e.symm
        simp only [adjustEntries, h, if_false, List.map_cons, List.flatten_cons, List.lookup_cons,
          hkey, List.append_assoc]
        exact ih.append_left old

theorem perm_flatten_values_adjust (table : Table κ (List α)) (key : κ)
    (change : Option (List α) → List α) :
    ((table.adjust key change).values.flatten ++ (table.get? key).getD []).Perm
      (table.values.flatten ++ change (table.get? key)) :=
  perm_flatten_adjustEntries key change table.entries

/-- Adding to the list of a key adds to all the lists together. -/
theorem perm_flatten_values_adjust_append (table : Table κ (List α)) (key : κ) (more : List α) :
    (table.adjust key fun old? => old?.elim more (· ++ more)).values.flatten.Perm
      (table.values.flatten ++ more) := by
  have hchange : (table.get? key).elim more (· ++ more) = (table.get? key).getD [] ++ more := by
    cases table.get? key <;> rfl
  -- What the key had before stands on both sides.
  refine (List.perm_append_right_iff ((table.get? key).getD [])).1 ?_
  rw [List.append_assoc table.values.flatten]
  refine (table.perm_flatten_values_adjust key _).trans ?_
  rw [hchange]
  exact List.perm_append_comm.append_left _

theorem perm_flatten_values_merge (table more : Table κ (List α)) :
    (table.merge (· ++ ·) more).values.flatten.Perm
      (table.values.flatten ++ more.values.flatten) := by
  obtain ⟨entries, hnodup⟩ := more
  simp only [merge, values]
  clear hnodup
  induction entries generalizing table with
  | nil =>
      exact .of_eq (List.append_nil _).symm
  | cons entry entries ih =>
      rw [List.foldl_cons, List.map_cons, List.flatten_cons, ← List.append_assoc]
      exact (ih _).trans ((table.perm_flatten_values_adjust_append entry.1 entry.2).append_right _)

/-- The values are the values of the keys. -/
theorem map_get?_keys (table : Table κ α) : table.keys.map table.get? = table.values.map some := by
  obtain ⟨entries, hnodup⟩ := table
  simp only [keys, values, List.map_map]
  refine List.map_congr_left fun entry hmem => ?_
  obtain ⟨before, after, rfl⟩ := List.append_of_mem hmem
  refine List.lookup_eq_some_iff.2 ⟨before, after, rfl, fun other hother => ?_⟩
  rw [List.map_append, List.map_cons] at hnodup
  have hdisjoint := (List.nodup_append.1 hnodup).2.2
  exact bne_iff_ne.2 fun h =>
    hdisjoint _ (List.mem_map_of_mem hother) _ List.mem_cons_self h.symm

theorem get?_eq_none {table : Table κ α} {key : κ} (h : key ∉ table.keys) :
    table.get? key = none :=
  List.lookup_eq_none_iff.2 fun _ hmem =>
    bne_iff_ne.2 fun hkey => h (hkey ▸ List.mem_map_of_mem hmem)

end Table

namespace Report

/-! ## Names -/

theorem addNames_cons (names : List String) (name : String) (more : List String) :
    addNames names (name :: more) = addNames (addNames names [name]) more :=
  rfl

theorem addNames_append (names more later : List String) :
    addNames names (more ++ later) = addNames (addNames names more) later :=
  List.foldl_append

theorem addNames_singleton (names : List String) (name : String) :
    addNames names [name] = if name ∈ names then names else names ++ [name] := by
  simp only [addNames, List.foldl_cons, List.foldl_nil, List.contains_iff_mem]

theorem mem_addNames {name : String} {names more : List String} :
    name ∈ addNames names more ↔ name ∈ names ∨ name ∈ more := by
  induction more generalizing names with
  | nil =>
      exact (or_iff_left (List.not_mem_nil)).symm
  | cons first more ih =>
      rw [addNames_cons, ih, addNames_singleton, List.mem_cons, ← or_assoc]
      refine or_congr_left ?_
      split
      · rename_i h
        exact (or_iff_left_of_imp fun e => e ▸ h).symm
      · rw [List.mem_append, List.mem_singleton]

/-- Names may be added to one another first. -/
theorem addNames_addNames (names names' more : List String) :
    addNames names (addNames names' more) = addNames (addNames names names') more := by
  induction more generalizing names' with
  | nil =>
      rfl
  | cons first more ih =>
      have hfirst : addNames names (addNames names' [first]) =
          addNames (addNames names names') [first] := by
        rw [addNames_singleton names']
        split
        · rename_i h
          rw [addNames_singleton, if_pos (mem_addNames.2 (.inr h))]
        · exact addNames_append ..
      rw [addNames_cons names', ih, hfirst, ← addNames_cons]

/-- A table that is adjusted has one more name, or none. -/
theorem keys_adjust {α : Type} (table : Table String α) (name : String) (change : Option α → α) :
    (table.adjust name change).keys = addNames table.keys [name] := by
  rw [Table.keys_adjust, addNames_singleton]

theorem keys_merge {α : Type} (combine : α → α → α) (table more : Table String α) :
    (table.merge combine more).keys = addNames table.keys more.keys := by
  obtain ⟨entries, hnodup⟩ := more
  simp only [Table.merge, Table.keys]
  clear hnodup
  induction entries generalizing table with
  | nil =>
      rfl
  | cons entry entries ih =>
      rw [List.foldl_cons, ih, List.map_cons, addNames_cons]
      exact congrArg (addNames · _) (keys_adjust table entry.1 _)

/-! ## Counts -/

/-- How many diagnostics the summary gives for a checker. -/
def found (report : Report) (name : String) : Nat :=
  ((report.byChecker.get? name).getD []).length

/-- The diagnostics are those in the lists of the checkers and some that are lost from there. -/
def Accounts (report : Report) (lost : List Diagnostic) : Prop :=
  report.diagnostics.Perm (report.byChecker.values.flatten ++ lost)

/-- Together the checkers that have a list have found all that is in the lists. -/
theorem sum_found (report : Report) :
    (report.byChecker.keys.map report.found).sum = report.byChecker.values.flatten.length := by
  have hlengths : report.byChecker.keys.map report.found =
      (report.byChecker.keys.map report.byChecker.get?).map
        fun list? => (list?.getD []).length := by
    rw [List.map_map]
    rfl
  rw [hlengths, report.byChecker.map_get?_keys, List.map_map, List.length_flatten]
  rfl

theorem Accounts.empty : Accounts {} [] :=
  .nil

/-- A checker that is added gives its list in exchange for the one that it had. -/
theorem Accounts.addChecker {report : Report} {lost : List Diagnostic} (h : report.Accounts lost)
    (name : String) (diagnostics : List Diagnostic) (cancelled : Bool) :
    (report.addChecker name diagnostics cancelled).Accounts
      ((report.byChecker.get? name).getD [] ++ lost) := by
  have hset := report.byChecker.perm_flatten_values_adjust name fun _ => diagnostics
  simp only [Accounts, Report.addChecker, Table.set]
  rw [← List.append_assoc]
  refine (h.append_right diagnostics).trans ?_
  refine .trans ?_ (hset.symm.append_right lost)
  rw [List.append_assoc, List.append_assoc]
  exact List.perm_append_comm.append_left _

theorem Accounts.merge {report more : Report} {lost lost' : List Diagnostic}
    (h : report.Accounts lost) (h' : more.Accounts lost') :
    (report.merge more).Accounts (lost ++ lost') := by
  have hvalues := report.byChecker.perm_flatten_values_merge more.byChecker
  refine (h.append h').trans (.trans ?_ (hvalues.append_right _).symm)
  rw [List.append_assoc, List.append_assoc, ← List.append_assoc lost, ← List.append_assoc _ lost]
  exact (List.perm_append_comm.append_right _).append_left _

end Report
end AssocLint
