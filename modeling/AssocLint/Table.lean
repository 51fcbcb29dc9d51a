/-!
# Tables

A table holds one value for each of its keys and keeps the keys in the order of their first use.

* `Table.adjust` replaces the value of one key, or adds the key at the end;
* `Table.merge` adjusts a table by every entry of another one;
* `Table.keys_adjust` and `Table.get?_adjust` say what an adjustment does to the keys and to the
  values.
-/

namespace AssocLint

/-- A finite map that remembers the order of its keys. -/
structure Table (κ α : Type) where
  entries : List (κ × α) := []
  nodup : (entries.map (·.1)).Nodup := by exact List.nodup_nil

namespace Table

variable {κ α : Type} [DecidableEq κ]

/-! ## Entries -/

/-- Replaces the value of a key in a list of entries, or adds an entry at the end. -/
def adjustEntries (key : κ) (change : Option α → α) : List (κ × α) → List (κ × α)
  | [] => [(key, change none)]
  | entry :: rest =>
    if entry.1 = key then (entry.1, change (some entry.2)) :: rest
    else entry :: adjustEntries key change rest

/-- An adjustment leaves the keys as they are, or adds its own at the end. -/
theorem map_fst_adjustEntries (key : κ) (change : Option α → α) (entries : List (κ × α)) :
    (adjustEntries key change entries).map (·.1) =
      if key ∈ entries.map (·.1) then entries.map (·.1) else entries.map (·.1) ++ [key] := by
  induction entries with
  | nil => simp [adjustEntries]
  | cons entry rest ih =>
    by_cases h : entry.1 = key
    · simp [adjustEntries, h]
    · have h' : key ≠ entry.1 := fun e => h e.symm
      simp only [adjustEntries, h, if_false, List.map_cons, List.mem_cons, h', false_or, ih]
      split <;> simp

/-- An adjustment gives its own key the new value and touches no other. -/
theorem lookup_adjustEntries (key key' : κ) (change : Option α → α) (entries : List (κ × α)) :
    (adjustEntries key change entries).lookup key' =
      if key' = key then some (change (entries.lookup key)) else entries.lookup key' := by
  induction entries with
  | nil =>
    by_cases h : key' = key
    · simp [adjustEntries, h]
    · have hb : (key' == key) = false := by simpa using h
      simp [adjustEntries, List.lookup_cons, h, hb]
  | cons entry rest ih =>
    obtain ⟨first, value⟩ := entry
    by_cases h : first = key
    · subst h
      by_cases h' : key' = first
      · simp [adjustEntries, h']
      · have hb : (key' == first) = false := by simpa using h'
        simp [adjustEntries, List.lookup_cons, h', hb]
    · have hk : (key == first) = false := by simpa using fun e : key = first => h e.symm
      simp only [adjustEntries, h, if_false, List.lookup_cons, ih, hk]
      by_cases h' : key' = first
      · have hne : ¬ key' = key := fun e => h (h'.symm.trans e)
        simp [h', h]
      · have hb : (key' == first) = false := by simpa using h'
        simp [hb]

/-! ## Operations -/

/-- The keys, in the order of their first use. -/
def keys (table : Table κ α) : List κ :=
  table.entries.map (·.1)

/-- The values, in the order of the first use of their keys. -/
def values (table : Table κ α) : List α :=
  table.entries.map (·.2)

def get? (table : Table κ α) (key : κ) : Option α :=
  table.entries.lookup key

def adjust (table : Table κ α) (key : κ) (change : Option α → α) : Table κ α where
  entries := adjustEntries key change table.entries
  nodup := by
    rw [map_fst_adjustEntries]
    split
    · exact table.nodup
    · rename_i h
      refine List.nodup_append.2 ⟨table.nodup, by simp, ?_⟩
      intro a ha b hb
      rw [List.mem_singleton.1 hb]
      exact fun e => h (e ▸ ha)

def set (table : Table κ α) (key : κ) (value : α) : Table κ α :=
  table.adjust key fun _ => value

/-- Adjusts a table by every entry of another one: where both have a value, the two are combined,
the value of the first table first. -/
def merge (combine : α → α → α) (table more : Table κ α) : Table κ α :=
  more.entries.foldl
    (fun table entry => table.adjust entry.1 fun old? => old?.elim entry.2 (combine · entry.2))
    table

/-! ## What an adjustment does -/

theorem keys_adjust (table : Table κ α) (key : κ) (change : Option α → α) :
    (table.adjust key change).keys =
      if key ∈ table.keys then table.keys else table.keys ++ [key] :=
  map_fst_adjustEntries key change table.entries

theorem get?_adjust (table : Table κ α) (key key' : κ) (change : Option α → α) :
    (table.adjust key change).get? key' =
      if key' = key then some (change (table.get? key)) else table.get? key' :=
  lookup_adjustEntries key key' change table.entries

end Table
end AssocLint
