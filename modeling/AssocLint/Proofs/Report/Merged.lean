import AssocLint.Proofs.Report.Tally

/-!
# Reports merged in groups

Reports may be merged one after another, or later ones with one another first: the outcome is the
same (`merge_assoc`). A statistic has to be a count in all of the reports that have it, or in none
of them; counts are added, and of anything else the last one is kept, either of which may be done in
groups.

A table that is merged has the keys of both tables, each one in the place of its first use, and
holds the combination of what the two hold for a key (`Table.get?_merge`). As keys and values
determine a table, the order of its entries included, this is all there is to the lists of the
checkers and to the statistics.
-/

namespace AssocLint

/-! ## Tables -/

namespace Table

variable {κ α : Type} [DecidableEq κ]

/-- A table is determined by its keys, in their order, and by what it holds for them. -/
theorem eq_of_get? {table table' : Table κ α} (hkeys : table.keys = table'.keys)
    (hget : ∀ key, table.get? key = table'.get? key) : table = table' := by
  have hvalues : table.values = table'.values := by
    have hsome : table.values.map some = table'.values.map some := by
      rw [← map_get?_keys, ← map_get?_keys, hkeys]
      exact List.map_congr_left fun key _ => hget key
    exact List.map_injective_iff.2 (fun _ _ => Option.some.inj) hsome
  have hentries : table.entries = table'.entries :=
    (List.zip_of_prod hkeys hvalues).trans (List.zip_of_prod rfl rfl).symm
  obtain ⟨entries, hnodup⟩ := table
  obtain ⟨entries', hnodup'⟩ := table'
  cases hentries
  rfl

theorem mem_entries_of_get? {table : Table κ α} {key : κ} {value : α}
    (h : table.get? key = some value) : (key, value) ∈ table.entries := by
  obtain ⟨before, after, hentries, -⟩ := List.lookup_eq_some_iff.1 h
  rw [hentries]
  exact List.mem_append_right before List.mem_cons_self

/-- What is held for a key after a merge. Every key of the second table occurs in it once, so the
value that it had in the first table is combined once. -/
theorem get?_merge (combine : α → α → α) (table more : Table κ α) (key : κ) :
    (table.merge combine more).get? key =
      Option.merge combine (table.get? key) (more.get? key) := by
  obtain ⟨entries, hnodup⟩ := more
  simp only [merge, get?]
  induction entries generalizing table with
  | nil =>
      exact Option.merge_none_right.symm
  | cons entry rest ih =>
      obtain ⟨first, value⟩ := entry
      rw [List.map_cons, List.nodup_cons] at hnodup
      obtain ⟨hfirst, hrest⟩ := hnodup
      rw [List.foldl_cons, ih _ hrest]
      have hget := table.get?_adjust first key fun old? => old?.elim value (combine · value)
      simp only [get?] at hget
      rw [hget]
      by_cases hkey : key = first
      · -- No later entry has this key.
        subst hkey
        have hnone : rest.lookup key = none := by
          refine List.lookup_eq_none_iff.2 fun entry hmem => bne_iff_ne.2 fun h => hfirst ?_
          exact List.mem_map.2 ⟨entry, hmem, h.symm⟩
        rw [if_pos rfl, hnone, Option.merge_none_right, List.lookup_cons_self]
        cases table.entries.lookup key <;> rfl
      · rw [if_neg hkey, List.lookup_cons, beq_eq_false_iff_ne.2 hkey]

/-- Tables may be merged in groups where the values of each key may be combined in groups. -/
theorem merge_merge {combine : α → α → α} {first second third : Table String α}
    (h : ∀ key, ∀ x ∈ first.get? key, ∀ y ∈ second.get? key, ∀ z ∈ third.get? key,
      combine (combine x y) z = combine x (combine y z)) :
    (first.merge combine second).merge combine third =
      first.merge combine (second.merge combine third) := by
  refine eq_of_get? ?_ fun key => ?_
  · simp only [Report.keys_merge, Report.addNames_addNames]
  · simp only [get?_merge]
    specialize h key
    cases hfirst : first.get? key with
    | none =>
        rw [Option.merge_none_left, Option.merge_none_left]
    | some x =>
        cases hsecond : second.get? key with
        | none =>
            rw [Option.merge_none_right, Option.merge_none_left]
        | some y =>
            cases hthird : third.get? key with
            | none =>
                rw [Option.merge_none_right, Option.merge_none_right]
            | some z =>
                exact congrArg some (h x hfirst y hsecond z hthird)

end Table

/-! ## Statistics -/

namespace Stat

def isCount : Stat → Bool
  | .count _ => true
  | _ => false

theorem exists_eq_count {stat : Stat} (h : stat.isCount = true) : ∃ value, stat = .count value := by
  cases stat with
  | count value =>
      exact ⟨value, rfl⟩
  | flag value =>
      cases h
  | label value =>
      cases h

theorem combine_of_isCount_eq_false (stat : Stat) {later : Stat} (h : later.isCount = false) :
    stat.combine later = later := by
  cases later with
  | count value =>
      cases h
  | flag value =>
      cases stat <;> rfl
  | label value =>
      cases stat <;> rfl

/-- Statistics of one kind may be combined in groups. -/
theorem combine_combine {x y z : Stat} {kind : Bool} (hx : x.isCount = kind)
    (hy : y.isCount = kind) (hz : z.isCount = kind) :
    (x.combine y).combine z = x.combine (y.combine z) := by
  cases kind with
  | false =>
      -- Either way the last one is left.
      simp only [combine_of_isCount_eq_false _ hz]
  | true =>
      obtain ⟨value, rfl⟩ := exists_eq_count hx
      obtain ⟨value', rfl⟩ := exists_eq_count hy
      obtain ⟨value'', rfl⟩ := exists_eq_count hz
      exact congrArg count (Int.add_assoc value value' value'')

end Stat

/-! ## Reports -/

namespace Report

/-- Each statistic is a count in all of the reports that have it, or in none of them. -/
def CountsAlike (reports : List Report) : Prop :=
  ∀ name, ∃ kind : Bool, ∀ report ∈ reports, ∀ stat ∈ report.stats.get? name, stat.isCount = kind

/-- Reports may be merged in groups: the diagnostics, the lists of the checkers, the statistics, the
names of the checkers in their order and the mark of a cancelled run are all the same. -/
theorem merge_assoc {report more later : Report} (h : CountsAlike [report, more, later]) :
    (report.merge more).merge later = report.merge (more.merge later) := by
  have hlists : (report.merge more).byChecker.merge (· ++ ·) later.byChecker =
      report.byChecker.merge (· ++ ·) (more.byChecker.merge (· ++ ·) later.byChecker) :=
    Table.merge_merge fun _ x _ y _ z _ => List.append_assoc x y z
  have hstats : (report.merge more).stats.merge Stat.combine later.stats =
      report.stats.merge Stat.combine (more.stats.merge Stat.combine later.stats) := by
    refine Table.merge_merge fun name x hx y hy z hz => ?_
    obtain ⟨kind, hkind⟩ := h name
    simp only [List.forall_mem_cons] at hkind
    obtain ⟨hreport, hmore, hlater, -⟩ := hkind
    exact Stat.combine_combine (hreport x hx) (hmore y hy) (hlater z hz)
  have hnames : addNames (report.merge more).checkers later.checkers =
      addNames report.checkers (addNames more.checkers later.checkers) :=
    (addNames_addNames report.checkers more.checkers later.checkers).symm
  rw [merge, hlists, hstats, hnames]
  simp only [merge, List.append_assoc, Bool.or_assoc]

/-- A checker that ran twice in the first run, a checker that is new in the second, and a label that
the third sets again. -/
theorem merge_assoc_repeated_names :
    let found : Diagnostic := { id := "long", message := "", severity := .style, location := {} }
    let empty : Report := {}
    let first : Report :=
      { (empty.addChecker "naming" [found] false).addChecker "naming" [] false with
        stats := empty.stats.set "blocks" (.count 2) }
    let second : Report :=
      { (empty.addChecker "layout" [found] true).addChecker "naming" [found] false with
        stats := (empty.stats.set "file" (.label "b.rs")).set "blocks" (.count 1) }
    let third : Report :=
      { empty.addChecker "layout" [] false with stats := empty.stats.set "file" (.label "c.rs") }
    let merged := first.merge (second.merge third)
    CountsAlike [first, second, third] ∧ (first.merge second).merge third = merged ∧
      merged.checkers = ["naming", "naming", "layout"] ∧
      merged.byChecker.values = [[found], [found]] ∧
      merged.stats.entries = [("blocks", .count 3), ("file", .label "c.rs")] ∧
      merged.cancelled = true := by
  intro found empty first second third merged
  -- Only `blocks` is a count, in whichever of the three it is.
  have hentries : ∀ report ∈ [first, second, third], ∀ entry ∈ report.stats.entries,
      entry.2.isCount = decide (entry.1 = "blocks") := by
    simp only [List.forall_mem_cons]
    exact ⟨by decide, by decide, by decide, List.forall_mem_nil _⟩
  have hkinds : CountsAlike [first, second, third] := by
    intro name
    refine ⟨decide (name = "blocks"), fun report hreport stat hstat => ?_⟩
    exact hentries report hreport (name, stat) (Table.mem_entries_of_get? hstat)
  exact ⟨hkinds, merge_assoc hkinds, rfl, rfl, rfl, rfl⟩

end Report
end AssocLint
