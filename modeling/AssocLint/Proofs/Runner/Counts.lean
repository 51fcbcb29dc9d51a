import AssocLint.Checker.AssocType
import AssocLint.Proofs.Analysis.Findings
import AssocLint.Proofs.Analysis.Order
import AssocLint.Proofs.Analysis.Started
import AssocLint.Proofs.Report.Tally
import AssocLint.Proofs.Runner.Steps

/-!
# Counts of a run

The total of a run over crates is the sum of the counts of its checkers when no checker is asked for
twice (`runAll_adds_up`). A checker that is asked for twice runs twice over each crate, and what it
reports is in the total each time, but its own list keeps the last time only.
-/

namespace AssocLint

/-! ## Names of checkers -/

namespace Registry

/-- Every checker stands under its name. -/
def IsNamed (registry : Registry) : Prop :=
  ∀ entry ∈ registry.entries, entry.2.name = entry.1

/-- The names of the checkers of a run: those of the given names that are known, or all. -/
def known (registry : Registry) : Option (List String) → List String
  | none => registry.keys
  | some names => names.filter fun name => (registry.get? name).isSome

theorem IsNamed.register {registry : Registry} (h : registry.IsNamed) (checker : Checker) :
    (registry.register checker).IsNamed := by
  obtain ⟨entries, hnodup⟩ := registry
  simp only [IsNamed, Registry.register, Table.set, Table.adjust] at h ⊢
  clear hnodup
  induction entries with
  | nil =>
      exact List.forall_mem_singleton.2 rfl
  | cons entry rest ih =>
      obtain ⟨hentry, hrest⟩ := List.forall_mem_cons.1 h
      rw [Table.adjustEntries]
      split
      · rename_i hkey
        exact List.forall_mem_cons.2 ⟨hkey.symm, hrest⟩
      · exact List.forall_mem_cons.2 ⟨hentry, ih hrest⟩

theorem isNamed_ofList (checkers : List Checker) : (ofList checkers).IsNamed := by
  have hfold (registry : Registry) (h : registry.IsNamed) :
      (checkers.foldl Registry.register registry).IsNamed := by
    induction checkers generalizing registry with
    | nil =>
        exact h
    | cons checker checkers ih =>
        exact ih _ (h.register checker)
  exact hfold {} (List.forall_mem_nil _)

theorem IsNamed.name_eq {registry : Registry} (h : registry.IsNamed) {name : String}
    {checker : Checker} (hget : registry.get? name = some checker) : checker.name = name := by
  obtain ⟨before, after, hentries, -⟩ := List.lookup_eq_some_iff.1 hget
  exact h (name, checker) (hentries ▸ List.mem_append_right _ List.mem_cons_self)

theorem IsNamed.map_name_select {registry : Registry} (h : registry.IsNamed)
    (names : Option (List String)) :
    (registry.select names).map (·.name) = registry.known names := by
  cases names with
  | none =>
      rw [select, known, Table.values, Table.keys, List.map_map]
      exact List.map_congr_left h
  | some names =>
      rw [select, known, List.map_filterMap, ← List.filterMap_eq_filter]
      refine List.filterMap_congr fun name _ => ?_
      cases hget : registry.get? name with
      | none =>
          simp only [Option.map_none, Option.guard, hget, Option.isSome_none, Bool.false_eq_true,
            if_false]
      | some checker =>
          simp only [Option.map_some, Option.guard, hget, Option.isSome_some, if_true,
            h.name_eq hget]

end Registry

namespace Runner

/-! ## One crate -/

/-- The names that have a list are those of the checkers that ran. -/
theorem keys_foldl_step (suppressions : Suppressions) (checkers : List Checker)
    (state : CheckerContext × Report)
    (h : state.2.byChecker.keys = Report.addNames [] state.2.checkers) :
    let report := (checkers.foldl (step suppressions) state).2
    report.byChecker.keys = Report.addNames [] report.checkers := by
  induction checkers generalizing state with
  | nil =>
      exact h
  | cons checker checkers ih =>
      refine ih _ ?_
      simp only [step, Report.addChecker, Table.set]
      rw [Report.keys_adjust, h, Report.addNames_append]

/-- Checkers that are new to a report and to one another lose nothing. -/
theorem accounts_foldl_step (suppressions : Suppressions) (checkers : List Checker)
    (state : CheckerContext × Report) {lost : List Diagnostic} (h : state.2.Accounts lost) :
    ∃ lost', (checkers.foldl (step suppressions) state).2.Accounts lost' ∧
      ((state.2.byChecker.keys ++ checkers.map (·.name)).Nodup → lost' = lost) := by
  induction checkers generalizing state lost with
  | nil =>
      exact ⟨lost, h, fun _ => rfl⟩
  | cons checker checkers ih =>
      obtain ⟨lost', haccounts, hnothing⟩ := ih (step suppressions state checker) (h.addChecker ..)
      refine ⟨lost', haccounts, fun hnodup => ?_⟩
      have hnew : checker.name ∉ state.2.byChecker.keys := fun hmem =>
        (List.nodup_append.1 hnodup).2.2 _ hmem _ List.mem_cons_self rfl
      -- The new name only moves from the checkers that wait to those that have a list.
      have hkeys : (step suppressions state checker).2.byChecker.keys =
          state.2.byChecker.keys ++ [checker.name] := by
        simp only [step, Report.addChecker, Table.set]
        rw [Table.keys_adjust, if_neg hnew]
      rw [hkeys, List.append_assoc] at hnothing
      rw [hnothing hnodup, Table.get?_eq_none hnew]
      rfl

/-- The report on a crate. -/
theorem accounts_run (runner : Runner) (names : Option (List String)) (crate : Crate)
    (hnamed : runner.registry.IsNamed) :
    (runner.run names crate).1.byChecker.keys =
        Report.addNames [] (runner.run names crate).1.checkers ∧
      ∃ lost, (runner.run names crate).1.Accounts lost ∧
        ((runner.registry.known names).Nodup → lost = []) := by
  let context : CheckerContext := { crate, options := runner.options, flag := runner.flag }
  let suppressions := runner.suppressions.addCrate crate
  obtain ⟨lost, haccounts, hnothing⟩ := accounts_foldl_step suppressions
    (runner.registry.select names) (context, {}) .empty
  refine ⟨keys_foldl_step suppressions (runner.registry.select names) (context, {}) rfl, lost,
    haccounts, fun hnodup => hnothing ?_⟩
  rwa [hnamed.map_name_select]

/-! ## Crates one after another -/

/-- A report on several crates: the summary has one line for each checker with a list, and the
lists agree with the diagnostics up to some that are lost. -/
structure Tallies (report : Report) (lost : List Diagnostic) : Prop where
  keys_eq : report.byChecker.keys = report.checkers
  accounts : report.Accounts lost

theorem Tallies.merge {report more : Report} {lost lost' : List Diagnostic}
    (h : Tallies report lost) (hkeys : more.byChecker.keys = Report.addNames [] more.checkers)
    (haccounts : more.Accounts lost') : Tallies (report.merge more) (lost ++ lost') where
  keys_eq := by
    rw [Report.merge, Report.keys_merge, h.keys_eq, hkeys, Report.addNames_addNames]
    rfl
  accounts := h.accounts.merge haccounts

theorem tallies_runFrom (names : Option (List String)) (runner : Runner)
    (hnamed : runner.registry.IsNamed) (report : Report) {lost : List Diagnostic}
    (h : Tallies report lost) (crates : List Crate) :
    ∃ report', (runFrom .ok names runner report crates).1 = .ok report' ∧
      ∃ lost', Tallies report' lost' ∧ ((runner.registry.known names).Nodup → lost' = lost) := by
  induction crates generalizing runner report lost with
  | nil =>
      exact ⟨report, rfl, lost, h, fun _ => rfl⟩
  | cons crate rest ih =>
      cases hask : runner.flag.ask.1 with
      | true =>
          rw [runFrom_of_stop rfl hask]
          exact ⟨_, rfl, lost, ⟨h.keys_eq, h.accounts⟩, fun _ => rfl⟩
      | false =>
          rw [runFrom_of_go rfl hask]
          obtain ⟨hkeys, more, haccounts, hnone⟩ := accounts_run runner.asked names crate hnamed
          obtain ⟨report', hrun, lost', htallies, hnothing⟩ :=
            ih (runner.asked.run names crate).2 hnamed _ (h.merge hkeys haccounts)
          refine ⟨report', hrun, lost', htallies, fun hnodup => ?_⟩
          rw [hnothing hnodup, hnone hnodup, List.append_nil]

/-- Over any crates, the lists of the checkers hold some of the diagnostics, and the counts in the
summary are those of the lists. When no checker is asked for twice the lists hold all of the
diagnostics, each as often as it was reported, and the total is the sum of the counts. -/
theorem runAll_adds_up (checkers : List Checker) (suppressions : Suppressions) (options : Options)
    (flag : CancelFlag) (names : Option (List String)) (crates : List Crate) :
    let runner : Runner := ⟨.ofList checkers, suppressions, options, flag⟩
    ∃ report, (runner.runAll .ok names crates).1 = .ok report ∧
      ∃ counts : List (String × Nat), counts.map (·.1) = report.checkers ∧
        report.summaryLines =
          ("Checker run complete: " ++ toString report.diagnostics.length ++ " diagnostics (" ++
            toString (report.count .error) ++ " errors, " ++ toString (report.count .warning) ++
            " warnings)") ::
          counts.map (fun count => "  " ++ count.1 ++ ": " ++ toString count.2 ++
            " findings (0.0ms)") ++
          (if report.cancelled then ["  (run cancelled; results are partial)"] else []) ∧
        (counts.map (·.2)).sum = report.byChecker.values.flatten.length ∧
        report.byChecker.values.flatten.Subperm report.diagnostics ∧
        ((runner.registry.known names).Nodup →
          report.diagnostics.Perm report.byChecker.values.flatten ∧
            (counts.map (·.2)).sum = report.diagnostics.length) := by
  intro runner
  obtain ⟨report, hrun, lost, ⟨hkeys, haccounts⟩, hnothing⟩ := tallies_runFrom names runner
    (Registry.isNamed_ofList checkers) {} ⟨rfl, .empty⟩ crates
  -- `lost` are the diagnostics that the list of a checker asked for twice no longer holds.
  let counts := report.checkers.map fun name => (name, report.found name)
  have hnames : counts.map (·.1) = report.checkers := by
    rw [List.map_map]
    exact List.map_id _
  have hlines : counts.map (fun count => "  " ++ count.1 ++ ": " ++ toString count.2 ++
      " findings (0.0ms)") = report.checkers.map report.checkerLine :=
    List.map_map
  have hsum : (counts.map (·.2)).sum = report.byChecker.values.flatten.length := by
    rw [← report.sum_found, hkeys, List.map_map]
    rfl
  refine ⟨report, hrun, counts, hnames, ?_, hsum, ?_, fun hnodup => ?_⟩
  · rw [hlines]
    rfl
  · exact (List.sublist_append_left _ lost).subperm.trans haccounts.symm.subperm
  · rw [hnothing hnodup, Report.Accounts, List.append_nil] at haccounts
    exact ⟨haccounts, hsum.trans haccounts.length_eq.symm⟩

/-- Two rules, one of which cannot finish, and a name that nobody knows, over two crates. -/
theorem runAll_adds_up_broken_rule :
    let diagnostic (id : String) : Diagnostic :=
      { id, message := "", severity := .warning, location := {} }
    let checker (name : String) (answer : Except String (List Diagnostic)) : Checker :=
      { name, description := "", ids := [], severity := .warning
        examine := fun context => (context, answer) }
    let registry : Registry :=
      .ofList [checker "naming" (.ok [diagnostic "long", diagnostic "short"]),
        checker "layout" (.error "no file")]
    let names := some ["layout", "spelling", "naming", "spelling"]
    let run := (Runner.runAll { registry } .ok names [⟨"a.rs", [], []⟩, ⟨"b.rs", [], []⟩]).1
    (registry.known names).Nodup ∧
      ∃ report, run = .ok report ∧ report.diagnostics.length = 6 ∧
        report.diagnostics.Perm report.byChecker.values.flatten := by
  intro diagnostic checker registry names run
  have hnodup : (registry.known names).Nodup := by decide +kernel
  have hlength : run.map (·.diagnostics.length) = .ok 6 := rfl
  obtain ⟨report, hrun, counts, -, -, -, -, hadds⟩ :=
    runAll_adds_up [checker "naming" (.ok [diagnostic "long", diagnostic "short"]),
        checker "layout" (.error "no file")] {} [] .clear names
      [⟨"a.rs", [], []⟩, ⟨"b.rs", [], []⟩]
  have hreport : run = .ok report := hrun
  rw [hreport] at hlength
  exact ⟨hnodup, report, hreport, Except.ok.inj hlength, (hadds hnodup).1⟩

/-- The default rule is asked for twice: its one finding is in the total twice, and its count
is 1. -/
theorem runAll_adds_up_asked_twice :
    let state : Reference := .resolved none [⟨"State", none⟩] .type
    let block : ImplBlock :=
      { items := [.assocType ⟨"Item", .path state {}, {}⟩,
          .method ⟨"next", [], ⟨[], some (.path state {}), {}⟩, none, {}⟩]
        traitRef := none, selfTy := none, span := {} }
    let names := some [AssocTypeRule.name, AssocTypeRule.name]
    ∃ report, (Runner.runAll { registry := .default } .ok names [⟨"a.rs", [block], []⟩]).1 =
        .ok report ∧
      report.diagnostics.length = 2 ∧ report.byChecker.values.flatten.length = 1 ∧
      report.checkers.map report.found = [1] ∧
      ¬ report.diagnostics.Perm report.byChecker.values.flatten := by
  intro state block names
  let finding : Finding := ⟨⟨state, .expression, {}, none, "next"⟩, ⟨"Item", state, {}⟩⟩
  have hfindings (flag : CancelFlag) (hclear : flag.IsClear) :
      (Analysis.ofBlocks .lenient 1 flag [block]).1.findings = [finding] := by
    have hblock : (block.analyze .lenient).findings = [finding] :=
      ImplBlock.findings_analyze_of_report rfl
    rw [Analysis.findings_ofBlocks_of_isClear .lenient 1 hclear, List.flatMap_singleton, hblock,
      Finding.sort_singleton]
  let crate : Crate := ⟨"a.rs", [block], []⟩
  let context : CheckerContext := { crate, options := [], flag := CancelFlag.clear.ask.2 }
  let first := Analysis.ofBlocks .lenient 1 context.flag [block]
  let second := Analysis.ofBlocks .lenient 1 first.2 [block]
  let kept (analysis : Analysis) : List Diagnostic :=
    Suppressions.keep {} (analysis.findings.map AssocTypeRule.diagnostic)
  have hrun : ∃ stats cancelled cancelled',
      (Runner.runAll { registry := .default } .ok names [crate]).1 = .ok (Report.merge {}
        { (Report.addChecker {} AssocTypeRule.name (kept first.1) cancelled).addChecker
            AssocTypeRule.name (kept second.1) cancelled' with stats }) :=
    ⟨_, _, _, rfl⟩
  obtain ⟨stats, cancelled, cancelled', hrun⟩ := hrun
  have hfirst : first.1.findings = [finding] := hfindings _ fun _ => rfl
  have hsecond : second.1.findings = [finding] := hfindings _ fun question => by
    rw [Analysis.answer_ofBlocks]
    rfl
  simp only [kept, hfirst, hsecond] at hrun
  refine ⟨_, hrun, rfl, rfl, rfl, fun hperm => ?_⟩
  have hlengths : 2 = 1 := hperm.length_eq
  exact absurd hlengths (by decide)

end Runner
end AssocLint
