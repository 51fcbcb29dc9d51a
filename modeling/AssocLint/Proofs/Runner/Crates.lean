import AssocLint.Checker.AssocType
import AssocLint.Proofs.Analysis.Findings
import AssocLint.Proofs.Analysis.Order
import AssocLint.Proofs.Analysis.Started
import AssocLint.Proofs.Runner.Steps
import AssocLint.Proofs.Suppression.Marks

/-!
# Crates one after another

The marks of a crate stay with the runner, and silence what they describe in this crate and in every
later one. Here the rule for associated types is run over crates, and nobody stops it: what is
reported of a crate are the diagnostics of its findings that neither the suppressions at the start
nor the marks up to this crate silence (`diagnostics_runAll`). What comes later has no part in it.
-/

namespace AssocLint

/-- The diagnostics for all findings in a crate. -/
def AssocTypeRule.diagnosticsOf (settings : Settings) (crate : Crate) : List Diagnostic :=
  (Analysis.ofBlocks settings.policy settings.workers .clear crate.impls).1.findings.map diagnostic

namespace Runner

/-- A runner whose only rule is the one for associated types, with options that are in order, and
that nobody stops. -/
structure RunsRule (runner : Runner) (names : Option (List String))
    (settings : AssocTypeRule.Settings) : Prop where
  select_eq : runner.registry.select names = [.assocType]
  settings_eq : AssocTypeRule.settings runner.options = .ok settings
  isClear : runner.flag.IsClear

/-- The diagnostics for crates one after another: those that are not silenced by given suppressions,
by a mark of an earlier crate or by one of the same crate. -/
def reported (settings : AssocTypeRule.Settings) (suppressions : Suppressions)
    (crates : List Crate) : List Diagnostic :=
  crates.zipIdx.flatMap fun (crate, position) =>
    (AssocTypeRule.diagnosticsOf settings crate).filter fun diagnostic =>
      !(suppressions.covers diagnostic ||
        (crates.take (position + 1)).any (·.silences diagnostic))

/-! ## What is reported -/

section Reported

variable (settings : AssocTypeRule.Settings) (suppressions : Suppressions)

theorem reported_cons (crate : Crate) (crates : List Crate) :
    reported settings suppressions (crate :: crates) =
      (suppressions.addCrate crate).keep (AssocTypeRule.diagnosticsOf settings crate) ++
        reported settings (suppressions.addCrate crate) crates := by
  -- Seen from the first crate, each later one has one crate more before it.
  have hshift : crates.zipIdx 1 =
      crates.zipIdx.map fun (crate, position) => (crate, position + 1) := List.zipIdx_succ ..
  simp only [reported, Suppressions.keep, List.zipIdx_cons, List.flatMap_cons, hshift,
    List.flatMap_map, List.take_succ_cons, List.take_zero, List.any_cons, List.any_nil,
    Suppressions.covers_addCrate, Bool.or_false, Bool.or_assoc, Nat.zero_add]

/-- Later crates do not change what is reported of earlier ones, and the marks of these go on. -/
theorem reported_append (crates crates' : List Crate) :
    reported settings suppressions (crates ++ crates') =
      reported settings suppressions crates ++
        reported settings (crates.foldl Suppressions.addCrate suppressions) crates' := by
  induction crates generalizing suppressions with
  | nil =>
      rfl
  | cons crate crates ih =>
      rw [List.cons_append, reported_cons, reported_cons, ih, List.append_assoc, List.foldl_cons]

end Reported

/-! ## A run -/

namespace RunsRule

variable {runner : Runner} {names : Option (List String)} {settings : AssocTypeRule.Settings}

/-- What is done about one crate: its marks are added, and what they and the other suppressions
leave of the findings in it is reported. -/
theorem run_crate (h : runner.RunsRule names settings) (crate : Crate) :
    let analysis := Analysis.ofBlocks settings.policy settings.workers runner.flag crate.impls
    (runner.run names crate).1.diagnostics = (runner.suppressions.addCrate crate).keep
        (analysis.1.findings.map AssocTypeRule.diagnostic) ∧
      (runner.run names crate).2 =
        { runner with suppressions := runner.suppressions.addCrate crate, flag := analysis.2 } := by
  simp only [Runner.run, h.select_eq, List.foldl_cons, List.foldl_nil, step, Report.addChecker,
    Checker.run, Checker.assocType, AssocTypeRule.examine, h.settings_eq, AssocTypeRule.publish,
    List.nil_append, and_self]

theorem diagnostics_run (h : runner.RunsRule names settings) (crate : Crate) :
    (runner.run names crate).1.diagnostics =
      (runner.suppressions.addCrate crate).keep (AssocTypeRule.diagnosticsOf settings crate) := by
  have hfindings :=
    (Analysis.findings_ofBlocks_of_isClear settings.policy settings.workers h.isClear
      crate.impls).trans
    (Analysis.findings_ofBlocks_of_isClear settings.policy settings.workers
      CancelFlag.isClear_clear crate.impls).symm
  rw [(h.run_crate crate).1, hfindings, AssocTypeRule.diagnosticsOf]

/-- After a crate the runner goes on as before, with the marks of the crate. -/
theorem run (h : runner.RunsRule names settings) (crate : Crate) :
    (runner.run names crate).2.suppressions = runner.suppressions.addCrate crate ∧
      (runner.run names crate).2.RunsRule names settings := by
  rw [(h.run_crate crate).2]
  refine ⟨rfl, h.select_eq, h.settings_eq, ?_⟩
  intro question
  rw [Analysis.answer_ofBlocks]
  exact h.isClear question

theorem diagnostics_runFrom (h : runner.RunsRule names settings) (report : Report)
    (crates : List Crate) :
    ∃ report', (runFrom .ok names runner report crates).1 = .ok report' ∧
      report'.diagnostics =
        report.diagnostics ++ reported settings runner.suppressions crates := by
  -- From crate to crate the runner is the same but for its suppressions and the questions asked.
  induction crates generalizing runner report with
  | nil =>
      exact ⟨report, rfl, (List.append_nil _).symm⟩
  | cons crate crates ih =>
      have hgo : runner.flag.ask.1 = false := h.isClear _
      have hasked : runner.asked.RunsRule names settings :=
        ⟨h.select_eq, h.settings_eq, h.isClear⟩
      obtain ⟨hsuppressions, hnext⟩ := hasked.run crate
      obtain ⟨report', hrun, hdiagnostics⟩ :=
        ih hnext (report.merge (runner.asked.run names crate).1)
      refine ⟨report', ?_, ?_⟩
      · rw [runFrom_of_go rfl hgo]
        exact hrun
      · calc
          report'.diagnostics
              = (report.merge (runner.asked.run names crate).1).diagnostics ++
                  reported settings (runner.asked.run names crate).2.suppressions crates :=
                hdiagnostics
          _ = (report.diagnostics ++ (runner.suppressions.addCrate crate).keep
                  (AssocTypeRule.diagnosticsOf settings crate)) ++
                reported settings (runner.suppressions.addCrate crate) crates := by
                rw [Report.merge, hasked.diagnostics_run crate, hsuppressions]
                rfl
          _ = report.diagnostics ++ reported settings runner.suppressions (crate :: crates) := by
                rw [reported_cons, List.append_assoc]

end RunsRule

/-- Crate by crate, a run reports the diagnostics of the findings that are not silenced by the
suppressions at the start or by marks up to this crate. What it reports of the first crates does not
depend on those after them. -/
theorem diagnostics_runAll {runner : Runner} {names : Option (List String)}
    {settings : AssocTypeRule.Settings} (h : runner.RunsRule names settings)
    (crates : List Crate) :
    ∃ report, (runner.runAll .ok names crates).1 = .ok report ∧
      report.diagnostics = reported settings runner.suppressions crates ∧
        ∀ earlier, earlier <+: crates →
          ∃ report', (runner.runAll .ok names earlier).1 = .ok report' ∧
            report'.diagnostics <+: report.diagnostics := by
  have hreport (crates : List Crate) : ∃ report, (runner.runAll .ok names crates).1 = .ok report ∧
      report.diagnostics = reported settings runner.suppressions crates := by
    obtain ⟨report, hrun, hdiagnostics⟩ := h.diagnostics_runFrom {} crates
    exact ⟨report, hrun, hdiagnostics.trans (List.nil_append _)⟩
  obtain ⟨report, hrun, hdiagnostics⟩ := hreport crates
  refine ⟨report, hrun, hdiagnostics, ?_⟩
  rintro earlier ⟨later, rfl⟩
  obtain ⟨report', hrun', hdiagnostics'⟩ := hreport earlier
  refine ⟨report', hrun', ?_⟩
  rw [hdiagnostics, hdiagnostics', reported_append]
  exact List.prefix_append _ _

/-- A mark in the first crate silences the finding in the second crate, and not the one in the
third. A mark in the second crate does not silence the finding in the first. -/
theorem diagnostics_runAll_marks :
    let state : Reference := .resolved none [⟨"State", none⟩] .type
    let block (file : String) (line : Int) : ImplBlock :=
      { items := [.assocType ⟨"Item", .path state {}, {}⟩,
          .method ⟨"next", [], ⟨[], some (.path state { file, line }), {}⟩, none, {}⟩]
        traitRef := none, selfTy := none, span := {} }
    let crates : List Crate :=
      [⟨"a.rs", [block "a.rs" 5], [⟨AssocTypeRule.id, "b.rs", 2⟩]⟩,
        ⟨"b.rs", [block "b.rs" 3], [⟨Suppressions.anyId, "a.rs", 5⟩]⟩,
        ⟨"b.rs", [block "b.rs" 9], []⟩]
    ∃ report, (({ registry := .default } : Runner).runAll .ok none crates).1 = .ok report ∧
      report.diagnostics.map Diagnostic.location = [⟨"a.rs", 5, 0⟩, ⟨"b.rs", 9, 0⟩] := by
  intro state block crates
  have hruns : ({ registry := .default } : Runner).RunsRule none ⟨.lenient, 1⟩ :=
    ⟨rfl, rfl, CancelFlag.isClear_clear⟩
  obtain ⟨report, hrun, hdiagnostics, -⟩ := diagnostics_runAll hruns crates
  have hcrate (file : String) (line : Int) (marks : List SuppressionMark) :
      AssocTypeRule.diagnosticsOf ⟨.lenient, 1⟩ ⟨file, [block file line], marks⟩ =
        [AssocTypeRule.diagnostic
          ⟨⟨state, .expression, { file, line }, none, "next"⟩, ⟨"Item", state, {}⟩⟩] := by
    have hblock : ((block file line).analyze .lenient).findings =
        [⟨⟨state, .expression, { file, line }, none, "next"⟩, ⟨"Item", state, {}⟩⟩] :=
      ImplBlock.findings_analyze_of_report rfl
    rw [AssocTypeRule.diagnosticsOf,
      Analysis.findings_ofBlocks_of_isClear .lenient 1 CancelFlag.isClear_clear,
      List.flatMap_singleton, hblock, Finding.sort_singleton]
    rfl
  refine ⟨report, hrun, ?_⟩
  rw [hdiagnostics]
  simp only [reported, crates, List.zipIdx_cons, List.zipIdx_nil, List.flatMap_cons,
    List.flatMap_nil, hcrate]
  rfl

end Runner
end AssocLint
