import AssocLint.Checker.AssocType
import AssocLint.Proofs.Analysis.Started
import AssocLint.Proofs.Runner.Steps

/-!
# Runs that report warnings

With options that are in order the rule for associated types finishes on every crate, and what it
reports are warnings. So a run that knows no other rule, however often this one is asked for, and
that nobody stops ends in one of two ways (`runAll_cases`): every source is loaded and a report of
warnings comes back, or some source cannot be loaded and its failure comes back.
-/

namespace AssocLint

/-- A report that holds warnings only. -/
def Report.OnlyWarns (report : Report) : Prop :=
  ∀ diagnostic ∈ report.diagnostics, diagnostic.severity = .warning

theorem Report.OnlyWarns.empty : Report.OnlyWarns {} :=
  List.forall_mem_nil _

theorem Report.OnlyWarns.merge {report more : Report} (h : report.OnlyWarns)
    (hmore : more.OnlyWarns) : (report.merge more).OnlyWarns :=
  List.forall_mem_append.2 ⟨h, hmore⟩

namespace Runner

/-- A runner that knows no rule but the one for associated types among the given names, with options
that are in order, and that nobody stops. -/
structure KeepsToRule (runner : Runner) (names : Option (List String)) : Prop where
  eq_assocType : ∀ checker ∈ runner.registry.select names, checker = .assocType
  settings : ∃ settings, AssocTypeRule.settings runner.options = .ok settings
  isClear : runner.flag.IsClear

/-- Between two checkers of one crate: the context has the options of the run, nobody stops it, and
all that has been reported are warnings. -/
structure Between (options : Options) (state : CheckerContext × Report) : Prop where
  options_eq : state.1.options = options
  isClear : state.1.flag.IsClear
  onlyWarns : state.2.OnlyWarns

/-! ## One crate -/

section Between

variable {options : Options} {settings : AssocTypeRule.Settings}
  (hsettings : AssocTypeRule.settings options = .ok settings)
include hsettings

theorem Between.step {state : CheckerContext × Report} (h : Between options state)
    (suppressions : Suppressions) : Between options (step suppressions state .assocType) := by
  have hexamine : (Checker.assocType.examine state.1) =
      let analysis := Analysis.ofBlocks settings.policy settings.workers state.1.flag
        state.1.crate.impls
      (AssocTypeRule.publish analysis.1 analysis.2 state.1,
        .ok (analysis.1.findings.map AssocTypeRule.diagnostic)) := by
    simp only [Checker.assocType, AssocTypeRule.examine, h.options_eq, hsettings]
  simp only [Runner.step, Checker.run, hexamine]
  refine ⟨h.options_eq, ?_, ?_⟩
  · intro question
    rw [AssocTypeRule.publish, Analysis.answer_ofBlocks]
    exact h.isClear question
  · refine List.forall_mem_append.2 ⟨h.onlyWarns, fun diagnostic hmem => ?_⟩
    obtain ⟨finding, -, rfl⟩ := List.mem_map.1 (List.mem_filter.1 hmem).1
    rfl

theorem Between.foldl_step {state : CheckerContext × Report} (h : Between options state)
    (suppressions : Suppressions) {checkers : List Checker}
    (hcheckers : ∀ checker ∈ checkers, checker = .assocType) :
    Between options (checkers.foldl (Runner.step suppressions) state) := by
  induction checkers generalizing state with
  | nil =>
      exact h
  | cons checker checkers ih =>
      obtain ⟨rfl, hrest⟩ := List.forall_mem_cons.1 hcheckers
      exact ih (h.step hsettings suppressions) hrest

end Between

namespace KeepsToRule

variable {runner : Runner} {names : Option (List String)}

theorem asked (h : runner.KeepsToRule names) : runner.asked.KeepsToRule names :=
  ⟨h.eq_assocType, h.settings, h.isClear⟩

/-- A crate gives a report of warnings, and the runner goes on as before. -/
theorem run (h : runner.KeepsToRule names) (crate : Crate) :
    (runner.run names crate).1.OnlyWarns ∧ (runner.run names crate).2.KeepsToRule names := by
  obtain ⟨settings, hsettings⟩ := h.settings
  have hstart : Between runner.options
      ({ crate, options := runner.options, flag := runner.flag }, {}) :=
    ⟨rfl, h.isClear, List.forall_mem_nil _⟩
  have hend := hstart.foldl_step hsettings (runner.suppressions.addCrate crate) h.eq_assocType
  exact ⟨hend.onlyWarns, h.eq_assocType, h.settings, hend.isClear⟩

/-! ## Crates one after another -/

variable {σ : Type} (load : σ → Except Failure Crate)

theorem runFrom_cases (h : runner.KeepsToRule names) {report : Report} (hreport : report.OnlyWarns)
    (sources : List σ) :
    (∃ report', (runFrom load names runner report sources).1 = .ok report' ∧ report'.OnlyWarns ∧
      ∀ source ∈ sources, ∃ crate, load source = .ok crate) ∨
    ∃ source ∈ sources, ∃ failure, load source = .error failure ∧
      (runFrom load names runner report sources).1 = .error failure := by
  induction sources generalizing runner report with
  | nil =>
      exact .inl ⟨report, rfl, hreport, List.forall_mem_nil _⟩
  | cons source rest ih =>
      cases hload : load source with
      | error failure =>
          refine .inr ⟨source, List.mem_cons_self, failure, hload, ?_⟩
          rw [runFrom_of_error hload]
      | ok crate =>
          -- Nobody stops the run, so it goes on with the crate and then with the rest.
          have hgo : runner.flag.ask.1 = false := h.isClear _
          obtain ⟨hwarns, hnext⟩ := h.asked.run crate
          rw [runFrom_of_go hload hgo]
          rcases ih hnext (hreport.merge hwarns) with
            ⟨report', hrun, hreport', hloads⟩ | ⟨source', hmem, failure, hfailed, hrun⟩
          · exact .inl ⟨report', hrun, hreport', List.forall_mem_cons.2 ⟨⟨crate, hload⟩, hloads⟩⟩
          · exact .inr ⟨source', List.mem_cons_of_mem _ hmem, failure, hfailed, hrun⟩

/-- A run ends with a report of warnings when every source can be loaded, and otherwise with the
failure of a source that cannot. -/
theorem runAll_cases (h : runner.KeepsToRule names) (sources : List σ) :
    (∃ report, (runner.runAll load names sources).1 = .ok report ∧ report.OnlyWarns ∧
      ∀ source ∈ sources, ∃ crate, load source = .ok crate) ∨
    ∃ source ∈ sources, ∃ failure, load source = .error failure ∧
      (runner.runAll load names sources).1 = .error failure :=
  h.runFrom_cases load .empty sources

end KeepsToRule
end Runner

/-! ## The default registry -/

/-- The only checker of the default registry is the rule for associated types. -/
theorem Registry.eq_assocType_of_mem_select (names : Option (List String)) (checker : Checker)
    (h : checker ∈ Registry.default.select names) : checker = .assocType := by
  have hget (name : String) (hname : Registry.default.get? name = some checker) :
      checker = .assocType := by
    rw [Registry.default, Registry.ofList, List.foldl_cons, List.foldl_nil, register, Table.set,
      Table.get?_adjust] at hname
    split at hname
    · exact (Option.some.inj hname).symm
    · cases hname
  cases names with
  | none =>
      exact List.mem_singleton.1 h
  | some names =>
      obtain ⟨name, -, hname⟩ := List.mem_filterMap.1 h
      exact hget name hname

end AssocLint
