import AssocLint.Failure
import AssocLint.Report

/-!
# Running checkers

A runner holds what outlives a crate: the checkers, the suppressions, which grow by the marks of
every crate, the options and the flag that stops the run.

* `Runner.run` runs checkers over one crate;
* `Runner.runAll` runs them over crates that are loaded one at a time, and asks the flag before
  each.
-/

namespace AssocLint

/-- What is kept between crates. -/
structure Runner where
  registry : Registry
  suppressions : Suppressions := {}
  options : Options := []
  flag : CancelFlag := .clear

namespace Runner

def step (suppressions : Suppressions) (state : CheckerContext × Report) (checker : Checker) :
    CheckerContext × Report :=
  let (context, diagnostics) := checker.run suppressions state.1
  let cancelled := context.stats.get? (Checker.cancelledStat checker.name) == some (.flag true)
  (context, state.2.addChecker checker.name diagnostics cancelled)

/-- Runs checkers over a crate: those of the given names, or all. -/
def run (runner : Runner) (names : Option (List String)) (crate : Crate) : Report × Runner :=
  let suppressions := runner.suppressions.addCrate crate
  let context : CheckerContext :=
    { crate, options := runner.options, flag := runner.flag }
  let (context', report) :=
    (runner.registry.select names).foldl (step suppressions) (context, {})
  ({ report with stats := context'.stats },
    { runner with suppressions, flag := context'.flag })

/-- Runs checkers over crates that are still to be loaded, after others with a given report. A
crate is loaded before the flag is asked; where the flag is set no further crate is loaded, and
where loading fails there is no report. -/
def runFrom {σ : Type} (load : σ → Except Failure Crate) (names : Option (List String)) :
    Runner → Report → List σ → Except Failure Report × Runner
  | runner, report, [] => (.ok report, runner)
  | runner, report, source :: rest =>
    match load source with
    | .error failure => (.error failure, runner)
    | .ok crate =>
      let (stop, flag) := runner.flag.ask
      let runner' := { runner with flag }
      if stop then (.ok { report with cancelled := true }, runner')
      else
        let (more, runner'') := runner'.run names crate
        runFrom load names runner'' (report.merge more) rest

def runAll {σ : Type} (runner : Runner) (load : σ → Except Failure Crate)
    (names : Option (List String)) (sources : List σ) : Except Failure Report × Runner :=
  runFrom load names runner {} sources

end Runner
end AssocLint
