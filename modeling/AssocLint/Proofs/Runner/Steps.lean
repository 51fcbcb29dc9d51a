import AssocLint.Runner

/-!
# Steps of a run

What a run over crates does with the first of them: loading fails (`runFrom_of_error`), or the flag
is set (`runFrom_of_stop`), or the checkers are run over the crate and the run goes on
(`runFrom_of_go`).
-/

namespace AssocLint
namespace Runner

/-- The runner after it has asked its flag. -/
def asked (runner : Runner) : Runner :=
  { runner with flag := runner.flag.ask.2 }

variable {σ : Type} {load : σ → Except Failure Crate} {runner : Runner} {source : σ}

theorem runFrom_of_error {failure : Failure} (hload : load source = .error failure)
    (names : Option (List String)) (report : Report) (rest : List σ) :
    runFrom load names runner report (source :: rest) = (.error failure, runner) := by
  simp only [runFrom, hload]

theorem runFrom_of_stop {crate : Crate} (hload : load source = .ok crate)
    (hstop : runner.flag.ask.1 = true) (names : Option (List String)) (report : Report)
    (rest : List σ) :
    runFrom load names runner report (source :: rest) =
      (.ok { report with cancelled := true }, runner.asked) := by
  simp only [runFrom, hload, hstop, if_true, asked]

theorem runFrom_of_go {crate : Crate} (hload : load source = .ok crate)
    (hgo : runner.flag.ask.1 = false) (names : Option (List String)) (report : Report)
    (rest : List σ) :
    runFrom load names runner report (source :: rest) =
      runFrom load names (runner.asked.run names crate).2
        (report.merge (runner.asked.run names crate).1) rest := by
  simp only [runFrom, hload, hgo, Bool.false_eq_true, if_false, asked]

end Runner
end AssocLint
