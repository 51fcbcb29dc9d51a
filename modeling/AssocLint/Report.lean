import AssocLint.Checker

/-!
# Reports

A report is the outcome of running checkers over one crate, or, after `Report.merge`, over several.
-/

namespace AssocLint

/-- The outcome of a run. -/
structure Report where
  diagnostics : List Diagnostic := []
  /-- The diagnostics of each checker. -/
  byChecker : Table String (List Diagnostic) := {}
  stats : Stats := {}
  /-- The names of the checkers that ran. -/
  checkers : List String := []
  /-- Whether something was left out. -/
  cancelled : Bool := false

namespace Report

/-! ## Merging -/

/-- Adds the names that are not there yet, each one once. -/
def addNames (names more : List String) : List String :=
  more.foldl (fun names name => if names.contains name then names else names ++ [name]) names

def merge (report more : Report) : Report where
  diagnostics := report.diagnostics ++ more.diagnostics
  byChecker := report.byChecker.merge (· ++ ·) more.byChecker
  stats := report.stats.merge Stat.combine more.stats
  checkers := addNames report.checkers more.checkers
  cancelled := report.cancelled || more.cancelled

/-- Adds the diagnostics of one checker. Where the checker ran before, its own list holds those of
its last run. -/
def addChecker (report : Report) (name : String) (diagnostics : List Diagnostic)
    (cancelled : Bool) : Report :=
  { report with
    diagnostics := report.diagnostics ++ diagnostics
    byChecker := report.byChecker.set name diagnostics
    checkers := report.checkers ++ [name]
    cancelled := report.cancelled || cancelled }

/-! ## Counting and writing -/

def count (report : Report) (severity : Severity) : Nat :=
  report.diagnostics.countP (·.severity == severity)

def checkerLine (report : Report) (name : String) : String :=
  let found := ((report.byChecker.get? name).getD []).length
  "  " ++ name ++ ": " ++ toString found ++ " findings (0.0ms)"

/-- The lines of the summary. No time is measured. -/
def summaryLines (report : Report) : List String :=
  let head := "Checker run complete: " ++ toString report.diagnostics.length ++ " diagnostics (" ++
    toString (report.count .error) ++ " errors, " ++ toString (report.count .warning) ++
    " warnings)"
  let last := if report.cancelled then ["  (run cancelled; results are partial)"] else []
  head :: report.checkers.map report.checkerLine ++ last

end Report

inductive ReportFormat
  | gcc
  | json
  | summary
  deriving DecidableEq, Repr

namespace ReportFormat

def keyword : ReportFormat → String
  | .gcc => "gcc"
  | .json => "json"
  | .summary => "summary"

def all : List ReportFormat :=
  [.gcc, .json, .summary]

def ofKeyword? (word : String) : Option ReportFormat :=
  all.find? fun format => format.keyword == word

end ReportFormat

namespace Report

def lines (report : Report) : ReportFormat → List String
  | .gcc => report.diagnostics.map Diagnostic.render
  | .json => report.diagnostics.map Diagnostic.jsonLine
  | .summary => report.summaryLines

def render (report : Report) (format : ReportFormat) : String :=
  "\n".intercalate (report.lines format)

end Report
end AssocLint
