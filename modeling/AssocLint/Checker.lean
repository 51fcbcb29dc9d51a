import AssocLint.Analysis
import AssocLint.Suppression

/-!
# Checkers

A checker is a named rule. It examines one crate and gives diagnostics, or the reason why it could
not finish. Checkers that examine the same crate share a context: the options of the run, the
analysis that an earlier checker has published, statistics and the flag that stops the run.
-/

namespace AssocLint

inductive Stat where
  | count (value : Int)
  | flag (value : Bool)
  | label (value : String)
  deriving DecidableEq, Repr

namespace Stat

/-- Combines two values of one statistic: counts are added, of anything else the later one
counts. -/
def combine : Stat → Stat → Stat
  | .count value, .count more => .count (value + more)
  | _, later => later

end Stat

abbrev Stats : Type := Table String Stat

abbrev Options : Type := List (String × Json)

/-- What the checkers of one crate share. -/
structure CheckerContext where
  crate : Crate
  options : Options
  flag : CancelFlag
  analysis : Option Analysis := none
  stats : Stats := {}

/-- A rule. -/
structure Checker where
  name : String
  description : String
  /-- The ids of the diagnostics it gives. -/
  ids : List String
  severity : Severity
  /-- Examines the crate of a context. An error is the reason why the checker could not finish. -/
  examine : CheckerContext → CheckerContext × Except String (List Diagnostic)

namespace Checker

def internalErrorId : String := "checkerInternalError"

def internalError (name reason : String) (crate : Crate) : Diagnostic where
  id := internalErrorId
  message := "Checker '" ++ name ++ "' failed: " ++ reason
  severity := .information
  location := { file := crate.file }
  checker := name

/-- Runs a checker. What it reports is subject to the suppressions; that it could not finish is
reported in any case. -/
def run (checker : Checker) (suppressions : Suppressions) (context : CheckerContext) :
    CheckerContext × List Diagnostic :=
  match checker.examine context with
  | (context', .ok diagnostics) => (context', suppressions.keep diagnostics)
  | (context', .error reason) => (context', [internalError checker.name reason context.crate])

def cancelledStat (name : String) : String :=
  name ++ "_cancelled"

end Checker

abbrev Registry : Type := Table String Checker

namespace Registry

/-- Adds a checker. One of the same name gives up its place to it. -/
def register (registry : Registry) (checker : Checker) : Registry :=
  registry.set checker.name checker

def ofList (checkers : List Checker) : Registry :=
  checkers.foldl register {}

def names (registry : Registry) : List String :=
  registry.keys.mergeSort fun name name' => decide (name ≤ name')

/-- The checkers of a run: those of the given names that are known, or all. -/
def select (registry : Registry) : Option (List String) → List Checker
  | none => registry.values
  | some names => names.filterMap registry.get?

end Registry
end AssocLint
