import AssocLint.Checker
import AssocLint.Failure
import AssocLint.Report

/-!
# Configurations

A configuration holds what a user may set. It is first written down and then checked: its policy and
its format are words until `Config.check` finds that they are known.
-/

namespace AssocLint

structure Config where
  policy : String := Policy.lenient.keyword
  workers : Int := 1
  /-- The names of the checkers to run; none means all. -/
  checkers : Option (List String) := none
  /-- The ids that are silenced everywhere. -/
  suppress : List String := []
  /-- The ids that are silenced in the files of a pattern. -/
  fileSuppressions : Table String (List String) := {}
  format : String := ReportFormat.gcc.keyword

/-- Settings that replace those of a configuration. -/
structure Overrides where
  policy : Option String := none
  workers : Option Int := none
  checkers : Option (List String) := none
  suppress : Option (List String) := none
  fileSuppressions : Option (Table String (List String)) := none
  format : Option String := none

namespace Config

def failure (source message : String) : Failure where
  kind := .config
  message := message
  place := { file := source }

/-- Refuses a word that is not among the known ones. -/
def checkWord (source key word : String) (known : List String) : Except Failure Unit :=
  if known.contains word then .ok ()
  else .error (failure source (key ++ " must be one of " ++ ", ".intercalate known ++ ", got " ++
    Text.quoted word))

/-- Refuses values that no run can use. -/
def check (config : Config) (source : String) : Except Failure Unit := do
  checkWord source "generic_policy" config.policy (Policy.all.map Policy.keyword)
  checkWord source "output_format" config.format (ReportFormat.all.map ReportFormat.keyword)
  if config.workers < 1 then
    .error (failure source ("workers must be at least 1, got " ++ toString config.workers))
  else .ok ()

/-- Warnings about values that a run can use but hardly wants. -/
def warnings (config : Config) : List String :=
  let noCheckers :=
    if config.checkers == some [] then ["checkers is an empty list: nothing will run"] else []
  let noIds := config.fileSuppressions.entries.filterMap fun (pattern, ids) =>
    if ids.isEmpty then some ("file_suppressions[" ++ Text.quoted pattern ++ "] lists no error ids")
    else none
  let manyWorkers :=
    if config.workers > 64 then ["workers=" ++ toString config.workers ++ " is unusually high"]
    else []
  noCheckers ++ noIds ++ manyWorkers

/-- A configuration with some of its settings replaced. -/
def override (config : Config) (overrides : Overrides) : Config where
  policy := overrides.policy.getD config.policy
  workers := overrides.workers.getD config.workers
  checkers := overrides.checkers.or config.checkers
  suppress := overrides.suppress.getD config.suppress
  fileSuppressions := overrides.fileSuppressions.getD config.fileSuppressions
  format := overrides.format.getD config.format

def options (config : Config) : Options :=
  [("generic_policy", .string config.policy), ("workers", .int config.workers)]

def suppressions (config : Config) : Suppressions :=
  config.fileSuppressions.entries.foldl
    (fun suppressions (pattern, ids) =>
      ids.foldl (fun suppressions id => suppressions.addFiles id pattern) suppressions)
    (config.suppress.foldl Suppressions.addEverywhere {})

end Config
end AssocLint
