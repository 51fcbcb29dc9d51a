import AssocLint.Checker.AssocType
import AssocLint.CommandLine.Request
import AssocLint.Config.Reader
import AssocLint.Dump.Reader
import AssocLint.Files
import AssocLint.Runner

/-!
# The command line

`CommandLine.run` answers a command line: it says what is written to the two streams and to a file,
and how the program ends. The status is 1 where a problem was found, 2 where the request could not
be carried out and 0 otherwise.
-/

namespace AssocLint

/-- How the program ends: with a status, or early because of bytes that are no text. -/
inductive Ending where
  | status (code : Nat)
  | crash (fault : Utf8.Fault)
  deriving DecidableEq, Repr

/-- What the program does. -/
structure Outcome where
  ending : Ending
  output : String := ""
  errors : String := ""
  /-- The file that is written, and its text. -/
  written : Option (PathName × String) := none
  /-- The error that ended the writing early, where one did. -/
  cutOff : Option FileError := none
  deriving DecidableEq, Repr

namespace CommandLine

def version : String := "0.1.0"

def logLine (level source message : String) : String :=
  "[" ++ level ++ "] " ++ source ++ ": " ++ message ++ "\n"

def fail (errors : String) : Outcome :=
  { ending := .status 2, errors := errors }

def failLogged (message : String) : Outcome :=
  fail (logLine "ERROR" "hirlint" message)

/-- The file that a text is written to, where one is named. A lone dash is the standard output. -/
def outputFile? (files : Files) (destination : Option String) : Option PathName :=
  (destination.filter (· != "-")).map fun file => files.expand (.ofString file)

/-- Writes a text to an output that is open. -/
def write (files : Files) (file : Option PathName) (status : Nat) (text : String) : Outcome :=
  let written (base : Outcome) (text : String) : Outcome :=
    match file with
    | none => { base with output := text }
    | some name => { base with written := some (name, text) }
  match files.shortfall? file text with
  | none => written { ending := .status status } text
  | some (error, part) =>
    written { failLogged error.describe with cutOff := some error } part

/-- Writes a text to the standard output, or to a file where one is named. A file is made even for
an empty text. -/
def deliver (files : Files) (destination : Option String) (status : Nat) (text : String) :
    Outcome :=
  let file := outputFile? files destination
  match file.bind files.refusal? with
  | some (error, name) => failLogged (error.render name)
  | none => write files file status text

/-! ## Dumps -/

def loadDump (files : Files) (file : String) : Except Failure Crate :=
  let name := PathName.ofString file
  let unreadable (reason : String) : Failure :=
    { kind := .dump, message := "cannot read dump: " ++ reason, code := .dumpUnreadable
      place := { file := name.render } }
  match files.read name with
  | .error error => .error (unreadable error.text)
  | .ok bytes =>
    match Utf8.readLines bytes with
    | .error fault => .error (unreadable fault.message)
    | .ok text => Crate.ofDump text name.render

def describeBlock (block : ImplBlock) : List String :=
  let entries := block.index.entries.map fun entry =>
    "  " ++ entry.binding.render ++ if entry.isSupported then "" else "  (unsupported)"
  let methods := block.methods.map fun method =>
    "  fn " ++ method.name ++ ": " ++ toString method.occurrences.length ++ " occurrence(s)"
  ["", block.span.render ++ ": " ++ block.describe] ++ entries ++ methods

def describeCrate (crate : Crate) : List String :=
  let marks :=
    if crate.marks.isEmpty then []
    else ["", toString crate.marks.length ++ " inline suppression(s)"]
  ["crate " ++ crate.file ++ ": " ++ toString crate.impls.length ++ " impl block(s)"] ++
    crate.impls.flatMap describeBlock ++ marks

def unlines (lines : List String) : String :=
  String.join (lines.map (· ++ "\n"))

def dump (files : Files) (file : String) (destination : Option String) : Outcome :=
  match loadDump files file with
  | .error failure => fail (failure.render ++ "\n")
  | .ok crate => deliver files destination 0 (unlines (describeCrate crate))

/-! ## Checkers -/

/-- A text of at least 28 characters. -/
def column (text : String) : String :=
  text.pushn ' ' (28 - text.length)

def describeChecker (checker : Checker) : List String :=
  let ids := checker.ids.mergeSort fun id id' => decide (id ≤ id')
  ["  " ++ column checker.name ++ " " ++ checker.description,
    "  " ++ column "" ++ " IDs: " ++ ", ".intercalate ids,
    "  " ++ column "" ++ " severity: " ++ checker.severity.keyword]

def checkers (files : Files) (registry : Registry) : Outcome :=
  write files none 0 (unlines ((registry.names.filterMap registry.get?).flatMap describeChecker))

/-! ## Checking -/

def defaultConfig : String := "hirlint.json"

/-- The configuration file of a request, and what messages call it: the one that the request names,
or the default one where there is such a file. -/
def configFile (files : Files) (requested : Option String) : Option (PathName × String) :=
  match requested.filter (!·.isEmpty) with
  | some file =>
    let name := PathName.ofString file
    some (name, name.render)
  | none =>
    let name := PathName.ofString defaultConfig
    match files.isFile name with
    | .ok true => some (name, (files.inDirectory defaultConfig).render)
    | _ => none

/-- Why the system does not tell whether there is a default configuration, where that is asked. -/
def searchError? (files : Files) (requested : Option String) : Option FileError :=
  match requested.filter (!·.isEmpty), files.isFile (PathName.ofString defaultConfig) with
  | none, .error error => some error
  | _, _ => none

def loadConfig (files : Files) (name : PathName) (source : String) :
    Except Config.Refusal Config :=
  match files.read name with
  | .error error =>
    .error (.failure { Config.failure source ("cannot read configuration: " ++ error.text) with
      code := .configUnreadable })
  | .ok bytes => Config.ofBytes source bytes

/-- The configuration in the file of a request, with the warnings that are logged about it, or the
default where there is no file. -/
def baseConfig (files : Files) (requested : Option String) :
    Except Config.Refusal (Config × String) :=
  match configFile files requested with
  | none => .ok ({}, "")
  | some (name, source) => do
    let config ← loadConfig files name source
    let warnings := config.warnings.map fun warning =>
      logLine "WARNI" "hirlint.config" (source ++ ": " ++ warning)
    return (config, String.join warnings)

/-- The configuration of a file, with the settings of a request in place of its own and the ids of
the request added to its ids. -/
def applyRequest (config : Config) (request : CheckRequest) : Config :=
  config.override
    { policy := request.policy
      workers := request.workers
      checkers := request.checkers
      format := request.format
      suppress := request.suppress.map (config.suppress ++ ·) }

/-- The status of a report: 1 for a problem, 2 for a checker that could not finish. -/
def reportStatus (report : Report) : Nat :=
  if report.diagnostics.any (·.severity != .information) then 1
  else if report.diagnostics.any (·.id == Checker.internalErrorId) then 2
  else 0

def reportText (report : Report) (format : ReportFormat) : String :=
  let body := report.render format
  if body.isEmpty then "" else body ++ "\n"

/-- Runs checkers over dumps with a configuration that has been checked. -/
def checkWith (files : Files) (registry : Registry) (config : Config) (request : CheckRequest) :
    Outcome :=
  let unknown := (config.checkers.getD []).filter fun name => (registry.get? name).isNone
  if !unknown.isEmpty then
    failLogged ("unknown checker(s): " ++ ", ".intercalate unknown ++ " (available: " ++
      ", ".intercalate registry.names ++ ")")
  else
    let runner : Runner :=
      { registry, suppressions := config.suppressions, options := config.options }
    match (runner.runAll (loadDump files) config.checkers request.dumps).1 with
    | .error failure => fail (failure.render ++ "\n")
    | .ok report =>
      let format := (ReportFormat.ofKeyword? config.format).getD .summary
      deliver files request.output (reportStatus report) (reportText report format)

/-- Runs checkers over dumps, where it is known whether there is a configuration. -/
def checkConfigured (files : Files) (registry : Registry) (request : CheckRequest) : Outcome :=
  match baseConfig files request.config with
  | .error (.failure failure) => fail (failure.render ++ "\n")
  | .error (.undecodable fault) => { ending := .crash fault }
  | .ok (base, warnings) =>
    let config := applyRequest base request
    let outcome :=
      match config.check "" with
      | .error failure => fail (failure.render ++ "\n")
      | .ok () => checkWith files registry config request
    { outcome with errors := warnings ++ outcome.errors }

def check (files : Files) (registry : Registry) (request : CheckRequest) : Outcome :=
  match searchError? files request.config with
  | some error => failLogged (error.render (files.inDirectory defaultConfig))
  | none => checkConfigured files registry request

/-! ## Requests -/

def answer (files : Files) (registry : Registry) : Request → Outcome
  | .nothing => fail (Command.usage none ++ "\n")
  | .help command => { ending := .status 0, output := Command.usage command ++ "\n" }
  | .version => { ending := .status 0, output := "hirlint " ++ version ++ "\n" }
  | .check request => check files registry request
  | .checkers => checkers files registry
  | .dump file destination => dump files file destination

def run (files : Files) (words : List String) : Outcome :=
  match Request.ofWords words with
  | .ok request | .error (.request request) => answer files Registry.default request
  | .error (.misuse command message) =>
    fail (Command.usage command ++ "\n" ++ Command.program command ++ ": error: " ++ message ++
      "\n")

end CommandLine
end AssocLint
