import AssocLint.CommandLine.Arguments
import AssocLint.Number.Literal
import AssocLint.Reference.Equivalence
import AssocLint.Report

/-!
# Requests

What the words of the command line ask for. There are three commands: `check` runs checkers over
dumps, `checkers` lists the checkers and `dump` shows what a dump holds. `Request.ofWords` reads a
request, or says which part of the command line cannot be used.
-/

namespace AssocLint

structure CheckRequest where
  dumps : List String := []
  config : Option String := none
  checkers : Option (List String) := none
  suppress : Option (List String) := none
  policy : Option String := none
  workers : Option Int := none
  format : Option String := none
  output : Option String := none
  deriving DecidableEq, Repr

structure DumpRequest where
  dump : Option String := none
  output : Option String := none
  deriving DecidableEq, Repr

inductive Command
  | check
  | checkers
  | dump
  deriving DecidableEq, Repr

inductive Request where
  | nothing
  /-- How to use the program, or one of its commands. -/
  | help (command : Option Command)
  | version
  | check (request : CheckRequest)
  | checkers
  | dump (file : String) (output : Option String)
  deriving DecidableEq, Repr

/-- Why reading a command line ends before its last word: with a request that needs no more, or with
a message about the program or one of its commands. -/
inductive RequestEnd where
  | request (request : Request)
  | misuse (command : Option Command) (message : String)
  deriving DecidableEq, Repr

namespace Command

def keyword : Command → String
  | .check => "check"
  | .checkers => "checkers"
  | .dump => "dump"

def all : List Command :=
  [.check, .checkers, .dump]

def ofKeyword? (word : String) : Option Command :=
  all.find? fun command => command.keyword == word

/-! ## Options -/

def helpOption : OptionSyntax := ⟨["-h", "--help"], .none⟩

def versionOption : OptionSyntax := ⟨["--version"], .none⟩

/-- Asks for a longer log. Only warnings and errors are part of the outcome, so nothing comes of
it. -/
def verboseOption : OptionSyntax := ⟨["-v", "--verbose"], .none⟩

def configOption : OptionSyntax := ⟨["--config"], .one⟩

def checkersOption : OptionSyntax := ⟨["--checkers"], .several⟩

def suppressOption : OptionSyntax := ⟨["--suppress"], .several⟩

def policyOption : OptionSyntax := ⟨["--policy"], .one⟩

def workersOption : OptionSyntax := ⟨["--workers"], .one⟩

def formatOption : OptionSyntax := ⟨["-f", "--format"], .one⟩

def outputOption : OptionSyntax := ⟨["-o", "--output"], .one⟩

def topSyntax : CommandSyntax where
  options := [helpOption, versionOption, verboseOption]
  operands := .command

def commandSyntax : Command → CommandSyntax
  | .check =>
    { options := [helpOption, configOption, checkersOption, suppressOption, policyOption,
        workersOption, formatOption, outputOption]
      operands := .several }
  | .checkers => { options := [helpOption], operands := .none }
  | .dump => { options := [helpOption, outputOption], operands := .one }

/-- What a command line of the program, or of one of its commands, looks like. -/
def usage : Option Command → String
  | none => "usage: hirlint [-h] [--version] [-v] <command> ..."
  | some .check => "usage: hirlint check [-h] [--config FILE] [--checkers NAME [NAME ...]] " ++
      "[--suppress ID [ID ...]] [--policy POLICY] [--workers N] [-f FORMAT] [-o FILE] " ++
      "DUMP [DUMP ...]"
  | some .checkers => "usage: hirlint checkers [-h]"
  | some .dump => "usage: hirlint dump [-h] [-o FILE] DUMP"

def program : Option Command → String
  | none => "hirlint"
  | some command => "hirlint " ++ command.keyword

end Command

namespace Request

open Command

/-! ## Values -/

def refuse {α : Type} (command : Option Command) (name message : String) : Except RequestEnd α :=
  .error (.misuse command ("argument " ++ name ++ ": " ++ message))

/-- The message for a word that is not among the known ones. -/
def invalidChoice (word : String) (known : List String) : String :=
  "invalid choice: " ++ Text.quoted word ++ " (choose from " ++
    ", ".intercalate (known.map Text.quoted) ++ ")"

/-- A word of an option, if it is among the known ones. -/
def readChoice (option : OptionSyntax) (known : List String) (word : String) :
    Except RequestEnd String :=
  if known.contains word then .ok word
  else refuse (some .check) option.render (invalidChoice word known)

def readInt (option : OptionSyntax) (word : String) : Except RequestEnd Int :=
  match Literal.integer? word.toList with
  | some value => .ok value
  | none => refuse (some .check) option.render ("invalid int value: " ++ Text.quoted word)

/-! ## Commands -/

def handleAll {α : Type} (handle : α → ArgumentEvent → Except RequestEnd α) (command : Option Command)
    (start : α) (arguments : Arguments) : Except RequestEnd (α × List String) := do
  let value ← arguments.events.foldlM handle start
  let unused ← arguments.ending.mapError (.misuse command)
  return (value, unused)

def missingDump {α : Type} (command : Command) : Except RequestEnd α :=
  .error (.misuse (some command) "the following arguments are required: DUMP")

def handleCheck (request : CheckRequest) : ArgumentEvent → Except RequestEnd CheckRequest
  | .operands dumps => .ok { request with dumps := dumps }
  | .option option arguments =>
    if option == helpOption then .error (.request (.help (some .check)))
    else if option == checkersOption then .ok { request with checkers := some arguments }
    else if option == suppressOption then .ok { request with suppress := some arguments }
    else
      match arguments with
      | [] => .ok request
      | word :: _ =>
        if option == configOption then .ok { request with config := some word }
        else if option == outputOption then .ok { request with output := some word }
        else if option == workersOption then do
          return { request with workers := some (← readInt option word) }
        else if option == policyOption then do
          let known := Policy.all.map Policy.keyword
          return { request with policy := some (← readChoice option known word) }
        else if option == formatOption then do
          let known := ReportFormat.all.map ReportFormat.keyword
          return { request with format := some (← readChoice option known word) }
        else .ok request

def handleDump (request : DumpRequest) : ArgumentEvent → Except RequestEnd DumpRequest
  | .operands dumps => .ok { request with dump := dumps.head? }
  | .option option arguments =>
    if option == helpOption then .error (.request (.help (some .dump)))
    else .ok { request with output := arguments.head?.or request.output }

def handleCheckers (_ : Unit) : ArgumentEvent → Except RequestEnd Unit
  | .operands _ => .ok ()
  | .option _ _ => .error (.request (.help (some .checkers)))

/-- Reads what follows the word for a command, and the words that nothing takes. -/
def ofCommand (command : Command) (words : List String) :
    Except RequestEnd (Request × List String) := do
  let arguments := command.commandSyntax.parse words
  match command with
  | .check =>
    let (request, unused) ← handleAll handleCheck (some command) {} arguments
    if request.dumps.isEmpty then missingDump command else return (.check request, unused)
  | .checkers =>
    let (_, unused) ← handleAll handleCheckers (some command) () arguments
    return (.checkers, unused)
  | .dump =>
    let (request, unused) ← handleAll handleDump (some command) {} arguments
    match request.dump with
    | none => missingDump command
    | some file => return (.dump file request.output, unused)

def handleTop (state : Request × List String) :
    ArgumentEvent → Except RequestEnd (Request × List String)
  | .option option _ =>
    if option == helpOption then .error (.request (.help none))
    else if option == versionOption then .error (.request .version)
    else .ok state
  | .operands [] => .ok state
  | .operands (word :: words) =>
    match Command.ofKeyword? word with
    | some command => ofCommand command words
    | none => refuse none "<command>" (invalidChoice word (Command.all.map Command.keyword))

def ofWords (words : List String) : Except RequestEnd Request := do
  let ((request, unused), unused') ←
    handleAll handleTop none (.nothing, []) (Command.topSyntax.parse words)
  match unused' ++ unused with
  | [] => return request
  | unused => .error (.misuse none ("unrecognized arguments: " ++ " ".intercalate unused))

end Request
end AssocLint
