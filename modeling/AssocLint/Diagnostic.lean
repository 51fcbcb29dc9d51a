import AssocLint.Json

/-!
# Diagnostics

What the program reports: one problem with its place in the source. A diagnostic is written as a
line for people (`Diagnostic.render`) or as a JSON record on one line (`Diagnostic.jsonLine`).
-/

namespace AssocLint

inductive Severity
  | error
  | warning
  | style
  | performance
  | portability
  | information
  deriving DecidableEq, Repr

namespace Severity

def keyword : Severity → String
  | .error => "error"
  | .warning => "warning"
  | .style => "style"
  | .performance => "performance"
  | .portability => "portability"
  | .information => "information"

def all : List Severity :=
  [.error, .warning, .style, .performance, .portability, .information]

def ofKeyword? (word : String) : Option Severity :=
  all.find? fun severity => severity.keyword == word

end Severity

structure Location where
  file : String := ""
  line : Int := 0
  column : Int := 0
  deriving DecidableEq, Repr

/-- A location as it is shown; column zero is none. -/
def Location.render (location : Location) : String :=
  let line := location.file ++ ":" ++ toString location.line
  if location.column == 0 then line else line ++ ":" ++ toString location.column

structure Diagnostic where
  /-- The kind of problem, by which it can be silenced. -/
  id : String
  message : String
  severity : Severity
  location : Location
  /-- The byte offsets where the place begins and ends. -/
  bytes : Int × Int := (0, 0)
  /-- The name of the checker that found the problem. -/
  checker : String := ""
  addon : String := "hirlint"
  /-- What to do about the problem. -/
  extra : String := ""
  /-- The facts behind the message, which are not written. -/
  evidence : List (String × String) := []
  deriving DecidableEq, Repr

namespace Diagnostic

/-- A diagnostic on one line for people. -/
def render (diagnostic : Diagnostic) : String :=
  diagnostic.location.render ++ ": " ++ diagnostic.severity.keyword ++ ": " ++
    diagnostic.message ++ " [" ++ diagnostic.id ++ "]"

def toJson (diagnostic : Diagnostic) : Json :=
  .object
    [("file", .string diagnostic.location.file),
      ("linenr", .int diagnostic.location.line),
      ("column", .int diagnostic.location.column),
      ("byteSpan", .array [.int diagnostic.bytes.1, .int diagnostic.bytes.2]),
      ("severity", .string diagnostic.severity.keyword),
      ("message", .string diagnostic.message),
      ("addon", .string diagnostic.addon),
      ("errorId", .string diagnostic.id),
      ("extra", .string diagnostic.extra)]

def jsonLine (diagnostic : Diagnostic) : String :=
  diagnostic.toJson.render

end Diagnostic
end AssocLint
