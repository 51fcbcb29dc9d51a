import AssocLint.Json

/-!
# Failures

What stops the program before it can report anything: a dump, a path or a configuration that cannot
be used. A failure has a stable code, a message, the place where it was found and sometimes a hint.
-/

namespace AssocLint

inductive FailureKind
  | dump
  | dumpText
  | dumpShape
  | path
  | config
  deriving DecidableEq, Repr

/-- The stable codes: from 1000 for the text of dumps, from 2000 for their shape, from 3000 for
paths and from 4000 for configurations. -/
inductive FailureCode
  | dumpSyntax
  | dumpEmpty
  | dumpUnreadable
  | dumpUnexpectedForm
  | dumpMissingField
  | dumpBadAtom
  | dumpUnknownKeyword
  | pathSyntax
  | configUnreadable
  | configUnknownKey
  | configBadValue
  deriving DecidableEq, Repr

namespace FailureCode

def number : FailureCode → Nat
  | .dumpSyntax => 1000
  | .dumpEmpty => 1001
  | .dumpUnreadable => 1002
  | .dumpUnexpectedForm => 2000
  | .dumpMissingField => 2001
  | .dumpBadAtom => 2002
  | .dumpUnknownKeyword => 2003
  | .pathSyntax => 3000
  | .configUnreadable => 4000
  | .configUnknownKey => 4001
  | .configBadValue => 4002

def render (code : FailureCode) : String :=
  "HIRLINT-" ++ toString code.number

end FailureCode

/-- The code of a failure that names none of its own. -/
def FailureKind.defaultCode : FailureKind → FailureCode
  | .dump | .dumpText => .dumpSyntax
  | .dumpShape => .dumpUnexpectedForm
  | .path => .pathSyntax
  | .config => .configBadValue

/-- Where a failure was found: a file, a line and a column, of which any may be missing. -/
structure Place where
  file : String := ""
  line : Int := 0
  column : Int := 0
  deriving DecidableEq, Repr

/-- A place as messages show it; a column counts only after a line. -/
def Place.render (place : Place) : String :=
  if place.file.isEmpty && place.line == 0 then "<unknown location>"
  else
    let file := if place.file.isEmpty then [] else [place.file]
    let column := if place.column > 0 then [toString place.column] else []
    let line := if place.line > 0 then toString place.line :: column else []
    ":".intercalate (file ++ line)

structure Failure where
  kind : FailureKind
  message : String
  code : FailureCode := kind.defaultCode
  place : Place := {}
  hint : String := ""
  deriving DecidableEq, Repr

namespace Failure

/-- A failure on one line, and its hint on another. -/
def render (failure : Failure) : String :=
  let line := failure.place.render ++ ": error[" ++ failure.code.render ++ "]: " ++ failure.message
  if failure.hint.isEmpty then line else line ++ "\nhint: " ++ failure.hint

def toJson (failure : Failure) : Json :=
  .object
    [("code", .string failure.code.render),
      ("message", .string failure.message),
      ("location", .object
        [("file", .string failure.place.file),
          ("line", .int failure.place.line),
          ("column", .int failure.place.column)]),
      ("hint", .string failure.hint)]

/-- Path text that is refused, with the reason where one is known. -/
def ofPath (text reason : String) (place : Place) : Failure :=
  let message := "invalid path " ++ Text.quoted text
  { kind := .path
    message := if reason.isEmpty then message else message ++ ": " ++ reason
    place }

end Failure
end AssocLint
