import AssocLint.Config
import AssocLint.Json.Reader
import AssocLint.Text.Utf8

/-!
# Reading configurations

A configuration is written as a JSON object. Reading refuses, in this order, a key that is not
known, a value of the wrong kind and a value that no run can use.
-/

namespace AssocLint
namespace Config

def keys : List String :=
  ["checkers", "file_suppressions", "generic_policy", "output_format", "suppress", "workers"]

/-! ## Values of one kind -/

def wrongKind {α : Type} (source key kind : String) (value : Json) : Except Failure α :=
  .error (failure source (key ++ " must be " ++ kind ++ ", got " ++ value.kindName))

def readString (source key : String) : Json → Except Failure String
  | .string text => .ok text
  | value => wrongKind source key "str" value

def readInt (source key : String) : Json → Except Failure Int
  | .int value => .ok value
  | value => wrongKind source key "int" value

def readStrings (source key : String) : Json → Except Failure (List String)
  | .array items => items.mapM (readString source (key ++ "[]"))
  | value => wrongKind source key "list" value

def readPatterns (source key : String) : Json → Except Failure (Table String (List String))
  | .object fields =>
    fields.foldlM
      (fun table (pattern, ids) => do
        let ids ← readStrings source (key ++ "[" ++ Text.quoted pattern ++ "]") ids
        return table.set pattern ids)
      {}
  | value => wrongKind source key "dict" value

/-- The value of a key, or what stands for it where the key is missing. -/
def readField {α : Type} (fields : List (String × Json)) (key : String) (default : α)
    (read : String → Json → Except Failure α) : Except Failure α :=
  match fields.lookup key with
  | none => .ok default
  | some value => read key value

/-! ## Objects and files -/

def checkKeys (source : String) (fields : List (String × Json)) : Except Failure Unit :=
  let unknown := (fields.map (·.1)).filter (!keys.contains ·)
  if unknown.isEmpty then .ok ()
  else
    let sorted := unknown.mergeSort fun key key' => decide (key ≤ key')
    .error { failure source ("unknown configuration key(s): " ++ ", ".intercalate sorted) with
      code := .configUnknownKey
      hint := "valid keys are " ++ ", ".intercalate keys }

def ofFields (source : String) (fields : List (String × Json)) : Except Failure Config := do
  checkKeys source fields
  let default : Config := {}
  let policy ← readField fields "generic_policy" default.policy (readString source)
  let workers ← readField fields "workers" default.workers (readInt source)
  let checkers ← readField fields "checkers" default.checkers fun key value =>
    match value with
    | .null => .ok none
    | value => (readStrings source key value).map some
  let suppress ← readField fields "suppress" default.suppress (readStrings source)
  let fileSuppressions ←
    readField fields "file_suppressions" default.fileSuppressions (readPatterns source)
  let format ← readField fields "output_format" default.format (readString source)
  let config := { policy, workers, checkers, suppress, fileSuppressions, format }
  config.check source
  return config

def ofText (source text : String) : Except Failure Config :=
  match Json.read text with
  | .error fault =>
    .error { failure source ("invalid JSON: " ++ fault.problem.message) with
      code := .configUnreadable
      place := ⟨source, fault.line, fault.column⟩ }
  | .ok (.object fields) => ofFields source fields
  | .ok _ => .error (failure source "configuration must be a JSON object")

/-- Why there is no configuration: a failure, or bytes that are no text. -/
inductive Refusal where
  | failure (failure : Failure)
  | undecodable (fault : Utf8.Fault)

def ofBytes (source : String) (bytes : List UInt8) : Except Refusal Config :=
  match Utf8.readLines bytes with
  | .error fault => .error (.undecodable fault)
  | .ok text => (ofText source text).mapError .failure

end Config
end AssocLint
