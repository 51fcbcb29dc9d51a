import AssocLint.Number.Binary64
import AssocLint.Text.Quoted

/-!
# JSON values

`Json` is a JSON document: objects keep the order of their fields and hold every name once,
integers are exact, and a number written with a fraction or an exponent is a `Binary64`.

`Json.render` writes a value on one line in ASCII. `Json.inspect` writes it the way messages show a
value that is not what they expect.
-/

namespace AssocLint

inductive Json where
  | null
  | bool (value : Bool)
  | int (value : Int)
  | float (value : Binary64)
  | string (value : String)
  | array (items : List Json)
  | object (fields : List (String × Json))
  deriving Inhabited

namespace Json

/-- Sets a field: in its place where the name is taken, at the end where it is new. -/
def setField (fields : List (String × Json)) (name : String) (value : Json) :
    List (String × Json) :=
  match fields with
  | [] => [(name, value)]
  | field :: rest =>
    if field.1 == name then (name, value) :: rest else field :: setField rest name value

def field? (name : String) : Json → Option Json
  | .object fields => fields.lookup name
  | _ => none

/-! ## Writing -/

def escapeUnit (unit : Nat) : List Char :=
  '\\' :: 'u' :: Text.hexDigits 4 unit

/-- One character of a string. Everything outside printable ASCII is escaped, beyond the first
65536 code points as a surrogate pair. -/
def escapeChar (c : Char) : List Char :=
  if c == '"' || c == '\\' then ['\\', c]
  else if c == '\n' then ['\\', 'n']
  else if c == '\r' then ['\\', 'r']
  else if c == '\t' then ['\\', 't']
  else if c == '\x0c' then ['\\', 'f']
  else if c == '\x08' then ['\\', 'b']
  else if 0x20 ≤ c.toNat && c.toNat < 0x7f then [c]
  else if c.toNat < 0x10000 then escapeUnit c.toNat
  else
    let offset := c.toNat - 0x10000
    escapeUnit (0xd800 + offset / 0x400) ++ escapeUnit (0xdc00 + offset % 0x400)

def renderString (text : String) : String :=
  String.ofList ('"' :: text.toList.flatMap escapeChar ++ ['"'])

/-- A floating-point number; infinities and not-a-number by their names. -/
def renderFloat : Binary64 → String
  | .nan => "NaN"
  | .infinity negative => if negative then "-Infinity" else "Infinity"
  | number => number.render

mutual

/-- A value on one line, with a space after every comma and colon. -/
def render : Json → String
  | .null => "null"
  | .bool value => if value then "true" else "false"
  | .int value => toString value
  | .float value => renderFloat value
  | .string value => renderString value
  | .array items => "[" ++ ", ".intercalate (renderItems items) ++ "]"
  | .object fields => "\x7b" ++ ", ".intercalate (renderFields fields) ++ "\x7d"
termination_by structural value => value

def renderItems : List Json → List String
  | [] => []
  | item :: rest => item.render :: renderItems rest
termination_by structural items => items

def renderFields : List (String × Json) → List String
  | [] => []
  | (name, value) :: rest => (renderString name ++ ": " ++ value.render) :: renderFields rest
termination_by structural fields => fields

end

/-! ## Showing a value in a message -/

/-- The kind of a value as messages name it. -/
def kindName : Json → String
  | .null => "NoneType"
  | .bool _ => "bool"
  | .int _ => "int"
  | .float _ => "float"
  | .string _ => "str"
  | .array _ => "list"
  | .object _ => "dict"

mutual

def inspect : Json → String
  | .null => "None"
  | .bool value => if value then "True" else "False"
  | .int value => toString value
  | .float value => value.render
  | .string value => Text.quoted value
  | .array items => "[" ++ ", ".intercalate (inspectItems items) ++ "]"
  | .object fields => "\x7b" ++ ", ".intercalate (inspectFields fields) ++ "\x7d"
termination_by structural value => value

def inspectItems : List Json → List String
  | [] => []
  | item :: rest => item.inspect :: inspectItems rest
termination_by structural items => items

def inspectFields : List (String × Json) → List String
  | [] => []
  | (name, value) :: rest => (Text.quoted name ++ ": " ++ value.inspect) :: inspectFields rest
termination_by structural fields => fields

end

end Json
end AssocLint
