import AssocLint.Text.Quoted

/-!
# Arguments of a command line

A command takes options and at most one kind of further arguments, its operands. Reading the words
of a command line (`CommandSyntax.parse`) gives the events in their order: an option with its
arguments, or the operands. Whether the arguments are values that the command can use is not decided
here; whoever handles the events stops at the first one that cannot be used.

* A long option may be shortened as long as one option begins with what is written, and may carry
  its argument after an equals sign.
* A short option may carry its argument right behind it. Short options that take no argument may be
  written in one word; what is left when no option follows is not taken.
* All words after a lone `--` are arguments. A negative number, and a word with a space that begins
  no option, are arguments too.
* An option with several arguments takes all that follow it. The operands are the first arguments
  that no option takes, without a gap.
-/

namespace AssocLint

inductive Arity
  | none
  | one
  | several
  deriving DecidableEq, Repr

/-- An option by its names, of which a long one begins with two hyphens. -/
structure OptionSyntax where
  names : List String
  arity : Arity
  deriving DecidableEq, Repr

def OptionSyntax.render (option : OptionSyntax) : String :=
  "/".intercalate option.names

inductive Operands
  | none
  | one
  | several
  /-- A word and everything after it, options too. -/
  | command
  deriving DecidableEq, Repr

structure CommandSyntax where
  options : List OptionSyntax
  operands : Operands

/-- A text in one word with an option, and whether an equals sign stands between them. -/
structure Attached where
  byEquals : Bool
  text : String
  deriving DecidableEq, Repr

inductive Word where
  | argument (text : String)
  /-- The first `--`. -/
  | divider
  /-- An option: the word, the name that is meant and what is attached to it. -/
  | option (text : String) (option : OptionSyntax) (name : String) (attached : Option Attached)
  /-- What looks like an option and is none. -/
  | unknown (text : String)
  deriving DecidableEq, Repr

inductive ArgumentEvent where
  | option (option : OptionSyntax) (arguments : List String)
  | operands (arguments : List String)
  deriving DecidableEq, Repr

/-- Events, and how they end: with words that nothing takes, or with a message. -/
structure Arguments where
  events : List ArgumentEvent
  ending : Except String (List String)

namespace CommandSyntax

/-! ## Words -/

def names (command : CommandSyntax) : List (String × OptionSyntax) :=
  command.options.flatMap fun option => option.names.map (·, option)

def cutEquals (text : List Char) : List Char × Option (List Char) :=
  match text.dropWhile (· != '=') with
  | [] => (text, none)
  | _ :: value => (text.takeWhile (· != '='), some value)

def isNegativeNumber (text : List Char) : Bool :=
  match text with
  | '-' :: number =>
    let number := if number.getLast? == some '\n' then number.dropLast else number
    let fraction := number.dropWhile Text.isDigit
    match fraction with
    | [] => !number.isEmpty
    | '.' :: digits => !digits.isEmpty && digits.all Text.isDigit
    | _ => false
  | _ => false

/-- The options that a word may be short for. -/
def candidates (command : CommandSyntax) (text : List Char) : List Word :=
  match text with
  | '-' :: '-' :: _ =>
    let (name, value) := cutEquals text
    command.names.filterMap fun (name', option) =>
      if name.isPrefixOf name'.toList then
        some (.option (String.ofList text) option name' (value.map (⟨true, String.ofList ·⟩)))
      else none
  | _ =>
    command.names.filterMap fun (name', option) =>
      if name'.toList == text.take 2 then
        let rest := String.ofList (text.drop 2)
        some (.option (String.ofList text) option name' (some ⟨false, rest⟩))
      else if text.isPrefixOf name'.toList then
        some (.option (String.ofList text) option name' none)
      else none

/-- The option that a word names in full, without or with an argument. -/
def namedIn? (command : CommandSyntax) (text : String) : Option Word :=
  match command.names.lookup text with
  | some option => some (.option text option text none)
  | none =>
    match cutEquals text.toList with
    | (_, none) => none
    | (name, some value) =>
      (command.names.lookup (String.ofList name)).map fun option =>
        .option text option (String.ofList name) (some ⟨true, String.ofList value⟩)

def optionName : Word → String
  | .option _ _ name _ => name
  | _ => ""

/-- Reads a word that is not a lone `--`. -/
def readWord (command : CommandSyntax) (text : String) : Except String Word :=
  if !text.toList.head?.any (· == '-') then .ok (.argument text)
  else
    match command.namedIn? text with
    | some word => .ok word
    | none =>
      if text == "-" then .ok (.argument text)
      else
        match command.candidates text.toList with
        | [word] => .ok word
        | [] =>
          if isNegativeNumber text.toList || text.toList.contains ' ' then .ok (.argument text)
          else .ok (.unknown text)
        | words =>
          .error ("ambiguous option: " ++ text ++ " could match " ++
            ", ".intercalate (words.map optionName))

def readWords (command : CommandSyntax) : List String → Except String (List Word)
  | [] => .ok []
  | text :: rest =>
    if text == "--" then .ok (.divider :: rest.map .argument)
    else do
      let word ← command.readWord text
      return word :: (← readWords command rest)

/-! ## Events -/

def wordText : Word → String
  | .argument text => text
  | .divider => "--"
  | .option text _ _ _ => text
  | .unknown text => text

def isArgument : Word → Bool
  | .argument _ => true
  | _ => false

/-- Whether a word is an argument or the divider. -/
def isPlain : Word → Bool
  | .argument _ => true
  | .divider => true
  | _ => false

def aboutOption {α : Type} (option : OptionSyntax) (message : String) : Except String α :=
  .error ("argument " ++ option.render ++ ": " ++ message)

/-- How many of the words after an option are its arguments. -/
def takeArguments (option : OptionSyntax) (words : List Word) : Except String Nat :=
  let count := (words.takeWhile isArgument).length
  match option.arity with
  | .none => .ok 0
  | .one => if count == 0 then aboutOption option "expected one argument" else .ok 1
  | .several =>
    if count == 0 then aboutOption option "expected at least one argument" else .ok count

/-- What an option and the words after it give: events, the number of words that belong to it and
the part of its own word that nothing takes. -/
structure OptionReading where
  events : List ArgumentEvent
  count : Nat := 0
  unused : Option String := none

/-- Reads an option with nothing attached to it. -/
def readOption (option : OptionSyntax) (words : List Word) : Except String OptionReading := do
  let count ← takeArguments option words
  return { events := [.option option ((words.take count).map wordText)], count }

/-- Reads an option with a text attached to it: its argument, or more options of one character
each, of which all but the last take no argument. -/
def readAttached (command : CommandSyntax) (option : OptionSyntax) (isShort byEquals : Bool)
    (words : List Word) (text : List Char) : Except String OptionReading :=
  if option.arity != .none then .ok { events := [.option option [String.ofList text]] }
  else
    let ignored := aboutOption option
      ("ignored explicit argument " ++ Text.quoted (String.ofList text))
    match text with
    | [] => ignored
    | c :: rest =>
      if !isShort || byEquals || c == '-' then ignored
      else
        match command.names.lookup (String.ofList ['-', c]) with
        | none =>
          .ok { events := [.option option []], unused := some (String.ofList ('-' :: text)) }
        | some next => do
          let reading ←
            if rest.isEmpty then readOption next words
            else if rest.head? == some '=' then
              readAttached command next isShort true words rest.tail
            else readAttached command next isShort false words rest
          return { reading with events := .option option [] :: reading.events }
termination_by text.length
decreasing_by
  · simp only [List.length_tail, List.length_cons]
    omega
  · exact Nat.lt_succ_self _

/-- How many of the words at the start are the operands. -/
def countOperands (operands : Operands) (words : List Word) : Nat :=
  let start := (words.takeWhile (· == .divider)).length
  let found := (words.drop start).head?.any isArgument
  if !found then 0
  else
    match operands with
    | .none => 0
    | .one => start + 1 + ((words.drop (start + 1)).takeWhile (· == .divider)).length
    | .several => (words.takeWhile isPlain).length
    | .command => words.length

/-- The event of the operands. A `--` among them is left out, unless they are a command of their
own. -/
def operandsEvent (operands : Operands) (words : List Word) : ArgumentEvent :=
  let texts := words.map wordText
  .operands (if operands == .command then texts else texts.erase "--")

/-- The events of words, of which the first `skip` have been taken, and what nothing takes. The
operands are still to come or have been taken. -/
def readEvents (command : CommandSyntax) : Operands → Nat → List Word → Arguments
  | _, _, [] => ⟨[], .ok []⟩
  | operands, skip + 1, _ :: rest => readEvents command operands skip rest
  | operands, 0, word :: rest =>
    match word with
    | .unknown text => leave text (readEvents command operands 0 rest)
    | .option _ option name attached =>
      let outcome := match attached with
        | none => readOption option rest
        | some ⟨byEquals, text⟩ =>
          readAttached command option (!"--".isPrefixOf name) byEquals rest text.toList
      match outcome with
      | .error message => ⟨[], .error message⟩
      | .ok reading =>
        follow reading.events
          (reading.unused.toList.foldr leave (readEvents command operands reading.count rest))
    | word =>
      match countOperands operands (word :: rest) with
      | 0 => leave (wordText word) (readEvents command operands 0 rest)
      | count + 1 =>
        follow [operandsEvent operands ((word :: rest).take (count + 1))]
          (readEvents command .none count rest)
where
  /-- A word that nothing takes. -/
  leave (text : String) (arguments : Arguments) : Arguments :=
    { arguments with ending := arguments.ending.map (text :: ·) }
  /-- Events before others. -/
  follow (events : List ArgumentEvent) (arguments : Arguments) : Arguments :=
    { arguments with events := events ++ arguments.events }

/-- Reads a command line. There are no events where a word may be short for several options. -/
def parse (command : CommandSyntax) (texts : List String) : Arguments :=
  match command.readWords texts with
  | .error message => ⟨[], .error message⟩
  | .ok words => readEvents command command.operands 0 words

end CommandSyntax
end AssocLint
