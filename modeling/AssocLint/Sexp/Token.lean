/-!
# Tokens of symbolic expressions

`Token.ofChars?` cuts a text into tokens, one character at a time. It fails where text between
quotes never ends. Comments run from a semicolon to the end of the line.
-/

namespace AssocLint

inductive Token where
  /-- Text between double quotes, its escapes resolved. -/
  | text (chars : List Char)
  /-- A word or number, its escapes resolved. -/
  | atom (chars : List Char)
  /-- An opening parenthesis, or bracket when `square`. -/
  | opening (square : Bool)
  /-- A closing parenthesis, or bracket when `square`. -/
  | closing (square : Bool)
  /-- A single quote before a value. -/
  | quote
  deriving DecidableEq, Repr

namespace Token

/-- Where in a token a text stands. What has been read of the token is kept backwards. -/
inductive State where
  | between
  | text (read : List Char)
  | textEscape (read : List Char)
  | atom (read : List Char)
  | atomEscape (read : List Char)
  | comment

def isSeparator (c : Char) : Bool :=
  [' ', '\t', '\n', '\r', '\x0b', '\x0c'].contains c

def endsAtom (c : Char) : Bool :=
  isSeparator c || ['(', ')', '[', ']', '"', ';'].contains c

/-- What a backslash and a character stand for between quotes, backwards. -/
def textEscape (c : Char) : List Char :=
  match c with
  | '\\' => ['\\']
  | '"' => ['"']
  | 'b' => ['\x08']
  | 'f' => ['\x0c']
  | 'n' => ['\n']
  | 'r' => ['\r']
  | 't' => ['\t']
  | _ => [c, '\\']

/-- What a backslash and a character stand for in a word, backwards. -/
def atomEscape (c : Char) : List Char :=
  if ['\\', '\'', '\x60', '"', '(', ')', '[', ']', ' ', ',', '?', ';', '#'].contains c then [c]
  else [c, '\\']

/-- The token that a character between tokens is by itself, and where it leads. -/
def start (c : Char) : List Token × State :=
  match c with
  | '"' => ([], .text [])
  | '(' => ([.opening false], .between)
  | '[' => ([.opening true], .between)
  | ')' => ([.closing false], .between)
  | ']' => ([.closing true], .between)
  | '\'' => ([.quote], .between)
  | ';' => ([], .comment)
  | '\\' => ([], .atomEscape [])
  | _ => if isSeparator c then ([], .between) else ([], .atom [c])

/-- The tokens that one character completes, and where it leads. -/
def step (state : State) (c : Char) : List Token × State :=
  match state with
  | .between => start c
  | .text read =>
    if c == '"' then ([.text read.reverse], .between)
    else if c == '\\' then ([], .textEscape read)
    else ([], .text (c :: read))
  | .textEscape read => ([], .text (textEscape c ++ read))
  | .atom read =>
    if endsAtom c then
      let (tokens, next) := start c
      (.atom read.reverse :: tokens, next)
    else if c == '\\' then ([], .atomEscape read)
    else ([], .atom (c :: read))
  | .atomEscape read => ([], .atom (atomEscape c ++ read))
  | .comment => if c == '\n' then ([], .between) else ([], .comment)

/-- The tokens that the end of the text completes; none when it stands inside quoted text or after
a backslash. -/
def finish : State → Option (List Token)
  | .between | .comment => some []
  | .atom read => some [.atom read.reverse]
  | .text _ | .textEscape _ | .atomEscape _ => none

def scan (state : State) : List Char → Option (List Token)
  | [] => finish state
  | c :: rest =>
    let (tokens, next) := step state c
    (scan next rest).map (tokens ++ ·)

def ofChars? (text : List Char) : Option (List Token) :=
  scan .between text

end Token
end AssocLint
