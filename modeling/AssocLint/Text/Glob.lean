/-!
# Glob patterns

A glob describes the whole of a text: `*` stands for any run of characters, `?` for one character
and `[...]` for one character of a set; every other character stands for itself.

A set ends at the first `]` after its first character. It is negated by a leading `!`. Between two
characters a hyphen makes a range, and a range whose ends are in the wrong order is left out, both
ends and hyphen. What is left decides: a set without characters accepts nothing, and one that has
only its `!` accepts every character. A `[` that no set follows stands for itself.
-/

namespace AssocLint

inductive GlobPart where
  | run
  | any
  | char (c : Char)
  | set (negated : Bool) (ranges : List (Char × Char))
  deriving DecidableEq, Repr

namespace Glob

/-- What follows a character that was searched for is shorter than the text. -/
theorem length_lt_of_dropWhile {p : Char → Bool} {n : Nat} {text rest : List Char} {c : Char}
    (h : (text.drop n).dropWhile p = c :: rest) : rest.length < text.length := by
  have found := (List.dropWhile_sublist p (l := text.drop n)).length_le
  have dropped : (text.drop n).length ≤ text.length := by simp
  rw [h, List.length_cons] at found
  omega

/-! ## Sets -/

/-- Cuts the body of a set at the hyphens that make ranges. A hyphen does so when at least `skip`
characters stand before it and another one follows; between two cuts lie an end and a start. -/
def cutRanges (skip : Nat) (body : List Char) : List (List Char) :=
  match h : (body.drop skip).dropWhile (· != '-') with
  | [] => [body]
  | [_] => [body]
  | _ :: rest =>
    have := length_lt_of_dropWhile h
    (body.take skip ++ (body.drop skip).takeWhile (· != '-')) :: cutRanges 2 rest
termination_by body.length

/-- Puts a piece before others. Where the range between them has its ends in the wrong order, the
range is left out. -/
def joinPiece (piece : List Char) : List (List Char) → List (List Char)
  | [] => [piece]
  | next :: rest =>
    match piece.getLast?, next with
    | some first, last :: next' =>
      if last < first then (piece.dropLast ++ next') :: rest else piece :: next :: rest
    | _, _ => piece :: next :: rest

/-- The ranges of a set in pieces: characters that stand for themselves, and a range between every
two pieces. -/
def pieceRanges (piece : List Char) : List (List Char) → List (Char × Char)
  | [] => piece.map fun c => (c, c)
  | next :: rest =>
    match piece.getLast?, next with
    | some first, last :: next' =>
      piece.dropLast.map (fun c => (c, c)) ++ (first, last) :: pieceRanges next' rest
    | _, _ => piece.map (fun c => (c, c)) ++ ('-', '-') :: pieceRanges next rest

/-- The set with a given body. -/
def readSet (body : List Char) : GlobPart :=
  let skip := if body.head? == some '!' then 2 else 1
  match (cutRanges skip body).foldr joinPiece [] with
  | ('!' :: piece) :: rest =>
    if piece.isEmpty && !rest.isEmpty then .set true (('-', '-') :: pieceRanges [] rest)
    else .set true (pieceRanges piece rest)
  | piece :: rest => .set false (pieceRanges piece rest)
  | [] => .set false []

/-- How many characters of a set are read before a `]` can end it. -/
def setStart : List Char → Nat
  | '!' :: ']' :: _ => 2
  | '!' :: _ => 1
  | ']' :: _ => 1
  | _ => 0

/-! ## Patterns -/

def read : List Char → List GlobPart
  | [] => []
  | '*' :: rest => .run :: read rest
  | '?' :: rest => .any :: read rest
  | '[' :: rest =>
    let start := setStart rest
    match h : (rest.drop start).dropWhile (· != ']') with
    | [] => .char '[' :: read rest
    | _ :: rest' =>
      have := length_lt_of_dropWhile h
      readSet (rest.take start ++ (rest.drop start).takeWhile (· != ']')) :: read rest'
  | c :: rest => .char c :: read rest
termination_by pattern => pattern.length

/-- Whether one character fits a part that stands for one character. -/
def partAccepts (c : Char) : GlobPart → Bool
  | .run => false
  | .any => true
  | .char c' => c == c'
  | .set negated ranges => negated != ranges.any fun range => range.1 ≤ c && c ≤ range.2

/-- Whether the parts describe the whole of a text. -/
def accepts : List GlobPart → List Char → Bool
  | [], text => text.isEmpty
  | .run :: parts, text => (List.range (text.length + 1)).any fun n => accepts parts (text.drop n)
  | _ :: _, [] => false
  | part :: parts, c :: text => partAccepts c part && accepts parts text

def fits (pattern text : String) : Bool :=
  accepts (read pattern.toList) text.toList

end Glob
end AssocLint
