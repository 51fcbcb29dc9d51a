import AssocLint.Text.Character

/-!
# Squeezed text

The spelling in which type forms that are not paths are kept. Blanks at both ends and beside
punctuation are dropped, and every other run of blanks becomes one space, so two spellings that
differ only in insignificant blanks are kept as the same text.
-/

namespace AssocLint
namespace Text

/-- Punctuation, beside which blanks mean nothing. -/
def isPunctuation (c : Char) : Bool :=
  ['<', '>', '(', ')', ',', ';', '[', ']', '&', '*', '=', ':', '!', '+', '\x7b', '\x7d'].contains c

/-- Squeezes the rest of a text, given the last character that was not blank and whether blanks
followed it. -/
def squeezeFrom (last : Option Char) (gap : Bool) : List Char → List Char
  | [] => []
  | c :: rest =>
    if isBlank c then
      squeezeFrom last true rest
    else if gap && last.any (!isPunctuation ·) && !isPunctuation c then
      ' ' :: c :: squeezeFrom (some c) false rest
    else
      c :: squeezeFrom (some c) false rest

def squeeze (text : List Char) : List Char :=
  squeezeFrom none false text

/-- A text with one space for each run of blanks that keeps two of its words apart, and no other
blank. -/
def squeezed (text : String) : String :=
  String.ofList (squeeze text.toList)

def trimmed (text : List Char) : List Char :=
  (text.dropWhile isBlank).reverse.dropWhile isBlank |>.reverse

end Text
end AssocLint
