import AssocLint.Failure
import AssocLint.Reference
import AssocLint.Sexp

/-!
# Faults of a dump

Everything that can be wrong with a dump once it is in memory, each with its wording and its code.
-/

namespace AssocLint

/-- What is wrong with a dump. A head is the word that a form begins with. -/
inductive DumpProblem where
  /-- The text is no sequence of symbolic expressions. -/
  | malformed
  | empty
  | severalForms
  | notCrate (head : String)
  /-- A value stands where a form that begins with a word has to stand. -/
  | untagged (value : Sexp)
  | unknownKeyword (keyword head : String)
  | repeatedKeyword (keyword head : String)
  | keywordWithoutValue (keyword : String)
  | tooFew (head : String) (least count : Nat)
  | tooMany (head : String) (most count : Nat)
  | notWord (head : String) (value : Sexp)
  | notInteger (head : String) (value : Sexp)
  | badSpan (value : Sexp)
  | unknownResolution (value : Sexp)
  | unknownItem (head : String)
  | markWithoutLine
  | unknownMember (head : String)
  | missingBody (name : String)
  | notParam (head : String)
  | notPath (head : String)
  | unknownType (head : String)
  | unknownPattern (head : String)
  | notFieldPattern
  | notFieldValue
  | fewAlternatives
  | unknownExpr (head : String)
  | notArm (head : String)
  | notClosureParam
  | macroWithoutName
  | notBlock (head : String)
  | tailNotLast

namespace DumpProblem

def message : DumpProblem → String
  | .malformed => "malformed S-expression"
  | .empty => "dump is empty"
  | .severalForms => "a dump holds exactly one (crate ...) form"
  | .notCrate head => "expected (crate ...), got (" ++ head ++ " ...)"
  | .untagged value => "expected a (tag ...) form, got " ++ value.inspect
  | .unknownKeyword keyword head => "unknown keyword " ++ keyword ++ " in (" ++ head ++ " ...)"
  | .repeatedKeyword keyword head => "duplicate keyword " ++ keyword ++ " in (" ++ head ++ " ...)"
  | .keywordWithoutValue keyword => "keyword " ++ keyword ++ " has no value"
  | .tooFew head least count =>
    "(" ++ head ++ " ...) needs at least " ++ toString least ++ " argument(s), got " ++
      toString count
  | .tooMany head most count =>
    "(" ++ head ++ " ...) takes at most " ++ toString most ++ " argument(s), got " ++ toString count
  | .notWord head value =>
    "expected a string or symbol in (" ++ head ++ " ...), got " ++ value.inspect
  | .notInteger head value => "expected an integer in (" ++ head ++ " ...), got " ++ value.inspect
  | .badSpan value =>
    ":span must be (line column) or (line column lo hi), got " ++ value.inspect
  | .unknownResolution value =>
    "unknown resolution " ++ value.inspect ++ " (expected one of " ++
      ", ".intercalate (Resolution.all.map Resolution.keyword) ++ ")"
  | .unknownItem head => "unknown top-level item (" ++ head ++ " ...)"
  | .markWithoutLine => "(suppress ...) needs :line"
  | .unknownMember head => "unknown impl member (" ++ head ++ " ...)"
  | .missingBody name => "fn " ++ name ++ " must end with its (block ...) body"
  | .notParam head => "expected (param PAT TY), got (" ++ head ++ " ...)"
  | .notPath head => "expected a path form, got (" ++ head ++ " ...)"
  | .unknownType head => "unknown type form (" ++ head ++ " ...)"
  | .unknownPattern head => "unknown pattern form (" ++ head ++ " ...)"
  | .notFieldPattern => "expected (field NAME PAT)"
  | .notFieldValue => "expected (field NAME EXPR)"
  | .fewAlternatives => "(or-pat ...) needs at least two alternatives"
  | .unknownExpr head => "unknown expression form (" ++ head ++ " ...)"
  | .notArm head => "expected (arm PAT EXPR), got (" ++ head ++ " ...)"
  | .notClosureParam => "expected (cparam PAT [TY])"
  | .macroWithoutName => "(macro NAME ...) needs a name"
  | .notBlock head => "expected (block ...), got (" ++ head ++ " ...)"
  | .tailNotLast => "(tail ...) must be the last element of a block"

def code : DumpProblem → FailureCode
  | .malformed => .dumpSyntax
  | .empty => .dumpEmpty
  | .unknownKeyword _ _ => .dumpUnknownKeyword
  | .keywordWithoutValue _ | .tooFew _ _ _ | .markWithoutLine | .missingBody _
  | .fewAlternatives | .macroWithoutName => .dumpMissingField
  | .notWord _ _ | .notInteger _ _ | .badSpan _ | .unknownResolution _ => .dumpBadAtom
  | _ => .dumpUnexpectedForm

/-- Whether the text or the shape of the dump is at fault. -/
def kind : DumpProblem → FailureKind
  | .malformed | .empty => .dumpText
  | _ => .dumpShape

def hint : DumpProblem → String
  | .malformed => "check for unbalanced parentheses or an unterminated string"
  | _ => ""

end DumpProblem

/-- A problem and the line of the form that has it, where that is known. -/
structure DumpFault where
  problem : DumpProblem
  line : Option Nat

/-- The failure to use a dump of the given name. -/
def DumpFault.toFailure (name : String) (fault : DumpFault) : Failure where
  kind := fault.problem.kind
  message := fault.problem.message
  code := fault.problem.code
  place := { file := name, line := fault.line.getD 0 }
  hint := fault.problem.hint

end AssocLint
