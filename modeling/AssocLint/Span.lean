/-!
# Spans

Where a node of the tree stands in its source file.
-/

namespace AssocLint

/-- A place in a source file: line and column, and the byte offsets of its ends. -/
structure Span where
  file : String := "<unknown>"
  line : Int := 0
  column : Int := 0
  lo : Int := 0
  hi : Int := 0
  deriving DecidableEq, Repr

namespace Span

def render (span : Span) : String :=
  span.file ++ ":" ++ toString span.line ++ ":" ++ toString span.column

instance : ToString Span := ⟨render⟩

end Span
end AssocLint
