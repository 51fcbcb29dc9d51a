import AssocLint.Reference
import AssocLint.Span

/-!
# Patterns of the tree
-/

namespace AssocLint

mutual

inductive Pattern where
  | wild (span : Span)
  /-- A name bound to the matched value, where a pattern may follow `@`. -/
  | binding (name : String) (sub : Option Pattern) (byRef mutable : Bool) (span : Span)
  /-- A unit variant or a constant, `State::A`. -/
  | path (ref : Reference) (span : Span)
  /-- A tuple variant or struct, `Value::Some(x)`. -/
  | tupleStruct (ref : Reference) (elems : List Pattern) (span : Span)
  /-- A struct with named fields, `State::E { x, .. }`; `rest` stands for the two dots. -/
  | struct (ref : Reference) (fields : List FieldPattern) (rest : Bool) (span : Span)
  | tuple (elems : List Pattern) (span : Span)
  | slice (elems : List Pattern) (span : Span)
  | ref (inner : Pattern) (span : Span)
  /-- Alternatives, separated by bars. -/
  | or (alts : List Pattern) (span : Span)
  | lit (text : String) (span : Span)

structure FieldPattern where
  name : String
  pat : Pattern

end

end AssocLint
