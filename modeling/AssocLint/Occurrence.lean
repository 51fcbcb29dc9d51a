import AssocLint.Reference.Identity
import AssocLint.Tree.Type

/-!
# Occurrences of paths

An occurrence is one use of a path in the body of a method. A use of a path is also a use of every
path written inside it, which counts as an ascription at the place of the outer one.
-/

namespace AssocLint

inductive OccurrenceKind
  | pattern
  | expression
  /-- A type that is written out. -/
  | ascription
  deriving DecidableEq, Repr

namespace OccurrenceKind

def keyword : OccurrenceKind → String
  | .pattern => "pattern"
  | .expression => "expression"
  | .ascription => "annotation"

/-- The place of a kind among occurrences at one place. -/
def rank : OccurrenceKind → Nat
  | .pattern => 1
  | .expression => 2
  | .ascription => 3

end OccurrenceKind

/-- One use of a path. A pattern has as its subject the type of the value that it is matched with,
where that is known. -/
structure Occurrence where
  ref : Reference
  kind : OccurrenceKind
  span : Span
  subject : Option Ty
  function : String

namespace Occurrence

/-- The use of a path followed by those of the paths inside it. -/
def withNested (use : Occurrence) : List Occurrence :=
  use :: use.ref.nested.map fun ref => { use with ref, kind := .ascription, subject := none }

end Occurrence

namespace Ty

mutual

/-- The paths that a type is made of, generic arguments aside, with their spans. -/
def paths : Ty → List (Reference × Span)
  | .path written span => [(written, span)]
  | .ref inner _ _ => inner.paths
  | .tuple elems _ => pathsAll elems
  | .slice elem _ => elem.paths
  | .array elem _ _ => elem.paths
  | .infer _ => []
  | .never _ => []
  | .verbatim _ _ => []
termination_by structural ty => ty

def pathsAll : List Ty → List (Reference × Span)
  | [] => []
  | ty :: rest => ty.paths ++ pathsAll rest
termination_by structural tys => tys

end

/-- The associated type of `Self` that a type is declared through, references aside. -/
def routedName? (ty : Ty) : Option String :=
  match ty.peel with
  | .path written _ => written.routedName?
  | _ => none

def occurrences (function : String) (ty : Ty) : List Occurrence :=
  ty.paths.flatMap fun (written, span) =>
    Occurrence.withNested ⟨written, .ascription, span, none, function⟩

end Ty
end AssocLint
