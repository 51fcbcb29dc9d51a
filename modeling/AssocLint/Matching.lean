import AssocLint.Binding
import AssocLint.Occurrence
import AssocLint.Reference.Equivalence

/-!
# Occurrences that stand for a binding

An occurrence stands for a binding when its type portion and the target of the binding count as the
same type, unless it is written through an associated type already. A pattern stands only for the
binding through which the type of the matched value is declared: that is what lets
`match source { State::A => ... }` be written `Self::Associated::A` when `source` is declared as
`&Self::Associated`, and not when it is declared as `State`.
-/

namespace AssocLint

/-- The associated type through which the type of the matched value is declared. -/
def Occurrence.subjectName? (use : Occurrence) : Option String :=
  use.subject.bind Ty.routedName?

namespace IndexedBinding

/-- Whether an occurrence stands for a binding. -/
def accepts (policy : Policy) (entry : IndexedBinding) (use : Occurrence) : Bool :=
  entry.isSupported && use.ref.res?.any Resolution.isConcrete && use.ref.routedName?.isNone &&
    (use.kind != .pattern || use.subjectName? == some entry.binding.name) &&
    use.ref.typePortion?.any (Reference.equivalent policy · entry.binding.target)

end IndexedBinding

/-- The first registered binding that an occurrence stands for. -/
def BindingIndex.firstMatch (index : BindingIndex) (policy : Policy) (use : Occurrence) :
    Option Binding :=
  ((index.candidates use.ref).find? (·.accepts policy use)).map (·.binding)

end AssocLint
