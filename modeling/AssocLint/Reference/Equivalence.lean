import AssocLint.Reference

/-!
# Equivalence of references

When two written paths count as the same type. Shape, qualifier or base and segment names have to
agree; a `Policy` says how generic arguments compare:

* strict: argument lists are compared throughout, and no list is the same as an empty one;
* lenient: a list that is not written agrees with every list, and so does one of equal length where
  either holds the inferred argument `_`. An inferred argument agrees with every argument.

Language items never count as the same type, though as generic arguments they agree with
themselves.
-/

namespace AssocLint

inductive Policy
  | lenient
  | strict
  deriving DecidableEq, Repr

namespace Policy

def keyword : Policy → String
  | .lenient => "lenient"
  | .strict => "strict"

def all : List Policy :=
  [.lenient, .strict]

def ofKeyword? (word : String) : Option Policy :=
  all.find? fun policy => policy.keyword == word

end Policy

namespace Reference

mutual

/-- Whether two generic arguments, qualifiers or bases agree. -/
def argEquivalent (policy : Policy) : Reference → Reference → Bool
  | .verbatim text, .verbatim text' =>
    (policy == .lenient && (text == "_" || text' == "_")) || text == text'
  | .verbatim text, _ => policy == .lenient && text == "_"
  | _, .verbatim text' => policy == .lenient && text' == "_"
  | .languageItem tag, .languageItem tag' => tag == tag'
  | .resolved qualifier segments _, .resolved qualifier' segments' _ =>
    qualifierEquivalent policy qualifier qualifier' && segmentsEquivalent policy segments segments'
  | .relative base segment _, .relative base' segment' _ =>
    argEquivalent policy base base' && segmentEquivalent policy segment segment'
  | _, _ => false
termination_by structural ref => ref

/-- Whether two qualifiers are both absent or agree. -/
def qualifierEquivalent (policy : Policy) : Option Reference → Option Reference → Bool
  | none, none => true
  | some ref, some ref' => argEquivalent policy ref ref'
  | _, _ => false
termination_by structural qualifier => qualifier

/-- Whether two segments have one name and agree in their arguments. -/
def segmentEquivalent (policy : Policy) : Segment Reference → Segment Reference → Bool
  | ⟨name, args⟩, ⟨name', args'⟩ => name == name' && argsEquivalent policy args args'
termination_by structural segment => segment

/-- Whether two paths have as many segments, which agree one by one. -/
def segmentsEquivalent (policy : Policy) :
    List (Segment Reference) → List (Segment Reference) → Bool
  | [], [] => true
  | segment :: rest, segment' :: rest' =>
    segmentEquivalent policy segment segment' && segmentsEquivalent policy rest rest'
  | _, _ => false
termination_by structural segments => segments

def argsEquivalent (policy : Policy) : Option (List Reference) → Option (List Reference) → Bool
  | none, none => true
  | none, some args' => policy == .lenient || args'.isEmpty
  | some args, none => policy == .lenient || args.isEmpty
  | some args, some args' =>
    match policy with
    | .strict => allEquivalent policy args args'
    | .lenient =>
      args.length == args'.length &&
        (args.any isInferred || args'.any isInferred || allEquivalent policy args args')
termination_by structural args => args

/-- Whether there are as many arguments on either side, which agree one by one. -/
def allEquivalent (policy : Policy) : List Reference → List Reference → Bool
  | [], [] => true
  | arg :: rest, arg' :: rest' => argEquivalent policy arg arg' && allEquivalent policy rest rest'
  | _, _ => false
termination_by structural args => args

end

/-- Whether two references have one shape. Language items pass for no shape. -/
def sameShape : Reference → Reference → Bool
  | .resolved _ _ _, .resolved _ _ _ => true
  | .relative _ _ _, .relative _ _ _ => true
  | .verbatim _, .verbatim _ => true
  | _, _ => false

/-- Whether two paths of one shape agree in what they stand on: their qualifiers or their bases. -/
def ownersAgree (policy : Policy) : Reference → Reference → Bool
  | .resolved qualifier _ _, .resolved qualifier' _ _ =>
    qualifierEquivalent policy qualifier qualifier'
  | .relative base _ _, .relative base' _ _ => argEquivalent policy base base'
  | _, _ => false

/-- Whether two paths of one shape agree in their own segments. -/
def segmentsAgree (policy : Policy) : Reference → Reference → Bool
  | .resolved _ segments _, .resolved _ segments' _ => segmentsEquivalent policy segments segments'
  | .relative _ segment _, .relative _ segment' _ => segmentEquivalent policy segment segment'
  | _, _ => false

/-- Whether two paths count as the same type. -/
def equivalent (policy : Policy) (ref ref' : Reference) : Bool :=
  sameShape ref ref' && ownersAgree policy ref ref' && segmentsAgree policy ref ref'

end Reference
end AssocLint
