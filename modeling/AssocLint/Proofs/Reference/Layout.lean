import AssocLint.Proofs.Reference.Path
import AssocLint.Proofs.Reference.Shape
import AssocLint.Reference.Grammar

/-!
# Layouts of references

A reference can be written in many ways. White space may stand around the parts of a path, a list of
generic arguments may be set off by `::` and may end with a comma, the trait of a qualified path may
end anywhere before the last segment, and the base of a relative path may or may not stand in angle
brackets. `Layout` relates a reference to every text that it can be written as.

`Reference.IsWritable` says of which references this is meant: those that name everything by
identifiers and that have, of the ways to build one path, the one that a reader would find. What
begins with a bare `Self`, for instance, is relative on it.

`dyn` and `impl` are no names here although the grammar takes them for identifiers, since as generic
arguments they begin a bounded type.
-/

namespace AssocLint

def Spaces (text : List Char) : Prop :=
  ∀ c ∈ text, Text.isWhiteSpace c = true

/-! ## Writable references -/

/-- An identifier that can stand wherever a name is written. -/
structure IsName (name : String) : Prop where
  identifier : Grammar.identifier? name.toList = some (name.toList, [])
  noDyn : name ≠ "dyn"
  noImpl : name ≠ "impl"

/-- A generic argument that is written as its text: `_`, a lifetime or an integer. -/
inductive IsArgumentText : String → Prop where
  | inferred : IsArgumentText "_"
  | lifetime {text : String} :
      Grammar.lifetime? text.toList = some (text.toList, []) → IsArgumentText text
  | integer {text : String} {digits : List Char} : digits ≠ [] →
      (∀ c ∈ digits, c.isDigit = true) → text.toList = digits ∨ text.toList = '-' :: digits →
      IsArgumentText text

namespace Reference

/-- What can stand as a qualifier or as a base. -/
def isType (ref : Reference) : Bool :=
  ref.isPath || ref.isInferred

/-- The segments of a path without the empty one that stands for a leading `::`. -/
def namedSegments : List (Segment Reference) → List (Segment Reference)
  | ⟨"", none⟩ :: segments => segments
  | segments => segments

/-- A node that can be written, aside from what stands inside it. -/
def IsWritableNode : Reference → Prop
  | .resolved none segments _ =>
    namedSegments segments ≠ [] ∧ (∀ segment ∈ namedSegments segments, IsName segment.name) ∧
      (segments.length = 1 ∨ ∀ segment ∈ segments.head?, segment.isBareSelf = false)
  | .resolved (some qualifier) segments _ =>
    qualifier.isType = true ∧ 2 ≤ (namedSegments segments).length ∧
      (∀ segment ∈ namedSegments segments, IsName segment.name) ∧
      ∀ segment ∈ segments.head?, segment.isBareSelf = false
  | .relative base segment _ => base.isType = true ∧ IsName segment.name
  | .languageItem _ => False
  | .verbatim text => IsArgumentText text

/-- A path that can be written with all that stands inside it. -/
structure IsWritable (ref : Reference) : Prop where
  path : ref.isPath = true
  nodes : ∀ node ∈ ref.nodes, node.IsWritableNode

/-- Whether members can be added to a written path without brackets around it. -/
def standsOpen : Reference → Bool
  | .relative _ _ _ => true
  | ref => ref.isBareSelf

end Reference

/-! ## Layouts -/

/-- What a layout can be of. -/
inductive Phrase where
  | reference (ref : Reference)
  | segment (segment : Segment Reference)
  /-- A path without qualifier. -/
  | segments (segments : List (Segment Reference))
  /-- The segments behind a path, each with its own `::`. -/
  | members (segments : List (Segment Reference))
  /-- What stands between the angle brackets behind a name. -/
  | arguments (args : List Reference)

/-- The texts as which a phrase can be written. -/
inductive Layout : Phrase → List Char → Prop where
  | verbatim (text : String) : Layout (.reference (.verbatim text)) text.toList
  | plain {segments : List (Segment Reference)} {res : Resolution} {text : List Char} :
      Layout (.segments segments) text → Layout (.reference (.resolved none segments res)) text
  /-- A qualified path `<Q as T>::rest`. No space is needed before `as` where `Q` ends in brackets. -/
  | qualified {qualifier : Reference} {trait rest : List (Segment Reference)} {res : Resolution}
      {gap₁ gap₂ gap₃ gap₄ qualifierText traitText restText : List Char} :
      Spaces gap₁ → Layout (.reference qualifier) qualifierText →
      Spaces gap₂ → (gap₂ = [] → ∀ c ∈ qualifierText.getLast?, Text.isWord c = false) →
      Spaces gap₃ → gap₃ ≠ [] → Layout (.segments trait) traitText → Spaces gap₄ →
      rest ≠ [] → Layout (.members rest) restText →
      Layout (.reference (.resolved (some qualifier) (trait ++ rest) res))
        ('<' :: (gap₁ ++ (qualifierText ++ (gap₂ ++ 'a' :: 's' ::
          (gap₃ ++ (traitText ++ (gap₄ ++ '>' :: restText)))))))
  /-- A relative path `<B>::member`. -/
  | relative {base : Reference} {segment : Segment Reference} {res : Resolution}
      {gap₁ gap₂ baseText memberText : List Char} :
      Spaces gap₁ → Layout (.reference base) baseText → Spaces gap₂ →
      Layout (.members [segment]) memberText →
      Layout (.reference (.relative base segment res))
        ('<' :: (gap₁ ++ (baseText ++ (gap₂ ++ '>' :: memberText))))
  /-- A relative path `B::member`. -/
  | relativeOpen {base : Reference} {segment : Segment Reference} {res : Resolution}
      {baseText memberText : List Char} :
      base.standsOpen = true → Layout (.reference base) baseText →
      Layout (.members [segment]) memberText →
      Layout (.reference (.relative base segment res)) (baseText ++ memberText)
  | bare {name : String} : name ≠ "" → Layout (.segment ⟨name, none⟩) name.toList
  | generic {name : String} {args : List Reference} {turbofish gap₁ gap₂ gap₃ text : List Char} :
      name ≠ "" → turbofish = [] ∨ turbofish = [':', ':'] → Spaces gap₁ → Spaces gap₂ →
      Layout (.arguments args) text → Spaces gap₃ →
      Layout (.segment ⟨name, some args⟩)
        (name.toList ++ (turbofish ++ (gap₁ ++ '<' :: (gap₂ ++ (text ++ (gap₃ ++ ['>']))))))
  | path {first : Segment Reference} {rest : List (Segment Reference)}
      {firstText restText : List Char} :
      Layout (.segment first) firstText → Layout (.members rest) restText →
      Layout (.segments (first :: rest)) (firstText ++ restText)
  | globalPath {first : Segment Reference} {rest : List (Segment Reference)}
      {firstText restText : List Char} :
      Layout (.segment first) firstText → Layout (.members rest) restText →
      Layout (.segments (⟨"", none⟩ :: first :: rest)) (':' :: ':' :: (firstText ++ restText))
  | noMembers : Layout (.members []) []
  | member {segment : Segment Reference} {rest : List (Segment Reference)}
      {gap₁ gap₂ text restText : List Char} :
      Spaces gap₁ → Spaces gap₂ → Layout (.segment segment) text →
      Layout (.members rest) restText →
      Layout (.members (segment :: rest)) (gap₁ ++ ':' :: ':' :: (gap₂ ++ (text ++ restText)))
  | noArguments : Layout (.arguments []) []
  | lastArgument {arg : Reference} {text : List Char} :
      Layout (.reference arg) text → Layout (.arguments [arg]) text
  | trailingComma {arg : Reference} {gap text : List Char} :
      Layout (.reference arg) text → Spaces gap → Layout (.arguments [arg]) (text ++ (gap ++ [',']))
  | argument {arg next : Reference} {rest : List Reference} {gap₁ gap₂ text restText : List Char} :
      Layout (.reference arg) text → Spaces gap₁ → Spaces gap₂ →
      Layout (.arguments (next :: rest)) restText →
      Layout (.arguments (arg :: next :: rest)) (text ++ (gap₁ ++ ',' :: (gap₂ ++ restText)))

/-- The texts as which a whole reference can be written, white space around it allowed. -/
def Reference.IsLaidOutAs (ref : Reference) (text : String) : Prop :=
  ∃ before inner after, Spaces before ∧ Layout (.reference ref) inner ∧ Spaces after ∧
    text.toList = before ++ (inner ++ after)

/-! ## The reference that is read -/

namespace Reference

mutual

/-- A reference with the resolutions that path text is read with. -/
def asRead : Reference → Reference
  | .resolved qualifier segments res =>
    .resolved (asReadOptional qualifier) (asReadSegments segments)
      (if (resolved qualifier segments res).isBareSelf then .selfType else .type)
  | .relative base segment _ => .relative base.asRead (asReadSegment segment) .type
  | .languageItem tag => .languageItem tag
  | .verbatim text => .verbatim text
termination_by structural ref => ref

def asReadOptional : Option Reference → Option Reference
  | none => none
  | some ref => some ref.asRead
termination_by structural ref => ref

def asReadSegment : Segment Reference → Segment Reference
  | ⟨name, none⟩ => ⟨name, none⟩
  | ⟨name, some args⟩ => ⟨name, some (asReadAll args)⟩
termination_by structural segment => segment

def asReadSegments : List (Segment Reference) → List (Segment Reference)
  | [] => []
  | segment :: rest => asReadSegment segment :: asReadSegments rest
termination_by structural segments => segments

def asReadAll : List Reference → List Reference
  | [] => []
  | ref :: rest => ref.asRead :: asReadAll rest
termination_by structural refs => refs

end

-- By recursion on the reference, as it is compared.

mutual

/-- Only resolutions are told anew. -/
theorem same_asRead : ∀ ref : Reference, ref.asRead.same ref = true
  | .resolved qualifier segments res => by
      simp only [asRead, same, sameOptional_asRead qualifier, sameSegments_asRead segments,
        Bool.and_self]
  | .relative base segment res => by
      simp only [asRead, same, same_asRead base, sameSegment_asRead segment, Bool.and_self]
  | .languageItem tag => by
      simp only [asRead, same, beq_self_eq_true]
  | .verbatim text => by
      simp only [asRead, same, beq_self_eq_true]
termination_by structural ref => ref

theorem sameOptional_asRead : ∀ ref : Option Reference,
    sameOptional (asReadOptional ref) ref = true
  | none => rfl
  | some ref => same_asRead ref
termination_by structural ref => ref

theorem sameSegment_asRead : ∀ segment : Segment Reference,
    sameSegment (asReadSegment segment) segment = true
  | ⟨name, none⟩ => by
      simp only [asReadSegment, sameSegment, beq_self_eq_true]
  | ⟨name, some args⟩ => by
      simp only [asReadSegment, sameSegment, beq_self_eq_true, sameAll_asRead args, Bool.and_self]
termination_by structural segment => segment

theorem sameSegments_asRead : ∀ segments : List (Segment Reference),
    sameSegments (asReadSegments segments) segments = true
  | [] => rfl
  | segment :: rest => by
      simp only [asReadSegments, sameSegments, sameSegment_asRead segment,
        sameSegments_asRead rest, Bool.and_self]
termination_by structural segments => segments

theorem sameAll_asRead : ∀ refs : List Reference, sameAll (asReadAll refs) refs = true
  | [] => rfl
  | ref :: rest => by
      simp only [asReadAll, sameAll, same_asRead ref, sameAll_asRead rest, Bool.and_self]
termination_by structural refs => refs

end

/-- Another resolution of the whole path does not show in how it is written. -/
theorem same_withRes (ref ref' : Reference) (res : Resolution) :
    (ref.withRes res).same ref' = ref.same ref' := by
  cases ref <;> cases ref' <;> rfl

end Reference
end AssocLint
