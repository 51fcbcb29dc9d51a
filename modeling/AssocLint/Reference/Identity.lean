import AssocLint.Reference

/-!
# Identities of paths

The identity of a path is what is left of it without generic arguments and resolutions: its shape,
the identity of its qualifier or base, and the names of its segments. Language items have none, and
neither has a path that stands on one.

The type portion of a reference is the part that names a type: all of it, or all but the last
segment where that names a variant or another member.
-/

namespace AssocLint

/-- The identity of a path. -/
inductive Identity where
  | resolved (names : List String)
  | qualified (qualifier : Identity) (names : List String)
  | relative (base : Identity) (name : String)
  | verbatim (text : String)
  deriving DecidableEq, Repr

namespace Reference

/-- The identity of a reference. A path without segments has none. -/
def identity? : Reference → Option Identity
  | .resolved _ [] _ => none
  | .resolved none segments _ => some (.resolved (segments.map (·.name)))
  | .resolved (some qualifier) segments _ =>
      qualifier.identity?.map (.qualified · (segments.map (·.name)))
  | .relative base segment _ => base.identity?.map (.relative · segment.name)
  | .verbatim text => some (.verbatim text)
  | .languageItem _ => none
termination_by structural ref => ref

def isRelative : Reference → Bool
  | .relative _ _ _ => true
  | _ => false

/-- The part of a reference that names a type. -/
def typePortion? : Reference → Option Reference
  | .resolved qualifier segments res =>
    if res == .type then some (.resolved qualifier segments res)
    else if res.isMember && 2 ≤ segments.length then
      some (.resolved qualifier segments.dropLast .type)
    else none
  | .relative base segment res =>
    if res == .type then some (.relative base segment res)
    else if res.isMember && base.isRelative then some base
    else none
  | _ => none

/-! ## Routes through an associated type -/

/-- The associated type of `Self` through which a path is written, if any: `Item` in `Self::Item`,
`Self::Item::A` and `<Self as Iterator>::Item`. -/
def routedName? : Reference → Option String
  | .relative base segment _ => if base.isSelf then some segment.name else base.routedName?
  | .resolved (some qualifier) segments res =>
    if qualifier.isSelf then
      let path := if res.isMember && 3 ≤ segments.length then segments.dropLast else segments
      path.getLast?.map (·.name)
    else none
  | _ => none
termination_by structural ref => ref

/-! ## Paths inside a path -/

mutual

/-- A path and every path inside it, outermost first: those of its qualifier or base, then those of
the generic arguments from left to right. -/
def withNested : Reference → List Reference
  | .resolved qualifier segments res =>
    .resolved qualifier segments res :: (nestedOptional qualifier ++ nestedSegments segments)
  | .relative base segment res =>
    .relative base segment res :: (base.withNested ++ nestedSegment segment)
  | .languageItem tag => [.languageItem tag]
  | .verbatim _ => []
termination_by structural ref => ref

def nestedOptional : Option Reference → List Reference
  | none => []
  | some ref => ref.withNested
termination_by structural ref => ref

def nestedSegment : Segment Reference → List Reference
  | ⟨_, none⟩ => []
  | ⟨_, some args⟩ => nestedAll args
termination_by structural segment => segment

def nestedSegments : List (Segment Reference) → List Reference
  | [] => []
  | segment :: rest => nestedSegment segment ++ nestedSegments rest
termination_by structural segments => segments

def nestedAll : List Reference → List Reference
  | [] => []
  | ref :: rest => ref.withNested ++ nestedAll rest
termination_by structural refs => refs

end

/-- Every path inside a reference, itself left out. -/
def nested (ref : Reference) : List Reference :=
  ref.withNested.tail

end Reference
end AssocLint
