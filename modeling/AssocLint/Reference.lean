/-!
# References — how a path is written and what it names

A `Reference` is the written shape of a path, together with what its host resolved it to:

* `resolved` — `A::B::C`, or `<Q as A::B>::C` with the qualifier `Q`;
* `relative` — a member reached through a type, `Self::Item` or `<Q>::new`;
* `languageItem` — a path known by a tag only, or path text that could not be read;
* `verbatim` — a generic argument that is no path (`&'a str`, `3`, `_`), kept as squeezed text.

`Reference.same` compares the written shapes and ignores the resolutions; `Reference.render` writes
a reference the way messages show it.
-/

namespace AssocLint

inductive Resolution
  /-- A struct, enum, union, alias, primitive or foreign type. -/
  | type
  /-- An enum variant or its constructor. -/
  | variant
  /-- An associated function or constant, reached through a type. -/
  | assocItem
  /-- The type `Self`. -/
  | selfType
  /-- A generic type parameter. -/
  | typeParam
  /-- A local variable. -/
  | localVar
  /-- Nothing. -/
  | unresolved
  deriving DecidableEq, Repr

namespace Resolution

def all : List Resolution :=
  [.type, .variant, .assocItem, .selfType, .typeParam, .localVar, .unresolved]

def keyword : Resolution → String
  | .type => "type"
  | .variant => "variant"
  | .assocItem => "assoc-item"
  | .selfType => "self-ty"
  | .typeParam => "ty-param"
  | .localVar => "local"
  | .unresolved => "err"

def ofKeyword? (word : String) : Option Resolution :=
  all.find? fun res => res.keyword == word

/-- Whether the last segment of the path is a member of a type. -/
def isMember : Resolution → Bool
  | .variant | .assocItem => true
  | _ => false

end Resolution

/-- One segment of a path. Its arguments are `none` when no list was written and `some []` when
the list was written empty. -/
structure Segment (α : Type) where
  name : String
  args : Option (List α) := none

/-- A path as it is written, or a generic argument that is no path. -/
inductive Reference where
  /-- A path of segments, all but the last naming a trait when there is a qualifier. -/
  | resolved (qualifier : Option Reference) (segments : List (Segment Reference))
      (res : Resolution)
  /-- A member of the type that the base names. -/
  | relative (base : Reference) (segment : Segment Reference) (res : Resolution)
  /-- A path known by its tag only. -/
  | languageItem (tag : String)
  /-- Squeezed text. -/
  | verbatim (text : String)

namespace Reference

def selfPath : Reference :=
  .resolved none [⟨"Self", none⟩] .selfType

/-- Whether a reference is the path `Self`, whatever it resolves to. -/
def isSelf : Reference → Bool
  | .resolved none [segment] _ => segment.name == "Self"
  | _ => false

/-- Whether a reference is the inferred argument `_`. -/
def isInferred : Reference → Bool
  | .verbatim text => text == "_"
  | _ => false

/-- The recorded resolution; language items and squeezed text have none. -/
def res? : Reference → Option Resolution
  | .resolved _ _ res => some res
  | .relative _ _ res => some res
  | _ => none

/-- The reference with another outermost resolution. -/
def withRes (res : Resolution) : Reference → Reference
  | .resolved qualifier segments _ => .resolved qualifier segments res
  | .relative base segment _ => .relative base segment res
  | ref => ref

mutual

/-- Whether two references are written alike, resolutions aside. -/
def same : Reference → Reference → Bool
  | .resolved qualifier segments _, .resolved qualifier' segments' _ =>
      sameOptional qualifier qualifier' && sameSegments segments segments'
  | .relative base segment _, .relative base' segment' _ =>
      base.same base' && sameSegment segment segment'
  | .languageItem tag, .languageItem tag' => tag == tag'
  | .verbatim text, .verbatim text' => text == text'
  | _, _ => false
termination_by structural ref => ref

def sameOptional : Option Reference → Option Reference → Bool
  | none, none => true
  | some ref, some ref' => ref.same ref'
  | _, _ => false
termination_by structural ref => ref

def sameSegment : Segment Reference → Segment Reference → Bool
  | ⟨name, none⟩, ⟨name', none⟩ => name == name'
  | ⟨name, some args⟩, ⟨name', some args'⟩ => name == name' && sameAll args args'
  | _, _ => false
termination_by structural segment => segment

def sameSegments : List (Segment Reference) → List (Segment Reference) → Bool
  | [], [] => true
  | segment :: rest, segment' :: rest' => sameSegment segment segment' && sameSegments rest rest'
  | _, _ => false
termination_by structural segments => segments

def sameAll : List Reference → List Reference → Bool
  | [], [] => true
  | ref :: rest, ref' :: rest' => ref.same ref' && sameAll rest rest'
  | _, _ => false
termination_by structural refs => refs

end

/-! ## Written form -/

/-- Whether a base can stand before `::` without angle brackets: a relative path, or a path
without qualifier and without generic arguments. -/
def standsBare : Reference → Bool
  | .relative _ _ _ => true
  | .resolved none segments _ => segments.all fun segment => segment.args.isNone
  | _ => false

mutual

def render : Reference → String
  | .resolved none segments _ => "::".intercalate (renderSegments segments)
  | .resolved (some qualifier) segments _ =>
      let written := renderSegments segments
      "<" ++ qualifier.render ++ " as " ++ "::".intercalate written.dropLast ++ ">::" ++
        written.getLast?.getD ""
  | .relative base segment _ =>
      if base.standsBare then base.render ++ "::" ++ renderSegment segment
      else "<" ++ base.render ++ ">::" ++ renderSegment segment
  | .languageItem tag => "lang-item(" ++ tag ++ ")"
  | .verbatim text => text
termination_by structural ref => ref

def renderSegment : Segment Reference → String
  | ⟨name, none⟩ => name
  | ⟨name, some args⟩ => name ++ "<" ++ ", ".intercalate (renderAll args) ++ ">"
termination_by structural segment => segment

def renderSegments : List (Segment Reference) → List String
  | [] => []
  | segment :: rest => renderSegment segment :: renderSegments rest
termination_by structural segments => segments

def renderAll : List Reference → List String
  | [] => []
  | ref :: rest => ref.render :: renderAll rest
termination_by structural refs => refs

end

/-- The written forms of a list of segments are those of its members. -/
theorem renderSegments_eq_map (segments : List (Segment Reference)) :
    renderSegments segments = segments.map renderSegment := by
  induction segments with
  | nil => rfl
  | cons segment rest ih => simp [renderSegments, ih]

/-- The written forms of a list of references are those of its members. -/
theorem renderAll_eq_map (refs : List Reference) : renderAll refs = refs.map render := by
  induction refs with
  | nil => rfl
  | cons ref rest ih => simp [renderAll, ih]

instance : ToString Reference := ⟨render⟩

end Reference
end AssocLint
