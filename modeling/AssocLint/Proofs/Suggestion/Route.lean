import AssocLint.Proofs.Analysis.Findings

/-!
# Writing a path through an associated type

`Reference.throughAssociated` puts `Self::Name` in the place of the type portion of a path, which is
what a finding suggests. The paths inside the type portion go with it, the generic arguments of a
member after it stay (`nested_eq_append`). In the new path nothing before these arguments can be
reported again (`withNested_throughAssociated`): it is `Self`, or goes through `Self::Name`.
-/

namespace AssocLint
namespace Reference

/-- The path `Self::name` of an associated type. -/
def associated (name : String) : Reference :=
  .relative selfPath ⟨name, none⟩ .type

/-- The last segment of a path that names a member of a type, with the resolution of the path. -/
def member? : Reference → Option (Segment Reference × Resolution)
  | .resolved _ segments res => if res.isMember then segments.getLast?.map (·, res) else none
  | .relative _ segment res => if res.isMember then some (segment, res) else none
  | _ => none

/-- A path with `Self::name` in the place of its type portion. -/
def throughAssociated (ref : Reference) (name : String) : Reference :=
  match ref.member? with
  | some (member, res) => .relative (associated name) member res
  | none => if ref.res? = some .type then associated name else ref

/-- The paths inside the type portion of a path, its base among them: those of the qualifier or
base, and of the generic arguments of segments that name no member. -/
def portionPaths : Reference → List Reference
  | .resolved qualifier segments res =>
    nestedOptional qualifier ++
      nestedSegments (if res.isMember then segments.dropLast else segments)
  | .relative base segment res =>
    base.withNested ++ if res.isMember then [] else nestedSegment segment
  | _ => []

/-- The paths among the generic arguments of the member that a path names. -/
def memberPaths (ref : Reference) : List Reference :=
  ref.member?.elim [] fun (member, _) => nestedSegment member

/-! ## What goes and what stays -/

theorem nestedSegments_append (segments segments' : List (Segment Reference)) :
    nestedSegments (segments ++ segments') =
      nestedSegments segments ++ nestedSegments segments' := by
  induction segments with
  | nil =>
      rfl
  | cons segment rest ih =>
      simp only [List.cons_append, nestedSegments, ih, List.append_assoc]

theorem nestedSegments_dropLast (segments : List (Segment Reference)) :
    nestedSegments segments.dropLast ++ segments.getLast?.elim [] nestedSegment =
      nestedSegments segments := by
  induction segments using List.reverseRecOn with
  | nil =>
      rfl
  | append_singleton segments last ih =>
      simp [nestedSegments_append, nestedSegments]

/-- The paths inside a path are those inside its type portion and then those of its member. -/
theorem nested_eq_append (ref : Reference) : ref.nested = ref.portionPaths ++ ref.memberPaths := by
  cases ref with
  | resolved qualifier segments res =>
      -- Only the last segment of such a path can name a member.
      have hsegments := nestedSegments_dropLast segments
      cases hmember : res.isMember with
      | false =>
          simp [nested, withNested, portionPaths, memberPaths, member?, hmember]
      | true =>
          cases hlast : segments.getLast? <;>
            simp_all [nested, withNested, portionPaths, memberPaths, member?]
  | relative base segment res =>
      cases hmember : res.isMember <;>
        simp [nested, withNested, portionPaths, memberPaths, member?, hmember]
  | languageItem tag =>
      rfl
  | verbatim text =>
      rfl

/-! ## Paths that are never reported -/

/-- Whether a path is `Self` or written through one of its associated types. -/
def isOnRoute (ref : Reference) : Bool :=
  ref.routedName?.isSome || ref.res? == some .selfType

theorem isOnRoute_selfPath : selfPath.isOnRoute = true :=
  rfl

theorem isOnRoute_associated (name : String) : (associated name).isOnRoute = true := by
  simp [isOnRoute, associated, routedName?, isSelf, selfPath]

theorem isOnRoute_relative_associated (name : String) (member : Segment Reference)
    (res : Resolution) : (relative (associated name) member res).isOnRoute = true := by
  simp [isOnRoute, associated, routedName?, isSelf, selfPath]

/-- A path with a type portion is a type, or names a member of one. -/
theorem res?_or_member?_of_typePortion? {ref : Reference} (h : ref.typePortion?.isSome) :
    ref.member? = none ∧ ref.res? = some .type ∨
      ∃ member res, ref.member? = some (member, res) := by
  cases ref with
  | resolved qualifier segments res =>
      -- A path without segments names no member, and has no type portion for one.
      cases res <;> cases hlast : segments.getLast? <;>
        simp_all [typePortion?, member?, res?, Resolution.isMember]
  | relative base segment res =>
      cases res <;> simp_all [typePortion?, member?, res?, Resolution.isMember]
  | _ =>
      simp [typePortion?] at h

theorem isOnRoute_throughAssociated {ref : Reference} (h : ref.typePortion?.isSome)
    (name : String) : (ref.throughAssociated name).isOnRoute = true := by
  rcases res?_or_member?_of_typePortion? h with ⟨hnone, htype⟩ | ⟨member, res, hmember⟩
  · simp only [throughAssociated, hnone, htype, if_true, isOnRoute_associated]
  · simp only [throughAssociated, hmember, isOnRoute_relative_associated]

/-- After its type portion has been replaced a path holds a route, and then what its member held. -/
theorem nested_throughAssociated {ref : Reference} (h : ref.typePortion?.isSome) (name : String) :
    ∃ route, (ref.throughAssociated name).nested = route ++ ref.memberPaths ∧
      ∀ inner ∈ route, inner.isOnRoute = true := by
  rcases res?_or_member?_of_typePortion? h with ⟨hnone, htype⟩ | ⟨member, res, hmember⟩
  · -- A type becomes `Self::name`, which holds `Self`.
    refine ⟨[selfPath], ?_, ?_⟩
    · simp only [throughAssociated, memberPaths, hnone, htype, if_true]
      rfl
    · intro inner hinner
      rw [List.mem_singleton.1 hinner]
      exact isOnRoute_selfPath
  · -- A member comes to stand on `Self::name`, which goes by before `Self` does.
    refine ⟨[associated name, selfPath], ?_, ?_⟩
    · simp only [throughAssociated, memberPaths, hmember]
      rfl
    · intro inner hinner
      simp only [List.mem_cons, List.not_mem_nil, or_false] at hinner
      rcases hinner with rfl | rfl
      · exact isOnRoute_associated name
      · exact isOnRoute_selfPath

end Reference

namespace BindingIndex

/-- A path on a route through `Self` is not reported, whatever uses it. -/
theorem report_eq_none_of_isOnRoute (index : BindingIndex) (policy : Policy) {use : Occurrence}
    (h : use.ref.isOnRoute = true) : index.report policy use = none := by
  have hrejects : ∀ entry ∈ index.candidates use.ref, ¬ entry.accepts policy use = true := by
    intro entry _ haccepts
    simp only [IndexedBinding.accepts, Bool.and_eq_true, Option.isNone_iff_eq_none] at haccepts
    rcases haccepts with ⟨⟨⟨⟨-, hconcrete⟩, hunrouted⟩, -⟩, -⟩
    simp only [Reference.isOnRoute, hunrouted, Option.isSome_none, Bool.false_or, beq_iff_eq] at h
    simp [h, Resolution.isConcrete] at hconcrete
  have hfind := List.find?_eq_none.2 hrejects
  simp [report, firstMatch, hfind]

end BindingIndex
end AssocLint
