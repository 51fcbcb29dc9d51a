import AssocLint.Proofs.Reference.Identity
import AssocLint.Proofs.Reference.Path

/-!
# Leaving out detail

The generic arguments of a path can be written in more or less detail: a list may be left out, and
an argument may be left to inference. `Reference.LessDetailed ref' ref` says that `ref'` is `ref`
with any number of its lists dropped and of its arguments replaced by `_`, at any depth. Names, the
shapes of qualifiers and bases, and resolutions stay.

The lenient comparison asks for nothing that has been left out: what a path agrees with, it agrees
with in less detail too (`argEquivalent_of_lessDetailed`). This is not a matter of transitivity,
which the lenient comparison does not have. A list that holds `_` agrees with every list of its
length, so replacing one argument makes up for whatever the others are.
-/

namespace AssocLint
namespace Reference

mutual

/-- `LessDetailed ref' ref`: the reference `ref'` is `ref` with some lists of generic arguments
dropped and some generic arguments replaced by `_`. -/
inductive LessDetailed : Reference → Reference → Prop
  | resolved {qualifier' qualifier : Option Reference}
      {segments' segments : List (Segment Reference)} (res : Resolution) :
      LessDetailedOptional qualifier' qualifier → LessDetailedSegments segments' segments →
        LessDetailed (.resolved qualifier' segments' res) (.resolved qualifier segments res)
  | relative {base' base : Reference} {segment' segment : Segment Reference} (res : Resolution) :
      LessDetailed base' base → LessDetailedSegment segment' segment →
        LessDetailed (.relative base' segment' res) (.relative base segment res)
  | languageItem (tag : String) : LessDetailed (.languageItem tag) (.languageItem tag)
  | verbatim (text : String) : LessDetailed (.verbatim text) (.verbatim text)

/-- Two qualifiers are both absent, or the first is written in less detail. -/
inductive LessDetailedOptional : Option Reference → Option Reference → Prop
  | none : LessDetailedOptional none none
  | some {ref' ref : Reference} :
      LessDetailed ref' ref → LessDetailedOptional (some ref') (some ref)

/-- A segment has lost its list of arguments, or keeps it with less detail. -/
inductive LessDetailedSegment : Segment Reference → Segment Reference → Prop
  | dropped (name : String) (args : Option (List Reference)) :
      LessDetailedSegment ⟨name, none⟩ ⟨name, args⟩
  | kept (name : String) {args' args : List Reference} :
      LessDetailedAll args' args → LessDetailedSegment ⟨name, some args'⟩ ⟨name, some args⟩

/-- As many segments, each of them in less detail. -/
inductive LessDetailedSegments : List (Segment Reference) → List (Segment Reference) → Prop
  | nil : LessDetailedSegments [] []
  | cons {segment' segment : Segment Reference} {rest' rest : List (Segment Reference)} :
      LessDetailedSegment segment' segment → LessDetailedSegments rest' rest →
        LessDetailedSegments (segment' :: rest') (segment :: rest)

/-- As many arguments, each of them replaced by `_` or written in less detail. -/
inductive LessDetailedAll : List Reference → List Reference → Prop
  | nil : LessDetailedAll [] []
  | inferred (arg : Reference) {rest' rest : List Reference} :
      LessDetailedAll rest' rest → LessDetailedAll (.verbatim "_" :: rest') (arg :: rest)
  | kept {arg' arg : Reference} {rest' rest : List Reference} :
      LessDetailed arg' arg → LessDetailedAll rest' rest →
        LessDetailedAll (arg' :: rest') (arg :: rest)

end

variable {ref' ref : Reference} {segments' segments : List (Segment Reference)}
  {args' args : List Reference}

/-! ## What stays -/

theorem LessDetailedSegment.name_eq {segment' segment : Segment Reference}
    (h : LessDetailedSegment segment' segment) : segment'.name = segment.name := by
  cases h <;> rfl

theorem LessDetailedSegments.map_name_eq (h : LessDetailedSegments segments' segments) :
    segments'.map (·.name) = segments.map (·.name) := by
  induction segments generalizing segments' with
  | nil =>
      cases h
      rfl
  | cons segment rest ih =>
      cases h with
      | cons hsegment hrest =>
          rw [List.map_cons, List.map_cons, hsegment.name_eq, ih hrest]

theorem LessDetailedSegments.length_eq (h : LessDetailedSegments segments' segments) :
    segments'.length = segments.length := by
  simpa using congrArg List.length h.map_name_eq

theorem LessDetailedSegments.dropLast (h : LessDetailedSegments segments' segments) :
    LessDetailedSegments segments'.dropLast segments.dropLast := by
  induction segments generalizing segments' with
  | nil =>
      cases h
      exact .nil
  | cons segment rest ih =>
      cases h with
      | cons hsegment hrest =>
          cases hrest with
          | nil =>
              exact .nil
          | cons hnext hrest =>
              exact .cons hsegment (ih (.cons hnext hrest))

theorem LessDetailedAll.length_eq (h : LessDetailedAll args' args) :
    args'.length = args.length := by
  induction args generalizing args' with
  | nil =>
      cases h
      rfl
  | cons arg rest ih =>
      cases h with
      | inferred arg hrest =>
          rw [List.length_cons, List.length_cons, ih hrest]
      | kept harg hrest =>
          rw [List.length_cons, List.length_cons, ih hrest]

theorem LessDetailed.isPath_eq (h : LessDetailed ref' ref) : ref'.isPath = ref.isPath := by
  cases h <;> rfl

theorem LessDetailed.res?_eq (h : LessDetailed ref' ref) : ref'.res? = ref.res? := by
  cases h <;> rfl

theorem LessDetailed.isRelative_eq (h : LessDetailed ref' ref) :
    ref'.isRelative = ref.isRelative := by
  cases h <;> rfl

/-- An inferred argument has no detail to lose. -/
theorem LessDetailedAll.any_isInferred (h : LessDetailedAll args' args)
    (hinferred : args.any isInferred = true) : args'.any isInferred = true := by
  induction args generalizing args' with
  | nil =>
      cases hinferred
  | cons arg rest ih =>
      cases h with
      | inferred arg hrest =>
          rfl
      | kept harg hrest =>
          rw [List.any_cons, Bool.or_eq_true] at hinferred ⊢
          rcases hinferred with hhead | htail
          · -- An argument that is inferred is text, and text stays as it is.
            left
            cases harg <;> exact hhead
          · right
            exact ih hrest htail

/-- Nothing that a key is made of is lost. -/
theorem LessDetailed.identity?_eq (h : LessDetailed ref' ref) :
    ref'.identity? = ref.identity? := by
  induction ref using ownerInduction generalizing ref' with
  | unqualified segments res =>
      cases h with
      | resolved res hqualifier hsegments =>
          cases hqualifier
          rw [identity?_resolved, identity?_resolved, hsegments.map_name_eq]
  | qualified qualifier segments res ih =>
      cases h with
      | resolved res hqualifier hsegments =>
          cases hqualifier with
          | some hqualifier =>
              rw [identity?_resolved, identity?_resolved, hsegments.map_name_eq]
              simp only [ih hqualifier]
  | relative base segment res ih =>
      cases h with
      | relative res hbase hsegment =>
          simp only [identity?, ih hbase, hsegment.name_eq]
  | languageItem tag =>
      cases h
      rfl
  | verbatim text =>
      cases h
      rfl

/-! ## Routes and type portions -/

theorem LessDetailed.isSelf_eq (h : LessDetailed ref' ref) : ref'.isSelf = ref.isSelf := by
  cases h with
  | resolved res hqualifier hsegments =>
      cases hqualifier with
      | some hqualifier =>
          rfl
      | none =>
          -- Whether a path is `Self` is a matter of its length and of its first name.
          cases hsegments with
          | nil =>
              rfl
          | cons hsegment hrest =>
              cases hrest with
              | nil =>
                  simp only [isSelf, hsegment.name_eq]
              | cons hnext hrest =>
                  rfl
  | _ =>
      rfl

theorem LessDetailed.routedName?_eq (h : LessDetailed ref' ref) :
    ref'.routedName? = ref.routedName? := by
  induction ref using ownerInduction generalizing ref' with
  | unqualified segments res =>
      cases h with
      | resolved res hqualifier hsegments =>
          cases hqualifier
          simp only [routedName?]
  | qualified qualifier segments res ih =>
      cases h with
      | @resolved _ _ segments' _ res hqualifier hsegments =>
          cases hqualifier with
          | some hqualifier =>
              have hlast : ∀ {list' list : List (Segment Reference)},
                  LessDetailedSegments list' list →
                    list'.getLast?.map (·.name) = list.getLast?.map (·.name) := by
                intro list' list hlist
                rw [← List.getLast?_map, ← List.getLast?_map, hlist.map_name_eq]
              -- The name is that of the last segment but for a member, and members stay members.
              simp only [routedName?, hqualifier.isSelf_eq, hsegments.length_eq]
              split
              · split
                · exact hlast hsegments.dropLast
                · exact hlast hsegments
              · rfl
  | relative base segment res ih =>
      cases h with
      | relative res hbase hsegment =>
          simp only [routedName?, hbase.isSelf_eq, hsegment.name_eq, ih hbase]
  | languageItem tag =>
      cases h
      rfl
  | verbatim text =>
      cases h
      rfl

/-- The type portion of a path in less detail is its type portion in less detail. -/
theorem LessDetailed.exists_typePortion? (h : LessDetailed ref' ref) {portion : Reference}
    (hportion : ref.typePortion? = some portion) :
    ∃ portion', ref'.typePortion? = some portion' ∧ LessDetailed portion' portion := by
  -- Resolution and number of segments stay, so what is no part of the one portion is none of the
  -- other.
  cases h with
  | @resolved _ _ segments' _ res hqualifier hsegments =>
      simp only [typePortion?, hsegments.length_eq] at hportion ⊢
      split at hportion
      · rename_i htype
        cases hportion
        exact ⟨_, if_pos htype, .resolved res hqualifier hsegments⟩
      · rename_i htype
        split at hportion
        · rename_i hmember
          cases hportion
          exact ⟨_, by rw [if_neg htype, if_pos hmember],
            .resolved .type hqualifier hsegments.dropLast⟩
        · cases hportion
  | relative res hbase hsegment =>
      simp only [typePortion?, hbase.isRelative_eq] at hportion ⊢
      split at hportion
      · rename_i htype
        cases hportion
        exact ⟨_, if_pos htype, .relative res hbase hsegment⟩
      · rename_i htype
        split at hportion
        · rename_i hmember
          cases hportion
          exact ⟨_, by rw [if_neg htype, if_pos hmember], hbase⟩
        · cases hportion
  | languageItem tag =>
      cases hportion
  | verbatim text =>
      cases hportion

/-! ## The lenient comparison -/

-- By recursion on how detail was left out, the reference to compare with being taken apart on the
-- way.

mutual

theorem argEquivalent_of_lessDetailed : ∀ {ref' ref : Reference} (target : Reference),
    LessDetailed ref' ref → argEquivalent .lenient ref target = true →
      argEquivalent .lenient ref' target = true
  | _, _, target, .resolved res hqualifier hsegments, h => by
      cases target with
      | resolved qualifier'' segments'' res'' =>
          simp only [argEquivalent, Bool.and_eq_true] at h ⊢
          exact ⟨qualifierEquivalent_of_lessDetailed qualifier'' hqualifier h.1,
            segmentsEquivalent_of_lessDetailed segments'' hsegments h.2⟩
      | _ =>
          simpa only [argEquivalent] using h
  | _, _, target, .relative res hbase hsegment, h => by
      cases target with
      | relative base'' segment'' res'' =>
          simp only [argEquivalent, Bool.and_eq_true] at h ⊢
          exact ⟨argEquivalent_of_lessDetailed base'' hbase h.1,
            segmentEquivalent_of_lessDetailed segment'' hsegment h.2⟩
      | _ =>
          simpa only [argEquivalent] using h
  | _, _, _, .languageItem _, h => h
  | _, _, _, .verbatim _, h => h

theorem qualifierEquivalent_of_lessDetailed : ∀ {qualifier' qualifier : Option Reference}
    (target : Option Reference), LessDetailedOptional qualifier' qualifier →
      qualifierEquivalent .lenient qualifier target = true →
        qualifierEquivalent .lenient qualifier' target = true
  | _, _, _, .none, h => h
  | _, _, target, .some hqualifier, h => by
      cases target with
      | none =>
          simp [qualifierEquivalent] at h
      | some target =>
          simp only [qualifierEquivalent] at h ⊢
          exact argEquivalent_of_lessDetailed target hqualifier h

theorem segmentEquivalent_of_lessDetailed : ∀ {segment' segment : Segment Reference}
    (target : Segment Reference), LessDetailedSegment segment' segment →
      segmentEquivalent .lenient segment target = true →
        segmentEquivalent .lenient segment' target = true
  | _, _, ⟨name'', args''⟩, .dropped name args, h => by
      simp only [segmentEquivalent, Bool.and_eq_true] at h ⊢
      refine ⟨h.1, ?_⟩
      cases args'' <;> rfl
  | _, _, ⟨name'', args''⟩, .kept name hargs, h => by
      cases args'' with
      | none =>
          simp only [segmentEquivalent, Bool.and_eq_true] at h ⊢
          exact ⟨h.1, rfl⟩
      | some args'' =>
          -- The lists have one length. That was enough if one of them held `_`, and is so still.
          simp only [segmentEquivalent, argsEquivalent, Bool.and_eq_true, Bool.or_eq_true,
            hargs.length_eq] at h ⊢
          obtain ⟨hname, hlength, (hinferred | hinferred) | hall⟩ := h
          · exact ⟨hname, hlength, .inl (.inl (hargs.any_isInferred hinferred))⟩
          · exact ⟨hname, hlength, .inl (.inr hinferred)⟩
          · exact ⟨hname, hlength, .inr (allEquivalent_of_lessDetailed args'' hargs hall)⟩

theorem segmentsEquivalent_of_lessDetailed : ∀ {segments' segments : List (Segment Reference)}
    (target : List (Segment Reference)), LessDetailedSegments segments' segments →
      segmentsEquivalent .lenient segments target = true →
        segmentsEquivalent .lenient segments' target = true
  | _, _, _, .nil, h => h
  | _, _, target, .cons hsegment hrest, h => by
      cases target with
      | nil =>
          simp [segmentsEquivalent] at h
      | cons segment'' rest'' =>
          simp only [segmentsEquivalent, Bool.and_eq_true] at h ⊢
          exact ⟨segmentEquivalent_of_lessDetailed segment'' hsegment h.1,
            segmentsEquivalent_of_lessDetailed rest'' hrest h.2⟩

theorem allEquivalent_of_lessDetailed : ∀ {args' args : List Reference} (target : List Reference),
    LessDetailedAll args' args → allEquivalent .lenient args target = true →
      allEquivalent .lenient args' target = true
  | _, _, _, .nil, h => h
  | _, _, target, .inferred arg hrest, h => by
      cases target with
      | nil =>
          simp [allEquivalent] at h
      | cons arg'' rest'' =>
          simp only [allEquivalent, Bool.and_eq_true] at h ⊢
          refine ⟨?_, allEquivalent_of_lessDetailed rest'' hrest h.2⟩
          -- The inferred argument agrees with every argument.
          cases arg'' <;> simp [argEquivalent]
  | _, _, target, .kept harg hrest, h => by
      cases target with
      | nil =>
          simp [allEquivalent] at h
      | cons arg'' rest'' =>
          simp only [allEquivalent, Bool.and_eq_true] at h ⊢
          exact ⟨argEquivalent_of_lessDetailed arg'' harg h.1,
            allEquivalent_of_lessDetailed rest'' hrest h.2⟩

end

/-- A path that counts as the same type as another does so in less detail. -/
theorem equivalent_of_lessDetailed {target : Reference} (h : LessDetailed ref' ref)
    (hequivalent : equivalent .lenient ref target = true) :
    equivalent .lenient ref' target = true := by
  rw [equivalent_eq, Bool.and_eq_true, h.isPath_eq] at *
  exact ⟨hequivalent.1, argEquivalent_of_lessDetailed target h hequivalent.2⟩

end Reference
end AssocLint
