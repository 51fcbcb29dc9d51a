import AssocLint.Proofs.Reference.Identity
import AssocLint.Text.Squeezed

/-!
# Well-shaped references

`nodes` lists a reference and everything inside it: qualifiers, bases and generic arguments, at any
depth. A reference is well shaped (`IsWellShaped`) when each of its nodes has a shape that path text
can write, and each node *inside* it is no language item and has the resolution that it is read with:
`Self` that of `Self`, any other path that of a type. The outermost node may resolve to anything.

A well-shaped reference has an identity unless it is a language item
(`IsWellShaped.identity?_eq_none_iff`).
-/

namespace AssocLint

/-- The segment `Self`, written without a list of arguments. -/
def Segment.isBareSelf (segment : Segment Reference) : Bool :=
  segment.name == "Self" && segment.args.isNone

namespace Reference

mutual

/-- A reference and every reference inside it, outermost first. -/
def nodes : Reference → List Reference
  | .resolved qualifier segments res =>
    .resolved qualifier segments res :: (nodesOptional qualifier ++ nodesSegments segments)
  | .relative base segment res => .relative base segment res :: (base.nodes ++ nodesSegment segment)
  | .languageItem tag => [.languageItem tag]
  | .verbatim text => [.verbatim text]
termination_by structural ref => ref

def nodesOptional : Option Reference → List Reference
  | none => []
  | some ref => ref.nodes
termination_by structural ref => ref

def nodesSegment : Segment Reference → List Reference
  | ⟨_, none⟩ => []
  | ⟨_, some args⟩ => nodesAll args
termination_by structural segment => segment

def nodesSegments : List (Segment Reference) → List Reference
  | [] => []
  | segment :: rest => nodesSegment segment ++ nodesSegments rest
termination_by structural segments => segments

def nodesAll : List Reference → List Reference
  | [] => []
  | ref :: rest => ref.nodes ++ nodesAll rest
termination_by structural refs => refs

end

def parts (ref : Reference) : List Reference :=
  ref.nodes.tail

/-- Whether a reference is the bare path `Self`. -/
def isBareSelf : Reference → Bool
  | .resolved none [segment] _ => segment.isBareSelf
  | _ => false

def isLanguageItem : Reference → Bool
  | .languageItem _ => true
  | _ => false

/-- The segments that a path can have behind a qualifier or without one. -/
structure SegmentsShaped (qualifier : Option Reference) (segments : List (Segment Reference)) :
    Prop where
  nonempty : segments ≠ []
  /-- A qualified path names a trait and a member of it. -/
  qualified : qualifier.isSome → 2 ≤ segments.length
  /-- Only the first name can be empty. -/
  named : ∀ segment ∈ segments.tail, segment.name ≠ ""
  /-- What is written behind `Self` is relative on it. -/
  unfolded : qualifier = none → 2 ≤ segments.length →
    ∀ segment ∈ segments.head?, segment.isBareSelf = false

/-- The shapes that path text can write, aside from what stands inside. -/
def IsShaped : Reference → Prop
  | .resolved qualifier segments _ => SegmentsShaped qualifier segments
  | .relative _ segment _ => segment.name ≠ ""
  | .languageItem _ => True
  | .verbatim text => Text.squeezed text = text

/-- A reference as it can stand inside another, aside from what stands inside itself. -/
structure IsPart (ref : Reference) : Prop where
  shaped : ref.IsShaped
  noItem : ref.isLanguageItem = false
  res_eq : ∀ res ∈ ref.res?, res = if ref.isBareSelf then .selfType else .type

/-- A reference whose nodes are all well shaped, and those inside it without language items and
with the resolutions of their kind. -/
structure IsWellShaped (ref : Reference) : Prop where
  shaped : ref.IsShaped
  inside : ∀ part ∈ ref.parts, part.IsPart

/-- A reference that can stand inside another with all that is in it. -/
def IsInner (ref : Reference) : Prop :=
  ∀ node ∈ ref.nodes, node.IsPart

end Reference

/-- The generic arguments of a segment can stand where they do. -/
def Segment.HasInnerArgs (segment : Segment Reference) : Prop :=
  ∀ node ∈ Reference.nodesSegment segment, node.IsPart

namespace Reference

/-! ## Bare `Self` -/

theorem eq_of_isBareSelf {segment : Segment Reference} (h : segment.isBareSelf = true) :
    segment = ⟨"Self", none⟩ := by
  rcases segment with ⟨name, args⟩
  rw [Segment.isBareSelf, Bool.and_eq_true, beq_iff_eq, Option.isNone_iff_eq_none] at h
  rcases h with ⟨rfl, rfl⟩
  rfl

theorem isBareSelf_resolved_of_first {first : Segment Reference} (h : first.isBareSelf = false)
    (rest : List (Segment Reference)) (res : Resolution) :
    (resolved none (first :: rest) res).isBareSelf = false := by
  cases rest with
  | nil => exact h
  | cons => rfl

/-! ## Nodes -/

theorem nodes_eq_cons (ref : Reference) : ref.nodes = ref :: ref.parts := by
  cases ref <;> simp [parts, nodes]

theorem mem_nodesOptional {qualifier : Option Reference} {node : Reference} :
    node ∈ nodesOptional qualifier ↔ ∃ ref ∈ qualifier, node ∈ ref.nodes := by
  cases qualifier <;> simp [nodesOptional]

theorem mem_nodesSegments {segments : List (Segment Reference)} {node : Reference} :
    node ∈ nodesSegments segments ↔ ∃ segment ∈ segments, node ∈ nodesSegment segment := by
  induction segments with
  | nil =>
      simp [nodesSegments]
  | cons segment rest ih =>
      simp [nodesSegments, ih]

theorem mem_nodesAll {refs : List Reference} {node : Reference} :
    node ∈ nodesAll refs ↔ ∃ ref ∈ refs, node ∈ ref.nodes := by
  induction refs with
  | nil =>
      simp [nodesAll]
  | cons ref rest ih =>
      simp [nodesAll, ih]

-- By recursion on the outermost reference. What is inside a node is inside the part that it is in.

mutual

theorem mem_nodes_trans : ∀ {ref node inner : Reference},
    node ∈ ref.nodes → inner ∈ node.nodes → inner ∈ ref.nodes
  | .resolved qualifier segments res, node, inner, hnode, hinner => by
      rw [nodes, List.mem_cons, List.mem_append] at hnode ⊢
      rcases hnode with rfl | hqualifier | hsegments
      · rwa [nodes, List.mem_cons, List.mem_append] at hinner
      · exact Or.inr (Or.inl (mem_nodesOptional_trans hqualifier hinner))
      · exact Or.inr (Or.inr (mem_nodesSegments_trans hsegments hinner))
  | .relative base segment res, node, inner, hnode, hinner => by
      rw [nodes, List.mem_cons, List.mem_append] at hnode ⊢
      rcases hnode with rfl | hbase | hsegment
      · rwa [nodes, List.mem_cons, List.mem_append] at hinner
      · exact Or.inr (Or.inl (mem_nodes_trans hbase hinner))
      · exact Or.inr (Or.inr (mem_nodesSegment_trans hsegment hinner))
  | .languageItem tag, node, inner, hnode, hinner => by
      rw [nodes, List.mem_singleton] at hnode
      rwa [hnode] at hinner
  | .verbatim text, node, inner, hnode, hinner => by
      rw [nodes, List.mem_singleton] at hnode
      rwa [hnode] at hinner
termination_by structural ref => ref

theorem mem_nodesOptional_trans : ∀ {qualifier : Option Reference} {node inner : Reference},
    node ∈ nodesOptional qualifier → inner ∈ node.nodes → inner ∈ nodesOptional qualifier
  | none, _, _, hnode, _ => nomatch hnode
  | some _, _, _, hnode, hinner => mem_nodes_trans hnode hinner
termination_by structural qualifier => qualifier

theorem mem_nodesSegment_trans : ∀ {segment : Segment Reference} {node inner : Reference},
    node ∈ nodesSegment segment → inner ∈ node.nodes → inner ∈ nodesSegment segment
  | ⟨_, none⟩, _, _, hnode, _ => nomatch hnode
  | ⟨_, some _⟩, _, _, hnode, hinner => mem_nodesAll_trans hnode hinner
termination_by structural segment => segment

theorem mem_nodesSegments_trans : ∀ {segments : List (Segment Reference)} {node inner : Reference},
    node ∈ nodesSegments segments → inner ∈ node.nodes → inner ∈ nodesSegments segments
  | [], _, _, hnode, _ => nomatch hnode
  | _ :: _, _, _, hnode, hinner =>
    List.mem_append.2 ((List.mem_append.1 hnode).imp (mem_nodesSegment_trans · hinner)
      (mem_nodesSegments_trans · hinner))
termination_by structural segments => segments

theorem mem_nodesAll_trans : ∀ {refs : List Reference} {node inner : Reference},
    node ∈ nodesAll refs → inner ∈ node.nodes → inner ∈ nodesAll refs
  | [], _, _, hnode, _ => nomatch hnode
  | _ :: _, _, _, hnode, hinner =>
    List.mem_append.2 ((List.mem_append.1 hnode).imp (mem_nodes_trans · hinner)
      (mem_nodesAll_trans · hinner))
termination_by structural refs => refs

end

theorem mem_parts_trans {ref node inner : Reference} (hnode : node ∈ ref.parts)
    (hinner : inner ∈ node.nodes) : inner ∈ ref.parts := by
  cases ref with
  | resolved qualifier segments res =>
      rw [parts, nodes, List.tail_cons, List.mem_append] at hnode ⊢
      exact hnode.imp (mem_nodesOptional_trans · hinner) (mem_nodesSegments_trans · hinner)
  | relative base segment res =>
      rw [parts, nodes, List.tail_cons, List.mem_append] at hnode ⊢
      exact hnode.imp (mem_nodes_trans · hinner) (mem_nodesSegment_trans · hinner)
  | _ =>
      cases hnode

/-! ## Inner references -/

theorem isInner_iff {ref : Reference} :
    ref.IsInner ↔ ref.IsPart ∧ ∀ part ∈ ref.parts, part.IsPart := by
  rw [IsInner, nodes_eq_cons, List.forall_mem_cons]

theorem IsInner.isWellShaped {ref : Reference} (h : ref.IsInner) : ref.IsWellShaped :=
  ⟨(isInner_iff.1 h).1.shaped, (isInner_iff.1 h).2⟩

theorem hasInnerArgs_none (name : String) : Segment.HasInnerArgs ⟨name, none⟩ := by
  intro node hnode
  simp [nodesSegment] at hnode

theorem hasInnerArgs_some {name : String} {args : List Reference} (h : ∀ arg ∈ args, arg.IsInner) :
    Segment.HasInnerArgs ⟨name, some args⟩ := by
  intro node hnode
  rw [nodesSegment, mem_nodesAll] at hnode
  rcases hnode with ⟨arg, harg, hnode⟩
  exact h arg harg node hnode

theorem isInner_verbatim {text : String} (h : Text.squeezed text = text) :
    (verbatim text).IsInner := by
  intro node hnode
  rw [nodes, List.mem_singleton] at hnode
  subst hnode
  exact ⟨h, rfl, nofun⟩

theorem forall_parts_resolved {qualifier : Option Reference} {segments : List (Segment Reference)}
    {res : Resolution} (hqualifier : ∀ ref ∈ qualifier, ref.IsInner)
    (hargs : ∀ segment ∈ segments, segment.HasInnerArgs) :
    ∀ part ∈ (resolved qualifier segments res).parts, part.IsPart := by
  intro part hpart
  rw [parts, nodes, List.tail_cons, List.mem_append, mem_nodesOptional, mem_nodesSegments] at hpart
  rcases hpart with ⟨ref, href, hnode⟩ | ⟨segment, hsegment, hnode⟩
  · exact hqualifier ref href part hnode
  · exact hargs segment hsegment part hnode

theorem forall_parts_relative {base : Reference} {segment : Segment Reference} {res : Resolution}
    (hbase : base.IsInner) (hargs : segment.HasInnerArgs) :
    ∀ part ∈ (relative base segment res).parts, part.IsPart := by
  intro part hpart
  rw [parts, nodes, List.tail_cons, List.mem_append] at hpart
  exact hpart.elim (hbase part) (hargs part)

theorem isInner_relative {base : Reference} {segment : Segment Reference} (hbase : base.IsInner)
    (hname : segment.name ≠ "") (hargs : segment.HasInnerArgs) :
    (relative base segment .type).IsInner := by
  refine isInner_iff.2 ⟨⟨hname, rfl, ?_⟩, forall_parts_relative hbase hargs⟩
  rintro res ⟨⟩
  rfl

theorem isInner_selfPath : selfPath.IsInner := by
  refine isInner_iff.2 ⟨⟨⟨nofun, nofun, nofun, ?_⟩, rfl, ?_⟩, forall_parts_resolved nofun ?_⟩
  · intro _ htwo
    simp at htwo
  · rintro res ⟨⟩
    rfl
  · intro segment hsegment
    rw [List.mem_singleton] at hsegment
    subst hsegment
    exact hasInnerArgs_none "Self"

/-- The resolution recorded for the outermost node is free. -/
theorem IsWellShaped.withRes {ref : Reference} (h : ref.IsWellShaped) (res : Resolution) :
    (ref.withRes res).IsWellShaped := by
  cases ref with
  | resolved qualifier segments res' =>
      refine ⟨h.shaped, ?_⟩
      intro part hpart
      refine h.inside part ?_
      simpa [Reference.withRes, parts, nodes] using hpart
  | relative base segment res' =>
      refine ⟨h.shaped, ?_⟩
      intro part hpart
      refine h.inside part ?_
      simpa [Reference.withRes, parts, nodes] using hpart
  | _ =>
      exact h

/-! ## Identities -/

theorem IsInner.isSome_identity? {ref : Reference} (h : ref.IsInner) : ref.identity?.isSome := by
  induction ref using ownerInduction with
  | unqualified segments res =>
      have hshaped : SegmentsShaped none segments := (isInner_iff.1 h).1.shaped
      simp [identity?_resolved, hshaped.nonempty]
  | qualified qualifier segments res ih =>
      have hshaped : SegmentsShaped (some qualifier) segments := (isInner_iff.1 h).1.shaped
      have hqualifier : qualifier.identity?.isSome := by
        refine ih fun node hnode => h node ?_
        rw [nodes]
        exact List.mem_cons_of_mem _ (List.mem_append_left _ hnode)
      simp [identity?_resolved, hshaped.nonempty, hqualifier]
  | relative base segment res ih =>
      have hbase : base.identity?.isSome := by
        refine ih fun node hnode => h node ?_
        rw [nodes]
        exact List.mem_cons_of_mem _ (List.mem_append_left _ hnode)
      simp [identity?, hbase]
  | languageItem tag =>
      cases (isInner_iff.1 h).1.noItem
  | verbatim text =>
      rfl

/-- A well-shaped reference lacks an identity only where it is a language item. -/
theorem IsWellShaped.identity?_eq_none_iff {ref : Reference} (h : ref.IsWellShaped) :
    ref.identity? = none ↔ ref.isLanguageItem = true := by
  cases ref with
  | resolved qualifier segments res =>
      have hshaped : SegmentsShaped qualifier segments := h.shaped
      cases qualifier with
      | none =>
          simp [identity?_resolved, hshaped.nonempty, isLanguageItem]
      | some qualifier =>
          have hqualifier : qualifier.IsInner := by
            refine fun node hnode => h.inside node ?_
            rw [parts, nodes, List.tail_cons]
            exact List.mem_append_left _ hnode
          have hsome := hqualifier.isSome_identity?
          rw [Option.isSome_iff_ne_none] at hsome
          simp [identity?_resolved, hshaped.nonempty, isLanguageItem, hsome]
  | relative base segment res =>
      have hbase : base.IsInner := by
        refine fun node hnode => h.inside node ?_
        rw [parts, nodes, List.tail_cons]
        exact List.mem_append_left _ hnode
      have hsome := hbase.isSome_identity?
      rw [Option.isSome_iff_ne_none] at hsome
      simp [identity?, isLanguageItem, hsome]
  | languageItem tag =>
      simp [identity?, isLanguageItem]
  | verbatim text =>
      simp [identity?, isLanguageItem]

/-- What is inside a well-shaped reference is well shaped. -/
theorem IsWellShaped.of_mem_nodes {ref node : Reference} (h : ref.IsWellShaped)
    (hnode : node ∈ ref.nodes) : node.IsWellShaped := by
  rw [nodes_eq_cons, List.mem_cons] at hnode
  rcases hnode with rfl | hpart
  · exact h
  · have hinner : node.IsInner := fun inner hmem => h.inside inner (mem_parts_trans hpart hmem)
    exact hinner.isWellShaped

end Reference
end AssocLint
