import AssocLint.Proofs.Grammar.Layout
import Mathlib.Data.List.Basic

/-!
# The layout in which a reference is shown

Every writable reference has a layout, and `Reference.render` is one unless it leaves out brackets
that are needed. It shows the base of a relative path bare wherever that is a path without generic
arguments, but members behind such a path make it longer instead of standing on it. `ShowsBase` says
of a node that this does not happen.
-/

namespace AssocLint

namespace Reference

/-- A base that is shown without brackets can be written without. -/
def ShowsBase : Reference → Prop
  | .relative base _ _ => base.standsBare = true → base.standsOpen = true
  | _ => True

theorem standsBare_of_standsOpen {ref : Reference} (h : ref.standsOpen = true) :
    ref.standsBare = true := by
  cases ref with
  | relative =>
      rfl
  | resolved qualifier segments res =>
      match qualifier, segments, h with
      | none, [segment], h =>
          rw [eq_of_isBareSelf h]
          rfl
  | _ =>
      cases h

end Reference

/-- A phrase has a layout, and that is how it is shown where its bases can be written so. -/
def HasLayout (phrase : Phrase) (nodes : List Reference) (shown : String) : Prop :=
  ∃ text, Layout phrase text ∧ ((∀ node ∈ nodes, node.ShowsBase) → text = shown.toList)

theorem spaces_nil : Spaces [] :=
  List.forall_mem_nil _

theorem spaces_blank : Spaces [' '] := by
  intro c hc
  rw [List.mem_singleton] at hc
  subst hc
  decide

namespace Reference

/-! ## Lists -/

theorem hasLayout_arguments {args : List Reference}
    (h : ∀ arg ∈ args, HasLayout (.reference arg) arg.nodes arg.render) :
    HasLayout (.arguments args) (nodesAll args) (", ".intercalate (renderAll args)) := by
  induction args with
  | nil =>
      exact ⟨[], .noArguments, fun _ => rfl⟩
  | cons arg rest ih =>
      rcases List.forall_mem_cons.1 h with ⟨⟨text, hlayout, hshown⟩, hrest⟩
      cases rest with
      | nil =>
          refine ⟨text, .lastArgument hlayout, fun hbases => ?_⟩
          rw [hshown fun node hnode => hbases node (List.mem_append_left _ hnode)]
          simp [renderAll]
      | cons next rest =>
          rcases ih hrest with ⟨restText, hlayout', hshown'⟩
          refine ⟨_, .argument hlayout spaces_nil spaces_blank hlayout', fun hbases => ?_⟩
          rw [hshown fun node hnode => hbases node (List.mem_append_left _ hnode),
            hshown' fun node hnode => hbases node (List.mem_append_right _ hnode)]
          simp [renderAll, String.intercalate_cons_cons]

/-- The members behind a path, as they are shown. -/
def showMembers (segments : List (Segment Reference)) : List Char :=
  segments.flatMap fun segment => ':' :: ':' :: (renderSegment segment).toList

theorem toList_intercalate_cons (first : Segment Reference) (rest : List (Segment Reference)) :
    ("::".intercalate (renderSegments (first :: rest))).toList =
      (renderSegment first).toList ++ showMembers rest := by
  induction rest generalizing first with
  | nil =>
      simp [renderSegments, showMembers]
  | cons next rest ih =>
      have hnext := ih next
      simp only [renderSegments] at hnext ⊢
      rw [String.intercalate_cons_cons, String.toList_append, String.toList_append, hnext,
        showMembers, showMembers, List.flatMap_cons, List.append_assoc]
      rfl

theorem exists_layout_members {segments : List (Segment Reference)}
    (h : ∀ segment ∈ segments,
      HasLayout (.segment segment) (nodesSegment segment) (renderSegment segment)) :
    ∃ text, Layout (.members segments) text ∧
      ((∀ node ∈ nodesSegments segments, node.ShowsBase) → text = showMembers segments) := by
  induction segments with
  | nil =>
      exact ⟨[], .noMembers, fun _ => rfl⟩
  | cons segment rest ih =>
      rcases List.forall_mem_cons.1 h with ⟨⟨text, hlayout, hshown⟩, hrest⟩
      rcases ih hrest with ⟨restText, hlayout', hshown'⟩
      refine ⟨_, .member spaces_nil spaces_nil hlayout hlayout', fun hbases => ?_⟩
      rw [hshown fun node hnode => hbases node (List.mem_append_left _ hnode),
        hshown' fun node hnode => hbases node (List.mem_append_right _ hnode)]
      rfl

/-- The first segment of a path and the members behind it, each with its layout. -/
theorem exists_layout_cons {first : Segment Reference} {rest : List (Segment Reference)}
    (h : ∀ segment ∈ first :: rest,
      HasLayout (.segment segment) (nodesSegment segment) (renderSegment segment)) :
    ∃ firstText restText, Layout (.segment first) firstText ∧ Layout (.members rest) restText ∧
      ((∀ node ∈ nodesSegments (first :: rest), node.ShowsBase) →
        firstText ++ restText = ("::".intercalate (renderSegments (first :: rest))).toList) := by
  rcases List.forall_mem_cons.1 h with ⟨⟨text, hlayout, hshown⟩, hrest⟩
  rcases exists_layout_members hrest with ⟨restText, hlayout', hshown'⟩
  refine ⟨text, restText, hlayout, hlayout', fun hbases => ?_⟩
  rw [hshown fun node hnode => hbases node (List.mem_append_left _ hnode),
    hshown' fun node hnode => hbases node (List.mem_append_right _ hnode), toList_intercalate_cons]

theorem hasLayout_path {first : Segment Reference} {rest : List (Segment Reference)}
    (h : ∀ segment ∈ first :: rest,
      HasLayout (.segment segment) (nodesSegment segment) (renderSegment segment)) :
    HasLayout (.segments (first :: rest)) (nodesSegments (first :: rest))
      ("::".intercalate (renderSegments (first :: rest))) := by
  rcases exists_layout_cons h with ⟨text, restText, hlayout, hlayout', hshown⟩
  exact ⟨_, .path hlayout hlayout', hshown⟩

theorem hasLayout_globalPath {first : Segment Reference} {rest : List (Segment Reference)}
    (h : ∀ segment ∈ first :: rest,
      HasLayout (.segment segment) (nodesSegment segment) (renderSegment segment)) :
    HasLayout (.segments (⟨"", none⟩ :: first :: rest)) (nodesSegments (first :: rest))
      ("::".intercalate (renderSegments (⟨"", none⟩ :: first :: rest))) := by
  rcases exists_layout_cons h with ⟨text, restText, hlayout, hlayout', hshown⟩
  refine ⟨_, .globalPath hlayout hlayout', fun hbases => ?_⟩
  -- The empty name shows as nothing, and the `::` behind it as the leading one.
  rw [hshown hbases, toList_intercalate_cons, toList_intercalate_cons]
  rfl

theorem namedSegments_cons_of_ne {first : Segment Reference} (h : first ≠ ⟨"", none⟩)
    (rest : List (Segment Reference)) : namedSegments (first :: rest) = first :: rest := by
  unfold namedSegments
  split
  · rename_i hsegments
    cases hsegments
    exact absurd rfl h
  · rfl

theorem hasLayout_segments {segments : List (Segment Reference)}
    (hne : namedSegments segments ≠ [])
    (h : ∀ segment ∈ namedSegments segments,
      HasLayout (.segment segment) (nodesSegment segment) (renderSegment segment)) :
    HasLayout (.segments segments) (nodesSegments segments)
      ("::".intercalate (renderSegments segments)) := by
  cases segments with
  | nil =>
      exact absurd rfl hne
  | cons first rest =>
      by_cases hfirst : first = ⟨"", none⟩
      · subst hfirst
        cases rest with
        | nil => exact absurd rfl hne
        | cons next rest => exact hasLayout_globalPath h
      · rw [namedSegments_cons_of_ne hfirst] at h
        exact hasLayout_path h

theorem namedSegments_concat {trait : List (Segment Reference)} (hne : trait ≠ [])
    (last : Segment Reference) : namedSegments (trait ++ [last]) = namedSegments trait ++ [last] := by
  cases trait with
  | nil =>
      exact absurd rfl hne
  | cons first rest =>
      by_cases hfirst : first = ⟨"", none⟩
      · subst hfirst
        rfl
      · rw [List.cons_append, namedSegments_cons_of_ne hfirst, namedSegments_cons_of_ne hfirst,
          List.cons_append]

/-! ## References -/

theorem hasLayout_qualified {qualifier : Reference} {segments : List (Segment Reference)}
    {res : Resolution} (hqualifier : HasLayout (.reference qualifier) qualifier.nodes qualifier.render)
    (htwo : 2 ≤ (namedSegments segments).length)
    (h : ∀ segment ∈ namedSegments segments,
      HasLayout (.segment segment) (nodesSegment segment) (renderSegment segment)) :
    HasLayout (.reference (.resolved (some qualifier) segments res))
      (resolved (some qualifier) segments res).nodes
      (resolved (some qualifier) segments res).render := by
  -- All but the last segment are the trait.
  rcases List.eq_nil_or_concat' segments with rfl | ⟨trait, last, rfl⟩
  · cases htwo
  have htrait : trait ≠ [] := by
    rintro rfl
    have hone : (namedSegments [last]).length ≤ 1 := by
      unfold namedSegments
      split <;> simp_all
    have htwo' : 2 ≤ (namedSegments [last]).length := htwo
    omega
  rw [namedSegments_concat htrait] at htwo h
  have hne : namedSegments trait ≠ [] := by
    intro hnil
    simp [hnil] at htwo
  have hlast : ∀ segment ∈ [last],
      HasLayout (.segment segment) (nodesSegment segment) (renderSegment segment) :=
    fun segment hsegment => h segment (List.mem_append_right _ hsegment)
  rcases hqualifier with ⟨qualifierText, hqualifierLayout, hqualifierShown⟩
  rcases hasLayout_segments hne (fun segment hsegment => h segment (List.mem_append_left _ hsegment))
    with ⟨traitText, htraitLayout, htraitShown⟩
  rcases exists_layout_members hlast with ⟨lastText, hlastLayout, hlastShown⟩
  refine ⟨_, .qualified spaces_nil hqualifierLayout spaces_blank nofun spaces_blank
    (List.cons_ne_nil _ _) htraitLayout spaces_nil (List.cons_ne_nil _ _) hlastLayout,
    fun hbases => ?_⟩
  have hsegments {node : Reference} (hnode : ∃ segment ∈ trait ++ [last], node ∈ nodesSegment segment) :
      node.ShowsBase := by
    refine hbases node ?_
    rw [nodes]
    exact List.mem_cons_of_mem _ (List.mem_append_right _ (mem_nodesSegments.2 hnode))
  rw [hqualifierShown fun node hnode => hbases node
      (List.mem_cons_of_mem _ (List.mem_append_left _ hnode)),
    htraitShown fun node hnode => by
      rcases mem_nodesSegments.1 hnode with ⟨segment, hsegment, hnode⟩
      exact hsegments ⟨segment, List.mem_append_left _ hsegment, hnode⟩,
    hlastShown fun node hnode => by
      rcases mem_nodesSegments.1 hnode with ⟨segment, hsegment, hnode⟩
      exact hsegments ⟨segment, List.mem_append_right _ hsegment, hnode⟩]
  simp [render, renderSegments_eq_map, showMembers]

theorem hasLayout_relative {base : Reference} {segment : Segment Reference} {res : Resolution}
    (hbase : HasLayout (.reference base) base.nodes base.render)
    (hsegment : HasLayout (.segment segment) (nodesSegment segment) (renderSegment segment)) :
    HasLayout (.reference (.relative base segment res)) (relative base segment res).nodes
      (relative base segment res).render := by
  rcases hbase with ⟨baseText, hbaseLayout, hbaseShown⟩
  rcases exists_layout_members (List.forall_mem_singleton.2 hsegment) with
    ⟨memberText, hmemberLayout, hmemberShown⟩
  have hshown (hbases : ∀ node ∈ (relative base segment res).nodes, node.ShowsBase) :
      baseText = base.render.toList ∧ memberText = showMembers [segment] := by
    rw [nodes, List.forall_mem_cons, List.forall_mem_append] at hbases
    refine ⟨hbaseShown hbases.2.1, hmemberShown fun node hnode => ?_⟩
    rcases mem_nodesSegments.1 hnode with ⟨segment', hsegment', hnode⟩
    rw [List.mem_singleton.1 hsegment'] at hnode
    exact hbases.2.2 node hnode
  cases hopen : base.standsOpen with
  | true =>
      refine ⟨_, .relativeOpen hopen hbaseLayout hmemberLayout, fun hbases => ?_⟩
      rw [(hshown hbases).1, (hshown hbases).2, render, if_pos (standsBare_of_standsOpen hopen)]
      simp [showMembers]
  | false =>
      refine ⟨_, .relative spaces_nil hbaseLayout spaces_nil hmemberLayout, fun hbases => ?_⟩
      -- What is shown without brackets stands open, and this base does not.
      have hbare : base.standsBare = false := by
        have hbase := hbases (relative base segment res) (by rw [nodes]; exact List.mem_cons_self)
        rw [← Bool.not_eq_true]
        intro hbare
        rw [hbase hbare] at hopen
        cases hopen
      rw [(hshown hbases).1, (hshown hbases).2, render, if_neg (by simp [hbare])]
      simp [showMembers]

theorem IsName.ne_empty {name : String} (h : IsName name) : name ≠ "" := by
  rintro rfl
  cases h.identifier

theorem mem_of_mem_namedSegments {segments : List (Segment Reference)} {segment : Segment Reference}
    (h : segment ∈ namedSegments segments) : segment ∈ segments := by
  unfold namedSegments at h
  split at h
  · exact List.mem_cons_of_mem _ h
  · exact h

-- By recursion on the reference. What stands inside has its layout first.

mutual

theorem hasLayout : ∀ ref : Reference, (∀ node ∈ ref.nodes, node.IsWritableNode) →
    HasLayout (.reference ref) ref.nodes ref.render
  | .resolved none segments res, hwritable => by
      rcases Grammar.isWritableNode_of_nodes hwritable with ⟨hne, hnames, -⟩
      have hsegments := hasLayoutSegments segments (Grammar.isWritable_segments hwritable)
      rcases hasLayout_segments hne fun segment hsegment => hsegments segment
        (mem_of_mem_namedSegments hsegment) (IsName.ne_empty (hnames segment hsegment)) with
          ⟨text, hlayout, hshown⟩
      refine ⟨text, .plain hlayout, fun hbases => hshown fun node hnode => hbases node ?_⟩
      rw [nodes]
      exact List.mem_cons_of_mem _ (List.mem_append_right _ hnode)
  | .resolved (some qualifier) segments res, hwritable => by
      rcases Grammar.isWritableNode_of_nodes hwritable with ⟨-, htwo, hnames, -⟩
      have hqualifier := hasLayout qualifier (Grammar.isWritable_qualifier hwritable)
      have hsegments := hasLayoutSegments segments (Grammar.isWritable_segments hwritable)
      exact hasLayout_qualified hqualifier htwo fun segment hsegment => hsegments segment
        (mem_of_mem_namedSegments hsegment) (IsName.ne_empty (hnames segment hsegment))
  | .relative base segment res, hwritable => by
      have hnode := Grammar.isWritableNode_of_nodes hwritable
      rcases Grammar.isWritable_relative hwritable with ⟨hbase, hsegment⟩
      exact hasLayout_relative (hasLayout base hbase)
        (hasLayoutSegment segment hsegment (IsName.ne_empty hnode.2))
  | .languageItem tag, hwritable =>
      (Grammar.isWritableNode_of_nodes hwritable).elim
  | .verbatim text, _ =>
      ⟨text.toList, .verbatim text, fun _ => rfl⟩
termination_by structural ref => ref

theorem hasLayoutSegment : ∀ segment : Segment Reference, segment.IsWritable → segment.name ≠ "" →
    HasLayout (.segment segment) (nodesSegment segment) (renderSegment segment)
  | ⟨name, none⟩, _, hname =>
      ⟨name.toList, .bare hname, fun _ => rfl⟩
  | ⟨name, some args⟩, hwritable, hname => by
      rcases hasLayout_arguments (hasLayoutAll args (Grammar.isWritable_args hwritable)) with
        ⟨text, hlayout, hshown⟩
      refine ⟨_, .generic hname (Or.inl rfl) spaces_nil spaces_nil hlayout spaces_nil,
        fun hbases => ?_⟩
      rw [hshown hbases]
      simp [renderSegment]
termination_by structural segment => segment

theorem hasLayoutSegments : ∀ segments : List (Segment Reference),
    (∀ segment ∈ segments, segment.IsWritable) → ∀ segment ∈ segments, segment.name ≠ "" →
      HasLayout (.segment segment) (nodesSegment segment) (renderSegment segment)
  | [], _ => nofun
  | segment :: rest, hwritable => by
      rw [List.forall_mem_cons] at hwritable ⊢
      exact ⟨hasLayoutSegment segment hwritable.1, hasLayoutSegments rest hwritable.2⟩
termination_by structural segments => segments

theorem hasLayoutAll : ∀ refs : List Reference,
    (∀ ref ∈ refs, ∀ node ∈ ref.nodes, node.IsWritableNode) →
      ∀ ref ∈ refs, HasLayout (.reference ref) ref.nodes ref.render
  | [], _ => nofun
  | ref :: rest, hwritable => by
      rw [List.forall_mem_cons] at hwritable ⊢
      exact ⟨hasLayout ref hwritable.1, hasLayoutAll rest hwritable.2⟩
termination_by structural refs => refs

end

/-! ## Reading back -/

/-- Every layout of a writable reference is read as that reference. There is one, and it is the one
in which the reference is shown where no base needs brackets that are left out. -/
theorem read_layouts {ref : Reference} (h : ref.IsWritable) :
    (∀ text, ref.IsLaidOutAs text → ∀ res, ∃ found,
      Reference.read text res = .ok found ∧ found.same ref = true) ∧
    (∃ text, ref.IsLaidOutAs text) ∧
    ((∀ node ∈ ref.nodes, node.ShowsBase) → ref.IsLaidOutAs ref.render) := by
  rcases hasLayout ref h.nodes with ⟨inner, hlayout, hshown⟩
  refine ⟨fun text htext res => read_of_isLaidOutAs h htext res, ⟨String.ofList inner, ?_⟩, ?_⟩
  · exact ⟨[], inner, [], spaces_nil, hlayout, spaces_nil, by simp⟩
  · intro hbases
    rw [hshown hbases] at hlayout
    exact ⟨[], _, [], spaces_nil, hlayout, spaces_nil, by simp⟩

/-- A list of arguments that is set off by `::` and ends with a comma, and a trait right behind it. -/
theorem read_layouts_qualified :
    let owner : Reference :=
      .resolved none [⟨"Vec", some [.verbatim "'a", .verbatim "-3"]⟩] .type
    let ref : Reference := .resolved (some owner) [⟨"Iterator", none⟩, ⟨"Item", none⟩] .type
    let text := " <Vec:: < 'a ,-3, >as Iterator> :: Item"
    ref.IsWritable ∧ ref.IsLaidOutAs text ∧ ∃ found,
      Reference.read text none = .ok found ∧ found.same ref = true := by
  intro owner ref text
  have hname {name : String} (hread : Grammar.identifier? name.toList = some (name.toList, []))
      (hne : name ≠ "dyn" ∧ name ≠ "impl") : IsName name :=
    ⟨hread, hne.1, hne.2⟩
  have hvec : IsName "Vec" := hname (by decide) (by decide)
  have hiterator : IsName "Iterator" := hname (by decide) (by decide)
  have hitem : IsName "Item" := hname (by decide) (by decide)
  have hwritable : ref.IsWritable := by
    have hnodes : ref.nodes = [ref, owner, .verbatim "'a", .verbatim "-3"] := rfl
    refine ⟨rfl, ?_⟩
    rw [hnodes]
    simp only [List.forall_mem_cons]
    refine ⟨⟨rfl, by decide, ?_, ?_⟩, ⟨List.cons_ne_nil _ _, ?_, Or.inl rfl⟩, ?_, ?_, nofun⟩
    · exact List.forall_mem_cons.2 ⟨hiterator, List.forall_mem_singleton.2 hitem⟩
    · rintro segment ⟨⟩
      rfl
    · exact List.forall_mem_singleton.2 hvec
    · exact .lifetime (by decide)
    · exact .integer (List.cons_ne_nil '3' []) (List.forall_mem_singleton.2 rfl) (Or.inr rfl)
  have hargs : Layout (.arguments [.verbatim "'a", .verbatim "-3"]) "'a ,-3,".toList :=
    .argument (.verbatim "'a") spaces_blank spaces_nil (.trailingComma (.verbatim "-3") spaces_nil)
  have howner : Layout (.reference owner) "Vec:: < 'a ,-3, >".toList :=
    .plain (.path (.generic (by decide) (Or.inr rfl) spaces_blank spaces_blank hargs spaces_blank)
      .noMembers)
  have hlast : ∀ c ∈ "Vec:: < 'a ,-3, >".toList.getLast?, Text.isWord c = false := by
    intro c hc
    have hend : "Vec:: < 'a ,-3, >".toList.getLast? = some '>' := by
      decide
    rw [hend] at hc
    cases hc
    decide
  have htrait : Layout (.segments [⟨"Iterator", none⟩]) "Iterator".toList :=
    .path (.bare (by decide)) .noMembers
  have hmember : Layout (.members [⟨"Item", none⟩]) " :: Item".toList :=
    .member spaces_blank spaces_blank (.bare (by decide)) .noMembers
  have href : Layout (.reference ref) "<Vec:: < 'a ,-3, >as Iterator> :: Item".toList :=
    .qualified spaces_nil howner spaces_nil (fun _ => hlast) spaces_blank (List.cons_ne_nil _ _)
      htrait spaces_nil (List.cons_ne_nil _ _) hmember
  have hlaid : ref.IsLaidOutAs text :=
    ⟨[' '], _, [], spaces_blank, href, spaces_nil, by decide⟩
  exact ⟨hwritable, hlaid, (read_layouts hwritable).1 text hlaid none⟩

end Reference
end AssocLint
