import AssocLint.Proofs.Grammar.Lookahead
import AssocLint.Proofs.Grammar.Shape

/-!
# Every layout is read

The rules read each layout of a writable phrase as what it is a layout of (`isRead_of_layout`), by
induction on the layout. What has to be known besides is what follows: a path goes on while members
follow, so the members behind a layout are part of what is said about it, and are added to the path
where it stands open.

The depth of the rules is at least the length of the text, and what stands in brackets is shorter.
-/

namespace AssocLint

/-- A segment that can be written with all that stands inside it. -/
structure Segment.IsWritable (segment : Segment Reference) : Prop where
  name : segment.name ≠ "" → IsName segment.name
  args : ∀ node ∈ Reference.nodesSegment segment, node.IsWritableNode

/-- A phrase that can be written, wherever it stands. -/
def Phrase.IsWritable : Phrase → Prop
  | .reference ref => ∀ node ∈ ref.nodes, node.IsWritableNode
  | .segment part => part.IsWritable
  | .segments parts => ∀ part ∈ parts, part.IsWritable
  | .members parts => ∀ part ∈ parts, part.IsWritable
  | .arguments args => ∀ arg ∈ args, ∀ node ∈ arg.nodes, node.IsWritableNode

namespace Grammar

open Rule Text Reference

/-- The path that members behind another one make of it. -/
def addMembers (base : Reference) (members : List (Segment Reference)) : Reference :=
  members.foldl (fun base segment => .relative base segment .type) base

/-- A further item of a list. -/
def nextItem (item : Rule Reference) : Rule Reference := named do
  ws
  literal ","
  ws
  item

/-- The comma that may end a list. -/
def trailingComma : Rule Unit := named do
  ws
  literal ","

/-- A text is read as the phrase that it is a layout of. -/
def IsRead (depth : Nat) (text : List Char) : Phrase → Prop
  | .reference ref => ref.isPath = true → ∀ following members rest,
      members = [] ∨ ref.standsOpen = true → Continues following → Apart text following →
      ReadsMany (member (nested depth)) following members rest →
      BeginsPath (text ++ following) ∧
        (path (nested depth)).Reads (text ++ following) (addMembers ref.asRead members) rest
  | .segment segment => (∃ c more, text = c :: more ∧ isWordStart c = true) ∧
      ∀ following, Continues following → Apart text following →
        BeginsPath (text ++ following) ∧
          (Grammar.segment (nested depth)).Reads (text ++ following) (asReadSegment segment)
            following
  | .segments segments => ∃ first others, segments = first :: others ∧ ∀ following members rest,
      Continues following → Apart text following →
      ReadsMany (member (nested depth)) following members rest →
      BeginsPath (text ++ following) ∧ (text ++ following).head? ≠ some '<' ∧
        (plainPath (nested depth)).Reads (text ++ following)
          (ofSegments (asReadSegment first) (asReadSegments others ++ members)) rest
  | .members segments => (∀ c ∈ text.head?, isWord c = false) ∧ ∀ following members rest,
      Continues following → Apart text following →
      ReadsMany (member (nested depth)) following members rest →
      Continues (text ++ following) ∧
        ReadsMany (member (nested depth)) (text ++ following) (asReadSegments segments ++ members)
          rest
  | .arguments [] => text = []
  | .arguments (first :: others) => ∀ gap rest, Spaces gap →
      (∀ c ∈ (text ++ (gap ++ '>' :: rest)).head?, isWhiteSpace c = false) ∧
      ∃ middle after comma, middle.length ≤ (text ++ (gap ++ '>' :: rest)).length ∧
        (argument (nested depth)).Reads (text ++ (gap ++ '>' :: rest)) first.asRead middle ∧
        ReadsMany (nextItem (argument (nested depth))) middle (asReadAll others) after ∧
        (optional trailingComma).Reads after comma (gap ++ '>' :: rest)

/-! ## Segments and names -/

theorem mem_namedSegments {segments : List (Segment Reference)} {segment : Segment Reference}
    (h : segment ∈ segments) (hname : segment.name ≠ "") : segment ∈ namedSegments segments := by
  unfold namedSegments
  split
  · rcases List.mem_cons.1 h with rfl | hmem
    · exact absurd rfl hname
    · exact hmem
  · exact h

theorem isBareSelf_asReadSegment (segment : Segment Reference) :
    (asReadSegment segment).isBareSelf = segment.isBareSelf := by
  rcases segment with ⟨name, _ | args⟩ <;> rfl

theorem asReadSegments_append (segments segments' : List (Segment Reference)) :
    asReadSegments (segments ++ segments') = asReadSegments segments ++ asReadSegments segments' := by
  induction segments with
  | nil => rfl
  | cons segment rest ih => rw [List.cons_append, asReadSegments, asReadSegments, ih, List.cons_append]

theorem isWritable_segments {qualifier : Option Reference} {segments : List (Segment Reference)}
    {res : Resolution} (h : ∀ node ∈ (resolved qualifier segments res).nodes, node.IsWritableNode) :
    ∀ segment ∈ segments, segment.IsWritable := by
  intro segment hsegment
  rw [nodes, List.forall_mem_cons] at h
  refine ⟨fun hname => ?_, fun node hnode => ?_⟩
  · have hmem := mem_namedSegments hsegment hname
    cases qualifier with
    | none => exact h.1.2.1 segment hmem
    | some qualifier => exact h.1.2.2.1 segment hmem
  · exact h.2 node (List.mem_append_right _ (mem_nodesSegments.2 ⟨segment, hsegment, hnode⟩))

theorem isWritable_qualifier {qualifier : Reference} {segments : List (Segment Reference)}
    {res : Resolution}
    (h : ∀ node ∈ (resolved (some qualifier) segments res).nodes, node.IsWritableNode) :
    ∀ node ∈ qualifier.nodes, node.IsWritableNode := by
  intro node hnode
  refine h node ?_
  rw [nodes]
  exact List.mem_cons_of_mem _ (List.mem_append_left _ hnode)

theorem isWritable_relative {base : Reference} {segment : Segment Reference} {res : Resolution}
    (h : ∀ node ∈ (relative base segment res).nodes, node.IsWritableNode) :
    (∀ node ∈ base.nodes, node.IsWritableNode) ∧ segment.IsWritable := by
  rw [nodes, List.forall_mem_cons, List.forall_mem_append] at h
  exact ⟨h.2.1, fun _ => h.1.2, h.2.2⟩

theorem isWritable_args {name : String} {args : List Reference}
    (h : Segment.IsWritable ⟨name, some args⟩) :
    ∀ arg ∈ args, ∀ node ∈ arg.nodes, node.IsWritableNode := by
  intro arg harg node hnode
  refine h.args node ?_
  rw [nodesSegment, mem_nodesAll]
  exact ⟨arg, harg, hnode⟩

theorem isWritableNode_of_nodes {ref : Reference} (h : ∀ node ∈ ref.nodes, node.IsWritableNode) :
    ref.IsWritableNode :=
  h ref (by rw [nodes_eq_cons]; exact List.mem_cons_self)

/-! ## Types and arguments -/

/-- What is written at the depth of a type, a path or `_`. -/
theorem reads_typeForm_of_isRead {depth : Nat} {ref : Reference} {text following : List Char}
    (hlayout : Layout (.reference ref) text) (hread : IsRead depth text (.reference ref))
    (htype : ref.isType = true) (hstops : Stops following) (hapart : Apart text following) :
    (∀ c ∈ (text ++ following).head?, isWhiteSpace c = false) ∧
      (typeForm (nested depth)).Reads (text ++ following) ref.asRead following := by
  cases hpath : ref.isPath with
  | true =>
      rcases hread hpath following [] following (Or.inl rfl) (.stops hstops) hapart
        (.nil hstops.fails_member) with ⟨hbegins, hpathRead⟩
      exact ⟨hbegins.noSpace, hbegins.reads_typeForm hpathRead⟩
  | false =>
      rw [isType, hpath, Bool.false_or] at htype
      cases ref with
      | verbatim text' =>
          rw [isInferred, beq_iff_eq] at htype
          subst htype
          cases hlayout
          have hword : ∀ c ∈ following.head?, isWord c = false := hapart '_' rfl (by decide)
          refine ⟨?_, .named ((reads_inferred hword).orElse _)⟩
          rintro c ⟨⟩
          decide
      | _ =>
          cases htype

/-- The first character of an integer is its sign or a digit. -/
theorem exists_cons_of_integer {text : String} {digits : List Char} (hne : digits ≠ [])
    (hdigits : ∀ c ∈ digits, c.isDigit = true)
    (htext : text.toList = digits ∨ text.toList = '-' :: digits) :
    ∃ c more, text.toList = c :: more ∧ (c = '-' ∨ c.isDigit = true) := by
  rcases htext with htext | htext
  · cases digits with
    | nil => exact absurd rfl hne
    | cons c digits => exact ⟨c, digits, htext, Or.inr (hdigits c List.mem_cons_self)⟩
  · exact ⟨'-', digits, htext, Or.inl rfl⟩

/-- Neither `_` nor a lifetime begins with a sign or a digit, so an integer is read as one. -/
theorem reads_argument_integer {nested : Nested} {c : Char} {more following rest : List Char}
    {value : Reference} (hc : c = '-' ∨ c.isDigit = true)
    (hread : constant.Reads (c :: more ++ following) value rest) :
    (argument nested).Reads (c :: more ++ following) value rest := by
  have hinferred : inferred.Fails (c :: more ++ following) := by
    refine fails_inferred fun rest hrest => ?_
    cases hrest
    rcases hc with hc | hc <;> cases hc
  have hlifetime : lifetime.Fails (c :: more ++ following) := by
    refine fails_lifetime ?_
    rintro ⟨⟩
    rcases hc with hc | hc <;> cases hc
  exact .named (hinferred.orElse (hlifetime.orElse (hread.orElse _)))

/-- Text that is no path is read as `_`, as a lifetime or as an integer. -/
theorem reads_argumentText {nested : Nested} {text : String} {following : List Char}
    (htext : IsArgumentText text) (hapart : Apart text.toList following) :
    (∀ c ∈ (text.toList ++ following).head?, isWhiteSpace c = false) ∧
      (argument nested).Reads (text.toList ++ following) (.verbatim text) following := by
  cases htext with
  | inferred =>
      have hword : ∀ c ∈ following.head?, isWord c = false := hapart '_' rfl (by decide)
      refine ⟨?_, .named ((reads_inferred hword).orElse _)⟩
      rintro c ⟨⟩
      decide
  | lifetime hlifetime =>
      rcases eq_cons_of_lifetime? hlifetime with ⟨c, more, hcons, -⟩
      have hword : ∀ c ∈ following.head?, isWord c = false :=
        hapart.head (by simp [hcons]) (isWord_of_mem_getLast?_lifetime hlifetime)
      -- A lifetime begins with a quote, so it is not taken for `_`.
      have hinferred : inferred.Fails (text.toList ++ following) := by
        refine fails_inferred fun rest hrest => ?_
        rw [hcons] at hrest
        cases hrest
      refine ⟨?_, .named (hinferred.orElse ((reads_lifetime hlifetime hword).orElse _))⟩
      rw [hcons]
      rintro c ⟨⟩
      decide
  | @integer _ digits hne hdigits hsign =>
      have hlast : ∀ c ∈ digits.getLast?, isWord c = true :=
        fun c hc => isWord_of_isDigit (hdigits c (List.mem_of_mem_getLast? hc))
      -- With or without a sign, the last digit is what the text behind must not make longer.
      have hapart' : Apart digits following := by
        rcases hsign with hsign | hsign
        · rwa [hsign] at hapart
        · have hsigned : Apart (['-'] ++ digits) following := by
            rwa [hsign] at hapart
          exact hsigned.right
      have hread := reads_constant hne hdigits hsign (hapart'.head hne hlast)
      rcases exists_cons_of_integer hne hdigits hsign with ⟨c, more, hcons, hc⟩
      rw [hcons] at hread ⊢
      refine ⟨?_, reads_argument_integer hc hread⟩
      rintro c' ⟨⟩
      rcases hc with rfl | hdigit
      · decide
      · exact isWhiteSpace_eq_false_of_isWord (isWord_of_isDigit hdigit)

/-- What is written in a list of generic arguments. -/
theorem reads_argument_of_isRead {depth : Nat} {ref : Reference} {text following : List Char}
    (hlayout : Layout (.reference ref) text) (hread : IsRead depth text (.reference ref))
    (hwritable : ref.IsWritableNode) (hstops : Stops following) (hapart : Apart text following) :
    (∀ c ∈ (text ++ following).head?, isWhiteSpace c = false) ∧
      (argument (nested depth)).Reads (text ++ following) ref.asRead following := by
  cases hpath : ref.isPath with
  | true =>
      rcases hread hpath following [] following (Or.inl rfl) (.stops hstops) hapart
        (.nil hstops.fails_member) with ⟨hbegins, hpathRead⟩
      exact ⟨hbegins.noSpace, hbegins.reads_argument hpathRead⟩
  | false =>
      cases ref with
      | verbatim text' =>
          cases hlayout
          exact reads_argumentText hwritable hapart
      | languageItem tag =>
          exact hwritable.elim
      | _ =>
          cases hpath

/-- The same in front of a comma or of the closing bracket, with white space before it. -/
theorem reads_argument_before {depth : Nat} {ref : Reference} {text gap : List Char} {c : Char}
    (hlayout : Layout (.reference ref) text) (hread : IsRead depth text (.reference ref))
    (hwritable : ref.IsWritableNode) (hgap : Spaces gap) (hc : c = ',' ∨ c = '>')
    (rest : List Char) :
    (∀ c' ∈ (text ++ (gap ++ c :: rest)).head?, isWhiteSpace c' = false) ∧
      (argument (nested depth)).Reads (text ++ (gap ++ c :: rest)) ref.asRead
        (gap ++ c :: rest) := by
  have hspace : isWhiteSpace c = false := by
    rcases hc with rfl | rfl <;> decide
  have hword : isWord c = false := by
    rcases hc with rfl | rfl <;> decide
  have hstops : Stops (gap ++ c :: rest) :=
    stops_append_cons hgap hspace (or_assoc.1 (Or.inl hc))
  exact reads_argument_of_isRead hlayout hread hwritable hstops (apart_append_cons hgap hword)

/-! ## Segments -/

variable {depth : Nat}

theorem IsName.exists_cons {name : String} (h : IsName name) :
    ∃ c more, name.toList = c :: more ∧ isWordStart c = true := by
  rcases eq_cons_of_identifier? h.identifier with ⟨c, more, hcons, hstart, -⟩
  exact ⟨c, more, hcons, hstart⟩

/-- A name is read where it is not made longer, and begins a path where no binding, no bounded type
and no function pointer does. -/
theorem beginsPath_of_isName {name : String} (h : IsName name) {rest : List Char}
    (hend : ∀ c ∈ rest.head?, isWord c = false ∧ c ≠ '#') (hbinding : next? rest ≠ some '=')
    (hcall : next? rest ≠ some '(') : BeginsPath (name.toList ++ rest) :=
  .name (identifier?_append h.identifier hend) (fun hdyn => h.noDyn (String.toList_inj.1 hdyn))
    (fun himpl => h.noImpl (String.toList_inj.1 himpl)) hbinding hcall

theorem isRead_bare {name : String} (hne : name ≠ "") (hwritable : Segment.IsWritable ⟨name, none⟩) :
    IsRead depth name.toList (.segment ⟨name, none⟩) := by
  have hname := hwritable.name hne
  rcases IsName.exists_cons hname with ⟨c, more, hcons, hstart⟩
  refine ⟨⟨c, more, hcons, hstart⟩, fun following hcontinues hapart => ?_⟩
  have hend := hcontinues.endsName
    (hapart.head (by simp [hcons]) (isWord_of_mem_getLast?_identifier hname.identifier))
  refine ⟨beginsPath_of_isName hname hend (hcontinues.next?_ne (by decide))
    (hcontinues.next?_ne (by decide)), .named (.bind (reads_identifier hname hend) ?_)⟩
  exact .bind (fails_genericArgs hcontinues).optional (.pure _ _)

/-- The list of generic arguments is read with the rules of the depth below. -/
theorem reads_genericArgs {args : List Reference} {turbofish gap₁ gap₂ gap₃ text : List Char}
    (hturbofish : turbofish = [] ∨ turbofish = [':', ':']) (hgap₁ : Spaces gap₁)
    (hgap₂ : Spaces gap₂) (hargs : IsRead depth text (.arguments args)) (hgap₃ : Spaces gap₃)
    (rest : List Char) :
    (genericArgs (nested (depth + 1))).Reads
      (turbofish ++ (gap₁ ++ '<' :: (gap₂ ++ (text ++ (gap₃ ++ '>' :: rest))))) (asReadAll args)
      rest := by
  -- The `::` in front of the bracket is optional, and white space before the bracket is not it.
  have hset : ∃ found, (optional (named (literal "::"))).Reads
      (turbofish ++ (gap₁ ++ '<' :: (gap₂ ++ (text ++ (gap₃ ++ '>' :: rest))))) found
      (gap₁ ++ '<' :: (gap₂ ++ (text ++ (gap₃ ++ '>' :: rest)))) := by
    rcases hturbofish with rfl | rfl
    · refine ⟨none, (Fails.named (fails_literal rfl ?_)).optional⟩
      intro hseparator
      rcases isWhiteSpace_or_next? hseparator with hspace | hnext
      · cases hspace
      · rw [List.nil_append, next?_append hgap₁, next?_cons (by decide)] at hnext
        cases hnext
    · exact ⟨some (), (Reads.named (.literal "::" _)).optional (List.cons_ne_nil _ _)⟩
  rcases hset with ⟨found, hset⟩
  refine .named (hset.bind ((reads_ws_cons hgap₁ (by decide)).bind ((Reads.literal "<" _).bind ?_)))
  cases args with
  | nil =>
      -- Both stretches of white space are read as one.
      have htext : text = [] := hargs
      have hgap : Spaces (gap₂ ++ gap₃) := List.forall_mem_append.2 ⟨hgap₂, hgap₃⟩
      have hspaces : ws.Reads (gap₂ ++ gap₃ ++ '>' :: rest) () ('>' :: rest) :=
        reads_ws_cons hgap (by decide)
      rw [List.append_assoc] at hspaces
      rw [htext, List.nil_append]
      refine hspaces.bind ?_
      have hnone : (optional (commaList (nested (depth + 1)).argument)).Reads ('>' :: rest) none
          ('>' :: rest) :=
        (Fails.named (.bind (fails_argument_closing rest))).optional
      refine hnone.bind ((reads_ws_cons (show Spaces [] from nofun) (by decide)).bind ?_)
      exact (Reads.literal ">" rest).bind (.pure _ _)
  | cons first others =>
      rcases hargs gap₃ rest hgap₃ with ⟨hhead, middle, after, comma, -, hfirst, hothers, hcomma⟩
      refine (reads_ws_append hgap₂ hhead).bind ?_
      have hlist : (commaList (nested (depth + 1)).argument).Reads
          (text ++ (gap₃ ++ '>' :: rest)) (asReadAll (first :: others)) (gap₃ ++ '>' :: rest) :=
        .named (hfirst.bind (hothers.many.bind (hcomma.bind (.pure _ _))))
      refine (hlist.optional (by simp)).bind ?_
      exact (reads_ws_cons hgap₃ (by decide)).bind ((Reads.literal ">" rest).bind (.pure _ _))

theorem isRead_generic {name : String} {args : List Reference}
    {turbofish gap₁ gap₂ gap₃ text : List Char} (hne : name ≠ "")
    (hturbofish : turbofish = [] ∨ turbofish = [':', ':']) (hgap₁ : Spaces gap₁)
    (hgap₂ : Spaces gap₂) (hargs : IsRead depth text (.arguments args)) (hgap₃ : Spaces gap₃)
    (hwritable : Segment.IsWritable ⟨name, some args⟩) :
    IsRead (depth + 1)
      (name.toList ++ (turbofish ++ (gap₁ ++ '<' :: (gap₂ ++ (text ++ (gap₃ ++ ['>']))))))
      (.segment ⟨name, some args⟩) := by
  have hname := hwritable.name hne
  rcases IsName.exists_cons hname with ⟨c, more, hcons, hstart⟩
  refine ⟨⟨c, _, by rw [hcons, List.cons_append], hstart⟩, fun following hcontinues hapart => ?_⟩
  have hread := reads_genericArgs hturbofish hgap₁ hgap₂ hargs hgap₃ following
  simp only [List.append_assoc, List.cons_append, List.nil_append]
  -- From here on only the first character of the list matters to the name.
  generalize hlist : turbofish ++ (gap₁ ++ '<' :: (gap₂ ++ (text ++ (gap₃ ++ '>' :: following)))) =
    list at hread ⊢
  have hnext : next? list = some ':' ∨ next? list = some '<' := by
    rw [← hlist]
    rcases hturbofish with rfl | rfl
    · rw [List.nil_append, next?_append hgap₁, next?_cons (by decide)]
      exact Or.inr rfl
    · exact Or.inl (next?_cons (by decide) _)
  have hend : ∀ c ∈ list.head?, isWord c = false ∧ c ≠ '#' := by
    intro c hc
    rcases isWhiteSpace_or_next? hc with hspace | hc'
    · refine ⟨isWord_eq_false_of_isWhiteSpace hspace, ?_⟩
      rintro rfl
      cases hspace
    · rw [hc'] at hnext
      rcases hnext with hnext | hnext <;> cases hnext <;> decide
  have hne' : list ≠ [] := by
    rintro rfl
    rcases hnext with hnext | hnext <;> cases hnext
  refine ⟨beginsPath_of_isName hname hend ?_ ?_, .named (.bind (reads_identifier hname hend) ?_)⟩
  · rcases hnext with hnext | hnext <;> simp [hnext]
  · rcases hnext with hnext | hnext <;> simp [hnext]
  · exact .bind (hread.optional hne') (.pure _ _)

/-! ## Members and paths without qualifier -/

theorem isRead_noMembers : IsRead depth [] (.members []) :=
  ⟨nofun, fun _ _ _ hcontinues _ hmembers => ⟨hcontinues, hmembers⟩⟩

theorem isRead_member {segment : Segment Reference} {others : List (Segment Reference)}
    {gap₁ gap₂ text othersText : List Char} (hgap₁ : Spaces gap₁) (hgap₂ : Spaces gap₂)
    (hsegment : IsRead depth text (.segment segment))
    (hothers : IsRead depth othersText (.members others)) :
    IsRead depth (gap₁ ++ ':' :: ':' :: (gap₂ ++ (text ++ othersText)))
      (.members (segment :: others)) := by
  rcases hsegment with ⟨⟨c, more, rfl, hstart⟩, hsegment⟩
  refine ⟨isWord_head?_append hgap₁ (by rintro c ⟨⟩; decide),
    fun following members rest hcontinues hapart hmembers => ?_⟩
  -- What follows ends the last member, which is the segment itself where no others follow.
  have hapart' : Apart ((gap₁ ++ ':' :: ':' :: gap₂) ++ (c :: more ++ othersText)) following := by
    simpa using hapart
  rcases hothers.2 following members rest hcontinues hapart'.right.right hmembers with
    ⟨hcontinues', hmembers'⟩
  rcases hsegment (othersText ++ following) hcontinues' (hapart'.right.left hothers.1) with
    ⟨-, hread⟩
  have hspace : isWhiteSpace c = false :=
    isWhiteSpace_eq_false_of_isWord (isWord_of_isWordStart hstart)
  have hmember : (member (nested depth)).Reads
      (gap₁ ++ ':' :: ':' :: (gap₂ ++ (c :: more ++ (othersText ++ following))))
      (asReadSegment segment) (othersText ++ following) := by
    refine .named ((reads_ws_cons hgap₁ (by decide)).bind ?_)
    refine (Reads.literal "::" _).bind ((reads_ws_append hgap₂ ?_).bind hread)
    rintro c ⟨⟩
    exact hspace
  simp only [List.append_assoc, List.cons_append] at hmember ⊢
  refine ⟨.member hgap₁ hgap₂ hstart, .cons hmember ?_ hmembers'⟩
  simp only [List.length_append, List.length_cons]
  omega

/-- The last segment of a path reads on with the members that follow. -/
theorem isRead_path {first : Segment Reference} {others : List (Segment Reference)}
    {text othersText : List Char} (hfirst : IsRead depth text (.segment first))
    (hothers : IsRead depth othersText (.members others)) :
    IsRead depth (text ++ othersText) (.segments (first :: others)) := by
  rcases hfirst with ⟨⟨c, more, rfl, hstart⟩, hfirst⟩
  refine ⟨first, others, rfl, fun following members rest hcontinues hapart hmembers => ?_⟩
  rcases hothers.2 following members rest hcontinues hapart.right hmembers with
    ⟨hcontinues', hmembers'⟩
  rcases hfirst (othersText ++ following) hcontinues' (hapart.left hothers.1) with
    ⟨hbegins, hread⟩
  have hhead {c' : Char} (hc' : isWordStart c' = false) :
      (c :: more ++ (othersText ++ following)).head? ≠ some c' := by
    rintro ⟨⟩
    rw [hc'] at hstart
    cases hstart
  rw [List.append_assoc]
  refine ⟨hbegins, hhead (by decide), .named ?_⟩
  have hseparator : (named (literal "::")).Fails (c :: more ++ (othersText ++ following)) :=
    .named (fails_literal rfl (hhead (by decide)))
  exact hseparator.optional.bind (hread.bind (hmembers'.many.bind (.pure _ _)))

theorem isRead_globalPath {first : Segment Reference} {others : List (Segment Reference)}
    {text othersText : List Char} (hfirst : IsRead depth text (.segment first))
    (hothers : IsRead depth othersText (.members others)) :
    IsRead depth (':' :: ':' :: (text ++ othersText))
      (.segments (⟨"", none⟩ :: first :: others)) := by
  refine ⟨⟨"", none⟩, first :: others, rfl,
    fun following members rest hcontinues hapart hmembers => ?_⟩
  have hapart' : Apart ([':', ':'] ++ (text ++ othersText)) following := hapart
  rcases hothers.2 following members rest hcontinues hapart'.right.right hmembers with
    ⟨hcontinues', hmembers'⟩
  rcases hfirst.2 (othersText ++ following) hcontinues' (hapart'.right.left hothers.1) with
    ⟨-, hread⟩
  rw [List.cons_append, List.cons_append, List.append_assoc]
  refine ⟨.separator _, nofun, .named ?_⟩
  have hsome := (Reads.named (.literal "::" (text ++ (othersText ++ following)))).optional
    (List.cons_ne_nil ':' _)
  exact hsome.bind (hread.bind (hmembers'.many.bind (.pure _ _)))

/-! ## Lists of arguments -/

theorem isRead_lastArgument {arg : Reference} {text : List Char}
    (hlayout : Layout (.reference arg) text) (hread : IsRead depth text (.reference arg))
    (hwritable : arg.IsWritableNode) : IsRead depth text (.arguments [arg]) := by
  intro gap rest hgap
  rcases reads_argument_before hlayout hread hwritable hgap (Or.inr rfl) rest with ⟨hhead, hread'⟩
  have hcomma : next? (gap ++ '>' :: rest) ≠ some ',' := by
    rw [next?_append hgap, next?_cons (by decide)]
    nofun
  refine ⟨hhead, _, _, none, by simp, hread', .nil (.named (fails_ws_literal rfl hcomma)), ?_⟩
  refine (Fails.named ?_).optional
  exact (reads_ws _).bindFails (fails_literal rfl hcomma)

theorem isRead_trailingComma {arg : Reference} {text gap₁ : List Char}
    (hlayout : Layout (.reference arg) text) (hread : IsRead depth text (.reference arg))
    (hwritable : arg.IsWritableNode) (hgap₁ : Spaces gap₁) :
    IsRead depth (text ++ (gap₁ ++ [','])) (.arguments [arg]) := by
  intro gap rest hgap
  rcases reads_argument_before hlayout hread hwritable hgap₁ (Or.inl rfl)
    (gap ++ '>' :: rest) with ⟨hhead, hread'⟩
  have hnext : (nextItem (argument (nested depth))).Fails (gap₁ ++ ',' :: (gap ++ '>' :: rest)) := by
    refine .named ((reads_ws_cons hgap₁ (by decide)).bindFails ?_)
    refine (Reads.literal "," _).bindFails ?_
    exact (reads_ws_cons hgap (by decide)).bindFails (fails_argument_closing rest)
  simp only [List.append_assoc, List.cons_append, List.nil_append]
  refine ⟨hhead, _, _, some (), by simp, hread', .nil hnext, ?_⟩
  refine (Reads.named ?_).optional (by simp)
  exact (reads_ws_cons hgap₁ (by decide)).bind (Reads.literal "," _)

theorem isRead_argument {arg next : Reference} {others : List Reference}
    {gap₁ gap₂ text othersText : List Char}
    (hlayout : Layout (.reference arg) text) (hread : IsRead depth text (.reference arg))
    (hwritable : arg.IsWritableNode) (hgap₁ : Spaces gap₁) (hgap₂ : Spaces gap₂)
    (hothers : IsRead depth othersText (.arguments (next :: others))) :
    IsRead depth (text ++ (gap₁ ++ ',' :: (gap₂ ++ othersText)))
      (.arguments (arg :: next :: others)) := by
  intro gap rest hgap
  rcases hothers gap rest hgap with ⟨hothersHead, middle, after, comma, hlength, hnext, hmore, hcomma⟩
  rcases reads_argument_before hlayout hread hwritable hgap₁ (Or.inl rfl)
    (gap₂ ++ (othersText ++ (gap ++ '>' :: rest))) with ⟨hhead, hread'⟩
  have hitem : (nextItem (argument (nested depth))).Reads
      (gap₁ ++ ',' :: (gap₂ ++ (othersText ++ (gap ++ '>' :: rest)))) next.asRead middle := by
    refine .named ((reads_ws_cons hgap₁ (by decide)).bind ?_)
    exact (Reads.literal "," _).bind ((reads_ws_append hgap₂ hothersHead).bind hnext)
  simp only [List.append_assoc, List.cons_append]
  refine ⟨hhead, _, after, comma, by simp, hread', .cons hitem ?_ hmore, hcomma⟩
  simp only [List.length_append, List.length_cons] at hlength ⊢
  omega

/-! ## Paths -/

theorem isRead_plain {segments : List (Segment Reference)} {res : Resolution} {text : List Char}
    (hsegments : IsRead depth text (.segments segments))
    (hwritable : (resolved none segments res).IsWritableNode) :
    IsRead depth text (.reference (.resolved none segments res)) := by
  intro _ following members rest hopen hcontinues hapart hmembers
  rcases hsegments with ⟨first, others, rfl, hsegments⟩
  rcases hsegments following members rest hcontinues hapart hmembers with
    ⟨hbegins, hhead, hread⟩
  have hbracket : (qualifiedPath (nested depth)).Fails (text ++ following) :=
    .named (.bind (fails_literal rfl hhead))
  have hvalue : ofSegments (asReadSegment first) (asReadSegments others ++ members) =
      addMembers (resolved none (first :: others) res).asRead members := by
    -- Behind `Self` alone the members are added to it; no members are left behind other paths.
    cases hself : first.isBareSelf with
    | true =>
        cases eq_of_isBareSelf hself
        rcases hwritable.2.2 with hlength | hfirst
        · cases others with
          | nil => rfl
          | cons => cases hlength
        · cases hfirst _ rfl
    | false =>
        have hwhole := isBareSelf_resolved_of_first hself others res
        rcases hopen with rfl | hopen
        · rw [ofSegments_of_isBareSelf_eq_false (by rwa [isBareSelf_asReadSegment]), List.append_nil,
            asRead, hwhole]
          rfl
        · have hself' : (resolved none (first :: others) res).isBareSelf = true := hopen
          rw [hwhole] at hself'
          cases hself'
  rw [hvalue] at hread
  exact ⟨hbegins, .named (hbracket.orElse hread)⟩

/-- Behind the type in brackets stands `as` with a trait, or nothing. -/
theorem reads_asTrait {trait : List (Segment Reference)} {gap₁ gap₂ text : List Char}
    (hgap₁ : Spaces gap₁) (hne : gap₁ ≠ []) (htrait : IsRead depth text (.segments trait))
    (hself : ∀ segment ∈ trait.head?, segment.isBareSelf = false) (hgap₂ : Spaces gap₂)
    (rest : List Char) :
    (asTrait (nested depth)).Reads ('a' :: 's' :: (gap₁ ++ (text ++ (gap₂ ++ '>' :: rest))))
      (asReadSegments trait) ('>' :: rest) := by
  rcases htrait with ⟨first, others, rfl, htrait⟩
  have hstops : Stops (gap₂ ++ '>' :: rest) :=
    stops_append_cons hgap₂ (by decide) (Or.inr (Or.inl rfl))
  have hapart : Apart text (gap₂ ++ '>' :: rest) :=
    apart_append_cons hgap₂ (by decide)
  rcases htrait (gap₂ ++ '>' :: rest) [] _ (.stops hstops) hapart (.nil hstops.fails_member) with
    ⟨hbegins, -, hread⟩
  rw [List.append_nil, ofSegments_of_isBareSelf_eq_false
    (by rw [isBareSelf_asReadSegment]; exact hself first rfl)] at hread
  have hinner : (do
      literal "as"
      ws1
      let trait ← plainPath (nested depth)
      ws
      return trait : Rule Reference).Reads
        ('a' :: 's' :: (gap₁ ++ (text ++ (gap₂ ++ '>' :: rest))))
        (.resolved none (asReadSegments (first :: others)) .type) ('>' :: rest) := by
    refine (Reads.literal "as" _).bind ((reads_ws1_append hgap₁ hne hbegins.noSpace).bind ?_)
    exact hread.bind ((reads_ws_cons hgap₂ (by decide)).bind (.pure _ _))
  have htext : 'a' :: 's' :: (gap₁ ++ (text ++ (gap₂ ++ '>' :: rest))) =
      ('a' :: 's' :: (gap₁ ++ (text ++ gap₂))) ++ '>' :: rest := by
    simp
  rw [htext] at hinner ⊢
  exact .named (hinner.taken.bind (.pure _ _))

theorem isRead_qualified {qualifier : Reference} {trait others : List (Segment Reference)}
    {res : Resolution} {gap₁ gap₂ gap₃ gap₄ qualifierText traitText othersText : List Char}
    (hgap₁ : Spaces gap₁) (hlayout : Layout (.reference qualifier) qualifierText)
    (hqualifier : IsRead depth qualifierText (.reference qualifier)) (hgap₂ : Spaces gap₂)
    (hset : gap₂ = [] → ∀ c ∈ qualifierText.getLast?, isWord c = false) (hgap₃ : Spaces gap₃)
    (hgap₃' : gap₃ ≠ []) (htrait : IsRead (depth + 1) traitText (.segments trait))
    (hgap₄ : Spaces gap₄) (hne : others ≠ [])
    (hothers : IsRead (depth + 1) othersText (.members others))
    (hwritable : (resolved (some qualifier) (trait ++ others) res).IsWritableNode) :
    IsRead (depth + 1)
      ('<' :: (gap₁ ++ (qualifierText ++ (gap₂ ++ 'a' :: 's' ::
        (gap₃ ++ (traitText ++ (gap₄ ++ '>' :: othersText)))))))
      (.reference (.resolved (some qualifier) (trait ++ others) res)) := by
  intro _ following members rest hopen hcontinues hapart hmembers
  -- A path with a qualifier does not stand open, so no members are left behind it.
  have hnone : members = [] := hopen.resolve_right nofun
  subst hnone
  rcases hwritable with ⟨htype, -, -, hself⟩
  have hself' : ∀ segment ∈ trait.head?, segment.isBareSelf = false := by
    cases trait with
    | nil => nofun
    | cons => exact hself
  have hapart' : Apart ('<' :: (gap₁ ++ (qualifierText ++ (gap₂ ++ 'a' :: 's' ::
      (gap₃ ++ (traitText ++ (gap₄ ++ ['>'])))))) ++ othersText) following := by
    simpa using hapart
  have hmany := (hothers.2 following [] rest hcontinues hapart'.right hmembers).2
  have htrait' := reads_asTrait hgap₃ hgap₃' htrait hself' hgap₄ (othersText ++ following)
  simp only [List.append_assoc, List.cons_append]
  generalize htail : gap₃ ++ (traitText ++ (gap₄ ++ '>' :: (othersText ++ following))) = tail
    at htrait' ⊢
  have hstops : Stops (gap₂ ++ 'a' :: 's' :: tail) :=
    stops_append_cons hgap₂ (by decide) (Or.inr (Or.inr rfl))
  -- Without white space, `as` must not make the last word of the qualifier longer.
  have hapart'' : Apart qualifierText (gap₂ ++ 'a' :: 's' :: tail) := by
    cases gap₂ with
    | nil =>
        intro c hc hword
        rw [hset rfl c hc] at hword
        cases hword
    | cons c gap =>
        refine apart_of_head? ?_
        rintro c' ⟨⟩
        exact isWord_eq_false_of_isWhiteSpace (hgap₂ c List.mem_cons_self)
  rcases reads_typeForm_of_isRead hlayout hqualifier htype hstops hapart'' with ⟨hhead, hread⟩
  have hmembers' : (many1 (member (nested (depth + 1)))).Reads (othersText ++ following)
      (asReadSegments others ++ []) rest := by
    refine hmany.many1 ?_
    cases others with
    | nil => exact absurd rfl hne
    | cons => exact List.cons_ne_nil _ _
  refine ⟨.bracket _, .named (Reads.orElse (.named ?_) _)⟩
  refine (Reads.literal "<" _).bind ((reads_ws_append hgap₁ hhead).bind (hread.bind ?_))
  refine (reads_ws_cons hgap₂ (by decide)).bind ?_
  refine (htrait'.optional (List.cons_ne_nil _ _)).bind ((Reads.literal ">" _).bind ?_)
  refine hmembers'.named.bind ?_
  rw [List.append_nil, addMembers, List.foldl_nil, asRead, asReadSegments_append]
  exact .pure _ _

theorem isRead_relative {base : Reference} {segment : Segment Reference} {res : Resolution}
    {gap₁ gap₂ baseText memberText : List Char} (hgap₁ : Spaces gap₁)
    (hlayout : Layout (.reference base) baseText) (hbase : IsRead depth baseText (.reference base))
    (hgap₂ : Spaces gap₂) (hmember : IsRead (depth + 1) memberText (.members [segment]))
    (hwritable : (relative base segment res).IsWritableNode) :
    IsRead (depth + 1) ('<' :: (gap₁ ++ (baseText ++ (gap₂ ++ '>' :: memberText))))
      (.reference (.relative base segment res)) := by
  intro _ following members rest _ hcontinues hapart hmembers
  have hapart' : Apart ('<' :: (gap₁ ++ (baseText ++ (gap₂ ++ ['>']))) ++ memberText) following := by
    simpa using hapart
  have hmany := (hmember.2 following members rest hcontinues hapart'.right hmembers).2
  simp only [List.append_assoc, List.cons_append]
  have hstops : Stops (gap₂ ++ '>' :: (memberText ++ following)) :=
    stops_append_cons hgap₂ (by decide) (Or.inr (Or.inl rfl))
  have hapart'' : Apart baseText (gap₂ ++ '>' :: (memberText ++ following)) :=
    apart_append_cons hgap₂ (by decide)
  rcases reads_typeForm_of_isRead hlayout hbase hwritable.1 hstops hapart'' with ⟨hhead, hread⟩
  -- No trait stands in the brackets.
  have hnone : (asTrait (nested (depth + 1))).Fails ('>' :: (memberText ++ following)) :=
    .named (.bind (.taken (.bind (fails_literal rfl nofun))))
  refine ⟨.bracket _, .named (Reads.orElse (.named ?_) _)⟩
  refine (Reads.literal "<" _).bind ((reads_ws_append hgap₁ hhead).bind (hread.bind ?_))
  refine (reads_ws_cons hgap₂ (by decide)).bind (hnone.optional.bind ?_)
  refine (Reads.literal ">" _).bind ((hmany.many1 (List.cons_ne_nil _ _)).named.bind ?_)
  exact .pure _ _

theorem isPath_of_standsOpen {ref : Reference} (h : ref.standsOpen = true) : ref.isPath = true := by
  cases ref with
  | resolved | relative => rfl
  | _ => cases h

/-- Members behind a path that stands open are read as added to it. -/
theorem isRead_relativeOpen {base : Reference} {segment : Segment Reference} {res : Resolution}
    {baseText memberText : List Char} (hopen : base.standsOpen = true)
    (hbase : IsRead depth baseText (.reference base))
    (hmember : IsRead depth memberText (.members [segment])) :
    IsRead depth (baseText ++ memberText) (.reference (.relative base segment res)) := by
  intro _ following members rest _ hcontinues hapart hmembers
  rcases hmember.2 following members rest hcontinues hapart.right hmembers with
    ⟨hcontinues', hmembers'⟩
  rw [List.append_assoc]
  exact hbase (isPath_of_standsOpen hopen) (memberText ++ following)
    (asReadSegments [segment] ++ members) rest (Or.inr hopen) hcontinues'
    (hapart.left hmember.1) hmembers'

/-! ## All layouts -/

theorem isRead_of_layout {phrase : Phrase} {text : List Char} (h : Layout phrase text)
    (hwritable : phrase.IsWritable) {depth : Nat} (hdepth : text.length ≤ depth) :
    IsRead depth text phrase := by
  -- Brackets take one level of the depth, and the text inside them is shorter by two or more.
  induction h generalizing depth with
  | verbatim text =>
      nofun
  | plain _ ih =>
      exact isRead_plain (ih (isWritable_segments hwritable) hdepth)
        (isWritableNode_of_nodes hwritable)
  | qualified hgap₁ hlayout hgap₂ hset hgap₃ hgap₃' _ hgap₄ hne _ ihQualifier ihTrait ihOthers =>
      simp only [List.length_cons, List.length_append] at hdepth
      obtain ⟨depth, rfl⟩ : ∃ inner, depth = inner + 1 := ⟨depth - 1, by omega⟩
      have hsegments := List.forall_mem_append.1 (isWritable_segments hwritable)
      exact isRead_qualified hgap₁ hlayout (ihQualifier (isWritable_qualifier hwritable) (by omega))
        hgap₂ hset hgap₃ hgap₃' (ihTrait hsegments.1 (by omega)) hgap₄ hne
        (ihOthers hsegments.2 (by omega)) (isWritableNode_of_nodes hwritable)
  | relative hgap₁ hlayout hgap₂ _ ihBase ihMember =>
      simp only [List.length_cons, List.length_append] at hdepth
      obtain ⟨depth, rfl⟩ : ∃ inner, depth = inner + 1 := ⟨depth - 1, by omega⟩
      rcases isWritable_relative hwritable with ⟨hbase, hsegment⟩
      exact isRead_relative hgap₁ hlayout (ihBase hbase (by omega)) hgap₂
        (ihMember (List.forall_mem_singleton.2 hsegment) (by omega))
        (isWritableNode_of_nodes hwritable)
  | relativeOpen hopen _ _ ihBase ihMember =>
      rw [List.length_append] at hdepth
      rcases isWritable_relative hwritable with ⟨hbase, hsegment⟩
      exact isRead_relativeOpen hopen (ihBase hbase (by omega))
        (ihMember (List.forall_mem_singleton.2 hsegment) (by omega))
  | bare hne =>
      exact isRead_bare hne hwritable
  | generic hne hturbofish hgap₁ hgap₂ _ hgap₃ ih =>
      simp only [List.length_cons, List.length_append] at hdepth
      obtain ⟨depth, rfl⟩ : ∃ inner, depth = inner + 1 := ⟨depth - 1, by omega⟩
      exact isRead_generic hne hturbofish hgap₁ hgap₂ (ih (isWritable_args hwritable) (by omega))
        hgap₃ hwritable
  | path _ _ ihFirst ihOthers =>
      rw [List.length_append] at hdepth
      rcases List.forall_mem_cons.1 hwritable with ⟨hfirst, hothers⟩
      exact isRead_path (ihFirst hfirst (by omega)) (ihOthers hothers (by omega))
  | globalPath _ _ ihFirst ihOthers =>
      simp only [List.length_cons, List.length_append] at hdepth
      rcases List.forall_mem_cons.1 (List.forall_mem_cons.1 hwritable).2 with ⟨hfirst, hothers⟩
      exact isRead_globalPath (ihFirst hfirst (by omega)) (ihOthers hothers (by omega))
  | noMembers =>
      exact isRead_noMembers
  | member hgap₁ hgap₂ _ _ ihSegment ihOthers =>
      simp only [List.length_cons, List.length_append] at hdepth
      rcases List.forall_mem_cons.1 hwritable with ⟨hsegment, hothers⟩
      exact isRead_member hgap₁ hgap₂ (ihSegment hsegment (by omega)) (ihOthers hothers (by omega))
  | noArguments =>
      rfl
  | lastArgument hlayout ih =>
      have harg := List.forall_mem_singleton.1 hwritable
      exact isRead_lastArgument hlayout (ih harg hdepth) (isWritableNode_of_nodes harg)
  | trailingComma hlayout hgap ih =>
      rw [List.length_append] at hdepth
      have harg := List.forall_mem_singleton.1 hwritable
      exact isRead_trailingComma hlayout (ih harg (by omega)) (isWritableNode_of_nodes harg) hgap
  | argument hlayout hgap₁ hgap₂ _ ih ihOthers =>
      simp only [List.length_cons, List.length_append] at hdepth
      rcases List.forall_mem_cons.1 hwritable with ⟨harg, hothers⟩
      exact isRead_argument hlayout (ih harg (by omega)) (isWritableNode_of_nodes harg) hgap₁ hgap₂
        (ihOthers hothers (by omega))

/-! ## Whole texts -/

theorem stops_of_spaces {gap : List Char} (h : Spaces gap) : Stops gap := by
  have hnext := next?_append h []
  rw [List.append_nil] at hnext
  rw [Stops, hnext]
  exact fun c hc => absurd hc (Option.not_mem_none c)

theorem apart_of_spaces {text gap : List Char} (h : Spaces gap) : Apart text gap :=
  apart_of_head? fun c hc => isWord_eq_false_of_isWhiteSpace (h c (List.mem_of_mem_head? hc))

/-- A rule that reads all of a text but the white space around it reads the text. -/
theorem readAll_eq_ok {α : Type} {rule : Nested → Rule α} {text : String} {value : α}
    {before inner after : List Char} (hbefore : Spaces before) (hafter : Spaces after)
    (htext : text.toList = before ++ (inner ++ after))
    (hhead : ∀ c ∈ (inner ++ after).head?, isWhiteSpace c = false)
    (hread : ∀ depth, inner.length ≤ depth →
      (rule (nested (depth + 1))).Reads (inner ++ after) value after) :
    readAll rule text = .ok value := by
  have hend : ws.Reads after () [] := by
    have hspaces := reads_ws after
    rwa [List.dropWhile_eq_nil_iff.2 hafter] at hspaces
  -- The depth is the length of the whole text, which the part inside does not exceed.
  have hwhole : (do
      ws
      let value ← rule (nested (text.toList.length + 1))
      ws
      return value : Rule α).Reads text.toList value [] := by
    have hinner := hread text.toList.length (by
      rw [htext]
      simp only [List.length_append]
      omega)
    rw [htext] at hinner ⊢
    exact (reads_ws_append hbefore hhead).bind (hinner.bind (hend.bind (.pure _ _)))
  rcases hwhole none none with ⟨far, hwhole⟩
  unfold readAll
  dsimp only
  rw [hwhole]
  rfl

end Grammar

namespace Reference

/-- Every layout of a writable reference is read as that reference. -/
theorem read_of_isLaidOutAs {ref : Reference} (hwritable : ref.IsWritable) {text : String}
    (h : ref.IsLaidOutAs text) (res : Option Resolution) :
    ∃ found, Reference.read text res = .ok found ∧ found.same ref = true := by
  rcases h with ⟨before, inner, after, hbefore, hlayout, hafter, htext⟩
  have hstops := Grammar.stops_of_spaces hafter
  have hread (depth : Nat) (hdepth : inner.length ≤ depth) :=
    Grammar.isRead_of_layout hlayout hwritable.nodes hdepth hwritable.path after [] after
      (Or.inl rfl) (.stops hstops) (Grammar.apart_of_spaces hafter) (.nil hstops.fails_member)
  have hpath : Grammar.readAll Grammar.path text = .ok ref.asRead :=
    Grammar.readAll_eq_ok hbefore hafter htext (hread inner.length (Nat.le_refl _)).1.noSpace
      fun depth hdepth => (hread (depth + 1) (by omega)).2
  rw [Reference.read, hpath]
  refine ⟨_, rfl, ?_⟩
  cases res with
  | none => exact same_asRead ref
  | some res => exact (same_withRes ref.asRead ref res).trans (same_asRead ref)

/-- Every layout of a generic argument is read as that argument. -/
theorem readArgument_of_isLaidOutAs {arg : Reference}
    (hwritable : ∀ node ∈ arg.nodes, node.IsWritableNode) {text : String}
    (h : arg.IsLaidOutAs text) :
    ∃ found, Reference.readArgument text = .ok found ∧ found.same arg = true := by
  rcases h with ⟨before, inner, after, hbefore, hlayout, hafter, htext⟩
  have hread (depth : Nat) (hdepth : inner.length ≤ depth) :=
    Grammar.reads_argument_of_isRead hlayout (Grammar.isRead_of_layout hlayout hwritable hdepth)
      (Grammar.isWritableNode_of_nodes hwritable) (Grammar.stops_of_spaces hafter)
      (Grammar.apart_of_spaces hafter)
  have hargument : Reference.readArgument text = .ok arg.asRead :=
    Grammar.readAll_eq_ok hbefore hafter htext (hread inner.length (Nat.le_refl _)).1
      fun depth hdepth => (hread (depth + 1) (by omega)).2
  exact ⟨_, hargument, same_asRead arg⟩

end Reference
end AssocLint
