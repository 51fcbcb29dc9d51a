import AssocLint.Proofs.Reference.Shape
import AssocLint.Proofs.Rule.Yields
import AssocLint.Proofs.Text.Squeezed
import AssocLint.Reference.Grammar
import Mathlib.Data.List.TakeWhile

/-!
# The grammar writes well-shaped references

Whatever is read as a type or as a generic argument can stand inside another reference, at every
depth of nesting (`yieldsInner_nested`). So the three ways to read a text give well-shaped
references and segments (`isInner_of_read`, `isInner_of_readArgument`, `isMember_of_read`).

The members behind a qualified path or behind `Self` come from `::name`, which keeps empty names
away; `ofSegments` folds a bare `Self` away; and a trait that is folded is refused as unsupported,
so that the segments of a qualified path come from a plain path that was not.
-/

namespace AssocLint

/-- A segment as it can stand after `::`. -/
structure Segment.IsMember (segment : Segment Reference) : Prop where
  name_ne : segment.name ≠ ""
  args : segment.HasInnerArgs

namespace Grammar

open Rule Text Reference

/-! ## Lexemes -/

theorem ne_nil_of_word? {text taken rest : List Char} (h : word? text = some (taken, rest)) :
    taken ≠ [] := by
  cases text with
  | nil =>
      cases h
  | cons c more =>
      rw [word?] at h
      split at h
      · cases h
        exact List.cons_ne_nil _ _
      · cases h

theorem ne_nil_of_identifier? {text taken rest : List Char}
    (h : identifier? text = some (taken, rest)) : taken ≠ [] := by
  unfold identifier? at h
  split at h
  · split at h
    · cases h
      exact List.cons_ne_nil _ _
    · exact ne_nil_of_word? h
  · exact ne_nil_of_word? h

theorem isBlank_eq_false_of_mem_lifetime? {text taken rest : List Char}
    (h : lifetime? text = some (taken, rest)) : ∀ c ∈ taken, isBlank c = false := by
  unfold lifetime? at h
  split at h
  · rename_i c more
    split at h
    · rename_i hstart
      cases h
      intro c' hc'
      rw [List.mem_cons, List.mem_cons] at hc'
      rcases hc' with rfl | rfl | hmore
      · rfl
      · exact isBlank_eq_false_of_isWord (isWord_of_isWordStart hstart)
      · exact isBlank_eq_false_of_isWord (List.mem_takeWhile_imp hmore)
    · cases h
  · cases h

theorem yields_ws : ws.Yields fun _ => True :=
  .bind (.lexeme (P := fun _ => True) fun _ _ _ _ => trivial) fun _ => .pure fun _ => trivial

theorem yields_ws1 : ws1.Yields fun _ => True :=
  .named (.bind (.lexeme (P := fun _ => True) fun _ _ _ _ => trivial) fun _ =>
    .pure fun _ => trivial)

theorem yields_identifier : identifier.Yields fun name => name ≠ "" := by
  refine .named (.bind (.lexeme fun _ _ _ => ne_nil_of_identifier?) fun taken => .pure ?_)
  intro hne hname
  exact hne (by simpa using congrArg String.toList hname)

theorem yields_lifetime : lifetime.Yields IsInner := by
  refine .named (.bind (.lexeme fun _ _ _ => isBlank_eq_false_of_mem_lifetime?) fun taken => .pure ?_)
  intro hblank
  exact isInner_verbatim (squeezed_ofList_of_noBlank hblank)

theorem yields_inferred : inferred.Yields IsInner :=
  .named (.bind (.lexeme (P := fun _ => True) fun _ _ _ _ => trivial) fun _ =>
    .pure fun _ => isInner_verbatim rfl)

theorem yields_constant : constant.Yields IsInner :=
  .named (.bind (.lexeme (P := fun _ => True) fun _ _ _ _ => trivial) fun taken =>
    .pure fun _ => isInner_verbatim (squeezed_ofList_squeeze taken))

/-! ## Paths put together -/

theorem isInner_foldl_relative {base : Reference} (hbase : base.IsInner)
    {members : List (Segment Reference)} (hmembers : ∀ member ∈ members, member.IsMember) :
    (members.foldl (fun base segment => .relative base segment .type) base).IsInner := by
  induction members generalizing base with
  | nil =>
      exact hbase
  | cons member members ih =>
      have hmember := hmembers member List.mem_cons_self
      have hnext := isInner_relative hbase hmember.name_ne hmember.args
      exact ih hnext fun other hother => hmembers other (List.mem_cons_of_mem _ hother)

theorem ofSegments_of_isBareSelf_eq_false {first : Segment Reference}
    (h : first.isBareSelf = false) (rest : List (Segment Reference)) :
    ofSegments first rest = .resolved none (first :: rest) .type := by
  unfold ofSegments
  split
  · cases h
  · rfl

theorem isInner_ofSegments {first : Segment Reference} {rest : List (Segment Reference)}
    (hfirst : first.HasInnerArgs) (hrest : ∀ segment ∈ rest, segment.IsMember) :
    (ofSegments first rest).IsInner := by
  cases hself : first.isBareSelf with
  | true =>
      -- What is written behind `Self` stands on it member by member.
      rw [eq_of_isBareSelf hself]
      exact isInner_foldl_relative isInner_selfPath hrest
  | false =>
      rw [ofSegments_of_isBareSelf_eq_false hself]
      have hshaped : SegmentsShaped none (first :: rest) := by
        refine ⟨List.cons_ne_nil _ _, nofun,
          fun segment hsegment => (hrest segment hsegment).name_ne, ?_⟩
        rintro _ _ segment ⟨⟩
        exact hself
      refine isInner_iff.2 ⟨⟨hshaped, rfl, ?_⟩, forall_parts_resolved nofun ?_⟩
      · rintro res ⟨⟩
        rw [isBareSelf_resolved_of_first hself]
        rfl
      · intro segment hsegment
        rcases List.mem_cons.1 hsegment with rfl | hmem
        · exact hfirst
        · exact (hrest segment hmem).args

/-- A trait and at least one member of it. -/
theorem isInner_qualified {qualifier : Reference} {trait members : List (Segment Reference)}
    {res : Resolution} (hqualifier : qualifier.IsInner) (htrait : (resolved none trait res).IsInner)
    (hne : members ≠ []) (hmembers : ∀ member ∈ members, member.IsMember) :
    (resolved (some qualifier) (trait ++ members) .type).IsInner := by
  have htraitShaped : SegmentsShaped none trait := (isInner_iff.1 htrait).1.shaped
  have hshaped : SegmentsShaped (some qualifier) (trait ++ members) := by
    refine ⟨List.append_ne_nil_of_left_ne_nil htraitShaped.nonempty _, ?_, ?_, nofun⟩
    · intro _
      have htraitLength := List.length_pos_iff.2 htraitShaped.nonempty
      have hmembersLength := List.length_pos_iff.2 hne
      rw [List.length_append]
      omega
    · intro segment hsegment
      rw [List.tail_append_of_ne_nil htraitShaped.nonempty, List.mem_append] at hsegment
      rcases hsegment with hmem | hmem
      · exact htraitShaped.named segment hmem
      · exact (hmembers segment hmem).name_ne
  refine isInner_iff.2 ⟨⟨hshaped, rfl, ?_⟩, forall_parts_resolved ?_ ?_⟩
  · rintro res ⟨⟩
    rfl
  · rintro ref ⟨⟩
    exact hqualifier
  · intro segment hsegment node hnode
    rcases List.mem_append.1 hsegment with hmem | hmem
    · refine htrait node ?_
      rw [nodes]
      exact List.mem_cons_of_mem _
        (List.mem_append_right _ (mem_nodesSegments.2 ⟨segment, hmem, hnode⟩))
    · exact (hmembers segment hmem).args node hnode

/-! ## Rules -/

/-- Nested rules that give references which can stand inside others. -/
structure Nested.YieldsInner (nested : Nested) : Prop where
  type : nested.type.Yields IsInner
  argument : nested.argument.Yields IsInner

variable {nested : Nested}

theorem yields_commaList {item : Rule Reference} (h : item.Yields IsInner) :
    (commaList item).Yields fun refs => ∀ ref ∈ refs, ref.IsInner := by
  refine .named (.bind h fun first => ?_)
  refine .bind (.many (.named (.step yields_ws fun _ => .step (.literal ",") fun _ =>
    .step yields_ws fun _ => h))) fun rest => ?_
  refine .step (.optional (.named (.step yields_ws fun _ => .literal ","))) fun _ => .pure ?_
  intro hrest hfirst
  exact List.forall_mem_cons.2 ⟨hfirst, hrest⟩

theorem yields_genericArgs (h : nested.YieldsInner) :
    (genericArgs nested).Yields fun args => ∀ arg ∈ args, arg.IsInner := by
  refine .named (.step (.optional (.named (.literal "::"))) fun _ => .step yields_ws fun _ => ?_)
  refine .step (.literal "<") fun _ => .step yields_ws fun _ => ?_
  refine .bind (.optional (yields_commaList h.argument)) fun args => ?_
  refine .step yields_ws fun _ => .step (.literal ">") fun _ => .pure ?_
  intro hargs
  cases args with
  | none => exact nofun
  | some args => exact hargs args rfl

theorem yields_segment (h : nested.YieldsInner) :
    (segment nested).Yields fun segment => segment.IsMember := by
  refine .named (.bind yields_identifier fun name => ?_)
  refine .bind (.optional (yields_genericArgs h)) fun args => .pure ?_
  intro hargs hname
  refine ⟨hname, ?_⟩
  cases args with
  | none => exact hasInnerArgs_none name
  | some args => exact hasInnerArgs_some (hargs args rfl)

theorem yields_member (h : nested.YieldsInner) :
    (member nested).Yields fun segment => segment.IsMember :=
  .named (.step yields_ws fun _ => .step (.literal "::") fun _ => .step yields_ws fun _ =>
    yields_segment h)

theorem yields_plainPath (h : nested.YieldsInner) : (plainPath nested).Yields IsInner := by
  refine .named (.step (.optional (.named (.literal "::"))) fun leading => ?_)
  refine .bind (yields_segment h) fun first => .bind (.many (yields_member h)) fun rest => .pure ?_
  intro hrest hfirst
  cases leading with
  | none => exact isInner_ofSegments hfirst.args hrest
  | some => exact isInner_ofSegments (hasInnerArgs_none "") (List.forall_mem_cons.2 ⟨hfirst, hrest⟩)

/-- A path that does not resolve on its own is refused as a trait, so the segments are those of a
path that does. -/
theorem yields_asTrait (h : nested.YieldsInner) :
    (asTrait nested).Yields fun trait => ∃ res, (resolved none trait res).IsInner := by
  refine .named (.bind (.taken (P := IsInner) (.step (.literal "as") fun _ => ?_)) fun answer => ?_)
  · exact .step yields_ws1 fun _ => .bind (yields_plainPath h) fun trait =>
      .step yields_ws fun _ => .pure id
  · rcases answer with ⟨trait, text⟩
    dsimp only
    split
    · rename_i segments res
      exact .pure fun htrait => ⟨res, htrait⟩
    · exact .bind (.unsupported _) fun _ => .pure fun hmet => hmet.elim

theorem yields_qualifiedPath (h : nested.YieldsInner) :
    (qualifiedPath nested).Yields IsInner := by
  refine .named (.step (.literal "<") fun _ => .step yields_ws fun _ => ?_)
  refine .bind h.type fun qualifier => .step yields_ws fun _ => ?_
  refine .bind (.optional (yields_asTrait h)) fun trait => .step (.literal ">") fun _ => ?_
  refine .bind (.named (.many1 (yields_member h))) fun members => .pure ?_
  intro hmembers htrait hqualifier
  cases trait with
  | none => exact isInner_foldl_relative hqualifier hmembers.2
  | some trait =>
      rcases htrait trait rfl with ⟨res, htrait⟩
      exact isInner_qualified hqualifier htrait hmembers.1 hmembers.2

theorem yields_path (h : nested.YieldsInner) : (path nested).Yields IsInner :=
  .named (.orElse (yields_qualifiedPath h) (yields_plainPath h))

/-! ## Forms that are no paths

Such a form is kept as text, so nothing but that it forgets no construct is needed of its parts. -/

theorem yields_referenceType (h : nested.YieldsInner) :
    (referenceType nested).Yields fun _ => True := by
  refine .named (.step (.literal "&") fun _ => .step yields_ws fun _ => ?_)
  refine .step (.optional (.named (.step yields_lifetime fun _ => yields_ws))) fun _ => ?_
  refine .step (.optional (.named (.step (.literal "mut") fun _ => yields_ws1))) fun _ => ?_
  exact .step h.type fun _ => .pure trivial

theorem yields_pointerType (h : nested.YieldsInner) :
    (pointerType nested).Yields fun _ => True := by
  refine .named (.step (.literal "*") fun _ => .step yields_ws fun _ => ?_)
  refine .step (.named (.orElse (.literal "const") (.literal "mut"))) fun _ => ?_
  exact .step yields_ws1 fun _ => .step h.type fun _ => .pure trivial

theorem yields_parenthesised (h : nested.YieldsInner) :
    (parenthesised nested).Yields fun _ => True := by
  refine .step (.literal "(") fun _ => .step yields_ws fun _ => ?_
  refine .step (.optional (yields_commaList h.type)) fun _ => ?_
  exact .step yields_ws fun _ => .literal ")"

theorem yields_arrayType (h : nested.YieldsInner) : (arrayType nested).Yields fun _ => True := by
  refine .named (.step (.literal "[") fun _ => .step yields_ws fun _ => ?_)
  refine .step h.type fun _ => .step yields_ws fun _ => ?_
  refine .step (.optional (P := fun _ => True) (.named ?_)) fun _ => .literal "]"
  refine .step (.literal ";") fun _ => .step yields_ws fun _ => ?_
  exact .bind (.lexeme (P := fun _ => True) fun _ _ _ _ => trivial) fun _ => .pure fun _ => trivial

theorem yields_boundedType (h : nested.YieldsInner) :
    (boundedType nested).Yields fun _ => True := by
  refine .named (.step (.named (.orElse (.literal "dyn") (.literal "impl"))) fun _ => ?_)
  refine .step yields_ws1 fun _ => .step (yields_plainPath h) fun _ => ?_
  refine .step (.many (P := IsInner) (.named ?_)) fun _ => .pure trivial
  refine .step yields_ws fun _ => .step (.literal "+") fun _ => .step yields_ws fun _ => ?_
  exact .named (.orElse yields_lifetime (yields_plainPath h))

theorem yields_functionType (h : nested.YieldsInner) :
    (functionType nested).Yields fun _ => True := by
  refine .named (.step (.literal "fn") fun _ => .step yields_ws fun _ => ?_)
  refine .step (yields_parenthesised h) fun _ => ?_
  refine .step (.optional (P := fun _ => True) (.named ?_)) fun _ => .pure trivial
  refine .step yields_ws fun _ => .step (.literal "->") fun _ => .step yields_ws fun _ => ?_
  exact .step h.type fun _ => .pure trivial

theorem yields_verbatimType (h : nested.YieldsInner) : (verbatimType nested).Yields IsInner := by
  refine .named (.bind (.taken (P := fun _ => True) ?_) fun answer => .pure fun _ => ?_)
  · exact .orElse (yields_referenceType h) (.orElse (yields_pointerType h)
      (.orElse (.named (yields_parenthesised h)) (.orElse (yields_arrayType h)
        (.orElse (.named (.literal "!")) (.orElse (yields_boundedType h) (yields_functionType h))))))
  · exact isInner_verbatim (squeezed_ofList_squeeze answer.2)

theorem yields_bindingArgument (h : nested.YieldsInner) :
    (bindingArgument nested).Yields IsInner := by
  refine .named (.bind (.taken (P := fun _ => True) ?_) fun answer => .pure fun _ => ?_)
  · refine .step yields_identifier fun _ => .step yields_ws fun _ => .step (.literal "=") fun _ => ?_
    exact .step yields_ws fun _ => .step h.type fun _ => .pure trivial
  · exact isInner_verbatim (squeezed_ofList_squeeze answer.2)

/-! ## Every depth -/

theorem yields_typeForm (h : nested.YieldsInner) : (typeForm nested).Yields IsInner :=
  .named (.orElse yields_inferred (.orElse (yields_verbatimType h) (yields_path h)))

theorem yields_argument (h : nested.YieldsInner) : (argument nested).Yields IsInner :=
  .named (.orElse yields_inferred (.orElse yields_lifetime (.orElse yields_constant
    (.orElse (yields_bindingArgument h) (.orElse (yields_verbatimType h) (yields_path h))))))

/-- What stands inside at one depth is read by the rules of the depth below. -/
theorem yieldsInner_nested (depth : Nat) : (Grammar.nested depth).YieldsInner := by
  induction depth with
  | zero =>
      exact ⟨.fail, .fail⟩
  | succ depth ih =>
      exact ⟨yields_typeForm ih, yields_argument ih⟩

/-- A text is read only where no unsupported construct was met, so that what its rule yields holds
of what was read. -/
theorem of_readAll {α : Type} {P : α → Prop} {rule : Nested → Rule α} {text : String} {value : α}
    (hrule : ∀ {nested : Nested}, nested.YieldsInner → (rule nested).Yields P)
    (h : readAll rule text = .ok value) : P value := by
  have hwhole (nested : Nested) (hnested : nested.YieldsInner) : Yields (α := α) (do
      ws
      let value ← rule nested
      ws
      return value) P :=
    .step yields_ws fun _ => .bind (hrule hnested) fun _ => .step yields_ws fun _ => .pure id
  unfold readAll at h
  dsimp only at h
  split at h
  · cases h
  · rename_i value' cursor far hread
    split at h
    · cases h
    · split at h
      · cases h
      · rename_i hnone
        cases h
        exact (hwhole _ (yieldsInner_nested _) _ _ _ _ _ hread hnone).2

end Grammar

/-! ## Texts -/

namespace Reference

theorem isWellShaped_of_read {text : String} {res : Option Resolution} {ref : Reference}
    (h : Reference.read text res = .ok ref) : ref.IsWellShaped := by
  rw [Reference.read] at h
  cases hread : Grammar.readAll Grammar.path text with
  | error fault =>
      rw [hread] at h
      cases h
  | ok found =>
      have hfound : found.IsWellShaped :=
        (Grammar.of_readAll Grammar.yields_path hread).isWellShaped
      rw [hread] at h
      cases h
      cases res with
      | none => exact hfound
      | some res => exact hfound.withRes res

theorem isInner_of_readArgument {text : String} {ref : Reference}
    (h : Reference.readArgument text = .ok ref) : ref.IsInner :=
  Grammar.of_readAll Grammar.yields_argument h

end Reference

theorem Segment.isMember_of_read {text : String} {segment : Segment Reference}
    (h : Segment.read text = .ok segment) : segment.IsMember :=
  Grammar.of_readAll Grammar.yields_segment h

end AssocLint
