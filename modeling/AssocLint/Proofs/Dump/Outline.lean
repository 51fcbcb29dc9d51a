import AssocLint.Proofs.Dump.Alike
import AssocLint.Proofs.Sexp.Equality

/-!
# Outlines

The outline of a document is what is left of it without its lines and the texts of its paths. What
is shown as it stands, a literal or the tokens of a macro, has no paths and stays.
-/

namespace AssocLint

namespace Dump

/-- What stands around the items of a list. -/
inductive Fence
  /-- Parentheses, which may have a line. -/
  | parentheses (lined : Bool)
  | brackets
  | quote

/-- The outline of a value. -/
inductive Outline where
  /-- The text of a path. -/
  | text
  | atom (value : Sexp)
  /-- A value that is shown as it stands. -/
  | shown (value : Sexp)
  | form (head : String) (fields : List (Field Outline))
  | list (fence : Fence) (items : List Outline)

/-- What stands around the items of a value. -/
def fenceOf : Sexp → Fence
  | .list line _ => .parentheses line.isSome
  | .brackets _ => .brackets
  | _ => .quote

/-- The outline of a value, given those inside it. -/
def outlineIn (slot : Slot) (value : Sexp) (inside : Inside Outline) : Outline :=
  if slot = .literal then .shown value.unlined
  else
    match inside with
    | .nothing => if slot = .path ∧ value.word?.isSome then .text else .atom value
    | .items items => .list (fenceOf value) items
    | .fields form fields =>
      if form.head = "macro" then .shown value.unlined else .form form.head fields

def outline (slot : Slot) (value : Sexp) : Outline :=
  survey outlineIn slot value

/-! ## Values by their outlines -/

section Outline

variable {slot : Slot}

theorem outline_literal (value : Sexp) : outline .literal value = .shown value.unlined := by
  generalize hslot : Slot.literal = slot
  have hin (value : Sexp) (inside : Inside Outline) :
      outlineIn slot value inside = .shown value.unlined := if_pos hslot.symm
  cases slot, value using survey_induction with
  | form slot form _ => rw [outline, survey_toSexp, hin]
  | list slot value items hsurvey _ => rw [outline, hsurvey, hin]
  | atom slot value hsurvey => rw [outline, hsurvey, hin]

/-- The values that have a given outline, where no literal stands. -/
inductive Outlined (slot : Slot) : Sexp → Outline → Prop
  | text {value : Sexp} (hslot : slot = .path) (hword : value.word?.isSome) :
      Outlined slot value .text
  | atom {value : Sexp} (hatom : isAtom value) (hbare : slot = .path → value.word? = none) :
      Outlined slot value (.atom value)
  | shown {form : Form} {value : Sexp} (hhead : form.head = "macro")
      (hvalue : form.toSexp.unlined = value) : Outlined slot form.toSexp (.shown value)
  | form {form : Form} {head : String} {fields : List (Field Outline)} (hhead : form.head = head)
      (hmacroHead : head ≠ "macro")
      (hfields : surveyEach outlineIn head 0 (fieldsOf (flagsOf head) form.items) = fields) :
      Outlined slot form.toSexp (.form head fields)
  | list {line : Option Nat} {items : List Sexp} {lined : Bool} {outlines : List Outline}
      (hlist : ∀ form : Form, .list line items ≠ form.toSexp) (hline : line.isSome = lined)
      (hitems : items.map (outline .form) = outlines) :
      Outlined slot (.list line items) (.list (.parentheses lined) outlines)
  | brackets {items : List Sexp} {outlines : List Outline}
      (hitems : items.map (outline .form) = outlines) :
      Outlined slot (.brackets items) (.list .brackets outlines)
  | quoted {value : Sexp} {inside : Outline} (hvalue : outline .form value = inside) :
      Outlined slot (.quoted value) (.list .quote [inside])

theorem outlined (hslot : slot ≠ .literal) (value : Sexp) :
    Outlined slot value (outline slot value) := by
  cases shape value with
  | atom hatom =>
      rw [outline, survey_atom outlineIn slot hatom, outlineIn, if_neg hslot]
      split
      · rename_i hbare
        exact .text hbare.1 hbare.2
      · rename_i hbare
        exact .atom hatom fun hpath => Option.not_isSome_iff_eq_none.1 fun hword =>
          hbare ⟨hpath, hword⟩
  | form form =>
      rw [outline, survey_toSexp, outlineIn, if_neg hslot]
      split
      · exact .shown ‹_› rfl
      · exact .form rfl ‹_› rfl
  | list hlist =>
      rw [outline, survey_list outlineIn slot hlist, outlineIn, if_neg hslot]
      exact .list hlist rfl rfl
  | brackets items =>
      rw [outline, survey_brackets, outlineIn, if_neg hslot]
      exact .brackets rfl
  | quoted value =>
      rw [outline, survey_quoted, outlineIn, if_neg hslot]
      exact .quoted rfl

end Outline

/-- Two documents have the same outline. -/
def SameOutline : Likeness := fun slot value value' =>
  outline slot value' = outline slot value

namespace SameOutline

variable {slot : Slot} {value value' : Sexp}

theorem outlined (h : SameOutline slot value value') (hslot : slot ≠ .literal) :
    ∃ shared, Outlined slot value shared ∧ Outlined slot value' shared :=
  ⟨_, Dump.outlined hslot value, h ▸ Dump.outlined hslot value'⟩

theorem unlined_eq (h : SameOutline .literal value value') : value'.unlined = value.unlined := by
  rwa [SameOutline, outline_literal, outline_literal, Outline.shown.injEq] at h

theorem word_eq (h : SameOutline .form value value') : value'.word? = value.word? := by
  obtain ⟨shared, hvalue, hvalue'⟩ := h.outlined nofun
  cases hvalue with
  | text hslot => cases hslot
  | _ =>
      cases hvalue'
      rfl

theorem bare (h : SameOutline .path value value') :
    Option.Rel (fun _ _ => True) value.word? value'.word? := by
  obtain ⟨shared, hvalue, hvalue'⟩ := h.outlined nofun
  cases hvalue with
  | text _ hword =>
      cases hvalue' with
      | text _ hword' =>
          obtain ⟨text, htext⟩ := Option.isSome_iff_exists.1 hword
          obtain ⟨text', htext'⟩ := Option.isSome_iff_exists.1 hword'
          rw [htext, htext']
          exact .some trivial
  | atom _ hbare =>
      cases hvalue' with
      | atom =>
          rw [hbare rfl]
          exact .none
  | _ =>
      cases hvalue'
      exact .none

theorem arrayLength_eq (h : SameOutline .length value value') :
    arrayLength value' = arrayLength value := by
  obtain ⟨shared, hvalue, hvalue'⟩ := h.outlined nofun
  cases hvalue with
  | text hslot => cases hslot
  | _ =>
      cases hvalue'
      rfl

/-- Fields with the same outlines. -/
theorem fieldsLike {head : String} {index : Nat} {fields fields' : List (Field Sexp)}
    (h : surveyEach outlineIn head index fields' = surveyEach outlineIn head index fields) :
    FieldsLike SameOutline head index fields fields' := by
  induction fields generalizing index fields' with
  | nil =>
      cases fields' with
      | nil => exact .nil
      | cons field' _ => cases field' <;> cases h
  | cons field rest ih =>
      cases fields' with
      | nil => cases field <;> cases h
      | cons field' rest' =>
          cases field <;> cases field' <;>
            simp only [surveyEach, List.cons.injEq, Field.item.injEq, Field.keyword.injEq,
              Field.flag.injEq, Field.unfinished.injEq, reduceCtorEq, false_and] at h
          · exact .item h.1 (ih h.2)
          · obtain ⟨⟨rfl, hvalue⟩, hrest⟩ := h
            exact .keyword hvalue (ih hrest)
          · obtain ⟨rfl, hrest⟩ := h
            exact .flag (ih hrest)
          · obtain ⟨rfl, hrest⟩ := h
            exact .unfinished (ih hrest)

/-- A form with the same outline as another one. -/
theorem toSexp {form : Form} (h : SameOutline slot form.toSexp value') (hslot : slot ≠ .literal) :
    ∃ form' : Form, value' = form'.toSexp ∧ form'.head = form.head ∧
      (form.head = "macro" → form'.toSexp.unlined = form.toSexp.unlined) ∧
      (form.head ≠ "macro" → FieldsLike SameOutline form.head 0
        (fieldsOf (flagsOf form.head) form.items) (fieldsOf (flagsOf form.head) form'.items)) := by
  obtain ⟨shared, hvalue, hvalue'⟩ := h.outlined hslot
  generalize hform : form.toSexp = value at hvalue
  cases hvalue with
  | text _ hword =>
      subst hform
      cases hword
  | atom hatom =>
      subst hform
      cases hatom
  | shown hhead hshown =>
      obtain rfl := Form.toSexp_inj hform
      cases hvalue' with
      | shown hhead' hshown' =>
          exact ⟨_, rfl, hhead'.trans hhead.symm, fun _ => hshown'.trans hshown.symm,
            fun hmacroHead => absurd hhead hmacroHead⟩
  | form hhead hmacroHead hfields =>
      obtain rfl := Form.toSexp_inj hform
      cases hvalue' with
      | form hhead' _ hfields' =>
          subst hhead
          exact ⟨_, rfl, hhead', fun hhead => absurd hhead hmacroHead,
            fun _ => fieldsLike (hfields'.trans hfields.symm)⟩
  | list hlist => exact absurd hform.symm (hlist form)
  | brackets => cases hform
  | quoted => cases hform

/-- What has the same outline as a list is a list of as many items. -/
theorem items {items : List Sexp} (h : SameOutline slot value value') (hslot : slot ≠ .literal)
    (hitems : HoldsItems value items) : ∃ items', HoldsItems value' items' ∧
      items'.map (outline .form) = items.map (outline .form) := by
  have hvalue : outline slot value = .list (fenceOf value) (items.map (outline .form)) := by
    rw [outline, hitems, outlineIn, if_neg hslot]
    rfl
  have hvalue' := Dump.outlined hslot value'
  rw [h, hvalue] at hvalue'
  generalize fenceOf value = fence at hvalue'
  generalize items.map (outline .form) = outlines at hvalue' ⊢
  cases hvalue' with
  | @list _ items' _ _ hlist _ hsame =>
      exact ⟨items', fun combine slot => survey_list combine slot hlist, hsame⟩
  | @brackets items' _ hsame =>
      exact ⟨items', fun combine slot => survey_brackets combine slot items', hsame⟩
  | @quoted inner _ hsame =>
      exact ⟨[inner], fun combine slot => survey_quoted combine slot inner, congrArg ([·]) hsame⟩

end SameOutline

/-! ## Spans -/

/-- What writes a span: a list of numbers, whatever its line. -/
theorem gives_spanOf_numbers (form : Form) (file : String) (value : Sexp) :
    Gives (form.spanOf file value) fun span => ∃ line items, value = .list (some line) items ∧
      (∀ item ∈ items, isAtom item) ∧ (∀ form : Form, value ≠ form.toSexp) ∧
      ∀ (form' : Form) line', form'.spanOf file (.list (some line') items) = .ok span := by
  intro span hspan
  obtain ⟨line, numbers, rfl, hwritten⟩ := writtenSpan?_eq_some (spanOf_eq_ok_iff.1 hspan)
  refine ⟨line, _, rfl, List.forall_mem_map.2 fun _ _ => rfl, fun form heq => ?_,
    fun form' line' => spanOf_eq_ok_iff.2 (hwritten line')⟩
  cases numbers <;> cases heq

/-- Lists that agree item by item, where the items of one are known by what is compared. -/
theorem eq_of_map_eq {α β : Type} {g : α → β} {items items' : List α}
    (hitems : ∀ item ∈ items, ∀ item', g item' = g item → item' = item)
    (h : items'.map g = items.map g) : items' = items := by
  induction items generalizing items' with
  | nil =>
      exact List.map_eq_nil_iff.1 h
  | cons item rest ih =>
      cases items' with
      | nil => cases h
      | cons item' rest' =>
          rw [List.map_cons, List.map_cons, List.cons.injEq] at h
          rw [List.forall_mem_cons] at hitems
          rw [hitems.1 item' h.1, ih hitems.2 h.2]

theorem eq_of_unlined_eq {value value' : Sexp} (hvalue : isAtom value)
    (h : value'.unlined = value.unlined) : value' = value := by
  cases value' with
  | symbol | text | int | float => cases value with
    | symbol | text | int | float => exact h
    | _ => cases hvalue
  | _ => cases value with
    | symbol | text | int | float => cases h
    | _ => cases hvalue

/-- Values that differ in lines only write the same span. -/
theorem carries_spanOf_unlined {value value' : Sexp} (h : value'.unlined = value.unlined)
    (form form' : Form) (file : String) :
    Carries (form.spanOf file value) (form'.spanOf file value') Eq := by
  intro span hspan
  obtain ⟨line, items, rfl, hatoms, _, hread⟩ := gives_spanOf_numbers form file value span hspan
  cases value' with
  | list line' items' =>
      simp only [Sexp.unlined, Sexp.list.injEq, Sexp.unlinedAll_eq] at h
      obtain ⟨hline, hitems⟩ := h
      obtain rfl := eq_of_map_eq (fun item hitem _ => eq_of_unlined_eq (hatoms item hitem)) hitems
      cases line' with
      | none => cases hline
      | some line' => exact ⟨span, hread form' line', rfl⟩
  | _ => cases h

namespace SameOutline

variable {value value' : Sexp}

theorem eq_of_isAtom (h : SameOutline .form value value') (hatom : isAtom value) :
    value' = value := by
  obtain ⟨shared, hvalue, hvalue'⟩ := h.outlined nofun
  cases hvalue with
  | text hslot => cases hslot
  | atom =>
      cases hvalue'
      rfl
  | _ => cases hatom

theorem spanOf (h : SameOutline .form value value') (form form' : Form) (file : String) :
    Carries (form.spanOf file value) (form'.spanOf file value') Eq := by
  intro span hspan
  obtain ⟨line, items, rfl, hatoms, hlist, hread⟩ := gives_spanOf_numbers form file value span hspan
  obtain ⟨shared, hvalue, hvalue'⟩ := h.outlined nofun
  generalize hwritten : Sexp.list (some line) items = written at hvalue
  cases hvalue with
  | list _ hline hitems =>
      cases hwritten
      cases hvalue' with
      | @list line' items' _ _ _ hline' hitems' =>
          obtain rfl := eq_of_map_eq (fun item hitem _ hsame =>
            eq_of_isAtom hsame (hatoms item hitem)) (hitems'.trans hitems.symm)
          cases line' with
          | none =>
              subst hline
              cases hline'
          | some line' =>
              exact ⟨span, hread form' line', rfl⟩
  | form => exact absurd hwritten (hlist _)
  | shown => exact absurd hwritten (hlist _)
  | text hslot => cases hslot
  | atom hatom => subst hwritten; cases hatom
  | _ => cases hwritten

end SameOutline

/-! ## Macros -/

theorem macroSpan?_unlined (tokens : List Sexp) :
    macroSpan? (tokens.map Sexp.unlined) = (macroSpan? tokens).map Sexp.unlined := by
  fun_induction macroSpan? tokens with
  | case1 value rest => rfl
  | case2 token rest hspan ih =>
      rw [List.map_cons, ← ih, macroSpan?.eq_2]
      intro value rest' htoken hrest
      have hatom : isAtom (.symbol ":span") := rfl
      have htoken : token = .symbol ":span" := eq_of_unlined_eq hatom htoken
      cases rest with
      | nil => cases hrest
      | cons value rest => exact hspan value rest htoken rfl
  | case3 => rfl

theorem carries_readMacro {form form' : Form}
    (h : form'.items.map Sexp.unlined = form.items.map Sexp.unlined) (outer : Span) :
    Carries (readMacro form outer) (readMacro form' outer) Eq := by
  unfold readMacro
  cases hitems : form.items with
  | nil => exact .fault
  | cons name tokens =>
      cases hitems' : form'.items with
      | nil =>
          rw [hitems, hitems'] at h
          cases h
      | cons name' tokens' =>
          rw [hitems, hitems', List.map_cons, List.map_cons, List.cons.injEq] at h
          obtain ⟨hname, htokens⟩ := h
          have htext (span : Span) : Carries (do
                let name ← form.text name
                return Expr.macroCall name span) (do
                let name ← form'.text name'
                return Expr.macroCall name span) Eq := by
            refine .step (fun text htext => ⟨text, ?_, rfl⟩) fun text => .ok rfl
            rw [Form.text, ← Sexp.word?_unlined, hname, Sexp.word?_unlined, Gives.text text htext]
          have hspan := congrArg macroSpan? htokens
          rw [macroSpan?_unlined, macroSpan?_unlined] at hspan
          dsimp only
          cases hfound : macroSpan? tokens <;> cases hfound' : macroSpan? tokens' <;>
            rw [hfound, hfound'] at hspan
          · exact htext outer
          · cases hspan
          · cases hspan
          · exact (carries_spanOf_unlined (Option.some.inj hspan) form form' outer.file).step htext

/-! ## Depth -/

theorem depth_of_keywordName {item : Sexp} {name : String}
    (h : Form.keywordName? item = some name) : item.depth = 0 := by
  cases item with
  | symbol => rfl
  | _ => cases h

theorem depth_toSexp (form : Form) : form.toSexp.depth = Sexp.depthAll form.items + 1 :=
  congrArg (· + 1) (Nat.zero_max _)

/-- How deep the fields of a form are. -/
def depthOfFields (fields : List (Field Sexp)) : Nat :=
  Sexp.depthAll (fields.filterMap Field.content?)

/-- The deepest value of a form stands in one of its fields. -/
theorem depthOfFields_fieldsOf (flags : List String) (items : List Sexp) :
    depthOfFields (fieldsOf flags items) = Sexp.depthAll items := by
  fun_induction fieldsOf flags items with
  | case1 => rfl
  | case2 item hname => rfl
  | case3 item name hname hflag | case4 item name hname hflag =>
      rw [Sexp.depthAll, depth_of_keywordName hname]
      rfl
  | case5 item value rest hname ih =>
      exact congrArg (max item.depth) ih
  | case6 item value rest name hname hflag ih =>
      rw [Sexp.depthAll, depth_of_keywordName hname, Nat.zero_max, ← ih]
      rfl
  | case7 item value rest name hname hflag ih =>
      rw [Sexp.depthAll, depth_of_keywordName hname, Nat.zero_max, Sexp.depthAll, ← ih]
      rfl

namespace SameOutline

theorem depth_of_word {value : Sexp} (h : value.word?.isSome) : value.depth = 0 := by
  cases value with
  | symbol | text => rfl
  | _ => cases h

/-- What is said of the depths of documents with one outline. -/
def KeepsDepth (slot : Slot) (value : Sexp) : Prop :=
  ∀ value', SameOutline slot value value' → value'.depth = value.depth

theorem depthAll_eq {values values' : List Sexp} (h : ∀ value ∈ values, KeepsDepth .form value)
    (hvalues : values'.map (outline .form) = values.map (outline .form)) :
    Sexp.depthAll values' = Sexp.depthAll values := by
  induction values generalizing values' with
  | nil =>
      rw [List.map_eq_nil_iff.1 hvalues]
  | cons value rest ih =>
      cases values' with
      | nil => cases hvalues
      | cons value' rest' =>
          rw [List.map_cons, List.map_cons, List.cons.injEq] at hvalues
          rw [List.forall_mem_cons] at h
          rw [Sexp.depthAll, Sexp.depthAll, h.1 value' hvalues.1, ih h.2 hvalues.2]

theorem depthOfFields_eq {head : String} {index : Nat} {fields fields' : List (Field Sexp)}
    (h : AllFields KeepsDepth head index fields)
    (hfields : FieldsLike SameOutline head index fields fields') :
    depthOfFields fields' = depthOfFields fields := by
  induction hfields with
  | nil => rfl
  | item hvalue _ ih => exact congrArg₂ max (h.1 _ hvalue) (ih h.2)
  | keyword hvalue _ ih => exact congrArg₂ max (h.1 _ hvalue) (ih h.2)
  | flag _ ih => exact ih h
  | unfinished _ ih => exact ih h

theorem keepsDepth_of_ne_literal {slot : Slot} {value : Sexp}
    (h : slot ≠ .literal → KeepsDepth slot value) : KeepsDepth slot value := by
  by_cases hslot : slot = .literal
  · subst hslot
    intro value' hsame
    rw [← value'.depth_unlined, hsame.unlined_eq, value.depth_unlined]
  · exact h hslot

/-- A document is as deep as its outline. -/
theorem keepsDepth (slot : Slot) (value : Sexp) : KeepsDepth slot value := by
  induction slot, value using shape_induction with
  | atom slot value hatom =>
      refine keepsDepth_of_ne_literal fun hslot value' h => ?_
      obtain ⟨shared, hvalue, hvalue'⟩ := h.outlined hslot
      cases hvalue with
      | text _ hword =>
          cases hvalue' with
          | text _ hword' => rw [depth_of_word hword, depth_of_word hword']
      | atom =>
          cases hvalue'
          rfl
      | _ => cases hatom
  | form slot form ih =>
      refine keepsDepth_of_ne_literal fun hslot value' h => ?_
      obtain ⟨form', rfl, hhead, hmacroHead, hfields⟩ := h.toSexp hslot
      by_cases hform : form.head = "macro"
      -- The tokens of a macro are shown as they stand, so their depth is seen.
      · rw [← Sexp.depth_unlined, hmacroHead hform, Sexp.depth_unlined]
      · rw [depth_toSexp, depth_toSexp, ← depthOfFields_fieldsOf (flagsOf form.head) form'.items,
          depthOfFields_eq ih (hfields hform), depthOfFields_fieldsOf]
  | list slot line items hlist ih =>
      refine keepsDepth_of_ne_literal fun hslot value' h => ?_
      obtain ⟨shared, hvalue, hvalue'⟩ := h.outlined hslot
      cases hvalue with
      | list _ hline hitems =>
          cases hvalue' with
          | list _ _ hitems' =>
              exact congrArg (· + 1) (depthAll_eq ih (hitems'.trans hitems.symm))
      | text _ hword => cases hword
      | atom hatom => cases hatom
      | shown | form => exact absurd rfl (hlist _)
  | brackets slot items ih =>
      refine keepsDepth_of_ne_literal fun hslot value' h => ?_
      obtain ⟨shared, hvalue, hvalue'⟩ := h.outlined hslot
      cases hvalue with
      | brackets hitems =>
          cases hvalue' with
          | brackets hitems' =>
              exact congrArg (· + 1) (depthAll_eq ih (hitems'.trans hitems.symm))
      | text _ hword => cases hword
      | atom hatom => cases hatom
  | quoted slot value ih =>
      refine keepsDepth_of_ne_literal fun hslot value' h => ?_
      obtain ⟨shared, hvalue, hvalue'⟩ := h.outlined hslot
      cases hvalue with
      | quoted hinside =>
          cases hvalue' with
          | quoted hinside' => exact congrArg (· + 1) (ih _ (hinside'.trans hinside.symm))
      | text _ hword => cases hword
      | atom hatom => cases hatom

end SameOutline

end Dump
end AssocLint
