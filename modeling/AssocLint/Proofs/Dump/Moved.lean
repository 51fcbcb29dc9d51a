import AssocLint.Proofs.Dump.Rearranged
import AssocLint.Proofs.Dump.Replaced

/-!
# Documents with keywords at other places

A keyword may stand anywhere in its form, with the value after it, and so may a flag: documents that
differ in these places only are read alike, whatever the forms they stand in
(`readAlike_keywordsMoved`), so the one writes a crate if and only if the other writes the same.

What is shown as it stands, a literal or the tokens of a macro, has no keywords. A form in the place
of a literal is shown with its items in their order, so there it matters.
-/

namespace AssocLint
namespace Dump

/-- The values that a list or a quote holds. -/
def heldBy : Sexp → List Sexp
  | .list _ items | .brackets items => items
  | .quoted value => [value]
  | _ => []

/-- The documents that differ from a value in the places of keywords at most, given those for each
of the values inside it. -/
def movedIn (slot : Slot) (value : Sexp) (inside : Inside (Sexp → Prop)) (value' : Sexp) : Prop :=
  if slot = .literal then value'.unlined = value.unlined
  else
    match inside with
    | .nothing => value' = value
    | .items items =>
      fenceOf value' = fenceOf value ∧
        List.Forall₂ (fun moved item' => moved item') items (heldBy value')
    | .fields form fields =>
      if form.head = "macro" then value'.unlined = value.unlined
      else ∃ form' : Form, value' = form'.toSexp ∧ form'.head = form.head ∧
        Rearranged (fun moved item' => moved item') fields
          (fieldsOf (flagsOf form.head) form'.items)

/-- Two documents differ in the places of keywords at most. -/
def KeywordsMoved : Likeness :=
  survey movedIn

/-! ## Values by what they hold -/

/-- A list or a quote that is no form holds its items to a survey. -/
theorem holdsItems_heldBy {value : Sexp} (hatom : isAtom value = false)
    (hform : ∀ form : Form, value ≠ form.toSexp) : HoldsItems value (heldBy value) := by
  intro β combine slot
  cases value with
  | list line items => exact survey_list combine slot hform
  | brackets items => exact survey_brackets combine slot items
  | quoted value => exact survey_quoted combine slot value
  | _ => cases hatom

/-- The same as `shape_induction` where all that matters of a list that is no form is what it
holds. -/
theorem held_induction {P : Slot → Sexp → Prop}
    (atom : ∀ slot value, isAtom value → P slot value)
    (form : ∀ slot (form : Form),
      AllFields P form.head 0 (fieldsOf (flagsOf form.head) form.items) → P slot form.toSexp)
    (list : ∀ slot value, isAtom value = false → (∀ form : Form, value ≠ form.toSexp) →
      (∀ item ∈ heldBy value, P .form item) → P slot value)
    (slot : Slot) (value : Sexp) : P slot value :=
  shape_induction atom form
    (fun slot line items hform => list slot (.list line items) rfl hform)
    (fun slot items => list slot (.brackets items) rfl fun _ h => by cases h)
    (fun slot inner h => list slot (.quoted inner) rfl (fun _ h => by cases h)
      (List.forall_mem_singleton.2 h))
    slot value

theorem depth_of_not_isAtom {value : Sexp} (hatom : isAtom value = false) :
    value.depth = Sexp.depthAll (heldBy value) + 1 := by
  cases value with
  | list | brackets => rfl
  | quoted inner => exact congrArg (· + 1) (Nat.max_zero _).symm
  | _ => cases hatom

theorem isAtom_of_fence {value value' : Sexp} (hatom : isAtom value = false)
    (hfence : fenceOf value' = fenceOf value)
    (hlength : (heldBy value).length = (heldBy value').length) : isAtom value' = false := by
  cases value' with
  | list | brackets | quoted => rfl
  | _ => cases value with
    | list | brackets => cases hfence
    | quoted => cases hlength
    | _ => cases hatom

theorem isAtom_unlined (value : Sexp) : isAtom value.unlined = isAtom value := by
  cases value <;> rfl

/-- What is a form but for its lines is a form. -/
theorem toSexp_of_unlined_eq {form : Form} {value' : Sexp}
    (h : value'.unlined = form.toSexp.unlined) :
    ∃ form' : Form, value' = form'.toSexp ∧ form'.head = form.head ∧
      form'.items.map Sexp.unlined = form.items.map Sexp.unlined := by
  cases value' with
  | list line items =>
      simp only [Form.toSexp, Sexp.unlined, Sexp.unlinedAll_eq, List.map_cons,
        Sexp.list.injEq] at h
      obtain ⟨hline, hitems⟩ := h
      cases line with
      | none => cases hline
      | some line =>
          cases items with
          | nil => cases hitems
          | cons head items =>
              rw [List.map_cons, List.cons.injEq] at hitems
              have hatom : isAtom (.symbol form.head) := rfl
              obtain rfl := eq_of_unlined_eq hatom hitems.1
              exact ⟨⟨line, form.head, items⟩, rfl, rfl, hitems.2⟩
  | _ => cases h

/-! ## Documents by what they are -/

section Cases

variable {slot : Slot} {value value' : Sexp}

theorem keywordsMoved_literal :
    KeywordsMoved .literal value value' ↔ value'.unlined = value.unlined := by
  have hin (value : Sexp) (inside : Inside (Sexp → Prop)) :
      movedIn .literal value inside value' ↔ value'.unlined = value.unlined := by
    simp only [movedIn, if_true]
  generalize hslot : Slot.literal = slot at hin ⊢
  cases slot, value using survey_induction with
  | form slot form _ => rw [KeywordsMoved, survey_toSexp, hin]
  | list slot value items hsurvey _ => rw [KeywordsMoved, hsurvey, hin]
  | atom slot value hsurvey => rw [KeywordsMoved, hsurvey, hin]

theorem keywordsMoved_atom (hatom : isAtom value) :
    KeywordsMoved slot value value' ↔ value' = value := by
  rw [KeywordsMoved, survey_atom movedIn slot hatom, movedIn]
  split
  · exact ⟨eq_of_unlined_eq hatom, congrArg Sexp.unlined⟩
  · rfl

theorem keywordsMoved_macroForm {form : Form} (hhead : form.head = "macro") :
    KeywordsMoved slot form.toSexp value' ↔ value'.unlined = form.toSexp.unlined := by
  rw [KeywordsMoved, survey_toSexp, movedIn, if_pos hhead, ite_self]

theorem keywordsMoved_form {form : Form} (hslot : slot ≠ .literal) (hhead : form.head ≠ "macro") :
    KeywordsMoved slot form.toSexp value' ↔
      ∃ form' : Form, value' = form'.toSexp ∧ form'.head = form.head ∧
        RearrangedLike KeywordsMoved form.head (fieldsOf (flagsOf form.head) form.items)
          (fieldsOf (flagsOf form.head) form'.items) := by
  rw [KeywordsMoved, survey_toSexp, movedIn, if_neg hslot, if_neg hhead]
  simp only [rearranged_surveyEach_iff]

theorem keywordsMoved_list (hslot : slot ≠ .literal) (hatom : isAtom value = false)
    (hform : ∀ form : Form, value ≠ form.toSexp) :
    KeywordsMoved slot value value' ↔
      fenceOf value' = fenceOf value ∧
        List.Forall₂ (KeywordsMoved .form) (heldBy value) (heldBy value') := by
  rw [KeywordsMoved, holdsItems_heldBy hatom hform, movedIn, if_neg hslot,
    List.forall₂_map_left_iff]

end Cases

namespace KeywordsMoved

variable {slot : Slot} {value value' : Sexp}

/-- The form that a form with moved keywords is. -/
theorem toSexp {form : Form} (h : KeywordsMoved slot form.toSexp value') :
    ∃ form' : Form, value' = form'.toSexp ∧ form'.head = form.head := by
  by_cases hslot : slot = .literal
  · subst hslot
    obtain ⟨form', rfl, hhead', _⟩ := toSexp_of_unlined_eq (keywordsMoved_literal.1 h)
    exact ⟨form', rfl, hhead'⟩
  by_cases hhead : form.head = "macro"
  · obtain ⟨form', rfl, hhead', _⟩ := toSexp_of_unlined_eq ((keywordsMoved_macroForm hhead).1 h)
    exact ⟨form', rfl, hhead'⟩
  · obtain ⟨form', rfl, hhead', _⟩ := (keywordsMoved_form hslot hhead).1 h
    exact ⟨form', rfl, hhead'⟩

/-- What is no list is none in either document. -/
theorem isAtom_eq (h : KeywordsMoved slot value value') : isAtom value' = isAtom value := by
  by_cases hslot : slot = .literal
  · subst hslot
    rw [← isAtom_unlined, keywordsMoved_literal.1 h, isAtom_unlined]
  cases slot, value using held_induction with
  | atom slot value hatom => rw [(keywordsMoved_atom hatom).1 h]
  | form slot form _ =>
      obtain ⟨form', rfl, _⟩ := h.toSexp
      rfl
  | list slot value hatom hform _ =>
      obtain ⟨hfence, hitems⟩ := (keywordsMoved_list hslot hatom hform).1 h
      rw [hatom, isAtom_of_fence hatom hfence hitems.length_eq]

/-- What is no list stays as it is. -/
theorem eq_of_isAtom (h : KeywordsMoved slot value value') (hatom : isAtom value') :
    value' = value :=
  (keywordsMoved_atom (h.isAtom_eq ▸ hatom)).1 h

theorem word_eq (h : KeywordsMoved slot value value') : value'.word? = value.word? := by
  cases hatom : isAtom value' with
  | true => rw [h.eq_of_isAtom hatom]
  | false =>
      have hatom' : isAtom value = false := h.isAtom_eq ▸ hatom
      cases value <;> cases hatom' <;> cases value' <;> cases hatom <;> rfl

theorem arrayLength_eq (h : KeywordsMoved slot value value') :
    arrayLength value' = arrayLength value := by
  cases hatom : isAtom value' with
  | true => rw [h.eq_of_isAtom hatom]
  | false =>
      have hatom' : isAtom value = false := h.isAtom_eq ▸ hatom
      cases value <;> cases hatom' <;> cases value' <;> cases hatom <;> rfl

/-- A list that is no form does not become one. -/
theorem ne_toSexp (h : KeywordsMoved slot value value') (hslot : slot ≠ .literal)
    (hatom : isAtom value = false) (hform : ∀ form : Form, value ≠ form.toSexp) (form' : Form) :
    value' ≠ form'.toSexp := by
  rintro rfl
  obtain ⟨hfence, hitems⟩ := (keywordsMoved_list hslot hatom hform).1 h
  cases value with
  | list line items =>
      cases hitems with
      | cons hhead hrest =>
          obtain rfl := hhead.eq_of_isAtom rfl
          obtain ⟨line, rfl⟩ := Option.isSome_iff_exists.1 (Fence.parentheses.inj hfence).symm
          exact hform ⟨line, form'.head, _⟩ rfl
  | _ => cases hfence

end KeywordsMoved

/-! ## Moving keywords -/

/-- Nothing need be moved. -/
theorem keywordsMoved_refl (slot : Slot) (value : Sexp) : KeywordsMoved slot value value := by
  induction slot, value using held_induction with
  | atom slot value hatom => exact (keywordsMoved_atom hatom).2 rfl
  | form slot form ih =>
      by_cases hslot : slot = .literal
      · subst hslot
        exact keywordsMoved_literal.2 rfl
      by_cases hhead : form.head = "macro"
      · exact (keywordsMoved_macroForm hhead).2 rfl
      · exact (keywordsMoved_form hslot hhead).2 ⟨form, rfl, rfl, .of_perm ih rfl (.refl _)⟩
  | list slot value hatom hform ih =>
      by_cases hslot : slot = .literal
      · subst hslot
        exact keywordsMoved_literal.2 rfl
      exact (keywordsMoved_list hslot hatom hform).2 ⟨rfl, List.forall₂_same.2 ih⟩

theorem allFields_refl (head : String) (index : Nat) (fields : List (Field Sexp)) :
    AllFields (fun slot value => KeywordsMoved slot value value) head index fields := by
  induction fields generalizing index with
  | nil => trivial
  | cons field rest ih =>
      cases field with
      | item value | keyword name value => exact ⟨keywordsMoved_refl .., ih _⟩
      | flag name | unfinished name => exact ih _

/-- The keywords of a form may stand anywhere among its items. -/
theorem keywordsMoved_of_perm {slot : Slot} (hslot : slot ≠ .literal) {form form' : Form}
    (hhead : form'.head = form.head) (hmacroHead : form.head ≠ "macro")
    (hitems : (fieldsOf (flagsOf form.head) form'.items).filterMap Field.item? =
      (fieldsOf (flagsOf form.head) form.items).filterMap Field.item?)
    (hkeywords : (keywordFields (fieldsOf (flagsOf form.head) form.items)).Perm
      (keywordFields (fieldsOf (flagsOf form.head) form'.items))) :
    KeywordsMoved slot form.toSexp form'.toSexp :=
  (keywordsMoved_form hslot hmacroHead).2
    ⟨form', rfl, hhead, .of_perm (allFields_refl ..) hitems hkeywords⟩

/-! ## The other way round -/

/-- What is said of documents that differ in the places of keywords. -/
def MovesBack (slot : Slot) (value : Sexp) : Prop :=
  ∀ value', KeywordsMoved slot value value' → KeywordsMoved slot value' value

/-- Keywords can be moved back. -/
theorem movesBack (slot : Slot) (value : Sexp) : MovesBack slot value := by
  induction slot, value using held_induction with
  | atom slot value hatom =>
      intro value' h
      obtain rfl := (keywordsMoved_atom hatom).1 h
      exact h
  | form slot form ih =>
      intro value' h
      by_cases hslot : slot = .literal
      · subst hslot
        exact keywordsMoved_literal.2 (keywordsMoved_literal.1 h).symm
      by_cases hhead : form.head = "macro"
      · have hunlined := (keywordsMoved_macroForm hhead).1 h
        obtain ⟨form', rfl, hhead', _⟩ := toSexp_of_unlined_eq hunlined
        exact (keywordsMoved_macroForm (hhead'.trans hhead)).2 hunlined.symm
      · obtain ⟨form', rfl, hhead', hfields⟩ := (keywordsMoved_form hslot hhead).1 h
        refine (keywordsMoved_form hslot (hhead' ▸ hhead)).2 ⟨form, rfl, hhead'.symm, ?_⟩
        rw [hhead']
        exact (hfields.and ih).flip fun _ _ value' hvalue => hvalue.2 value' hvalue.1
  | list slot value hatom hform ih =>
      intro value' h
      by_cases hslot : slot = .literal
      · subst hslot
        exact keywordsMoved_literal.2 (keywordsMoved_literal.1 h).symm
      obtain ⟨hfence, hitems⟩ := (keywordsMoved_list hslot hatom hform).1 h
      refine (keywordsMoved_list hslot (h.isAtom_eq.trans hatom)
        (h.ne_toSexp hslot hatom hform)).2 ⟨hfence.symm, List.Forall₂.flip ?_⟩
      exact ((List.forall₂_and_left _ _).2 ⟨ih, hitems⟩).imp
        fun _ item' hitem => hitem.1 item' hitem.2

/-! ## Depth -/

/-- What is said of the depths of documents that differ in the places of keywords. -/
def KeepsDepth (slot : Slot) (value : Sexp) : Prop :=
  ∀ value', KeywordsMoved slot value value' → value'.depth = value.depth

theorem depthAll_perm {values values' : List Sexp} (h : values.Perm values') :
    Sexp.depthAll values' = Sexp.depthAll values := by
  induction h with
  | nil => rfl
  | cons value _ ih => rw [Sexp.depthAll, Sexp.depthAll, ih]
  | swap value value' rest => simp only [Sexp.depthAll, Nat.max_left_comm]
  | trans _ _ ih ih' => rw [ih', ih]

/-- The deepest value of a form is an item or the value of a keyword. -/
theorem depthOfFields_eq_max (fields : List (Field Sexp)) :
    depthOfFields fields = max (Sexp.depthAll (fields.filterMap Field.item?))
      (depthOfFields (keywordFields fields)) := by
  induction fields with
  | nil => rfl
  | cons field rest ih =>
      cases field with
      | item value => exact (congrArg (max value.depth) ih).trans (Nat.max_assoc ..).symm
      | keyword name value => exact (congrArg (max value.depth) ih).trans (Nat.max_left_comm ..)
      | flag name | unfinished name => exact ih

theorem LikeFrom.depthAll_eq {like : Likeness} {head : String} {index : Nat}
    {values values' : List Sexp} (h : LikeFrom like head index values values')
    (hlike : ∀ slot value value', like slot value value' → value'.depth = value.depth) :
    Sexp.depthAll values' = Sexp.depthAll values := by
  induction h with
  | nil => rfl
  | cons hitem _ ih => exact congrArg₂ max (hlike _ _ _ hitem) ih

theorem depthOfFields_moved {like : Likeness} {fields moved : List (Field Sexp)}
    (h : List.Forall₂ (KeywordLike like) fields moved)
    (hlike : ∀ slot value value', like slot value value' → value'.depth = value.depth) :
    depthOfFields moved = depthOfFields fields := by
  induction h with
  | nil => rfl
  | cons hfield _ ih =>
      cases hfield with
      | keyword hvalue => exact congrArg₂ max (hlike _ _ _ hvalue) ih
      | flag | unfinished => exact ih

theorem RearrangedLike.depthOfFields_eq {like : Likeness} {head : String}
    {fields fields' : List (Field Sexp)} (h : RearrangedLike like head fields fields')
    (hlike : ∀ slot value value', like slot value value' → value'.depth = value.depth) :
    depthOfFields fields' = depthOfFields fields := by
  obtain ⟨moved, hkeywords, hmoved⟩ := h.keywords
  have hperm : depthOfFields (keywordFields fields') = depthOfFields moved :=
    depthAll_perm (hmoved.filterMap _)
  rw [depthOfFields_eq_max, depthOfFields_eq_max fields, h.items.depthAll_eq hlike, hperm,
    depthOfFields_moved hkeywords hlike]

theorem depthAll_moved {items items' : List Sexp} (h : ∀ item ∈ items, KeepsDepth .form item)
    (hitems : List.Forall₂ (KeywordsMoved .form) items items') :
    Sexp.depthAll items' = Sexp.depthAll items := by
  induction hitems with
  | nil => rfl
  | cons hitem _ ih =>
      obtain ⟨hfirst, hrest⟩ := List.forall_mem_cons.1 h
      exact congrArg₂ max (hfirst _ hitem) (ih hrest)

theorem keepsDepth_of_unlined_eq {value value' : Sexp} (h : value'.unlined = value.unlined) :
    value'.depth = value.depth := by
  rw [← value'.depth_unlined, h, value.depth_unlined]

/-- Moving keywords does not change how deep a document is. -/
theorem keepsDepth (slot : Slot) (value : Sexp) : KeepsDepth slot value := by
  induction slot, value using held_induction with
  | atom slot value hatom =>
      intro value' h
      rw [(keywordsMoved_atom hatom).1 h]
  | form slot form ih =>
      intro value' h
      by_cases hslot : slot = .literal
      · subst hslot
        exact keepsDepth_of_unlined_eq (keywordsMoved_literal.1 h)
      by_cases hhead : form.head = "macro"
      · exact keepsDepth_of_unlined_eq ((keywordsMoved_macroForm hhead).1 h)
      · obtain ⟨form', rfl, hhead', hfields⟩ := (keywordsMoved_form hslot hhead).1 h
        rw [depth_toSexp, depth_toSexp, ← depthOfFields_fieldsOf (flagsOf form.head) form'.items,
          (hfields.and ih).depthOfFields_eq fun _ _ value' hvalue => hvalue.2 value' hvalue.1,
          depthOfFields_fieldsOf]
  | list slot value hatom hform ih =>
      intro value' h
      by_cases hslot : slot = .literal
      · subst hslot
        exact keepsDepth_of_unlined_eq (keywordsMoved_literal.1 h)
      obtain ⟨_, hitems⟩ := (keywordsMoved_list hslot hatom hform).1 h
      rw [depth_of_not_isAtom hatom, depth_of_not_isAtom (h.isAtom_eq.trans hatom),
        depthAll_moved ih hitems]

/-! ## Documents that are read alike -/

theorem eq_of_forall₂_moved {items items' : List Sexp} (hatoms : ∀ item ∈ items, isAtom item)
    (h : List.Forall₂ (KeywordsMoved .form) items items') : items' = items := by
  induction h with
  | nil => rfl
  | cons hitem _ ih =>
      obtain ⟨hfirst, hrest⟩ := List.forall_mem_cons.1 hatoms
      exact congrArg₂ List.cons ((keywordsMoved_atom hfirst).1 hitem) (ih hrest)

/-- A span holds numbers only, so nothing in it can be moved. -/
theorem KeywordsMoved.spanOf {value value' : Sexp} (h : KeywordsMoved .form value value')
    (form form' : Form) (file : String) :
    Carries (form.spanOf file value) (form'.spanOf file value') Eq := by
  intro span hspan
  obtain ⟨line, items, rfl, hatoms, hform, hread⟩ := gives_spanOf_numbers form file value span hspan
  have hslot : Slot.form ≠ .literal := nofun
  obtain ⟨hfence, hitems⟩ := (keywordsMoved_list hslot rfl hform).1 h
  cases value' with
  | list line' items' =>
      obtain rfl : items' = items := eq_of_forall₂_moved hatoms hitems
      cases line' with
      | none => cases hfence
      | some line' => exact ⟨span, hread form' line', rfl⟩
  | _ => cases hfence

section Forms

variable {slot : Slot} {form form' : Form}

theorem KeywordsMoved.head_eq (h : KeywordsMoved slot form.toSexp form'.toSexp) :
    form'.head = form.head := by
  obtain ⟨form'', hform, hhead⟩ := h.toSexp
  rwa [Form.toSexp_inj hform]

/-- Forms whose keywords are moved have related parts. -/
theorem KeywordsMoved.carries_parts (h : KeywordsMoved slot form.toSexp form'.toSexp)
    (hslot : slot ≠ .literal) (hmacroHead : form.head ≠ "macro") (allowed : List String) :
    Carries (form.parts allowed (flagsOf form.head)) (form'.parts allowed (flagsOf form.head))
      (PartsLike KeywordsMoved form.head) := by
  obtain ⟨form'', hform, _, hfields⟩ := (keywordsMoved_form hslot hmacroHead).1 h
  obtain rfl := Form.toSexp_inj hform
  exact carries_parts_rearranged hfields allowed

/-- Wherever its keywords stand, the same path is read. -/
theorem KeywordsMoved.readPathForm (h : KeywordsMoved slot form.toSexp form'.toSexp)
    (hslot : slot ≠ .literal) (outer : Span) :
    Carries (readPathForm form outer) (readPathForm form' outer) Eq := by
  have hhead := h.head_eq
  have hcarries := h.carries_parts hslot
  obtain ⟨line, head, items⟩ := form
  obtain ⟨line', head', items'⟩ := form'
  obtain rfl : head' = head := hhead
  unfold Dump.readPathForm
  dsimp only at hcarries ⊢
  split
  · refine (hcarries nofun ["span", "res"]).bind fun parts parts' hparts => ?_
    refine hparts.one.bind fun value value' hvalue => ?_
    refine (Carries.text_eq hvalue.word_eq).step fun text => ?_
    refine (carries_resolution KeywordsMoved.word_eq hparts).step fun res => ?_
    exact (hparts.span KeywordsMoved.spanOf outer).step fun span => .ok rfl
  · refine (hcarries nofun ["span", "res"]).bind fun parts parts' hparts => ?_
    refine hparts.two.bind fun (first, second) (first', second') ⟨hfirst, hsecond⟩ => ?_
    refine (Carries.text_eq hfirst.word_eq).step fun base => ?_
    refine (Carries.text_eq hsecond.word_eq).step fun member => ?_
    split
    · exact (hparts.span KeywordsMoved.spanOf outer).step fun span => .ok rfl
    · refine (carries_resolution KeywordsMoved.word_eq hparts).step fun res => ?_
      exact (hparts.span KeywordsMoved.spanOf outer).step fun span => .ok rfl
  · refine (hcarries nofun ["span"]).bind fun parts parts' hparts => ?_
    refine hparts.one.bind fun value value' hvalue => ?_
    refine (Carries.text_eq hvalue.word_eq).step fun tag => ?_
    exact (hparts.span KeywordsMoved.spanOf outer).step fun span => .ok rfl
  · exact .fault

theorem formsAlike_of_keywordsMoved (h : KeywordsMoved slot form.toSexp form'.toSexp)
    (hslot : slot ≠ .literal) : FormsAlike id KeywordsMoved form form' where
  head_eq := h.head_eq
  parts hhead allowed := by
    refine h.carries_parts hslot (fun hmacroHead => ?_) allowed
    rw [hmacroHead] at hhead
    cases hhead
  path _ outer := (h.readPathForm hslot outer).mono fun answer answer' heq => by
    rw [heq]
    exact ⟨rfl, rfl⟩
  macroCall hhead := by
    obtain ⟨form'', hform, _, hitems⟩ := toSexp_of_unlined_eq ((keywordsMoved_macroForm hhead).1 h)
    obtain rfl := Form.toSexp_inj hform
    exact carries_readMacro hitems

end Forms

/-- Documents with keywords at other places are read alike. -/
theorem readAlike_keywordsMoved : ReadAlike id KeywordsMoved where
  bare {value value'} h := by
    rw [h.word_eq]
    cases value.word? with
    | none => exact .none
    | some text => exact .some rfl
  word h hword := h.word_eq.trans hword
  span h := h.spanOf
  form hslot h := by
    obtain ⟨form', rfl, _⟩ := h.toSexp
    exact ⟨form', rfl, formsAlike_of_keywordsMoved h (Slot.ne_literal hslot)⟩
  literal h := by
    rw [← Sexp.plainText_unlined, keywordsMoved_literal.1 h, Sexp.plainText_unlined]
  length h := h.arrayLength_eq

/-! ## Crates -/

theorem itemAlike_of_keywordsMoved {item item' : Sexp} (h : KeywordsMoved .form item item') :
    ItemAlike id KeywordsMoved item item' where
  word _ hword := h.word_eq.trans hword
  form form hform := by
    subst hform
    obtain ⟨form', rfl, hhead⟩ := h.toSexp
    refine ⟨form', rfl, hhead, fun _ => formsAlike_of_keywordsMoved h nofun, fun hsuppress => ?_⟩
    have hcarries := h.carries_parts nofun
    rw [hsuppress] at hcarries
    refine carries_readMark KeywordsMoved.word_eq (fun hvalue hnumber => ?_) (hcarries nofun)
    subst hnumber
    exact (keywordsMoved_atom rfl).1 hvalue

/-- Where keywords are moved the same crate is read. -/
theorem carries_readCrate_moved {values values' : List Sexp}
    (h : List.Forall₂ (KeywordsMoved .form) values values') :
    Carries (readCrate values) (readCrate values') Eq := by
  intro crate hcrate
  obtain ⟨form, parts, rfl, hhead, hparts⟩ := gives_readCrate values crate hcrate
  obtain _ | ⟨hmoved, _ | _⟩ := h
  obtain ⟨form', rfl, hhead'⟩ := hmoved.toSexp
  have hcarries := hmoved.carries_parts nofun
  rw [hhead] at hcarries
  have hpositional : Carries (form.parts [] []) (form'.parts [] []) fun parts parts' =>
      List.Forall₂ (ItemAlike id KeywordsMoved) parts.positional parts'.positional :=
    (hcarries nofun []).mono fun parts parts' hparts =>
      (hparts.positional.forall₂ fun _ => rfl).imp fun _ _ => itemAlike_of_keywordsMoved
  have hdepth := keepsDepth .form form.toSexp form'.toSexp hmoved
  obtain ⟨crate', hcrate', hsame⟩ :=
    alike_readCrate readAlike_keywordsMoved hhead' hdepth hpositional crate hcrate
  rw [Crate.mapReferences_id, Crate.mapReferences_id] at hsame
  exact ⟨crate', hcrate', hsame.symm⟩

end Dump

open Dump

/-- Where keywords are moved within their forms, outside literals and the tokens of macros, a dump
writes a crate if and only if it wrote the same before. -/
theorem Crate.ofDump_of_moved_keywords {text text' name : String} {values values' : List Sexp}
    (hvalues : readValues text = .ok values) (hvalues' : readValues text' = .ok values')
    (hmoved : List.Forall₂ (KeywordsMoved .form) values values') (crate : Crate) :
    Crate.ofDump text name = .ok crate ↔ Crate.ofDump text' name = .ok crate := by
  have hback : List.Forall₂ (KeywordsMoved .form) values' values :=
    List.Forall₂.flip (hmoved.imp fun value value' => movesBack .form value value')
  have hcarries {text text' : String} {values values' : List Sexp}
      (hvalues : readValues text = .ok values) (hvalues' : readValues text' = .ok values')
      (hmoved : List.Forall₂ (KeywordsMoved .form) values values')
      (hcrate : Crate.ofDump text name = .ok crate) : Crate.ofDump text' name = .ok crate := by
    obtain ⟨_, hread, hcrate⟩ := Crate.ofDump_eq_ok_iff.1 hcrate
    obtain rfl := Except.ok.inj (hvalues.symm.trans hread)
    obtain ⟨_, hcrate', rfl⟩ := carries_readCrate_moved hmoved crate hcrate
    exact Crate.ofDump_eq_ok_iff.2 ⟨values', hvalues', hcrate'⟩
  exact ⟨hcarries hvalues hvalues' hmoved, hcarries hvalues' hvalues hback⟩

/-- The keywords of an implementation block and of a path in it are moved behind the items. -/
theorem Crate.ofDump_of_moved_keywords_behind :
    let document (before path behind : List Sexp) : Form :=
      ⟨1, "crate", [.text "a.rs", Form.toSexp ⟨1, "impl", before ++ Form.toSexp ⟨1, "type",
        [.symbol "Item", Form.toSexp ⟨1, "path", path⟩]⟩ :: behind⟩]⟩
    let keywords : List Sexp :=
      [.symbol ":trait", .symbol "T", .symbol ":span", .list (some 1) [.int 3, .int 1]]
    let values := [(document keywords [.symbol ":res", .symbol "type", .text "A"] []).toSexp]
    let values' := [(document [] [.text "A", .symbol ":res", .symbol "type"] keywords).toSexp]
    let text := "(crate \"a.rs\" (impl :trait T :span (3 1) (type Item (path :res type \"A\"))))"
    let text' := "(crate \"a.rs\" (impl (type Item (path \"A\" :res type)) :trait T :span (3 1)))"
    readValues text = .ok values ∧ readValues text' = .ok values' ∧
      List.Forall₂ (KeywordsMoved .form) values values' ∧
      ∃ crate, Crate.ofDump text "dump" = .ok crate ∧ Crate.ofDump text' "dump" = .ok crate := by
  intro document keywords values values' text text'
  have hvalues : readValues text = .ok values := eq_ok_of_toOption (by decide +kernel)
  have hvalues' : readValues text' = .ok values' := eq_ok_of_toOption (by decide +kernel)
  -- The keywords of the path are moved, then those of the block; around them nothing is.
  have hpath : KeywordsMoved .path
      (Form.toSexp ⟨1, "path", [.symbol ":res", .symbol "type", .text "A"]⟩)
      (Form.toSexp ⟨1, "path", [.text "A", .symbol ":res", .symbol "type"]⟩) :=
    keywordsMoved_of_perm (by decide) rfl (by decide) rfl (.of_eq rfl)
  have htype : KeywordsMoved .form
      (Form.toSexp ⟨1, "type", [.symbol "Item",
        Form.toSexp ⟨1, "path", [.symbol ":res", .symbol "type", .text "A"]⟩]⟩)
      (Form.toSexp ⟨1, "type", [.symbol "Item",
        Form.toSexp ⟨1, "path", [.text "A", .symbol ":res", .symbol "type"]⟩]⟩) :=
    (keywordsMoved_form (by decide) (by decide)).2
      ⟨_, rfl, rfl, .cons (keywordsMoved_refl ..) (.cons hpath .nil), [], .nil, .nil⟩
  have hmoved : List.Forall₂ (KeywordsMoved .form) values values' := by
    refine .cons ((keywordsMoved_form (by decide) (by decide)).2 ⟨_, rfl, rfl,
      .cons (keywordsMoved_refl ..) (.cons ?_ .nil), [], .nil, .nil⟩) .nil
    refine (keywordsMoved_form (by decide) (by decide)).2 ⟨_, rfl, rfl, .cons htype .nil,
      keywordFields (fieldsOf [] keywords), ?_, .of_eq rfl⟩
    exact .cons (.keyword (keywordsMoved_refl ..)) (.cons (.keyword (keywordsMoved_refl ..)) .nil)
  have hread : (Crate.ofDump text "dump").toOption.isSome := by decide +kernel
  obtain ⟨loaded, hloaded⟩ := isSome_toOption.1 hread
  exact ⟨hvalues, hvalues', hmoved, loaded, hloaded,
    (Crate.ofDump_of_moved_keywords hvalues hvalues' hmoved loaded).1 hloaded⟩

/-- The literals that constants of a crate have for their values. -/
def Crate.literals (crate : Crate) : List String :=
  crate.impls.flatMap fun block => block.items.filterMap fun item =>
    match item with
    | .assocConst ⟨_, _, some (.lit text _), _⟩ => some text
    | _ => none

/-- In a literal it matters where keywords stand. -/
theorem Crate.ofDump_of_moved_keywords_in_literal :
    let document (literal : Form) : List Sexp :=
      [.list (some 1) [.symbol "crate", .text "a.rs", .list (some 1) [.symbol "impl",
        .list (some 1) [.symbol "const", .symbol "N", .list (some 1) [.symbol "path", .text "A"],
          .list (some 1) [.symbol "lit", literal.toSexp]]]]]
    let literal : Form := ⟨1, "x", [.symbol ":a", .symbol "b", .symbol "c"]⟩
    let literal' : Form := ⟨1, "x", [.symbol "c", .symbol ":a", .symbol "b"]⟩
    let text := "(crate \"a.rs\" (impl (const N (path \"A\") (lit (x :a b c)))))"
    let text' := "(crate \"a.rs\" (impl (const N (path \"A\") (lit (x c :a b)))))"
    readValues text = .ok (document literal) ∧ readValues text' = .ok (document literal') ∧
      KeywordsMoved .form literal.toSexp literal'.toSexp ∧
      ∃ crate crate', Crate.ofDump text "dump" = .ok crate ∧
        Crate.ofDump text' "dump" = .ok crate' ∧ crate ≠ crate' := by
  intro document literal literal' text text'
  have hvalues : readValues text = .ok (document literal) := eq_ok_of_toOption (by decide +kernel)
  have hvalues' : readValues text' = .ok (document literal') :=
    eq_ok_of_toOption (by decide +kernel)
  have hmoved : KeywordsMoved .form literal.toSexp literal'.toSexp :=
    keywordsMoved_of_perm (by decide) rfl (by decide) rfl (.of_eq rfl)
  have hliterals : (Crate.ofDump text "dump").toOption.map Crate.literals =
      some ["[Symbol('x'), Symbol(':a'), Symbol('b'), Symbol('c')]"] := by decide +kernel
  have hliterals' : (Crate.ofDump text' "dump").toOption.map Crate.literals =
      some ["[Symbol('x'), Symbol('c'), Symbol(':a'), Symbol('b')]"] := by decide +kernel
  obtain ⟨crate, hcrate, hshown⟩ := Option.map_eq_some_iff.1 hliterals
  obtain ⟨crate', hcrate', hshown'⟩ := Option.map_eq_some_iff.1 hliterals'
  refine ⟨hvalues, hvalues', hmoved, crate, crate', eq_ok_of_toOption hcrate,
    eq_ok_of_toOption hcrate', fun heq => ?_⟩
  rw [heq, hshown'] at hshown
  exact absurd hshown (by decide)

end AssocLint
