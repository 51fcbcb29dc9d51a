import AssocLint.Proofs.Dump.Carries
import AssocLint.Proofs.Dump.Places

/-!
# Documents that are read alike

Two documents are read alike where they agree in what the readers ask of a value: whether it is a
word and which one, which form it is, which parts the form has, and which span is written
(`ReadAlike`). How the documents are related is left open; the relation may depend on the slot of a
value. References need to agree only as far as a function tells them apart.
-/

namespace AssocLint
namespace Dump

/-- How a document and another one are related, value by value. -/
abbrev Likeness : Type :=
  Slot → Sexp → Sexp → Prop

/-- Items that are related one by one, given how many come before them in their form. -/
inductive LikeFrom (like : Likeness) (head : String) : Nat → List Sexp → List Sexp → Prop
  | nil {index : Nat} : LikeFrom like head index [] []
  | cons {index : Nat} {item item' : Sexp} {rest rest' : List Sexp}
      (hitem : like (slotAt head index) item item')
      (hrest : LikeFrom like head (index + 1) rest rest') :
      LikeFrom like head index (item :: rest) (item' :: rest')

/-- The parts of two forms are related. -/
structure PartsLike (like : Likeness) (head : String) (parts parts' : Form.Parts) : Prop where
  positional : LikeFrom like head 0 parts.positional parts'.positional
  value? : ∀ name, Option.Rel (like (slotOf name)) (parts.value? name) (parts'.value? name)
  has : ∀ name, parts'.has name = parts.has name

/-- The length of an array as it is shown. -/
def arrayLength : Sexp → String
  | .symbol text | .text text => text
  | .int number => toString number
  | _ => "_"

variable {f : Reference → Reference} {like : Likeness}

/-- Two forms are read alike. -/
structure FormsAlike (f : Reference → Reference) (like : Likeness) (form form' : Form) : Prop where
  head_eq : form'.head = form.head
  parts : isTakenApart form.head → ∀ allowed,
    Carries (form.parts allowed (flagsOf form.head)) (form'.parts allowed (flagsOf form.head))
      (PartsLike like form.head)
  path : pathHeads.contains form.head → ∀ outer,
    Carries (readPathForm form outer) (readPathForm form' outer) fun answer answer' =>
      f answer'.1 = f answer.1 ∧ answer'.2 = answer.2
  macroCall : form.head = "macro" → ∀ outer,
    Carries (readMacro form outer) (readMacro form' outer) Eq

/-- Related documents are read alike. -/
structure ReadAlike (f : Reference → Reference) (like : Likeness) : Prop where
  /-- Where bare text is a path. -/
  bare : ∀ {value value'}, like .path value value' →
    Option.Rel (fun text text' => f (pathText text' none) = f (pathText text none))
      value.word? value'.word?
  word : ∀ {value value' text}, like .form value value' → value.word? = some text →
    value'.word? = some text
  span : ∀ {value value'}, like .form value value' → ∀ (form form' : Form) file,
    Carries (form.spanOf file value) (form'.spanOf file value') Eq
  form : ∀ {slot} {form : Form} {value'}, slot.isRead → like slot form.toSexp value' →
    ∃ form' : Form, value' = form'.toSexp ∧ FormsAlike f like form form'
  literal : ∀ {value value'}, like .literal value value' → value'.plainText = value.plainText
  length : ∀ {value value'}, like .length value value' → arrayLength value' = arrayLength value

/-! ## Items -/

theorem LikeFrom.forall₂ {head : String} {index : Nat} {slot : Slot} {values values' : List Sexp}
    (h : LikeFrom like head index values values')
    (hslot : ∀ more, slotAt head (more + index) = slot) :
    List.Forall₂ (like slot) values values' := by
  induction h with
  | nil =>
      exact .nil
  | cons hitem _ ih =>
      rename_i index _ _ _ _ _
      obtain ⟨hfirst, hrest⟩ := at_and_behind (P := fun index => slotAt head index = slot) hslot
      exact .cons (hfirst ▸ hitem) (ih hrest)

theorem LikeFrom.toList {head : String} {index : Nat} {item : Option Sexp} {values' : List Sexp}
    (h : LikeFrom like head index item.toList values') :
    ∃ item' : Option Sexp, values' = item'.toList ∧
      Option.Rel (like (slotAt head index)) item item' := by
  cases item with
  | none =>
      cases h
      exact ⟨none, rfl, .none⟩
  | some item =>
      cases h with
      | cons hitem hrest =>
          cases hrest
          exact ⟨some _, rfl, .some hitem⟩

namespace PartsLike

variable {head : String} {parts parts' : Form.Parts} (h : PartsLike like head parts parts')
include h

/-- What follows from the items of the one form about those of the other. -/
theorem items {values : List Sexp} (hvalues : parts.positional = values) :
    ∃ values', parts'.positional = values' ∧ LikeFrom like head 0 values values' :=
  ⟨_, rfl, hvalues ▸ h.positional⟩

theorem atMostOne (allowed : Bool) : Carries (parts.atMostOne allowed) (parts'.atMostOne allowed)
    (Option.Rel (like (slotAt head 0))) := by
  intro item htaken
  obtain ⟨hitems, hallowed⟩ := parts.atMostOne_eq_ok_iff.1 htaken
  obtain ⟨values', hitems', hlike⟩ := h.items hitems
  obtain ⟨item', rfl, hitem⟩ := hlike.toList
  refine ⟨item', parts'.atMostOne_eq_ok_iff.2 ⟨hitems', ?_⟩, hitem⟩
  cases hitem with
  | none => nofun
  | some _ => exact hallowed

theorem one : Carries parts.one parts'.one (like (slotAt head 0)) := by
  intro item hitems
  obtain ⟨values', hitems', hlike⟩ := h.items (parts.one_eq_ok_iff.1 hitems)
  obtain _ | ⟨hitem, _ | _⟩ := hlike
  exact ⟨_, parts'.one_eq_ok_iff.2 hitems', hitem⟩

theorem oneOrTwo : Carries parts.oneOrTwo parts'.oneOrTwo fun items items' =>
    like (slotAt head 0) items.1 items'.1 ∧
      Option.Rel (like (slotAt head 1)) items.2 items'.2 := by
  intro items hitems
  obtain ⟨values', hitems', hlike⟩ := h.items (parts.oneOrTwo_eq_ok_iff.1 hitems)
  obtain _ | ⟨hfirst, hrest⟩ := hlike
  obtain ⟨item', rfl, hsecond⟩ := hrest.toList
  exact ⟨(_, item'), parts'.oneOrTwo_eq_ok_iff.2 hitems', hfirst, hsecond⟩

theorem two : Carries parts.two parts'.two fun items items' =>
    like (slotAt head 0) items.1 items'.1 ∧ like (slotAt head 1) items.2 items'.2 := by
  intro items hitems
  obtain ⟨values', hitems', hlike⟩ := h.items (parts.two_eq_ok_iff.1 hitems)
  obtain _ | ⟨hfirst, _ | ⟨hsecond, _ | _⟩⟩ := hlike
  exact ⟨(_, _), parts'.two_eq_ok_iff.2 hitems', hfirst, hsecond⟩

theorem twoOrThree : Carries parts.twoOrThree parts'.twoOrThree fun items items' =>
    like (slotAt head 0) items.1 items'.1 ∧ like (slotAt head 1) items.2.1 items'.2.1 ∧
      Option.Rel (like (slotAt head 2)) items.2.2 items'.2.2 := by
  intro items hitems
  obtain ⟨values', hitems', hlike⟩ := h.items (parts.twoOrThree_eq_ok_iff.1 hitems)
  obtain _ | ⟨hfirst, _ | ⟨hsecond, hrest⟩⟩ := hlike
  obtain ⟨item', rfl, hthird⟩ := hrest.toList
  exact ⟨(_, _, item'), parts'.twoOrThree_eq_ok_iff.2 hitems', hfirst, hsecond, hthird⟩

theorem three : Carries parts.three parts'.three fun items items' =>
    like (slotAt head 0) items.1 items'.1 ∧ like (slotAt head 1) items.2.1 items'.2.1 ∧
      like (slotAt head 2) items.2.2 items'.2.2 := by
  intro items hitems
  obtain ⟨values', hitems', hlike⟩ := h.items (parts.three_eq_ok_iff.1 hitems)
  obtain _ | ⟨hfirst, _ | ⟨hsecond, _ | ⟨hthird, _ | _⟩⟩⟩ := hlike
  exact ⟨(_, _, _), parts'.three_eq_ok_iff.2 hitems', hfirst, hsecond, hthird⟩

theorem oneAndRest : Carries parts.oneAndRest parts'.oneAndRest fun items items' =>
    like (slotAt head 0) items.1 items'.1 ∧ LikeFrom like head 1 items.2 items'.2 := by
  intro items hitems
  obtain ⟨values', hitems', hlike⟩ := h.items (parts.oneAndRest_eq_ok_iff.1 hitems)
  obtain _ | ⟨hfirst, hrest⟩ := hlike
  exact ⟨(_, _), parts'.oneAndRest_eq_ok_iff.2 hitems', hfirst, hrest⟩

theorem twoAndRest : Carries parts.twoAndRest parts'.twoAndRest fun items items' =>
    like (slotAt head 0) items.1 items'.1 ∧ like (slotAt head 1) items.2.1 items'.2.1 ∧
      LikeFrom like head 2 items.2.2 items'.2.2 := by
  intro items hitems
  obtain ⟨values', hitems', hlike⟩ := h.items (parts.twoAndRest_eq_ok_iff.1 hitems)
  obtain _ | ⟨hfirst, _ | ⟨hsecond, hrest⟩⟩ := hlike
  exact ⟨(_, _, _), parts'.twoAndRest_eq_ok_iff.2 hitems', hfirst, hsecond, hrest⟩

/-- Spans are carried over where values are that write one. -/
theorem span (hspan : ∀ {value value'}, like .form value value' → ∀ (form form' : Form) file,
      Carries (form.spanOf file value) (form'.spanOf file value') Eq) (outer : Span) :
    Carries (parts.span outer) (parts'.span outer) Eq := by
  have hvalue := h.value? "span"
  unfold Form.Parts.span
  generalize parts.value? "span" = value at hvalue
  generalize parts'.value? "span" = value' at hvalue
  cases hvalue with
  | none => exact .ok rfl
  | some hvalue => exact hspan hvalue _ _ outer.file

end PartsLike

/-! ## Words, spans and forms -/

namespace ReadAlike

variable (h : ReadAlike f like)
include h

theorem text {value value' : Sexp} (hvalue : like .form value value') (form form' : Form) :
    Carries (form.text value) (form'.text value') Eq := by
  intro text htext
  have hword := h.word hvalue (Gives.text text htext)
  exact ⟨text, Form.text_eq_ok_iff.2 hword, rfl⟩

theorem spanOf {head : String} {parts parts' : Form.Parts}
    (hparts : PartsLike like head parts parts') (outer : Span) :
    Carries (parts.span outer) (parts'.span outer) Eq :=
  hparts.span h.span outer

/-- The forms that two values are. -/
theorem ofSexp {β : Type} {slot : Slot} (hslot : slot.isRead) {value value' : Sexp}
    (hvalue : like slot value value') {next next' : Form → DumpResult β} {R : β → β → Prop}
    (hnext : ∀ form form' : Form, value = form.toSexp → value' = form'.toSexp →
      FormsAlike f like form form' → Carries (next form) (next' form') R) :
    Carries (Form.ofSexp value >>= next) (Form.ofSexp value' >>= next') R := by
  cases hform : Form.ofSexp value with
  | error fault =>
      intro result hresult
      cases hresult
  | ok form =>
      obtain rfl := Form.ofSexp_eq_ok_iff.1 hform
      obtain ⟨form', rfl, halike⟩ := h.form hslot hvalue
      exact hnext form form' rfl rfl halike

end ReadAlike

/-! ## Fields -/

/-- Fields that are related one by one, given how many items come before them in their form. -/
inductive FieldsLike (like : Likeness) (head : String) :
    Nat → List (Field Sexp) → List (Field Sexp) → Prop
  | nil {index : Nat} : FieldsLike like head index [] []
  | item {index : Nat} {value value' : Sexp} {rest rest' : List (Field Sexp)}
      (hvalue : like (slotAt head index) value value')
      (hrest : FieldsLike like head (index + 1) rest rest') :
      FieldsLike like head index (.item value :: rest) (.item value' :: rest')
  | keyword {index : Nat} {name : String} {value value' : Sexp} {rest rest' : List (Field Sexp)}
      (hvalue : like (slotOf name) value value') (hrest : FieldsLike like head index rest rest') :
      FieldsLike like head index (.keyword name value :: rest) (.keyword name value' :: rest')
  | flag {index : Nat} {name : String} {rest rest' : List (Field Sexp)}
      (hrest : FieldsLike like head index rest rest') :
      FieldsLike like head index (.flag name :: rest) (.flag name :: rest')
  | unfinished {index : Nat} {name : String} {rest rest' : List (Field Sexp)}
      (hrest : FieldsLike like head index rest rest') :
      FieldsLike like head index (.unfinished name :: rest) (.unfinished name :: rest')

/-- A property of what the first form holds may be added to the relation. -/
theorem FieldsLike.and {P : Slot → Sexp → Prop} {head : String} {index : Nat}
    {fields fields' : List (Field Sexp)} (h : FieldsLike like head index fields fields')
    (hfields : AllFields P head index fields) :
    FieldsLike (fun slot value value' => like slot value value' ∧ P slot value) head index fields
      fields' := by
  induction h with
  | nil => exact .nil
  | item hvalue _ ih => exact .item ⟨hvalue, hfields.1⟩ (ih hfields.2)
  | keyword hvalue _ ih => exact .keyword ⟨hvalue, hfields.1⟩ (ih hfields.2)
  | flag _ ih => exact .flag (ih hfields)
  | unfinished _ ih => exact .unfinished (ih hfields)

/-- The keywords met so far are the same, with related values. -/
structure KeywordsLike (like : Likeness) (keywords keywords' : List (String × Option Sexp)) :
    Prop where
  value? : ∀ name, Option.Rel (like (slotOf name)) (keywords.lookup name).join
    (keywords'.lookup name).join
  has : ∀ name, (keywords'.lookup name).isSome = (keywords.lookup name).isSome

theorem KeywordsLike.cons {keywords keywords' : List (String × Option Sexp)}
    (h : KeywordsLike like keywords keywords') {name : String} {value value' : Option Sexp}
    (hvalue : Option.Rel (like (slotOf name)) value value') :
    KeywordsLike like ((name, value) :: keywords) ((name, value') :: keywords') := by
  constructor
  · intro other
    by_cases hother : name = other
    · subst hother
      rwa [List.lookup_cons_self, List.lookup_cons_self]
    · rw [lookup_cons_ne hother, lookup_cons_ne hother]
      exact h.value? other
  · intro other
    by_cases hother : name = other
    · subst hother
      rw [List.lookup_cons_self, List.lookup_cons_self]
      rfl
    · rw [lookup_cons_ne hother, lookup_cons_ne hother]
      exact h.has other

theorem carries_ofFields {head : String} {form form' : Form} {allowed flags : List String}
    {index : Nat} {fields fields' : List (Field Sexp)}
    (hfields : FieldsLike like head index fields fields')
    {keywords keywords' : List (String × Option Sexp)}
    (hkeywords : KeywordsLike like keywords keywords') :
    Carries (ofFields form allowed flags keywords fields)
      (ofFields form' allowed flags keywords' fields') fun parts parts' =>
        LikeFrom like head index parts.positional parts'.positional ∧
          KeywordsLike like parts.keywords parts'.keywords := by
  induction hfields generalizing keywords keywords' with
  | nil =>
      exact .ok ⟨.nil, hkeywords⟩
  | item hvalue _ ih =>
      exact (ih hkeywords).bind fun parts parts' hparts => .ok ⟨.cons hvalue hparts.1, hparts.2⟩
  | @keyword _ name _ _ _ _ hvalue _ ih =>
      simp only [ofFields, hkeywords.has name]
      split
      · exact .fault
      · split
        · exact .fault
        · exact ih (hkeywords.cons (.some hvalue))
  | @flag _ name _ _ _ ih =>
      simp only [ofFields, hkeywords.has name]
      split
      · exact .fault
      · exact ih (hkeywords.cons .none)
  | @unfinished _ name _ _ _ ih =>
      rw [ofFields]
      split
      · exact .fault
      · split <;> exact .fault

/-- Forms with related fields have related parts. -/
theorem carries_parts {form form' : Form} {flags : List String}
    (hfields : FieldsLike like form.head 0 (fieldsOf flags form.items) (fieldsOf flags form'.items))
    (allowed : List String) :
    Carries (form.parts allowed flags) (form'.parts allowed flags)
      (PartsLike like form.head) := by
  rw [Form.parts, Form.parts, split_eq_ofFields, split_eq_ofFields]
  refine (carries_ofFields hfields ⟨fun _ => .none, fun _ => rfl⟩).mono
    fun parts parts' hparts => ?_
  exact ⟨hparts.1, hparts.2.value?, hparts.2.has⟩

end Dump
end AssocLint
