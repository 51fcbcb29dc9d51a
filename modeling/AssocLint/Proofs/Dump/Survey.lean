import AssocLint.Proofs.Dump.Fields

/-!
# Surveys of a document

What stands in a form is read in one of few ways, which the head of the form and the place in it
tell: its `Slot`. A survey makes something of every value of a document, from the inside out, and
is told the slot of each (`survey`). The readers go through a document in the same way, so what a
survey makes of a form is known from the parts of the form (`surveyFields_eq`).
-/

namespace AssocLint
namespace Dump

/-! ## The places in a form -/

/-- How a value in a form is read. -/
inductive Slot
  /-- As a path, which may be bare text, or as a type. -/
  | path
  /-- As a form, a name or a span. -/
  | form
  /-- As the length of an array, which is no more than shown. -/
  | length
  /-- As a literal, which is shown and may be anything. -/
  | literal
  /-- Not at all, in a form that needs no items. -/
  | surplus
  deriving DecidableEq, Repr

/-- The flags of the forms with a given head. -/
def flagsOf : String → List String
  | "ref" | "ref-pat" => ["mut"]
  | "binding" => ["ref", "mut"]
  | "struct-pat" => ["rest"]
  | _ => []

/-- The slot of an item, counted without keywords. -/
def slotAt (head : String) (index : Nat) : Slot :=
  match head, index with
  | "path", 0 | "relative", 0 | "relative", 1 => .path
  | "ref", 0 | "tuple", _ | "slice", 0 | "array", 0 => .path
  | "path-pat", 0 | "tuple-struct", 0 | "struct-pat", 0 | "struct-expr", 0 => .path
  | "cast", 1 | "cparam", 1 | "param", 1 | "type", 1 | "const", 1 => .path
  | "array", 1 => .length
  | "lit", _ | "lit-pat", _ => .literal
  | "infer", _ | "never", _ | "wild", _ => .surplus
  | _, _ => .form

/-- What holds of all items from some place on holds of the item there, and of those behind it. -/
theorem at_and_behind {P : Nat → Prop} {index : Nat} (h : ∀ more, P (more + index)) :
    P index ∧ ∀ more, P (more + (index + 1)) := by
  refine ⟨?_, fun more => ?_⟩
  · simpa using h 0
  · have hnext := h (more + 1)
    rwa [Nat.add_right_comm] at hnext

/-- The slot of the value of a keyword. -/
def slotOf (name : String) : Slot :=
  if ["trait", "self-ty", "ty", "ret"].contains name then .path else .form

/-- Whether what stands in a slot is read. -/
def Slot.isRead : Slot → Bool
  | .path | .form => true
  | .length | .literal | .surplus => false

theorem Slot.ne_literal {slot : Slot} (h : slot.isRead) : slot ≠ .literal := by
  rintro rfl
  cases h

/-! ## Surveys -/

/-- What has been made of the values inside a value. -/
inductive Inside (β : Type) where
  | nothing
  /-- Of the fields of a form. -/
  | fields (form : Form) (fields : List (Field β))
  /-- Of the items of any other list, or of the value behind a quote. -/
  | items (items : List β)

section Survey

variable {β : Type} (combine : Slot → Sexp → Inside β → β)

mutual

/-- What is made of a value. -/
def survey (slot : Slot) : Sexp → β
  | .list (some line) (.symbol head :: items) =>
    combine slot (.list (some line) (.symbol head :: items))
      (.fields ⟨line, head, items⟩ (surveyFields head 0 items))
  | .list line items => combine slot (.list line items) (.items (surveyAll items))
  | .brackets items => combine slot (.brackets items) (.items (surveyAll items))
  | .quoted value => combine slot (.quoted value) (.items [survey .form value])
  | value => combine slot value .nothing
termination_by structural value => value

/-- What is made of the fields of a form, given how many items without keyword come before. -/
def surveyFields (head : String) (index : Nat) : List Sexp → List (Field β)
  | [] => []
  | [item] =>
    match Form.keywordName? item with
    | none => [.item (survey (slotAt head index) item)]
    | some name => if (flagsOf head).contains name then [.flag name] else [.unfinished name]
  | item :: value :: rest =>
    match Form.keywordName? item with
    | none =>
      .item (survey (slotAt head index) item) :: surveyFields head (index + 1) (value :: rest)
    | some name =>
      if (flagsOf head).contains name then .flag name :: surveyFields head index (value :: rest)
      else .keyword name (survey (slotOf name) value) :: surveyFields head index rest
termination_by structural items => items

/-- What is made of several values that are no fields. -/
def surveyAll : List Sexp → List β
  | [] => []
  | value :: rest => survey .form value :: surveyAll rest
termination_by structural values => values

end

/-- What is made of fields that have been cut. -/
def surveyEach (head : String) : Nat → List (Field Sexp) → List (Field β)
  | _, [] => []
  | index, .item value :: rest =>
    .item (survey combine (slotAt head index) value) :: surveyEach head (index + 1) rest
  | index, .keyword name value :: rest =>
    .keyword name (survey combine (slotOf name) value) :: surveyEach head index rest
  | index, .flag name :: rest => .flag name :: surveyEach head index rest
  | index, .unfinished name :: rest => .unfinished name :: surveyEach head index rest

theorem surveyAll_eq (values : List Sexp) :
    surveyAll combine values = values.map (survey combine .form) := by
  induction values with
  | nil => rfl
  | cons value rest ih => rw [surveyAll, ih, List.map_cons]

theorem surveyFields_eq (head : String) (index : Nat) (items : List Sexp) :
    surveyFields combine head index items =
      surveyEach combine head index (fieldsOf (flagsOf head) items) := by
  fun_induction fieldsOf (flagsOf head) items generalizing index with
  | case1 =>
      rw [surveyFields, surveyEach]
  | case2 item hname =>
      simp only [surveyFields, hname, surveyEach]
  | case3 item name hname hflag =>
      simp only [surveyFields, hname, hflag, if_true, surveyEach]
  | case4 item name hname hflag =>
      simp only [surveyFields, hname, hflag, surveyEach]
      rfl
  | case5 item value rest hname ih =>
      simp only [surveyFields, hname, ih, surveyEach]
  | case6 item value rest name hname hflag ih =>
      simp only [surveyFields, hname, hflag, if_true, ih, surveyEach]
  | case7 item value rest name hname hflag ih =>
      simp only [surveyFields, hname, hflag, ih, surveyEach]
      rfl

/-- What is made of the value of a keyword. -/
theorem value_surveyEach (head : String) (index : Nat) (fields : List (Field Sexp))
    (name : String) :
    (surveyEach combine head index fields).filterMap (Field.value? name) =
      (fields.filterMap (Field.value? name)).map (survey combine (slotOf name)) := by
  induction fields generalizing index with
  | nil =>
      rfl
  | cons field fields ih =>
      cases field with
      | item value => exact ih (index + 1)
      | keyword name' value =>
          by_cases h : name' = name
          · subst h
            simp only [surveyEach, Field.value?, List.filterMap_cons, if_true, List.map_cons, ih]
          · simp only [surveyEach, Field.value?, List.filterMap_cons, if_neg h, ih]
      | _ => exact ih index

/-- What is made of a form. -/
theorem survey_toSexp (slot : Slot) (form : Form) :
    survey combine slot form.toSexp = combine slot form.toSexp (.fields form
      (surveyEach combine form.head 0 (fieldsOf (flagsOf form.head) form.items))) := by
  rw [← surveyFields_eq]
  exact survey.eq_1 ..

end Survey

/-! ## Induction -/

/-- A property of all values that the fields of a form hold, each in its slot. -/
def AllFields (P : Slot → Sexp → Prop) (head : String) : Nat → List (Field Sexp) → Prop
  | _, [] => True
  | index, .item value :: rest => P (slotAt head index) value ∧ AllFields P head (index + 1) rest
  | index, .keyword name value :: rest => P (slotOf name) value ∧ AllFields P head index rest
  | index, .flag _ :: rest | index, .unfinished _ :: rest => AllFields P head index rest

/-- What a survey makes of the fields of a form has a property, where it has the property of every
value that the fields hold. -/
theorem forall_mem_surveyEach {β : Type} {combine : Slot → Sexp → Inside β → β}
    {P : Slot → Sexp → Prop} {Q : β → Prop} {head : String} {index : Nat}
    {fields : List (Field Sexp)} (h : AllFields P head index fields)
    (hsurvey : ∀ slot value, P slot value → Q (survey combine slot value)) :
    (∀ made ∈ (surveyEach combine head index fields).filterMap Field.item?, Q made) ∧
      ∀ name, ∀ made ∈ (surveyEach combine head index fields).filterMap (Field.value? name),
        Q made := by
  induction fields generalizing index with
  | nil =>
      exact ⟨List.forall_mem_nil _, fun _ => List.forall_mem_nil _⟩
  | cons field rest ih =>
      cases field with
      | item value =>
          obtain ⟨hitems, hvalues⟩ := ih h.2
          exact ⟨List.forall_mem_cons.2 ⟨hsurvey _ _ h.1, hitems⟩, hvalues⟩
      | keyword name value =>
          obtain ⟨hitems, hvalues⟩ := ih h.2
          refine ⟨hitems, fun name' => ?_⟩
          by_cases hname : name = name'
          · have hvalue : Field.value? name' (.keyword name (survey combine (slotOf name) value)) =
                some (survey combine (slotOf name) value) := if_pos hname
            rw [surveyEach, List.filterMap_cons_some hvalue]
            exact List.forall_mem_cons.2 ⟨hsurvey _ _ h.1, hvalues name'⟩
          · have hvalue : Field.value? name' (.keyword name (survey combine (slotOf name) value)) =
                none := if_neg hname
            rw [surveyEach, List.filterMap_cons_none hvalue]
            exact hvalues name'
      | _ => exact ih h

/-- A value that is no list. -/
def isAtom : Sexp → Bool
  | .symbol _ | .text _ | .int _ | .float _ => true
  | _ => false

/-- What holds of values that are no lists, and of any list or form when it holds of what is inside
it, holds of all values. -/
theorem shape_induction {P : Slot → Sexp → Prop}
    (atom : ∀ slot value, isAtom value → P slot value)
    (form : ∀ slot (form : Form),
      AllFields P form.head 0 (fieldsOf (flagsOf form.head) form.items) → P slot form.toSexp)
    (list : ∀ slot line items, (∀ form : Form, .list line items ≠ form.toSexp) →
      (∀ item ∈ items, P .form item) → P slot (.list line items))
    (brackets : ∀ slot items, (∀ item ∈ items, P .form item) → P slot (.brackets items))
    (quoted : ∀ slot value, P .form value → P slot (.quoted value))
    (slot : Slot) (value : Sexp) : P slot value := by
  refine survey.induct P (fun items => ∀ item ∈ items, P .form item)
    (fun head index items => AllFields P head index (fieldsOf (flagsOf head) items))
    (fun slot line head items => form slot ⟨line, head, items⟩)
    ?_ brackets quoted ?_ (List.forall_mem_nil _) ?_ ?_ ?_ ?_ ?_ ?_ ?_ ?_ slot value
  -- A list that does not begin with a symbol, and then what is no list.
  · intro slot line items hform hitems
    refine list slot line items (fun form heq => ?_) hitems
    cases heq
    exact hform _ _ _ rfl rfl
  · intro slot value hform hlist hbrackets hquoted
    refine atom slot value ?_
    cases value with
    | list line items => exact (hlist line items rfl).elim
    | brackets items => exact (hbrackets items rfl).elim
    | quoted value => exact (hquoted value rfl).elim
    | _ => rfl
  · intro value rest hvalue hrest
    exact List.forall_mem_cons.2 ⟨hvalue, hrest⟩
  -- The items of a form: a keyword takes the next item with it unless it is a flag, and the last item
  -- has none behind it.
  · intro head index
    trivial
  · intro head index item hname hitem
    simp only [fieldsOf, hname, AllFields, hitem, and_self]
  · intro head index item name hname hflag
    simp only [fieldsOf, hname, hflag, if_true, AllFields]
  · intro head index item name hname hflag
    simp only [fieldsOf, hname, hflag, Bool.false_eq_true, if_false, AllFields]
  · intro head index item value rest hname hitem hrest
    simp only [fieldsOf, hname, AllFields, hitem, hrest, and_self]
  · intro head index item value rest name hname hflag hrest
    simp only [fieldsOf, hname, hflag, if_true, AllFields, hrest]
  · intro head index item value rest name hname hflag hvalue hrest
    simp only [fieldsOf, hname, hflag, Bool.false_eq_true, if_false, AllFields, hvalue, hrest,
      and_self]

section Cases

variable {β : Type} (combine : Slot → Sexp → Inside β → β) (slot : Slot)

theorem survey_atom {value : Sexp} (h : isAtom value) :
    survey combine slot value = combine slot value .nothing := by
  cases value with
  | symbol | text | int | float => rfl
  | _ => cases h

theorem survey_list {line : Option Nat} {items : List Sexp}
    (h : ∀ form : Form, .list line items ≠ form.toSexp) :
    survey combine slot (.list line items) =
      combine slot (.list line items) (.items (items.map (survey combine .form))) := by
  rw [survey, surveyAll_eq]
  intro line head items hline hitems
  exact h ⟨line, head, items⟩ (by rw [hline, hitems]; rfl)

theorem survey_brackets (items : List Sexp) :
    survey combine slot (.brackets items) =
      combine slot (.brackets items) (.items (items.map (survey combine .form))) := by
  rw [survey, surveyAll_eq]

theorem survey_quoted (value : Sexp) :
    survey combine slot (.quoted value) =
      combine slot (.quoted value) (.items [survey combine .form value]) := by
  rw [survey]

end Cases

/-- What a value is to a survey. -/
inductive Shape : Sexp → Prop
  | atom {value : Sexp} (h : isAtom value) : Shape value
  | form (form : Form) : Shape form.toSexp
  | list {line : Option Nat} {items : List Sexp}
      (h : ∀ form : Form, .list line items ≠ form.toSexp) : Shape (.list line items)
  | brackets (items : List Sexp) : Shape (.brackets items)
  | quoted (value : Sexp) : Shape (.quoted value)

theorem shape (value : Sexp) : Shape value :=
  shape_induction (P := fun _ value => Shape value)
    (fun _ _ h => .atom h) (fun _ form _ => .form form)
    (fun _ _ _ h _ => .list h) (fun _ items _ => .brackets items) (fun _ value _ => .quoted value)
    .form value

/-- A list that is no form, or a quoted value, holds items to a survey. -/
def HoldsItems (value : Sexp) (items : List Sexp) : Prop :=
  ∀ {β : Type} (combine : Slot → Sexp → Inside β → β) (slot : Slot), survey combine slot value =
    combine slot value (.items (items.map (survey combine .form)))

/-- The same, where it does not matter what stands around the items of a list. -/
theorem survey_induction {P : Slot → Sexp → Prop}
    (form : ∀ slot (form : Form),
      AllFields P form.head 0 (fieldsOf (flagsOf form.head) form.items) → P slot form.toSexp)
    (list : ∀ slot value (items : List Sexp), HoldsItems value items →
      (∀ item ∈ items, P .form item) → P slot value)
    (atom : ∀ slot value, (∀ {β : Type} (combine : Slot → Sexp → Inside β → β) slot,
        survey combine slot value = combine slot value .nothing) → P slot value)
    (slot : Slot) (value : Sexp) : P slot value :=
  shape_induction
    (fun slot value h => atom slot value fun combine slot => survey_atom combine slot h)
    form
    (fun slot _ items h => list slot _ items fun combine slot => survey_list combine slot h)
    (fun slot items => list slot _ items fun combine slot => survey_brackets combine slot items)
    (fun slot value h => list slot _ [value] (fun combine slot => survey_quoted combine slot value)
      (List.forall_mem_singleton.2 h))
    slot value

end Dump
end AssocLint
