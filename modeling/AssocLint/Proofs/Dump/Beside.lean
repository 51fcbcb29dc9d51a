import AssocLint.Proofs.Dump.Outline
import AssocLint.Proofs.Dump.PathForms

/-!
# Places beside each other

Documents with one outline have the same places, one beside the other, and at each place the same is
written but for the texts (`samePlaces`).
-/

namespace AssocLint
namespace Dump

/-! ## Fields beside each other -/

/-- A field of one form beside a field of another. -/
inductive Field.Beside {β β' : Type} (R : β → β' → Prop) : Field β → Field β' → Prop
  | item {value : β} {value' : β'} (h : R value value') : Beside R (.item value) (.item value')
  | keyword {name : String} {value : β} {value' : β'} (h : R value value') :
      Beside R (.keyword name value) (.keyword name value')
  | flag {name : String} : Beside R (.flag name) (.flag name)
  | unfinished {name : String} : Beside R (.unfinished name) (.unfinished name)

section Arrange

variable {α α' : Type} {R : α → α' → Prop}

theorem rel_value? {field : Field α} {field' : Field α'} (h : field.Beside R field')
    (name : String) : Option.Rel R (field.value? name) (field'.value? name) := by
  cases h with
  | @keyword written _ _ h =>
      rw [Field.value?, Field.value?]
      split
      · exact .some h
      · exact .none
  | _ => exact .none

theorem rel_at? {field : Field α} {field' : Field α'} (h : field.Beside R field')
    (name : Option String) : Option.Rel R (field.at? name) (field'.at? name) := by
  cases name with
  | some name => exact rel_value? h name
  | none =>
      cases h with
      | item h => exact .some h
      | _ => exact .none

theorem rel_stray? {field : Field α} {field' : Field α'} (h : field.Beside R field') :
    Option.Rel R field.stray? field'.stray? := by
  cases h with
  | @keyword name _ _ h =>
      rw [Field.stray?, Field.stray?]
      split
      · exact .none
      · exact .some h
  | _ => exact .none

/-- Related fields are put in order alike. -/
theorem rel_arrange {fields : List (Field (List α))} {fields' : List (Field (List α'))}
    (h : List.Forall₂ (Field.Beside (List.Forall₂ R)) fields fields') :
    List.Forall₂ R (arrange fields) (arrange fields') := by
  have hgathered {pick : Field (List α) → Option (List α)}
      {pick' : Field (List α') → Option (List α')}
      (hpick : ∀ {field field'}, Field.Beside (List.Forall₂ R) field field' →
        Option.Rel (List.Forall₂ R) (pick field) (pick' field')) :
      List.Forall₂ R (fields.filterMap pick).flatten (fields'.filterMap pick').flatten :=
    List.rel_flatten (List.rel_filterMap (fun _ _ hfield => hpick hfield) h)
  refine List.rel_append ?_ (hgathered rel_stray?)
  induction treeOrder with
  | nil => exact .nil
  | cons name rest ih =>
      rw [List.flatMap_cons, List.flatMap_cons]
      exact List.rel_append (hgathered fun hfield => rel_at? hfield name) ih

end Arrange

/-! ## What is written beside each other -/

theorem SameOutline.exists_word {value value' : Sexp} (h : SameOutline .path value value')
    {text : String} (htext : value.word? = some text) : ∃ text', value'.word? = some text' := by
  have hbare := h.bare
  generalize value'.word? = word at hbare ⊢
  rw [htext] at hbare
  cases hbare with
  | some => exact ⟨_, rfl⟩

/-- The same is written but for the texts. -/
inductive Written.Beside : Written → Written → Prop
  | text {path path' : String} {res : Option Resolution} : Beside (.text path res) (.text path' res)
  | member {base base' name name' : String} {res : Option Resolution} :
      Beside (.member base name res) (.member base' name' res)
  | tag {name : String} : Beside (.tag name) (.tag name)

/-- Two places where the same is written but for the texts. -/
def SamePlace (place place' : Place) : Prop :=
  Option.Rel Written.Beside place.written? place'.written?

theorem PartsLike.writtenResolution_eq {head : String} {parts parts' : Form.Parts}
    (h : PartsLike SameOutline head parts parts') :
    writtenResolution? parts' = writtenResolution? parts := by
  have hvalue : Option.Rel (SameOutline .form) (parts.value? "res") (parts'.value? "res") :=
    h.value? "res"
  unfold writtenResolution?
  generalize parts.value? "res" = value at hvalue
  generalize parts'.value? "res" = value' at hvalue
  cases hvalue with
  | none => rfl
  | some hvalue => rw [Option.bind_some, Option.bind_some, hvalue.word_eq]

section

variable {slot : Slot} {form form' : Form}

/-- Forms with one outline have parts that are alike. -/
theorem SameOutline.carries_parts
    (h : SameOutline slot form.toSexp form'.toSexp) (hslot : slot ≠ .literal)
    (hmacroHead : form.head ≠ "macro") (allowed : List String) :
    Carries (form.parts allowed (flagsOf form.head)) (form'.parts allowed (flagsOf form.head))
      (PartsLike SameOutline form.head) := by
  obtain ⟨form'', hform, _, _, hfields⟩ := h.toSexp hslot
  obtain rfl := Form.toSexp_inj hform
  exact Dump.carries_parts (hfields hmacroHead) allowed

theorem SameOutline.head_eq (h : SameOutline slot form.toSexp form'.toSexp)
    (hslot : slot ≠ .literal) : form'.head = form.head := by
  obtain ⟨form'', hform, hhead, _⟩ := h.toSexp hslot
  obtain rfl := Form.toSexp_inj hform
  exact hhead

/-- Where one of two forms with the same outline writes a path the other does so too. -/
theorem beside_writtenIn? (h : SameOutline slot form.toSexp form'.toSexp) (hslot : slot ≠ .literal)
    {written : Written} (hwritten : writtenIn? form = some written) :
    ∃ written', writtenIn? form' = some written' ∧ written.Beside written' := by
  have hhead := h.head_eq hslot
  have hcarries (hmacroHead : form.head ≠ "macro") (allowed : List String) {parts : Form.Parts} :=
    h.carries_parts hslot hmacroHead allowed parts
  cases writes_of_writtenIn? hwritten with
  | text hpath hparts hitems hword =>
      rw [hpath] at hcarries
      obtain ⟨parts', hparts', hlike⟩ := hcarries nofun _ hparts
      obtain ⟨values', hitems', hvalues⟩ := hlike.items hitems
      obtain _ | ⟨hvalue, _ | _⟩ := hvalues
      obtain ⟨path', hword'⟩ := hvalue.exists_word hword
      rw [← hlike.writtenResolution_eq]
      exact ⟨_, (Writes.text (hhead.trans hpath) hparts' hitems' hword').writtenIn?_eq, .text⟩
  | member hrelative hparts hitems hbase hname =>
      rw [hrelative] at hcarries
      obtain ⟨parts', hparts', hlike⟩ := hcarries nofun _ hparts
      obtain ⟨values', hitems', hvalues⟩ := hlike.items hitems
      obtain _ | ⟨hfirst, _ | ⟨hsecond, _ | _⟩⟩ := hvalues
      obtain ⟨base', hbase'⟩ := hfirst.exists_word hbase
      obtain ⟨name', hname'⟩ := hsecond.exists_word hname
      rw [← hlike.writtenResolution_eq]
      exact ⟨_, (Writes.member (hhead.trans hrelative) hparts' hitems' hbase' hname').writtenIn?_eq,
        .member⟩
  | tag hitem hparts hitems hname =>
      rw [hitem] at hcarries
      obtain ⟨parts', hparts', hlike⟩ := hcarries nofun _ hparts
      obtain ⟨values', hitems', hvalues⟩ := hlike.items hitems
      obtain _ | ⟨hvalue, _ | _⟩ := hvalues
      have hname' := (SameOutline.word_eq hvalue).trans hname
      exact ⟨_, (Writes.tag (hhead.trans hitem) hparts' hitems' hname').writtenIn?_eq, .tag⟩

/-- Forms with one outline stand at the same place. -/
theorem samePlace_form (h : SameOutline slot form.toSexp form'.toSexp) (hslot : slot ≠ .literal) :
    SamePlace (.form form) (.form form') := by
  have hback : SameOutline slot form'.toSexp form.toSexp := Eq.symm h
  change Option.Rel Written.Beside (writtenIn? form) (writtenIn? form')
  cases hwritten : writtenIn? form with
  | some written =>
      obtain ⟨written', hwritten', hbeside⟩ := beside_writtenIn? h hslot hwritten
      rw [hwritten']
      exact .some hbeside
  | none =>
      cases hwritten' : writtenIn? form' with
      | none => exact .none
      | some written' =>
          obtain ⟨written, hsome, _⟩ := beside_writtenIn? hback hslot hwritten'
          rw [hwritten] at hsome
          cases hsome

end

/-! ## Places of documents with one outline -/

/-- What is said of the places of documents with one outline. -/
def KeepsPlaces (slot : Slot) (value : Sexp) : Prop :=
  ∀ value', SameOutline slot value value' →
    List.Forall₂ SamePlace (places slot value) (places slot value')

theorem rel_surveyEach {head : String} {index : Nat} {fields fields' : List (Field Sexp)}
    (h : AllFields KeepsPlaces head index fields)
    (hfields : FieldsLike SameOutline head index fields fields') :
    List.Forall₂ (Field.Beside (List.Forall₂ SamePlace)) (surveyEach placesIn head index fields)
      (surveyEach placesIn head index fields') := by
  induction hfields with
  | nil => exact .nil
  | item hvalue _ ih => exact .cons (.item (h.1 _ hvalue)) (ih h.2)
  | keyword hvalue _ ih => exact .cons (.keyword (h.1 _ hvalue)) (ih h.2)
  | flag _ ih => exact .cons .flag (ih h)
  | unfinished _ ih => exact .cons .unfinished (ih h)

theorem rel_flatMap_places {items items' : List Sexp} (h : ∀ item ∈ items, KeepsPlaces .form item)
    (hitems : items'.map (outline .form) = items.map (outline .form)) :
    List.Forall₂ SamePlace (items.flatMap (places .form)) (items'.flatMap (places .form)) := by
  induction items generalizing items' with
  | nil =>
      rw [List.map_eq_nil_iff.1 hitems]
      exact .nil
  | cons item rest ih =>
      cases items' with
      | nil => cases hitems
      | cons item' rest' =>
          rw [List.map_cons, List.map_cons, List.cons.injEq] at hitems
          rw [List.forall_mem_cons] at h
          exact List.rel_append (h.1 item' hitems.1) (ih h.2 hitems.2)

theorem keepsPlaces_of_isRead {slot : Slot} {value : Sexp}
    (h : slot.isRead → KeepsPlaces slot value) : KeepsPlaces slot value := by
  cases hslot : slot.isRead with
  | true => exact h hslot
  | false =>
      intro value' _
      rw [places_eq_nil hslot, places_eq_nil hslot]
      exact .nil

/-- What stands around the items of a list does not matter. -/
theorem keepsPlaces_of_items {slot : Slot} {value : Sexp} (items : List Sexp)
    (hsurvey : HoldsItems value items) (h : ∀ item ∈ items, KeepsPlaces .form item) :
    KeepsPlaces slot value := by
  refine keepsPlaces_of_isRead fun hread value' hsame => ?_
  obtain ⟨items', hsurvey', hitems⟩ := hsame.items (Slot.ne_literal hread) hsurvey
  rw [places_of_survey hread items (hsurvey _ _), places_of_survey hread items' (hsurvey' _ _)]
  exact rel_flatMap_places h hitems

/-- Documents with one outline have the same places. -/
theorem keepsPlaces (slot : Slot) (value : Sexp) : KeepsPlaces slot value := by
  induction slot, value using shape_induction with
  | atom slot value hatom =>
      refine keepsPlaces_of_isRead fun hread value' h => ?_
      obtain ⟨shared, hvalue, hvalue'⟩ := h.outlined (Slot.ne_literal hread)
      cases hvalue with
      | text hpath hword =>
          -- A bare text where a path is read is a place, and so is the text that stands for it.
          subst hpath
          obtain ⟨text, htext⟩ := Option.isSome_iff_exists.1 hword
          obtain ⟨text', htext'⟩ := SameOutline.exists_word h htext
          rw [places_bare htext, places_bare htext']
          exact .cons (.some .text) .nil
      | atom _ hbare =>
          cases hvalue' with
          | atom =>
              have hnone : places slot value = [] := by
                rw [places, survey_atom placesIn slot hatom, placesIn]
                split
                · rw [hbare ‹_›]
                  rfl
                · rfl
              rw [hnone]
              exact .nil
      | _ => cases hatom
  | form slot form ih =>
      refine keepsPlaces_of_isRead fun hread value' h => ?_
      obtain ⟨form', rfl, hhead, _, hfields⟩ := h.toSexp (Slot.ne_literal hread)
      rw [places_toSexp hread, places_toSexp hread, hhead]
      -- A form is the one place that it has, or nothing is read in it, or its fields have the places.
      split
      · exact .cons (samePlace_form h (Slot.ne_literal hread)) .nil
      · split
        · exact .nil
        · rename_i hunread
          refine rel_arrange (rel_surveyEach ih (hfields fun hmacroHead => hunread ?_))
          rw [hmacroHead]
          rfl
  | list slot line items hlist ih =>
      exact keepsPlaces_of_items items (fun combine slot => survey_list combine slot hlist) ih
  | brackets slot items ih =>
      exact keepsPlaces_of_items items (fun combine slot => survey_brackets combine slot items) ih
  | quoted slot value ih =>
      exact keepsPlaces_of_items [value]
        (fun combine slot => survey_quoted combine slot value) (List.forall_mem_singleton.2 ih)

end Dump
end AssocLint
