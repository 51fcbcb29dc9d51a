import AssocLint.Dump.Reader
import AssocLint.Proofs.Dump.Survey
import AssocLint.Proofs.Reference.Shape
import Mathlib.Data.List.Perm.Basic

/-!
# The places of references in a document

A reference is read from a form that writes a path, or from bare text where a path or a type may
stand. `places` lists these places of a value, in the order in which their references stand in the
tree: the keywords of a form have their fixed places there, wherever they are written. `pathForms`
lists the forms that write paths, in the order of the document. Nothing is lost between the two
(`perm_places`).
-/

namespace AssocLint
namespace Dump

/-! ## What is written at a place -/

/-- What a path is written with: one text, the texts of a base and a member, or a tag. -/
inductive Written where
  | text (path : String) (res : Option Resolution)
  | member (base name : String) (res : Option Resolution)
  | tag (name : String)

theorem pathText_of_error {text : String} {res : Option Resolution} {fault : PathFault}
    (h : Reference.read text res = .error fault) : pathText text res = .languageItem text := by
  rw [pathText, h]
  rfl

namespace Written

def reference : Written → Reference
  | .text path res => pathText path res
  | .member base name res =>
    (memberText? base name).elim (.languageItem (base ++ "::" ++ name)) (· (res.getD .type))
  | .tag name => .languageItem name

/-- Every text is accepted by the rule of the grammar that it is read with. -/
def IsAccepted : Written → Prop
  | .text path res => ∃ ref, Reference.read path res = .ok ref
  | .member base name _ =>
    (∃ ref, Reference.readArgument base = .ok ref) ∧ ∃ segment, Segment.read name = .ok segment
  | .tag _ => True

instance (written : Written) : Decidable written.IsAccepted :=
  match written with
  | .text _ _ => decidable_of_iff _ isSome_toOption
  | .member _ _ _ => decidable_of_iff _ (and_congr isSome_toOption isSome_toOption)
  | .tag _ => .isTrue trivial

theorem isSome_memberText? {base name : String} {res : Option Resolution} :
    (memberText? base name).isSome ↔ (Written.member base name res).IsAccepted := by
  unfold memberText? IsAccepted
  cases hbase : Reference.readArgument base <;> cases hname : Segment.read name <;>
    simp [Except.toOption, hbase, hname]

/-- Text that is refused gives a language item. -/
theorem isLanguageItem_of_not_isAccepted {written : Written} (h : ¬ written.IsAccepted) :
    written.reference.isLanguageItem = true := by
  cases written with
  | text path res =>
      cases hread : Reference.read path res with
      | error fault =>
          exact congrArg Reference.isLanguageItem (pathText_of_error hread)
      | ok ref =>
          exact absurd ⟨ref, hread⟩ h
  | member base name res =>
      have hnone : memberText? base name = none :=
        Option.not_isSome_iff_eq_none.1 (mt isSome_memberText?.1 h)
      rw [reference, hnone]
      rfl
  | tag name =>
      rfl

end Written

/-- The resolution that is written in a form. -/
def writtenResolution? (parts : Form.Parts) : Option Resolution :=
  (parts.value? "res").bind fun value => value.word?.bind Resolution.ofKeyword?

/-- What is written in a form that writes a path. -/
def writtenIn? (form : Form) : Option Written :=
  match form.head with
  | "path" => do
    let parts ← (form.parts ["span", "res"] []).toOption
    match parts.positional.map Sexp.word? with
    | [some text] => some (.text text (writtenResolution? parts))
    | _ => none
  | "relative" => do
    let parts ← (form.parts ["span", "res"] []).toOption
    match parts.positional.map Sexp.word? with
    | [some base, some member] => some (.member base member (writtenResolution? parts))
    | _ => none
  | "lang-item" => do
    let parts ← (form.parts ["span"] []).toOption
    match parts.positional.map Sexp.word? with
    | [some tag] => some (.tag tag)
    | _ => none
  | _ => none

/-- What the forms that write paths are made of. -/
inductive Writes (form : Form) : Written → Prop
  | text {parts : Form.Parts} {value : Sexp} {path : String} (hhead : form.head = "path")
      (hparts : form.parts ["span", "res"] [] = .ok parts) (hitems : parts.positional = [value])
      (hpath : value.word? = some path) : Writes form (.text path (writtenResolution? parts))
  | member {parts : Form.Parts} {first second : Sexp} {base name : String}
      (hhead : form.head = "relative") (hparts : form.parts ["span", "res"] [] = .ok parts)
      (hitems : parts.positional = [first, second]) (hbase : first.word? = some base)
      (hname : second.word? = some name) :
      Writes form (.member base name (writtenResolution? parts))
  | tag {parts : Form.Parts} {value : Sexp} {name : String} (hhead : form.head = "lang-item")
      (hparts : form.parts ["span"] [] = .ok parts) (hitems : parts.positional = [value])
      (hname : value.word? = some name) : Writes form (.tag name)

theorem Writes.writtenIn?_eq {form : Form} {written : Written} (h : Writes form written) :
    writtenIn? form = some written := by
  obtain ⟨line, head, items⟩ := form
  cases h with
  | text hhead hparts hitems hpath =>
      subst hhead
      simp only [writtenIn?, hparts, hitems, hpath, Except.toOption, List.map, Option.bind_eq_bind,
        Option.bind_some]
  | member hhead hparts hitems hbase hname =>
      subst hhead
      simp only [writtenIn?, hparts, hitems, hbase, hname, Except.toOption, List.map,
        Option.bind_eq_bind, Option.bind_some]
  | tag hhead hparts hitems hname =>
      subst hhead
      simp only [writtenIn?, hparts, hitems, hname, Except.toOption, List.map, Option.bind_eq_bind,
        Option.bind_some]

theorem writes_of_writtenIn? {form : Form} {written : Written}
    (h : writtenIn? form = some written) : Writes form written := by
  obtain ⟨line, head, items⟩ := form
  unfold writtenIn? at h
  dsimp only at h
  split at h
  · obtain ⟨parts, hparts, h⟩ := Option.bind_eq_some_iff.1 h
    split at h
    · rename_i hitems
      cases h
      obtain ⟨value, hvalue, hpath⟩ := List.map_eq_singleton_iff.1 hitems
      exact .text rfl (eq_ok_of_toOption hparts) hvalue hpath
    · cases h
  · obtain ⟨parts, hparts, h⟩ := Option.bind_eq_some_iff.1 h
    split at h
    · rename_i hitems
      cases h
      obtain ⟨first, rest, hvalue, hbase, hrest⟩ := List.map_eq_cons_iff.1 hitems
      obtain ⟨second, rfl, hname⟩ := List.map_eq_singleton_iff.1 hrest
      exact .member rfl (eq_ok_of_toOption hparts) hvalue hbase hname
    · cases h
  · obtain ⟨parts, hparts, h⟩ := Option.bind_eq_some_iff.1 h
    split at h
    · rename_i hitems
      cases h
      obtain ⟨value, hvalue, hname⟩ := List.map_eq_singleton_iff.1 hitems
      exact .tag rfl (eq_ok_of_toOption hparts) hvalue hname
    · cases h
  · cases h

/-- The heads of forms that write paths. -/
def pathHeads : List String :=
  ["path", "relative", "lang-item"]

theorem pathHeads_of_readPathForm (form : Form) (outer : Span) :
    Gives (readPathForm form outer) fun _ => pathHeads.contains form.head := by
  obtain ⟨line, head, items⟩ := form
  unfold readPathForm
  dsimp only
  split
  · exact fun _ _ => rfl
  · exact fun _ _ => rfl
  · exact fun _ _ => rfl
  · exact .fault

/-- The heads of forms whose items are not read. -/
def unreadHeads : List String :=
  ["macro", "item"]

/-- Whether what stands in a form with a given head is read part by part. -/
def isTakenApart (head : String) : Bool :=
  !pathHeads.contains head && !unreadHeads.contains head

/-- A place where a reference is read. -/
inductive Place where
  /-- Bare text. -/
  | text (path : String)
  /-- A form that writes a path. -/
  | form (written : Form)

namespace Place

def written? : Place → Option Written
  | .text path => some (.text path none)
  | .form pathForm => writtenIn? pathForm

def form? : Place → Option Form
  | .text _ => none
  | .form pathForm => some pathForm

def reference (place : Place) : Reference :=
  place.written?.elim (.languageItem "") Written.reference

/-- The texts at a place are accepted by the grammar. -/
def IsAccepted (place : Place) : Prop :=
  ∀ written ∈ place.written?, written.IsAccepted

instance (place : Place) : Decidable place.IsAccepted :=
  inferInstanceAs (Decidable (∀ written ∈ place.written?, written.IsAccepted))

theorem isLanguageItem_of_not_isAccepted {place : Place} (h : ¬ place.IsAccepted) :
    place.reference.isLanguageItem = true := by
  simp only [IsAccepted, not_forall] at h
  obtain ⟨written, hwritten, hrefused⟩ := h
  rw [reference, Option.mem_def.1 hwritten]
  exact Written.isLanguageItem_of_not_isAccepted hrefused

end Place

/-! ## Places in the order of the tree -/

/-- The places of the fields of a form in the tree: of the keywords in order, and of the items. -/
def treeOrder : List (Option String) :=
  [some "trait", some "self-ty", none, some "ty", some "init", some "else", some "guard",
    some "ret", some "base", some "span"]

/-- What a field holds, where it is the one of a given name, or an item where no name is given. -/
def Field.at? {β : Type} (name : Option String) (field : Field β) : Option β :=
  name.elim field.item? field.value?

/-- What a keyword holds that has no place in the tree. -/
def Field.stray? {β : Type} : Field β → Option β
  | .keyword name value => if some name ∈ treeOrder then none else some value
  | _ => none

/-- What a field holds. -/
def Field.content? {β : Type} : Field β → Option β
  | .item value | .keyword _ value => some value
  | _ => none

/-- Puts what the fields of a form hold in the order of the tree. -/
def arrange {α : Type} (fields : List (Field (List α))) : List α :=
  treeOrder.flatMap (fun name => (fields.filterMap (Field.at? name)).flatten) ++
    (fields.filterMap Field.stray?).flatten

/-- The places of a value, given those inside it. The tokens of a macro and nested items are not
read. -/
def placesIn (slot : Slot) (value : Sexp) : Inside (List Place) → List Place
  | .nothing => if slot = .path then (value.word?.map Place.text).toList else []
  | .items items => if slot.isRead then items.flatten else []
  | .fields form fields =>
    if !slot.isRead then []
    else if pathHeads.contains form.head then [.form form]
    else if unreadHeads.contains form.head then []
    else arrange fields

/-- The places of a value, in the order of the tree. -/
def places (slot : Slot) (value : Sexp) : List Place :=
  survey placesIn slot value

/-- The places of a form. -/
theorem places_toSexp {slot : Slot} (hslot : slot.isRead) (form : Form) :
    places slot form.toSexp =
      if pathHeads.contains form.head then [.form form]
      else if unreadHeads.contains form.head then []
      else arrange (surveyEach placesIn form.head 0 (fieldsOf (flagsOf form.head) form.items)) := by
  rw [places, survey_toSexp, placesIn, hslot]
  rfl

/-- The places of a list that is no form. -/
theorem places_of_survey {slot : Slot} (hslot : slot.isRead) {value : Sexp} (items : List Sexp)
    (h : survey placesIn slot value =
      placesIn slot value (.items (items.map (survey placesIn .form)))) :
    places slot value = items.flatMap (places .form) := by
  rw [places, h, placesIn, if_pos hslot]
  rfl

/-- Where a value is not read it has no places. -/
theorem places_eq_nil {slot : Slot} (h : slot.isRead = false) (value : Sexp) :
    places slot value = [] := by
  have hpath : slot ≠ .path := fun hpath => by rw [hpath] at h; cases h
  have hin (inside : Inside (List Place)) : placesIn slot value inside = [] := by
    cases inside <;> simp [placesIn, h, hpath]
  cases slot, value using survey_induction with
  | form slot form _ => rw [places, survey_toSexp, hin]
  | list slot value items hsurvey _ => rw [places, hsurvey, hin]
  | atom slot value hsurvey => rw [places, hsurvey, hin]

/-- A word that is no path has none either. -/
theorem places_of_word {value : Sexp} {text : String} (h : value.word? = some text) :
    places .form value = [] := by
  cases value with
  | symbol | text => rfl
  | _ => cases h

theorem places_bare {value : Sexp} {text : String} (h : value.word? = some text) :
    places .path value = [.text text] := by
  cases value <;> cases h <;> rfl

/-! ## The places of the parts of a form -/

/-- The places of the items of a form, given how many items come before. -/
def placesFrom (head : String) : Nat → List Sexp → List Place
  | _, [] => []
  | index, item :: rest => places (slotAt head index) item ++ placesFrom head (index + 1) rest

/-- The places of the value of a keyword. -/
def placesOf (parts : Form.Parts) (name : String) : List Place :=
  (parts.value? name).elim [] (places (slotOf name))

/-- The places of the parts of a form, in the order of the tree. -/
def placesOfParts (parts : Form.Parts) : List Place :=
  treeOrder.flatMap fun name =>
    name.elim (placesFrom parts.form.head 0 parts.positional) (placesOf parts)

theorem flatten_item_surveyEach (head : String) (index : Nat) (fields : List (Field Sexp)) :
    ((surveyEach placesIn head index fields).filterMap Field.item?).flatten =
      placesFrom head index (fields.filterMap Field.item?) := by
  induction fields generalizing index with
  | nil =>
      rfl
  | cons field fields ih =>
      cases field with
      | item value => exact congrArg (places (slotAt head index) value ++ ·) (ih (index + 1))
      | _ => exact ih index

theorem stray_surveyEach {head : String} {index : Nat} {fields : List (Field Sexp)}
    (h : ∀ name value, .keyword name value ∈ fields → some name ∈ treeOrder) :
    (surveyEach placesIn head index fields).filterMap Field.stray? = [] := by
  induction fields generalizing index with
  | nil =>
      rfl
  | cons field fields ih =>
      have hfields (name : String) (value : Sexp) (hmem : .keyword name value ∈ fields) :=
        h name value (List.mem_cons_of_mem field hmem)
      cases field with
      | keyword name value =>
          have hplaced (places : List Place) : (Field.keyword name places).stray? = none :=
            if_pos (h name value List.mem_cons_self)
          exact (List.filterMap_cons_none (hplaced _)).trans (ih hfields)
      | _ => exact ih hfields

/-- A form that has been taken apart has the places of its parts. -/
theorem places_eq_placesOfParts {parts : Form.Parts} {form : Form} {allowed : List String}
    (hparts : PartsOf parts form allowed (flagsOf form.head))
    (hallowed : ∀ name ∈ allowed, some name ∈ treeOrder)
    (hhead : isTakenApart form.head) {slot : Slot} (hslot : slot.isRead) :
    places slot form.toSexp = placesOfParts parts := by
  simp only [isTakenApart, Bool.and_eq_true, Bool.not_eq_true', ← Bool.not_eq_true] at hhead
  obtain ⟨hpath, hunread⟩ := hhead
  rw [places_toSexp hslot, if_neg hpath, if_neg hunread, arrange, placesOfParts,
    stray_surveyEach fun name value hmem => hallowed name (hparts.allowed name value hmem),
    List.flatten_nil, List.append_nil]
  refine List.flatMap_congr fun name _ => ?_
  cases name with
  | none =>
      rw [Option.elim_none, hparts.form_eq, hparts.positional]
      exact flatten_item_surveyEach form.head 0 _
  | some name =>
      have hvalue :=
        value_surveyEach placesIn form.head 0 (fieldsOf (flagsOf form.head) form.items) name
      rw [← hparts.value?] at hvalue
      rw [Option.elim_some, placesOf]
      cases h : parts.value? name with
      | none => rw [h] at hvalue; exact congrArg List.flatten hvalue
      | some value =>
          rw [h] at hvalue
          exact (congrArg List.flatten hvalue).trans (List.append_nil _)

end Dump
end AssocLint
