import AssocLint.Proofs.Dump.Readable

/-!
# The forms that write paths

`pathForms` lists the forms of a value that write paths, in the order of the document, wherever they
are nested. Where all that is read as a path can be read, they are the places of the value that are
no bare text (`perm_places`): putting places in the order of the tree loses none and doubles none,
and no path hides inside another one.
-/

namespace AssocLint
namespace Dump

/-! ## Forms in the order of the document -/

/-- Whether what a form has after `:res` is not looked at. This is so where the grammar refuses one
of two texts. -/
def skipsResolution (form : Form) : Bool :=
  match writtenIn? form with
  | some (.member base name _) => (memberText? base name).isNone
  | _ => false

/-- What a field of a form holds, where it is looked at. -/
def Field.seen? {β : Type} (form : Form) : Field β → Option β
  | .item value => some value
  | .keyword name value => if name == "res" && skipsResolution form then none else some value
  | _ => none

/-- The forms of a value, given those inside it. Left out is what stands in the tokens of a macro,
in a nested item, in the length of an array, in a literal, in a form that needs no items, and after
`:res` where that is not looked at. -/
def formsIn (slot : Slot) (_ : Sexp) : Inside (List Form) → List Form
  | .nothing => []
  | .items items => if slot.isRead then items.flatten else []
  | .fields form fields =>
    if !slot.isRead then []
    else if unreadHeads.contains form.head then [form]
    else form :: (fields.filterMap (Field.seen? form)).flatten

/-- The forms of a value, in the order of the document. -/
def forms (slot : Slot) (value : Sexp) : List Form :=
  survey formsIn slot value

/-- The forms of a form, itself first. -/
theorem forms_toSexp {slot : Slot} (hslot : slot.isRead) (form : Form) :
    forms slot form.toSexp =
      if unreadHeads.contains form.head then [form]
      else form :: ((surveyEach formsIn form.head 0
        (fieldsOf (flagsOf form.head) form.items)).filterMap (Field.seen? form)).flatten := by
  rw [forms, survey_toSexp, formsIn, hslot]
  rfl

theorem forms_of_survey {slot : Slot} (hslot : slot.isRead) {value : Sexp} (items : List Sexp)
    (h : survey formsIn slot value =
      formsIn slot value (.items (items.map (survey formsIn .form)))) :
    forms slot value = items.flatMap (forms .form) := by
  rw [forms, h, formsIn, if_pos hslot]
  rfl

/-- Where a value is not read it has no forms. -/
theorem forms_eq_nil {slot : Slot} (h : slot.isRead = false) (value : Sexp) :
    forms slot value = [] := by
  have hin (inside : Inside (List Form)) : formsIn slot value inside = [] := by
    cases inside <;> simp [formsIn, h]
  cases slot, value using survey_induction with
  | form slot form _ => rw [forms, survey_toSexp, hin]
  | list slot value items hsurvey _ => rw [forms, hsurvey, hin]
  | atom slot value hsurvey => rw [forms, hsurvey, hin]

/-! ## Nothing inside a path -/

theorem forms_of_word {value : Sexp} {text : String} (h : value.word? = some text) (slot : Slot) :
    forms slot value = [] := by
  cases value <;> cases h <;> rfl

theorem forms_of_span {file : String} {value : Sexp} {span : Span}
    (h : writtenSpan? file value = some span) (slot : Slot) : forms slot value = [] := by
  unfold writtenSpan? at h
  split at h
  · cases slot <;> rfl
  · cases slot <;> rfl
  · cases h

/-- A form that writes a path has words for items, and no keyword but a span and a resolution. -/
theorem Writes.fields {form : Form} {written : Written} (h : Writes form written) :
    (∀ value, .item value ∈ fieldsOf (flagsOf form.head) form.items →
      ∃ text, value.word? = some text) ∧
    ∀ name value, .keyword name value ∈ fieldsOf (flagsOf form.head) form.items →
      name = "span" ∨ name = "res" := by
  obtain ⟨line, head, items⟩ := form
  have hitem {parts : Form.Parts} {allowed : List String}
      (hparts : PartsOf parts ⟨line, head, items⟩ allowed (flagsOf head)) {value : Sexp}
      (hvalue : .item value ∈ fieldsOf (flagsOf head) items) : value ∈ parts.positional := by
    rw [hparts.positional]
    exact List.mem_filterMap.2 ⟨_, hvalue, rfl⟩
  cases h with
  | @text parts value path hhead hparts hitems hpath =>
      subst hhead
      have hpartsOf := partsOf _ _ _ _ hparts
      refine ⟨fun value' hvalue => ⟨path, ?_⟩, fun name value hmem => ?_⟩
      · have hmem := hitem hpartsOf hvalue
        rw [hitems, List.mem_singleton] at hmem
        rw [hmem, hpath]
      · simpa using hpartsOf.allowed name value hmem
  | @member parts first second base name hhead hparts hitems hbase hname =>
      subst hhead
      have hpartsOf := partsOf _ _ _ _ hparts
      refine ⟨fun value' hvalue => ?_, fun name value hmem => ?_⟩
      · have hmem := hitem hpartsOf hvalue
        rw [hitems, List.mem_pair] at hmem
        obtain rfl | rfl := hmem
        · exact ⟨base, hbase⟩
        · exact ⟨name, hname⟩
      · simpa using hpartsOf.allowed name value hmem
  | @tag parts value name hhead hparts hitems hname =>
      subst hhead
      have hpartsOf := partsOf _ _ _ _ hparts
      refine ⟨fun value' hvalue => ⟨name, ?_⟩, fun name value hmem => ?_⟩
      · have hmem := hitem hpartsOf hvalue
        rw [hitems, List.mem_singleton] at hmem
        rw [hmem, hname]
      · exact .inl (by simpa using hpartsOf.allowed name value hmem)

theorem skipsResolution_of_refused {form : Form} {written : Written} (h : Writes form written)
    (hhead : form.head = "relative") (hrefused : ¬ written.IsAccepted) :
    skipsResolution form = true := by
  have hwritten := h.writtenIn?_eq
  cases h with
  | text htext _ _ _ =>
      rw [hhead] at htext
      exact absurd htext (by decide)
  | member _ _ _ _ _ =>
      rw [skipsResolution, hwritten]
      simpa using mt Written.isSome_memberText?.1 hrefused
  | tag _ _ _ _ =>
      exact absurd trivial hrefused

/-- What is looked at in a form that is read as a path holds no form. -/
theorem forms_of_seen {file : String} {form : Form} (h : IsReadable file form)
    {field : Field Sexp} (hfield : field ∈ fieldsOf (flagsOf form.head) form.items) {value : Sexp}
    (hseen : field.seen? form = some value) (slot : Slot) : forms slot value = [] := by
  obtain ⟨written, hwrites, hspan, hres⟩ := h
  obtain ⟨hitems, hkeywords⟩ := hwrites.fields
  cases field with
  | item value' =>
      cases hseen
      obtain ⟨text, htext⟩ := hitems value hfield
      exact forms_of_word htext slot
  | keyword name value' =>
      rw [Field.seen?] at hseen
      split at hseen
      · cases hseen
      · rename_i hlooked
        cases hseen
        obtain rfl | rfl := hkeywords name value hfield
        · obtain ⟨span, hvalue⟩ := hspan value hfield
          exact forms_of_span hvalue slot
        · obtain hknown | ⟨hhead, hrefused⟩ := hres
          · obtain ⟨word, -, hword⟩ := hknown value hfield
            exact forms_of_word hword slot
          · -- Beside a text that is refused the resolution is not looked at.
            exact absurd (skipsResolution_of_refused hwrites hhead hrefused) hlooked
  | _ => cases hseen

theorem flatten_seen_eq_nil {form : Form} {head : String} {index : Nat}
    {fields : List (Field Sexp)} (h : ∀ field ∈ fields, ∀ value, field.seen? form = some value →
      ∀ slot, forms slot value = []) :
    ((surveyEach formsIn head index fields).filterMap (Field.seen? form)).flatten = [] := by
  induction fields generalizing index with
  | nil =>
      rfl
  | cons field fields ih =>
      obtain ⟨hfirst, hrest⟩ := List.forall_mem_cons.1 h
      cases field with
      | item value =>
          have hvalue : forms (slotAt head index) value = [] := hfirst value rfl _
          exact (congrArg (· ++ _) hvalue).trans (ih hrest)
      | keyword name value =>
          rw [surveyEach, List.filterMap_cons, Field.seen?]
          cases hskip : name == "res" && skipsResolution form with
          | true => exact ih hrest
          | false =>
              have hseen : (Field.keyword name value).seen? form = some value := by
                rw [Field.seen?, hskip]
                rfl
              have hvalue : forms (slotOf name) value = [] := hfirst value hseen _
              exact (congrArg (· ++ _) hvalue).trans (ih hrest)
      | _ => exact ih hrest

theorem not_unread_of_path {head : String} (h : pathHeads.contains head) :
    ¬ unreadHeads.contains head := by
  have hdisjoint : ∀ head ∈ pathHeads, ¬ unreadHeads.contains head := by
    simp [pathHeads, unreadHeads]
  exact hdisjoint head (List.contains_iff_mem.1 h)

/-- A form that is read as a path is the only one in itself. -/
theorem forms_of_isReadable {file : String} {form : Form} (h : IsReadable file form)
    (hhead : ¬ unreadHeads.contains form.head) {slot : Slot} (hslot : slot.isRead) :
    forms slot form.toSexp = [form] := by
  rw [forms_toSexp hslot, if_neg hhead,
    flatten_seen_eq_nil fun field hfield value hvalue => forms_of_seen h hfield hvalue]

/-- All that a form of another kind holds is looked at. -/
theorem seen?_eq_content? {β : Type} {form : Form} (h : ¬ pathHeads.contains form.head)
    (field : Field β) : field.seen? form = field.content? := by
  have hskip : skipsResolution form = false := by
    unfold skipsResolution
    split
    · rename_i hwritten
      cases writes_of_writtenIn? hwritten with
      | member hhead _ _ _ _ =>
          rw [hhead] at h
          exact absurd rfl h
    · rfl
  cases field with
  | keyword name value => rw [Field.seen?, hskip, Bool.and_false]; rfl
  | _ => rfl

def writesPath (form : Form) : Bool :=
  pathHeads.contains form.head

def pathForms (slot : Slot) (value : Sexp) : List Form :=
  (forms slot value).filter writesPath

/-! ## Putting places in order -/

theorem nodup_treeOrder : treeOrder.Nodup := by
  decide

/-- Where one name is looked for among several there is one answer. -/
theorem flatMap_single {α β : Type} [DecidableEq α] {names : List α} (hnodup : names.Nodup)
    {name : α} (hname : name ∈ names) (answer : List β) :
    names.flatMap (fun other => if other = name then answer else []) = answer := by
  induction names with
  | nil =>
      cases hname
  | cons first rest ih =>
      obtain ⟨hfirst, hrest⟩ := List.nodup_cons.1 hnodup
      rw [List.flatMap_cons]
      by_cases h : first = name
      · have hnone : rest.flatMap (fun other => if other = name then answer else []) = [] :=
          List.flatMap_eq_nil_iff.2 fun other hother =>
            if_neg fun heq : other = name => hfirst (by rwa [h, ← heq])
        rw [if_pos h, hnone, List.append_nil]
      · rw [if_neg h, List.nil_append]
        exact ih hrest ((List.mem_cons.1 hname).resolve_left (Ne.symm h))

section Arrange

variable {α : Type} {field : Field (List α)} {values : List α} (fields : List (Field (List α)))

/-- A field that has its place in the order. -/
theorem arrange_cons_placed {name : Option String} (hname : name ∈ treeOrder)
    (hat : ∀ other, field.at? other = if other = name then some values else none)
    (hstray : field.stray? = none) :
    (arrange (field :: fields)).Perm (values ++ arrange fields) := by
  have hcons (other : Option String) : ((field :: fields).filterMap (Field.at? other)).flatten =
      (if other = name then values else []) ++ (fields.filterMap (Field.at? other)).flatten := by
    by_cases h : other = name
    · rw [List.filterMap_cons_some ((hat other).trans (if_pos h)), if_pos h]
      rfl
    · rw [List.filterMap_cons_none ((hat other).trans (if_neg h)), if_neg h, List.nil_append]
  simp only [arrange, hcons, List.filterMap_cons_none hstray]
  rw [← List.append_assoc]
  refine List.Perm.append_right _ ?_
  have hparts := (List.flatMap_append_perm treeOrder
    (fun other => if other = name then values else [])
    (fun other => (fields.filterMap (Field.at? other)).flatten)).symm
  rwa [flatMap_single nodup_treeOrder hname] at hparts

/-- A field that has none. -/
theorem arrange_cons_absent (hat : ∀ name ∈ treeOrder, field.at? name = none)
    (hstray : field.stray?.getD [] = values) :
    (arrange (field :: fields)).Perm (values ++ arrange fields) := by
  have horder : treeOrder.flatMap (fun name =>
        ((field :: fields).filterMap (Field.at? name)).flatten) =
      treeOrder.flatMap (fun name => (fields.filterMap (Field.at? name)).flatten) :=
    List.flatMap_congr fun name hname => by rw [List.filterMap_cons_none (hat name hname)]
  have hrest : ((field :: fields).filterMap Field.stray?).flatten =
      values ++ (fields.filterMap Field.stray?).flatten := by
    subst hstray
    cases h : field.stray? with
    | none => rw [List.filterMap_cons_none h]; rfl
    | some values => rw [List.filterMap_cons_some h]; rfl
  rw [arrange, arrange, horder, hrest, ← List.append_assoc, ← List.append_assoc]
  exact List.perm_append_comm.append_right _

end Arrange

/-- Arranging loses nothing. -/
theorem perm_arrange {α : Type} (fields : List (Field (List α))) :
    (arrange fields).Perm (fields.filterMap Field.content?).flatten := by
  induction fields with
  | nil =>
      exact .of_eq (by simp [arrange])
  | cons field fields ih =>
      cases field with
      | item values =>
          have hat (other : Option String) :
              (Field.item values).at? other = if other = none then some values else none := by
            cases other <;> rfl
          exact (arrange_cons_placed fields (by decide) hat rfl).trans (ih.append_left values)
      | keyword name values =>
          -- A keyword that the order names has its place there, and any other stands at the end.
          refine .trans ?_ (ih.append_left values)
          by_cases hname : some name ∈ treeOrder
          · refine arrange_cons_placed fields hname (fun other => ?_) (if_pos hname)
            cases other with
            | none =>
                rfl
            | some other =>
                simp only [Field.at?, Option.elim_some, Field.value?, Option.some.injEq, eq_comm]
          · refine arrange_cons_absent fields (fun other hother => ?_) ?_
            · cases other with
              | none =>
                  rfl
              | some other =>
                  exact if_neg fun h : name = other => hname (h ▸ hother)
            · rw [Field.stray?, if_neg hname]
              rfl
      | flag name | unfinished name =>
          exact (arrange_cons_absent fields (fun other _ => by cases other <;> rfl) rfl).trans ih

/-! ## Places that are no bare text -/

/-- What is said of the places of a value and of the forms in it that write paths, where a path can
be read at each of the places. -/
def PermPlaces (slot : Slot) (value : Sexp) : Prop :=
  (∀ form, .form form ∈ places slot value → ∃ file, IsReadable file form) →
    ((places slot value).filterMap Place.form?).Perm (pathForms slot value)

/-- A field by field comparison of the places of a form with the forms in it. -/
theorem perm_contents {head : String} {index : Nat} {fields : List (Field Sexp)}
    (h : AllFields PermPlaces head index fields)
    (hread : ∀ form, .form form ∈
      ((surveyEach placesIn head index fields).filterMap Field.content?).flatten →
        ∃ file, IsReadable file form) :
    (((surveyEach placesIn head index fields).filterMap Field.content?).flatten.filterMap
        Place.form?).Perm
      (((surveyEach formsIn head index fields).filterMap Field.content?).flatten.filter
        writesPath) := by
  induction fields generalizing index with
  | nil =>
      exact .refl _
  | cons field fields ih =>
      cases field with
      | item value | keyword name value =>
          simp only [surveyEach, List.filterMap_cons, Field.content?, List.flatten_cons,
            List.filterMap_append, List.filter_append, List.mem_append] at hread ⊢
          exact .append (h.1 fun form hform => hread form (.inl hform))
            (ih h.2 fun form hform => hread form (.inr hform))
      | flag name | unfinished name =>
          exact ih h hread

theorem permPlaces_of_isRead {slot : Slot} {value : Sexp}
    (h : slot.isRead → PermPlaces slot value) : PermPlaces slot value := by
  cases hslot : slot.isRead with
  | true => exact h hslot
  | false =>
      intro _
      rw [pathForms, places_eq_nil hslot, forms_eq_nil hslot]
      rfl

/-- The places of a value that are no bare text are the forms in it that write paths. -/
theorem perm_places (slot : Slot) (value : Sexp) : PermPlaces slot value := by
  induction slot, value using survey_induction with
  | form slot form ih =>
      refine permPlaces_of_isRead fun hslot hread => ?_
      by_cases hpath : pathHeads.contains form.head
      · -- A path, in which no other one hides.
        rw [places_toSexp hslot, if_pos hpath] at hread ⊢
        obtain ⟨file, hreadable⟩ := hread form (List.mem_singleton.2 rfl)
        rw [pathForms, forms_of_isReadable hreadable (not_unread_of_path hpath) hslot]
        have hwrites : [form].filter writesPath = [form] := List.filter_cons_of_pos hpath
        exact .of_eq hwrites.symm
      · have hwrites (rest : List Form) :
            (form :: rest).filter writesPath = rest.filter writesPath :=
          List.filter_cons_of_neg hpath
        rw [places_toSexp hslot, if_neg hpath] at hread ⊢
        rw [pathForms, forms_toSexp hslot]
        split
        · exact .of_eq (hwrites []).symm
        · rename_i hunread
          rw [if_neg hunread] at hread
          have harrange := perm_arrange (surveyEach placesIn form.head 0
            (fieldsOf (flagsOf form.head) form.items))
          rw [hwrites, funext (seen?_eq_content? hpath)]
          exact (harrange.filterMap _).trans
            (perm_contents ih fun form hform => hread form (harrange.mem_iff.2 hform))
  | list slot value items hsurvey ih =>
      refine permPlaces_of_isRead fun hslot hread => ?_
      rw [places_of_survey hslot items (hsurvey _ _)] at hread ⊢
      rw [pathForms, forms_of_survey hslot items (hsurvey _ _), List.filterMap_flatMap,
        List.filter_flatMap]
      exact List.Perm.flatMap_left _ fun item hitem =>
        ih item hitem fun form hform => hread form (List.mem_flatMap.2 ⟨item, hitem, hform⟩)
  | atom slot value hsurvey =>
      intro _
      rw [places, pathForms, forms, hsurvey, hsurvey, placesIn]
      split
      · cases value.word? <;> exact .refl _
      · exact .refl _

end Dump
end AssocLint
