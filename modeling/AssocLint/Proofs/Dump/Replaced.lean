import AssocLint.Proofs.Dump.Beside
import AssocLint.Proofs.Dump.ReadOnce
import AssocLint.Proofs.Dump.TwoReadings

/-!
# Documents with other path texts

Path text can be replaced by any other text: the document is still read, and its tree is the same
but for the references at the places where text was replaced. A reference whose new text is
refused is a language item.
-/

namespace AssocLint
namespace Dump

/-- Tells no references apart. -/
def noReference : Reference → Reference :=
  fun _ => .languageItem ""

theorem noReference_eq (ref ref' : Reference) : noReference ref = noReference ref' :=
  rfl

/-- The grammar accepts the texts at all places of a value. -/
def IsAccepted (slot : Slot) (value : Sexp) : Prop :=
  ∀ place ∈ places slot value, place.IsAccepted

/-- A document whose texts are accepted, and another one with the same outline. -/
def Replaced : Likeness := fun slot value value' =>
  SameOutline slot value value' ∧ IsAccepted slot value

/-! ## Accepted texts -/

/-- What holds at all places of some fields holds at the places of each of them. -/
theorem allFields_isAccepted {head : String} {index : Nat} {fields : List (Field Sexp)}
    (h : ∀ place ∈ ((surveyEach placesIn head index fields).filterMap Field.content?).flatten,
      place.IsAccepted) : AllFields IsAccepted head index fields := by
  induction fields generalizing index with
  | nil =>
      trivial
  | cons field rest ih =>
      cases field with
      | item value | keyword name value =>
          simp only [surveyEach, List.filterMap_cons, Field.content?, List.flatten_cons,
            List.forall_mem_append] at h
          exact ⟨h.1, ih h.2⟩
      | flag name | unfinished name =>
          exact ih h

/-- Where the texts of a form are accepted, those of its fields are. -/
theorem IsAccepted.fields {slot : Slot} {form : Form} (h : IsAccepted slot form.toSexp)
    (hslot : slot.isRead) (hhead : isTakenApart form.head) :
    AllFields IsAccepted form.head 0 (fieldsOf (flagsOf form.head) form.items) := by
  simp only [isTakenApart, Bool.and_eq_true, Bool.not_eq_true', ← Bool.not_eq_true] at hhead
  rw [IsAccepted, places_toSexp hslot, if_neg hhead.1, if_neg hhead.2] at h
  exact allFields_isAccepted fun place hplace => h place ((perm_arrange _).mem_iff.2 hplace)

/-! ## Paths -/

/-- A resolution is a word. -/
theorem carries_resolution {like : Likeness}
    (hword : ∀ {value value'}, like .form value value' → value'.word? = value.word?)
    {head : String} {parts parts' : Form.Parts} (h : PartsLike like head parts parts') :
    Carries (resolution parts) (resolution parts') Eq := by
  have hres : Option.Rel (like .form) (parts.value? "res") (parts'.value? "res") :=
    h.value? "res"
  unfold resolution
  refine Carries.mapValue_eq (fun value value' hvalue => ?_) hres
  rw [hword hvalue]
  split
  · exact .ok rfl
  · exact .fault

/-- A path is read in both documents. -/
theorem carries_readPathForm {slot : Slot} {form form' : Form}
    (h : SameOutline slot form.toSexp form'.toSexp) (hslot : slot ≠ .literal)
    (haccepted : (Place.form form).IsAccepted) (outer : Span) :
    Carries (readPathForm form outer) (readPathForm form' outer) fun answer answer' =>
      noReference answer'.1 = noReference answer.1 ∧ answer'.2 = answer.2 := by
  have hhead := h.head_eq hslot
  have hcarries := h.carries_parts hslot
  obtain ⟨line, head, items⟩ := form
  obtain ⟨line', head', items'⟩ := form'
  obtain rfl : head' = head := hhead
  unfold readPathForm
  dsimp only at hcarries ⊢
  split
  · refine (hcarries nofun ["span", "res"]).bind fun parts parts' hparts => ?_
    refine hparts.one.bind fun value value' hvalue => ?_
    refine (Carries.text (SameOutline.bare hvalue)).bind fun _ _ _ => ?_
    refine (carries_resolution SameOutline.word_eq hparts).step fun res => ?_
    exact (hparts.span SameOutline.spanOf outer).step fun span => .ok ⟨noReference_eq .., rfl⟩
  · refine ((hcarries nofun ["span", "res"]).and_gives Gives.self).bind
      fun parts parts' ⟨hparts, hread⟩ => ?_
    refine (hparts.two.and_gives fun _ => parts.two_eq_ok_iff.1).bind
      fun (first, second) (first', second') ⟨⟨hfirst, hsecond⟩, hitems⟩ => ?_
    refine ((Carries.text (SameOutline.bare hfirst)).and_gives Gives.text).bind
      fun base base' ⟨_, hbase⟩ => ?_
    refine ((Carries.text (SameOutline.bare hsecond)).and_gives Gives.text).bind
      fun name name' ⟨_, hname⟩ => ?_
    have hwritten := (Writes.member rfl hread hitems hbase hname).writtenIn?_eq
    have hmember : (memberText? base name).isSome :=
      Written.isSome_memberText?.2 (haccepted _ hwritten)
    obtain ⟨ref, href⟩ := Option.isSome_iff_exists.1 hmember
    have hspan := hparts.span SameOutline.spanOf outer
    rw [href]
    dsimp only
    -- The first document has its resolution read. Where its member is refused, the second has not.
    cases memberText? base' name' with
    | none => exact .skip fun res => hspan.step fun span => .ok ⟨noReference_eq .., rfl⟩
    | some ref' =>
        refine (carries_resolution SameOutline.word_eq hparts).step fun res => ?_
        exact hspan.step fun span => .ok ⟨noReference_eq .., rfl⟩
  · refine (hcarries nofun ["span"]).bind fun parts parts' hparts => ?_
    refine hparts.one.bind fun value value' hvalue => ?_
    refine (Carries.text_eq (SameOutline.word_eq hvalue)).step fun tag => ?_
    exact (hparts.span SameOutline.spanOf outer).step fun span => .ok ⟨noReference_eq .., rfl⟩
  · exact .fault

/-! ## Documents that are read alike -/

theorem formsAlike_of_replaced {slot : Slot} {form form' : Form}
    (h : Replaced slot form.toSexp form'.toSexp) (hslot : slot.isRead) :
    FormsAlike noReference Replaced form form' where
  head_eq := h.1.head_eq (Slot.ne_literal hslot)
  parts hhead allowed := by
    obtain ⟨form'', hform, _, _, hfields⟩ := h.1.toSexp (Slot.ne_literal hslot)
    obtain rfl := Form.toSexp_inj hform
    have hmacroHead : form.head ≠ "macro" := fun hmacroHead => by
      rw [hmacroHead] at hhead
      cases hhead
    exact carries_parts ((hfields hmacroHead).and (h.2.fields hslot hhead)) allowed
  path hhead := by
    have haccepted : (Place.form form).IsAccepted := by
      have hplaces := h.2
      rw [IsAccepted, places_toSexp hslot, if_pos hhead] at hplaces
      exact hplaces _ (List.mem_singleton_self _)
    exact carries_readPathForm h.1 (Slot.ne_literal hslot) haccepted
  macroCall hhead := by
    obtain ⟨form'', hform, _, hmacroHead, _⟩ := h.1.toSexp (Slot.ne_literal hslot)
    obtain rfl := Form.toSexp_inj hform
    have hitems := hmacroHead hhead
    simp only [Form.toSexp, Sexp.unlined, Sexp.unlinedAll_eq, List.map_cons, Sexp.list.injEq,
      List.cons.injEq] at hitems
    exact carries_readMacro hitems.2.2

/-- Documents with other texts are read alike, where no text that was replaced was refused. -/
theorem readAlike_replaced : ReadAlike noReference Replaced where
  bare {value value'} h := by
    have hbare := h.1.bare
    generalize value.word? = word at hbare ⊢
    generalize value'.word? = word' at hbare ⊢
    cases hbare with
    | none => exact .none
    | some _ => exact .some (noReference_eq ..)
  word h hword := h.1.word_eq.trans hword
  span h := h.1.spanOf
  form hslot h := by
    obtain ⟨form', rfl, _⟩ := h.1.toSexp (Slot.ne_literal hslot)
    exact ⟨form', rfl, formsAlike_of_replaced h hslot⟩
  literal h := by
    rw [← Sexp.plainText_unlined, h.1.unlined_eq, Sexp.plainText_unlined]
  length h := h.1.arrayLength_eq

/-! ## Crates -/

/-- What is read as a crate is one form, with items only. -/
theorem gives_readCrate (values : List Sexp) :
    Gives (readCrate values) fun _ => ∃ (form : Form) (parts : Form.Parts),
      values = [form.toSexp] ∧ form.head = "crate" ∧ form.parts [] [] = .ok parts := by
  unfold readCrate
  split
  · exact nofun
  · refine Gives.bind (fun _ => Form.ofSexp_eq_ok_iff.1) ?_
    rintro form rfl
    refine .checked fun hhead => Gives.self.bind fun parts hparts => ?_
    exact fun _ _ => ⟨form, parts, rfl, by simpa using hhead, hparts⟩
  · exact nofun

/-- The items of crates with one outline. -/
theorem carries_items {form form' : Form} (h : SameOutline .form form.toSexp form'.toSexp)
    (hhead : form.head = "crate") :
    Carries (form.parts [] []) (form'.parts [] []) fun parts parts' =>
      (parts.positional = form.items ∧ parts'.positional = form'.items) ∧
        List.Forall₂ (SameOutline .form) form.items form'.items := by
  have hcarries := h.carries_parts nofun
  rw [hhead] at hcarries
  intro parts hparts
  obtain ⟨parts', hparts', hlike⟩ := hcarries nofun [] parts hparts
  have hpositional := positional_parts_nil form parts hparts
  have hpositional' := positional_parts_nil form' parts' hparts'
  refine ⟨parts', hparts', ⟨hpositional, hpositional'⟩, ?_⟩
  rw [← hpositional, ← hpositional']
  exact hlike.positional.forall₂ fun _ => rfl

theorem itemAlike_of_sameOutline {item item' : Sexp} (h : SameOutline .form item item')
    (haccepted : ∀ form : Form, item = form.toSexp → form.head = "impl" → IsAccepted .form item) :
    ItemAlike noReference Replaced item item' where
  word _ hword := h.word_eq.trans hword
  form form hform := by
    subst hform
    obtain ⟨form', rfl, hhead, _⟩ := h.toSexp nofun
    refine ⟨form', rfl, hhead, fun himpl => ?_, fun hsuppress => ?_⟩
    · exact formsAlike_of_replaced ⟨h, haccepted form rfl himpl⟩ rfl
    · have hcarries := h.carries_parts nofun
      rw [hsuppress] at hcarries
      refine carries_readMark SameOutline.word_eq (fun hvalue hnumber => ?_) (hcarries nofun)
      subst hnumber
      exact hvalue.eq_of_isAtom rfl

theorem mem_implsAmong {items : List Sexp} {form : Form} (hform : form.toSexp ∈ items)
    (hhead : form.head = "impl") : form ∈ implsAmong items := by
  refine List.mem_filter.2 ⟨List.mem_filterMap.2 ⟨_, hform, rfl⟩, ?_⟩
  simpa using hhead

theorem formOf?_eq_some_iff {value : Sexp} {form : Form} :
    formOf? value = some form ↔ value = form.toSexp := by
  refine ⟨fun h => Form.ofSexp_eq_ok_iff.1 (eq_ok_of_toOption h), ?_⟩
  rintro rfl
  rfl

/-- What is a form in neither of two documents with one outline. -/
theorem formOf?_eq_none_of_sameOutline {value value' : Sexp} (h : SameOutline .form value value')
    (hvalue : formOf? value = none) : formOf? value' = none := by
  refine Option.eq_none_iff_forall_ne_some.2 fun form' hform' => ?_
  obtain rfl := formOf?_eq_some_iff.1 hform'
  have hback : SameOutline .form form'.toSexp value := Eq.symm h
  obtain ⟨form, rfl, _⟩ := hback.toSexp nofun
  cases hvalue

theorem samePlaces_items {items items' : List Sexp}
    (h : List.Forall₂ (SameOutline .form) items items') :
    List.Forall₂ SamePlace ((implsAmong items).flatMap fun form => places .form form.toSexp)
      ((implsAmong items').flatMap fun form => places .form form.toSexp) := by
  induction h with
  | nil => exact .nil
  | @cons item item' rest rest' hitem _ ih =>
      cases hform : formOf? item with
      | none =>
          rw [implsAmong_cons_none hform,
            implsAmong_cons_none (formOf?_eq_none_of_sameOutline hitem hform)]
          exact ih
      | some form =>
          obtain rfl := formOf?_eq_some_iff.1 hform
          obtain ⟨form', rfl, hhead, _⟩ := hitem.toSexp nofun
          rw [implsAmong_cons, implsAmong_cons, hhead]
          split
          · exact List.rel_append (keepsPlaces .form form.toSexp _ hitem) ih
          · exact ih

/-- Where path texts are replaced, a crate is still read, with other references at most. -/
theorem carries_readCrate {values values' : List Sexp}
    (h : values'.map (outline .form) = values.map (outline .form))
    (haccepted : ∀ place ∈ documentPlaces values, place.IsAccepted) :
    Carries (readCrate values) (readCrate values') fun crate crate' =>
      crate'.mapReferences noReference = crate.mapReferences noReference ∧
        List.Forall₂ SamePlace (documentPlaces values) (documentPlaces values') := by
  intro crate hcrate
  obtain ⟨form, parts, rfl, hhead, hparts⟩ := gives_readCrate values crate hcrate
  obtain ⟨value', rfl, hsame⟩ := List.map_eq_singleton_iff.1 h
  obtain ⟨form', rfl, hhead', _⟩ := SameOutline.toSexp hsame nofun
  rw [documentPlaces_toSexp] at haccepted ⊢
  rw [documentPlaces_toSexp]
  have hitems := carries_items hsame hhead
  have himpls (item : Sexp) (hitem : item ∈ form.items) (block : Form)
      (hblock : item = block.toSexp) (himpl : block.head = "impl") : IsAccepted .form item := by
    subst hblock
    exact fun place hplace => haccepted place
      (List.mem_flatMap.2 ⟨block, mem_implsAmong hitem himpl, hplace⟩)
  have hpositional : Carries (form.parts [] []) (form'.parts [] []) fun parts parts' =>
      List.Forall₂ (ItemAlike noReference Replaced) parts.positional parts'.positional := by
    refine hitems.mono fun parts parts' hparts => ?_
    obtain ⟨⟨hpositional, hpositional'⟩, hsameItems⟩ := hparts
    rw [hpositional, hpositional']
    exact ((List.forall₂_and_left _ _).2 ⟨himpls, hsameItems⟩).imp fun item item' h =>
      itemAlike_of_sameOutline h.2 h.1
  have hdepth := SameOutline.keepsDepth .form form.toSexp _ hsame
  obtain ⟨crate', hcrate', hmapped⟩ :=
    alike_readCrate readAlike_replaced hhead' hdepth hpositional crate hcrate
  obtain ⟨_, _, _, hsameItems⟩ := hitems parts hparts
  exact ⟨crate', hcrate', hmapped, samePlaces_items hsameItems⟩

end Dump

open Dump

/-- A dump whose path texts are all accepted stays readable whatever texts are put in their places,
accepted or not. Its tree is the same but for the references, which are read at the same places as
before, each from what is written at its own place; where a text is refused there is a language
item. -/
theorem Crate.ofDump_of_replaced_texts {text text' name : String} {values values' : List Sexp}
    {crate : Crate} (hvalues : readValues text = .ok values)
    (hcrate : Crate.ofDump text name = .ok crate)
    (haccepted : ∀ place ∈ documentPlaces values, place.IsAccepted)
    (hvalues' : readValues text' = .ok values')
    (hsame : values'.map (outline .form) = values.map (outline .form)) :
    ∃ crate', Crate.ofDump text' name = .ok crate' ∧
      crate'.mapReferences noReference = crate.mapReferences noReference ∧
      List.Forall₂ SamePlace (documentPlaces values) (documentPlaces values') ∧
      crate.references = (documentPlaces values).map Place.reference ∧
      crate'.references = (documentPlaces values').map Place.reference ∧
      ∀ place ∈ documentPlaces values', ¬ place.IsAccepted →
        place.reference.isLanguageItem = true := by
  obtain ⟨_, hread, hcrate⟩ := Crate.ofDump_eq_ok_iff.1 hcrate
  obtain rfl := Except.ok.inj (hvalues.symm.trans hread)
  obtain ⟨crate', hcrate', hmapped, hplaces⟩ := carries_readCrate hsame haccepted crate hcrate
  have hdump' : Crate.ofDump text' name = .ok crate' :=
    Crate.ofDump_eq_ok_iff.2 ⟨values', hvalues', hcrate'⟩
  refine ⟨crate', hdump', hmapped, hplaces, ?_, ?_, ?_⟩
  · exact (readOnce_readCrate values crate hcrate).map_reference
  · exact (readOnce_readCrate values' crate' hcrate').map_reference
  · exact fun place _ => Place.isLanguageItem_of_not_isAccepted

/-- The texts of the trait and of the base are replaced by texts that are refused, and the path by
another one. -/
theorem Crate.ofDump_of_replaced_texts_refused :
    let document (trait path base : String) : List Sexp :=
      [.list (some 1) [.symbol "crate", .text "a.rs",
        .list (some 1) [.symbol "impl", .symbol ":trait", .text trait,
          .list (some 2) [.symbol "type", .symbol "Item",
            .list (some 2) [.symbol "tuple", .list (some 2) [.symbol "path", .text path],
              .list (some 2) [.symbol "relative", .text base, .text "B", .symbol ":res",
                .symbol "type"]]]]]]
    let text := "(crate \"a.rs\" (impl :trait \"T\"
      (type Item (tuple (path \"A\") (relative \"Self\" \"B\" :res type)))))"
    let text' := "(crate \"a.rs\" (impl :trait \"<\"
      (type Item (tuple (path \"C::D\") (relative \"\" \"B\" :res type)))))"
    let values := document "T" "A" "Self"
    let values' := document "<" "C::D" ""
    readValues text = .ok values ∧ readValues text' = .ok values' ∧
      (∀ place ∈ documentPlaces values, place.IsAccepted) ∧
      values'.map (outline .form) = values.map (outline .form) ∧
      ∃ crate crate', Crate.ofDump text "dump" = .ok crate ∧
        Crate.ofDump text' "dump" = .ok crate' ∧
        crate'.mapReferences noReference = crate.mapReferences noReference ∧
        crate'.references.map Reference.isLanguageItem = [true, false, true] := by
  intro document text text' values values'
  have hvalues : readValues text = .ok values := eq_ok_of_toOption (by decide +kernel)
  have hvalues' : readValues text' = .ok values' := eq_ok_of_toOption (by decide +kernel)
  have haccepted : ∀ place ∈ documentPlaces values, place.IsAccepted := by decide +kernel
  have hsame : values'.map (outline .form) = values.map (outline .form) := rfl
  have hread : (Crate.ofDump text "dump").toOption.isSome := by decide +kernel
  obtain ⟨crate, hcrate⟩ := isSome_toOption.1 hread
  obtain ⟨crate', hcrate', hmapped, _, _, hreferences, _⟩ :=
    Crate.ofDump_of_replaced_texts hvalues hcrate haccepted hvalues' hsame
  refine ⟨hvalues, hvalues', haccepted, hsame, crate, crate', hcrate, hcrate', hmapped, ?_⟩
  rw [hreferences]
  decide +kernel

end AssocLint
