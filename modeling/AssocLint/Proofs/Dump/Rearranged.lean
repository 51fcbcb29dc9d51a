import AssocLint.Proofs.Dump.Beside

/-!
# Fields in another order

A form may hold its keywords anywhere among its items. Where two forms have the same items in the
same order and the same keywords in any order (`Rearranged`), their parts are the same: the keywords
are told apart by their names, of which none may be repeated (`carries_parts_rearranged`).
-/

namespace AssocLint
namespace Dump

/-! ## Rearranged fields -/

/-- The fields of a form that are no items. -/
def keywordFields {β : Type} (fields : List (Field β)) : List (Field β) :=
  fields.filter fun field => field.item?.isNone

/-- The items of two forms are related one by one, and so are their keywords, in whatever order
these stand. -/
structure Rearranged {β β' : Type} (R : β → β' → Prop) (fields : List (Field β))
    (fields' : List (Field β')) : Prop where
  items : List.Forall₂ R (fields.filterMap Field.item?) (fields'.filterMap Field.item?)
  keywords : ∃ moved, List.Forall₂ (Field.Beside R) (keywordFields fields) moved ∧
    moved.Perm (keywordFields fields')

/-! ## Keywords by their names -/

namespace Field

/-- What a field adds to the keywords of a form. -/
def entry? {β : Type} : Field β → Option (String × Option β)
  | .keyword name value => some (name, some value)
  | .flag name => some (name, none)
  | _ => none

/-- Whether a form that may hold the given keywords and flags may hold a field. -/
def IsAdmitted {β : Type} (allowed flags : List String) : Field β → Prop
  | .item _ | .flag _ => True
  | .keyword name _ => name ∈ allowed ∨ name ∈ flags
  | .unfinished _ => False

end Field

theorem lookup_eq_none {keywords : List (String × Option Sexp)} {name : String} :
    keywords.lookup name = none ↔ name ∉ keywords.map Prod.fst := by
  rw [List.lookup_eq_none_iff, List.mem_map]
  simp only [bne_iff_ne, ne_eq, not_exists, not_and, @eq_comm _ name]

/-- Where no keyword is repeated their order does not matter. -/
theorem lookup_perm {keywords keywords' : List (String × Option Sexp)}
    (h : keywords.Perm keywords') (hnodup : (keywords.map Prod.fst).Nodup) (name : String) :
    keywords'.lookup name = keywords.lookup name := by
  induction h with
  | nil => rfl
  | cons entry _ ih =>
      rw [List.lookup_cons, List.lookup_cons, ih (List.nodup_cons.1 hnodup).2]
  | swap first second rest =>
      obtain ⟨first, value⟩ := first
      obtain ⟨second, value'⟩ := second
      have hne : second ≠ first := by
        simp only [List.map_cons, List.nodup_cons, List.mem_cons, not_or] at hnodup
        exact hnodup.1.1
      by_cases hname : first = name
      · subst hname
        rw [List.lookup_cons_self, lookup_cons_ne hne, List.lookup_cons_self]
      · rw [lookup_cons_ne hname, List.lookup_cons, List.lookup_cons, lookup_cons_ne hname]
  | trans h _ ih ih' =>
      rw [ih' (((h.map Prod.fst).nodup_iff).1 hnodup), ih hnodup]

section OfFields

variable (form : Form) (allowed flags : List String) (keywords : List (String × Option Sexp))
  (fields : List (Field Sexp))

/-- Of the parts of a form: every field may be there, and no keyword is repeated. -/
theorem keywords_ofFields (hnodup : (keywords.map Prod.fst).Nodup) :
    Gives (ofFields form allowed flags keywords fields) fun parts =>
      (∀ field ∈ fields, field.IsAdmitted allowed flags) ∧
        parts.keywords = (fields.filterMap Field.entry?).reverse ++ keywords ∧
        (parts.keywords.map Prod.fst).Nodup := by
  fun_induction ofFields form allowed flags keywords fields with
  | case1 => exact .ok ⟨List.forall_mem_nil _, rfl, hnodup⟩
  | case2 keywords value rest ih =>
      refine (ih hnodup).bind fun parts hparts => .ok ?_
      exact ⟨List.forall_mem_cons.2 ⟨trivial, hparts.1⟩, hparts.2⟩
  | case5 keywords name value rest hknown hnew ih =>
      have hname := lookup_eq_none.1 (Option.not_isSome_iff_eq_none.1 hnew)
      intro parts hparts
      obtain ⟨hadmitted, hkeywords, hdistinct⟩ :=
        ih (List.nodup_cons.2 ⟨hname, hnodup⟩) parts hparts
      refine ⟨List.forall_mem_cons.2 ⟨?_, hadmitted⟩, ?_, hdistinct⟩
      · simpa [Field.IsAdmitted, Decidable.or_iff_not_imp_left] using hknown
      · simp [hkeywords, Field.entry?]
  | case7 keywords name rest hnew ih =>
      have hname := lookup_eq_none.1 (Option.not_isSome_iff_eq_none.1 hnew)
      intro parts hparts
      obtain ⟨hadmitted, hkeywords, hdistinct⟩ :=
        ih (List.nodup_cons.2 ⟨hname, hnodup⟩) parts hparts
      refine ⟨List.forall_mem_cons.2 ⟨trivial, hadmitted⟩, ?_, hdistinct⟩
      simp [hkeywords, Field.entry?]
  | _ => exact .fault

/-- Where every field may be there and no keyword is repeated, the parts can be told. -/
theorem ofFields_of_isAdmitted (hadmitted : ∀ field ∈ fields, field.IsAdmitted allowed flags)
    (hnodup : (((fields.filterMap Field.entry?).reverse ++ keywords).map Prod.fst).Nodup) :
    ofFields form allowed flags keywords fields =
      .ok ⟨form, fields.filterMap Field.item?,
        (fields.filterMap Field.entry?).reverse ++ keywords⟩ := by
  have hnew {name : String} {value : Option Sexp} {entries : List (String × Option Sexp)}
      {keywords : List (String × Option Sexp)}
      (h : ((entries ++ (name, value) :: keywords).map Prod.fst).Nodup) :
      keywords.lookup name = none := by
    -- No name comes twice, so the one at hand is none of those met before.
    rw [List.map_append] at h
    exact lookup_eq_none.2 (List.nodup_cons.1 (List.nodup_append.1 h).2.1).1
  induction fields generalizing keywords with
  | nil => rfl
  | cons field rest ih =>
      obtain ⟨hfield, hrest⟩ := List.forall_mem_cons.1 hadmitted
      cases field with
      | item value =>
          rw [ofFields, ih keywords hrest hnodup]
          rfl
      | keyword name value =>
          simp only [List.filterMap_cons, Field.entry?, List.reverse_cons, List.append_assoc,
            List.singleton_append] at hnodup ⊢
          have hknown : (!allowed.contains name && !flags.contains name) = false := by
            simpa [Field.IsAdmitted, Decidable.or_iff_not_imp_left] using hfield
          rw [ofFields, hknown, hnew hnodup, ih _ hrest hnodup]
          rfl
      | flag name =>
          simp only [List.filterMap_cons, Field.entry?, List.reverse_cons, List.append_assoc,
            List.singleton_append] at hnodup ⊢
          rw [ofFields, hnew hnodup, ih _ hrest hnodup]
          rfl
      | unfinished name => exact hfield.elim

end OfFields

/-! ## Parts of rearranged forms -/

/-- A keyword of one form beside the same keyword of another, with a related value. -/
inductive KeywordLike (like : Likeness) : Field Sexp → Field Sexp → Prop
  | keyword {name : String} {value value' : Sexp} (h : like (slotOf name) value value') :
      KeywordLike like (.keyword name value) (.keyword name value')
  | flag {name : String} : KeywordLike like (.flag name) (.flag name)
  | unfinished {name : String} : KeywordLike like (.unfinished name) (.unfinished name)

/-- The fields of two forms are related, whatever the order of the keywords. -/
structure RearrangedLike (like : Likeness) (head : String) (fields fields' : List (Field Sexp)) :
    Prop where
  items : LikeFrom like head 0 (fields.filterMap Field.item?) (fields'.filterMap Field.item?)
  keywords : ∃ moved, List.Forall₂ (KeywordLike like) (keywordFields fields) moved ∧
    moved.Perm (keywordFields fields')

/-- Items add nothing to the keywords. -/
theorem filterMap_entry_keywordFields {β : Type} (fields : List (Field β)) :
    (keywordFields fields).filterMap Field.entry? = fields.filterMap Field.entry? := by
  induction fields with
  | nil => rfl
  | cons field rest ih =>
      cases field with
      | item value => exact ih
      | keyword name value => exact congrArg ((name, some value) :: ·) ih
      | flag name => exact congrArg ((name, none) :: ·) ih
      | unfinished name => exact ih

/-- Whether a form may hold its fields is seen from the keywords. -/
theorem forall_isAdmitted_iff {allowed flags : List String} {fields : List (Field Sexp)} :
    (∀ field ∈ fields, field.IsAdmitted allowed flags) ↔
      ∀ field ∈ keywordFields fields, field.IsAdmitted allowed flags := by
  refine ⟨fun h field hfield => h field (List.mem_of_mem_filter hfield), fun h field hfield => ?_⟩
  cases field with
  | item value => trivial
  | _ => exact h _ (List.mem_filter.2 ⟨hfield, rfl⟩)

section Like

variable {like : Likeness} {fields moved : List (Field Sexp)}
  (h : List.Forall₂ (KeywordLike like) fields moved)
include h

theorem keywordsLike_entries {keywords keywords' : List (String × Option Sexp)}
    (hkeywords : KeywordsLike like keywords keywords') :
    KeywordsLike like ((fields.filterMap Field.entry?).reverse ++ keywords)
      ((moved.filterMap Field.entry?).reverse ++ keywords') := by
  induction h generalizing keywords keywords' with
  | nil => exact hkeywords
  | cons hfield _ ih =>
      cases hfield with
      | keyword hvalue => simpa [Field.entry?] using ih (hkeywords.cons (.some hvalue))
      | flag => simpa [Field.entry?] using ih (hkeywords.cons .none)
      | unfinished => exact ih hkeywords

theorem map_fst_entries :
    (moved.filterMap Field.entry?).map Prod.fst = (fields.filterMap Field.entry?).map Prod.fst := by
  induction h with
  | nil => rfl
  | cons hfield _ ih =>
      cases hfield with
      | keyword | flag => exact congrArg (_ :: ·) ih
      | unfinished => exact ih

theorem isAdmitted_moved {allowed flags : List String}
    (hfields : ∀ field ∈ fields, field.IsAdmitted allowed flags) :
    ∀ field ∈ moved, field.IsAdmitted allowed flags := by
  induction h with
  | nil => exact List.forall_mem_nil _
  | cons hfield _ ih =>
      obtain ⟨hfirst, hrest⟩ := List.forall_mem_cons.1 hfields
      refine List.forall_mem_cons.2 ⟨?_, ih hrest⟩
      cases hfield <;> exact hfirst

end Like

/-- Forms with rearranged fields have related parts. -/
theorem carries_parts_rearranged {like : Likeness} {form form' : Form} {flags : List String}
    (h : RearrangedLike like form.head (fieldsOf flags form.items) (fieldsOf flags form'.items))
    (allowed : List String) :
    Carries (form.parts allowed flags) (form'.parts allowed flags) (PartsLike like form.head) := by
  intro parts hparts
  rw [Form.parts, split_eq_ofFields] at hparts ⊢
  generalize fieldsOf flags form.items = fields at *
  generalize fieldsOf flags form'.items = fields' at *
  obtain ⟨moved, hlike, hmoved⟩ := h.keywords
  obtain ⟨hadmitted, hentries, hnodup⟩ :=
    keywords_ofFields form allowed flags [] fields List.nodup_nil parts hparts
  obtain ⟨_, hpositional⟩ := positional_ofFields form allowed flags [] fields parts hparts
  rw [List.append_nil, ← filterMap_entry_keywordFields] at hentries
  -- Each moved keyword may be there, and no name comes twice, so the second form is taken apart too.
  have hadmitted' : ∀ field ∈ fields', field.IsAdmitted allowed flags :=
    forall_isAdmitted_iff.2 fun field hfield =>
      isAdmitted_moved hlike (forall_isAdmitted_iff.1 hadmitted) field (hmoved.mem_iff.2 hfield)
  have hperm : (moved.filterMap Field.entry?).reverse.Perm
      (fields'.filterMap Field.entry?).reverse := by
    rw [← filterMap_entry_keywordFields fields']
    exact (List.reverse_perm _).trans ((hmoved.filterMap _).trans (List.reverse_perm _).symm)
  have hdistinct : ((moved.filterMap Field.entry?).reverse.map Prod.fst).Nodup := by
    rwa [List.map_reverse, map_fst_entries hlike, ← List.map_reverse, ← hentries]
  have hread := ofFields_of_isAdmitted form' allowed flags [] fields' hadmitted' (by
    rw [List.append_nil]
    exact ((hperm.map _).nodup_iff).1 hdistinct)
  rw [List.append_nil] at hread
  -- With distinct names a look-up does not depend on the order of the entries.
  have hnil : KeywordsLike like [] [] := ⟨fun _ => .none, fun _ => rfl⟩
  have hkeywords : KeywordsLike like parts.keywords (moved.filterMap Field.entry?).reverse := by
    simpa [hentries] using keywordsLike_entries hlike hnil
  refine ⟨_, hread, hpositional ▸ h.items, fun name => ?_, fun name => ?_⟩
  · rw [Form.Parts.value?, Form.Parts.value?, lookup_perm hperm hdistinct name]
    exact hkeywords.value? name
  · rw [Form.Parts.has, Form.Parts.has, lookup_perm hperm hdistinct name]
    exact hkeywords.has name

/-! ## Rearranged fields one by one -/

section

variable {like like' : Likeness} {P : Slot → Sexp → Prop} {head : String}

theorem LikeFrom.flip {index : Nat} {values values' : List Sexp}
    (h : LikeFrom like head index values values')
    (hflip : ∀ slot value value', like slot value value' → like' slot value' value) :
    LikeFrom like' head index values' values := by
  induction h with
  | nil => exact .nil
  | cons hitem _ ih => exact .cons (hflip _ _ _ hitem) ih

theorem KeywordLike.flip {field field' : Field Sexp} (h : KeywordLike like field field')
    (hflip : ∀ slot value value', like slot value value' → like' slot value' value) :
    KeywordLike like' field' field := by
  cases h with
  | keyword h => exact .keyword (hflip _ _ _ h)
  | flag => exact .flag
  | unfinished => exact .unfinished

/-- The keywords of the second form can be put beside those of the first as well. -/
theorem RearrangedLike.flip {fields fields' : List (Field Sexp)}
    (h : RearrangedLike like head fields fields')
    (hflip : ∀ slot value value', like slot value value' → like' slot value' value) :
    RearrangedLike like' head fields' fields := by
  obtain ⟨moved, hlike, hmoved⟩ := h.keywords
  refine ⟨h.items.flip hflip, List.perm_comp_forall₂ hmoved.symm ?_⟩
  exact List.Forall₂.flip (hlike.imp fun _ _ hfield => hfield.flip hflip)

theorem likeFrom_and {index : Nat} {fields : List (Field Sexp)} {values' : List Sexp}
    (h : LikeFrom like head index (fields.filterMap Field.item?) values')
    (hfields : AllFields P head index fields) :
    LikeFrom (fun slot value value' => like slot value value' ∧ P slot value) head index
      (fields.filterMap Field.item?) values' := by
  induction fields generalizing index values' with
  | nil =>
      cases h
      exact .nil
  | cons field rest ih =>
      cases field with
      | item value =>
          cases h with
          | cons hvalue hrest => exact .cons ⟨hvalue, hfields.1⟩ (ih hrest hfields.2)
      | keyword name value => exact ih h hfields.2
      | flag name | unfinished name => exact ih h hfields

theorem keywordLike_and {index : Nat} {fields moved : List (Field Sexp)}
    (h : List.Forall₂ (KeywordLike like) (keywordFields fields) moved)
    (hfields : AllFields P head index fields) :
    List.Forall₂ (KeywordLike fun slot value value' => like slot value value' ∧ P slot value)
      (keywordFields fields) moved := by
  induction fields generalizing index moved with
  | nil =>
      cases h
      exact .nil
  | cons field rest ih =>
      cases field with
      | item value => exact ih h hfields.2
      | keyword name value =>
          obtain _ | ⟨hvalue, hrest⟩ := h
          obtain ⟨hvalue⟩ := hvalue
          exact .cons (.keyword ⟨hvalue, hfields.1⟩) (ih hrest hfields.2)
      | flag name =>
          obtain _ | ⟨hvalue, hrest⟩ := h
          cases hvalue
          exact .cons .flag (ih hrest hfields)
      | unfinished name =>
          obtain _ | ⟨hvalue, hrest⟩ := h
          cases hvalue
          exact .cons .unfinished (ih hrest hfields)

/-- A property of what the first form holds may be added to the relation. -/
theorem RearrangedLike.and {fields fields' : List (Field Sexp)}
    (h : RearrangedLike like head fields fields') (hfields : AllFields P head 0 fields) :
    RearrangedLike (fun slot value value' => like slot value value' ∧ P slot value) head fields
      fields' := by
  obtain ⟨moved, hlike, hmoved⟩ := h.keywords
  exact ⟨likeFrom_and h.items hfields, moved, keywordLike_and hlike hfields, hmoved⟩

theorem likeFrom_of_allFields {index : Nat} {fields : List (Field Sexp)}
    (h : AllFields (fun slot value => like slot value value) head index fields) :
    LikeFrom like head index (fields.filterMap Field.item?) (fields.filterMap Field.item?) := by
  induction fields generalizing index with
  | nil => exact .nil
  | cons field rest ih =>
      cases field with
      | item value => exact .cons h.1 (ih h.2)
      | keyword name value => exact ih h.2
      | flag name | unfinished name => exact ih h

theorem keywordLike_of_allFields {index : Nat} {fields : List (Field Sexp)}
    (h : AllFields (fun slot value => like slot value value) head index fields) :
    List.Forall₂ (KeywordLike like) (keywordFields fields) (keywordFields fields) := by
  induction fields generalizing index with
  | nil => exact .nil
  | cons field rest ih =>
      cases field with
      | item value => exact ih h.2
      | keyword name value => exact .cons (.keyword h.1) (ih h.2)
      | flag name => exact .cons .flag (ih h)
      | unfinished name => exact .cons .unfinished (ih h)

/-- The same items in the same order, and the same keywords in another one. -/
theorem RearrangedLike.of_perm {fields fields' : List (Field Sexp)}
    (h : AllFields (fun slot value => like slot value value) head 0 fields)
    (hitems : fields'.filterMap Field.item? = fields.filterMap Field.item?)
    (hkeywords : (keywordFields fields).Perm (keywordFields fields')) :
    RearrangedLike like head fields fields' := by
  refine ⟨?_, _, keywordLike_of_allFields h, hkeywords⟩
  rw [hitems]
  exact likeFrom_of_allFields h

end

/-! ## Relations that are surveys -/

section

variable {combine : Slot → Sexp → Inside (Sexp → Prop) → Sexp → Prop} {head : String}

theorem forall₂_items_surveyEach {index : Nat} {fields : List (Field Sexp)} {values' : List Sexp} :
    List.Forall₂ (fun inside value' => inside value')
        ((surveyEach combine head index fields).filterMap Field.item?) values' ↔
      LikeFrom (survey combine) head index (fields.filterMap Field.item?) values' := by
  induction fields generalizing index values' with
  | nil =>
      refine ⟨fun h => ?_, fun h => ?_⟩
      · cases h
        exact .nil
      · cases h
        exact .nil
  | cons field rest ih =>
      cases field with
      | item value =>
          refine ⟨fun h => ?_, fun h => ?_⟩
          · obtain _ | ⟨hvalue, hrest⟩ := h
            exact .cons hvalue (ih.1 hrest)
          · obtain _ | ⟨hvalue, hrest⟩ := h
            exact .cons hvalue (ih.2 hrest)
      | _ => exact ih

theorem forall₂_keywords_surveyEach {index : Nat} {fields moved : List (Field Sexp)} :
    List.Forall₂ (Field.Beside fun inside value' => inside value')
        (keywordFields (surveyEach combine head index fields)) moved ↔
      List.Forall₂ (KeywordLike (survey combine)) (keywordFields fields) moved := by
  induction fields generalizing index moved with
  | nil =>
      refine ⟨fun h => ?_, fun h => ?_⟩
      · cases h
        exact .nil
      · cases h
        exact .nil
  | cons field rest ih =>
      cases field with
      | item value => exact ih
      | keyword name value =>
          refine ⟨fun h => ?_, fun h => ?_⟩
          · obtain _ | ⟨_ | hvalue, hrest⟩ := h
            exact .cons (.keyword hvalue) (ih.1 hrest)
          · obtain _ | ⟨⟨hvalue⟩, hrest⟩ := h
            exact .cons (.keyword hvalue) (ih.2 hrest)
      | flag name =>
          refine ⟨fun h => ?_, fun h => ?_⟩
          · obtain _ | ⟨⟨⟩, hrest⟩ := h
            exact .cons .flag (ih.1 hrest)
          · obtain _ | ⟨⟨⟩, hrest⟩ := h
            exact .cons .flag (ih.2 hrest)
      | unfinished name =>
          refine ⟨fun h => ?_, fun h => ?_⟩
          · obtain _ | ⟨⟨⟩, hrest⟩ := h
            exact .cons .unfinished (ih.1 hrest)
          · obtain _ | ⟨⟨⟩, hrest⟩ := h
            exact .cons .unfinished (ih.2 hrest)

/-- Where a relation is a survey, what it says of rearranged fields. -/
theorem rearranged_surveyEach_iff {fields fields' : List (Field Sexp)} :
    Rearranged (fun inside value' => inside value') (surveyEach combine head 0 fields) fields' ↔
      RearrangedLike (survey combine) head fields fields' := by
  refine ⟨fun h => ⟨forall₂_items_surveyEach.1 h.items, ?_⟩,
    fun h => ⟨forall₂_items_surveyEach.2 h.items, ?_⟩⟩
  · obtain ⟨moved, hbeside, hmoved⟩ := h.keywords
    exact ⟨moved, forall₂_keywords_surveyEach.1 hbeside, hmoved⟩
  · obtain ⟨moved, hlike, hmoved⟩ := h.keywords
    exact ⟨moved, forall₂_keywords_surveyEach.2 hlike, hmoved⟩

end

end Dump
end AssocLint
