import AssocLint.Proofs.Dump.Places
import AssocLint.Proofs.Tree.References
import Mathlib.Data.List.Forall2

/-!
# What is read at the places of a document

`Reads places refs` says that references are what is read at places, one at each and in the same
order. Beside it stand the lemmas that following a reader takes: what a reading of several values
gives of each, and which places a form has once it has been taken apart.
-/

namespace AssocLint
namespace Dump

variable {α β : Type}

/-! ## Reading at a place -/

/-- A reference is what is read at a place. -/
def Place.IsReadAs : Place → Reference → Prop
  | .text path, ref => ref = pathText path none
  | .form pathForm, ref => ∃ outer span, readPathForm pathForm outer = .ok (ref, span)

theorem gives_resolution (parts : Form.Parts) :
    Gives (resolution parts) fun res => res = writtenResolution? parts := by
  unfold resolution Form.Parts.mapValue writtenResolution?
  cases parts.value? "res" with
  | none =>
      exact .ok rfl
  | some value =>
      dsimp only
      split
      · rename_i hres
        exact .ok hres.symm
      · exact Gives.fault.bind (P := fun _ => False) fun _ hfalse => hfalse.elim

theorem Place.reference_form {form : Form} {written : Written}
    (h : writtenIn? form = some written) :
    (Place.form form).reference = written.reference := by
  rw [reference, written?, h, Option.elim_some]

/-- What a form that writes a path is read as. -/
theorem gives_readPathForm (form : Form) (outer : Span) :
    Gives (readPathForm form outer) fun answer => (Place.form form).reference = answer.1 := by
  obtain ⟨line, head, items⟩ := form
  unfold readPathForm
  dsimp only
  split
  · refine Gives.self.bind fun parts hparts => ?_
    refine Gives.bind (fun _ => parts.one_eq_ok_iff.1) fun value hvalue => ?_
    refine Gives.text.bind fun text htext => (gives_resolution parts).bind fun res hres => ?_
    refine .step fun span => .ok ?_
    subst hres
    exact Place.reference_form (Writes.text rfl hparts hvalue htext).writtenIn?_eq
  · refine Gives.self.bind fun parts hparts => ?_
    refine Gives.bind (fun _ => parts.two_eq_ok_iff.1) fun (base, member) hitems => ?_
    refine Gives.text.bind fun base hbase => Gives.text.bind fun member hmember => ?_
    have hwritten := Writes.member rfl hparts hitems hbase hmember
    rw [Place.reference_form hwritten.writtenIn?_eq, Written.reference]
    cases memberText? base member with
    | none => exact .step fun span => .ok rfl
    | some ref =>
        refine (gives_resolution parts).bind fun res hres => .step fun span => .ok ?_
        rw [hres]
        rfl
  · refine Gives.self.bind fun parts hparts => ?_
    refine Gives.bind (fun _ => parts.one_eq_ok_iff.1) fun value hvalue => ?_
    refine Gives.text.bind fun tag htag => .step fun span => .ok ?_
    exact Place.reference_form (Writes.tag rfl hparts hvalue htag).writtenIn?_eq
  · exact .fault

/-- The reference that is read at a place is the one written there. -/
theorem Place.IsReadAs.reference_eq {place : Place} {ref : Reference} (h : place.IsReadAs ref) :
    place.reference = ref := by
  cases place with
  | text path =>
      exact h.symm
  | form pathForm =>
      obtain ⟨outer, span, hread⟩ := h
      exact gives_readPathForm pathForm outer _ hread

/-- Several references are what is read at several places. -/
def Reads (places : List Place) (refs : List Reference) : Prop :=
  List.Forall₂ Place.IsReadAs places refs

namespace Reads

variable {places places' : List Place} {refs refs' : List Reference}

theorem nil : Reads [] [] :=
  List.Forall₂.nil

theorem single {place : Place} {ref : Reference} (h : place.IsReadAs ref) : Reads [place] [ref] :=
  List.Forall₂.cons h nil

theorem append (h : Reads places refs) (h' : Reads places' refs') :
    Reads (places ++ places') (refs ++ refs') :=
  List.rel_append h h'

/-- What is read where a value may be missing. -/
theorem optional {placesIn : α → List Place} {refsIn : β → List Reference}
    (all : Option β → List Reference) (hnone : all none = [])
    (hsome : ∀ tree, all (some tree) = refsIn tree) {value : Option α} {tree : Option β}
    (h : Option.Rel (fun value tree => Reads (placesIn value) (refsIn tree)) value tree) :
    Reads (value.elim [] placesIn) (all tree) := by
  cases h with
  | none =>
      rw [hnone]
      exact .nil
  | some h =>
      rw [hsome]
      exact h

theorem elim {placesIn : α → List Place} {refsIn : β → List Reference} {value : Option α}
    {tree : Option β} (h : Option.Rel (fun value tree => Reads (placesIn value) (refsIn tree))
      value tree) : Reads (value.elim [] placesIn) (tree.elim [] refsIn) :=
  .optional (·.elim [] refsIn) rfl (fun _ => rfl) h

/-- What is read item by item, and gathered item by item. -/
theorem gathered {placesIn : α → List Place} {refsIn : β → List Reference}
    (all : List β → List Reference) (hnil : all [] = [])
    (hcons : ∀ tree rest, all (tree :: rest) = refsIn tree ++ all rest) {values : List α}
    {trees : List β} (h : List.Forall₂ (fun value tree => Reads (placesIn value) (refsIn tree))
      values trees) : Reads (values.flatMap placesIn) (all trees) := by
  induction h with
  | nil =>
      rw [hnil]
      exact .nil
  | cons h _ ih =>
      rw [hcons, List.flatMap_cons]
      exact h.append ih

theorem map_reference (h : Reads places refs) : refs = places.map Place.reference := by
  induction h with
  | nil => rfl
  | cons h _ ih => rw [ih, List.map_cons, h.reference_eq]

end Reads

theorem reads_bare {value : Sexp} {text : String} (h : value.word? = some text) :
    Reads (places .path value) [pathText text none] := by
  rw [places_bare h]
  exact .single rfl

theorem reads_word {value : Sexp} {text : String} (h : value.word? = some text) :
    Reads (places .form value) [] := by
  rw [places_of_word h]
  exact .nil

theorem reads_pathForm {form : Form} {outer span : Span} {ref : Reference}
    (h : readPathForm form outer = .ok (ref, span)) (hhead : pathHeads.contains form.head)
    {slot : Slot} (hslot : slot.isRead) : Reads (places slot form.toSexp) [ref] := by
  rw [places_toSexp hslot, if_pos hhead]
  exact .single ⟨outer, span, h⟩

/-! ## Reading several values -/

namespace Gives

variable {R : α → β → Prop} {read : α → DumpResult β}

/-- Each result belongs to its value. -/
theorem mapM_rel (h : ∀ value, Gives (read value) (R value)) (values : List α) :
    Gives (values.mapM read) (List.Forall₂ R values) := by
  induction values with
  | nil =>
      exact ok .nil
  | cons value rest ih =>
      rw [List.mapM_cons]
      exact (h value).bind fun result hresult => ih.bind fun results hresults =>
        ok (.cons hresult hresults)

theorem optionMapM_rel (h : ∀ value, Gives (read value) (R value)) (value : Option α) :
    Gives (value.mapM read) (Option.Rel R value) := by
  cases value with
  | none => exact ok .none
  | some value => exact (h value).bind fun result hresult => ok (.some hresult)

theorem mapValue_rel {R : Sexp → β → Prop} {read : Sexp → DumpResult β}
    (h : ∀ value, Gives (read value) (R value)) (parts : Form.Parts) (name : String) :
    Gives (parts.mapValue name read) (Option.Rel R (parts.value? name)) := by
  unfold Form.Parts.mapValue
  cases parts.value? name with
  | none => exact ok .none
  | some value => exact (h value).bind fun result hresult => ok (.some hresult)

end Gives

/-! ## What a form holds -/

section Parts

variable {parts : Form.Parts} {form : Form} {allowed flags : List String}

theorem placesOf_of_not_mem (hparts : PartsOf parts form allowed flags) {name : String}
    (h : name ∉ allowed) : placesOf parts name = [] := by
  rw [placesOf, hparts.value?_eq_none h]
  rfl

/-- A span holds numbers only. -/
theorem gives_spanOf (file : String) (value : Sexp) :
    Gives (form.spanOf file value) fun _ => places .form value = [] := by
  intro span hspan
  have hwritten := spanOf_eq_ok_iff.1 hspan
  unfold writtenSpan? at hwritten
  split at hwritten
  · rfl
  · rfl
  · cases hwritten

theorem gives_span (parts : Form.Parts) (outer : Span) :
    Gives (parts.span outer) fun _ => placesOf parts "span" = [] := by
  unfold Form.Parts.span placesOf
  cases parts.value? "span" with
  | none => exact .ok rfl
  | some value => exact gives_spanOf outer.file value

/-- The places of a form, in the order of the tree. -/
theorem places_of_parts (hparts : PartsOf parts form allowed (flagsOf form.head))
    (hallowed : ∀ name ∈ allowed, some name ∈ treeOrder) (hspan : placesOf parts "span" = [])
    (hhead : isTakenApart form.head) {slot : Slot} (hslot : slot.isRead) :
    places slot form.toSexp =
      placesOf parts "trait" ++ (placesOf parts "self-ty" ++
        (placesFrom form.head 0 parts.positional ++ (placesOf parts "ty" ++
          (placesOf parts "init" ++ (placesOf parts "else" ++ (placesOf parts "guard" ++
            (placesOf parts "ret" ++ placesOf parts "base"))))))) := by
  rw [places_eq_placesOfParts hparts hallowed hhead hslot, placesOfParts, hparts.form_eq]
  simp only [treeOrder, List.flatMap_cons, List.flatMap_nil, Option.elim_some, Option.elim_none,
    hspan, List.append_nil]

/-- The places of a form that may have a span and no other keyword. -/
theorem places_spanned (hparts : PartsOf parts form ["span"] (flagsOf form.head))
    (hspan : placesOf parts "span" = []) (hhead : isTakenApart form.head)
    {slot : Slot} (hslot : slot.isRead) :
    places slot form.toSexp = placesFrom form.head 0 parts.positional := by
  rw [places_of_parts hparts (by decide) hspan hhead hslot]
  simp (disch := decide) only [placesOf_of_not_mem hparts, List.nil_append, List.append_nil]

/-- The places of a form that may have no keyword. -/
theorem places_plain (hparts : PartsOf parts form [] (flagsOf form.head))
    (hhead : isTakenApart form.head) :
    places .form form.toSexp = placesFrom form.head 0 parts.positional := by
  have habsent (name : String) : placesOf parts name = [] :=
    placesOf_of_not_mem hparts List.not_mem_nil
  rw [places_of_parts hparts (List.forall_mem_nil _) (habsent "span") hhead rfl]
  simp only [habsent, List.nil_append, List.append_nil]

end Parts

section PlacesFrom

variable {head : String} {index : Nat} {slot : Slot}

/-- Items from some point on that are all read in one way. -/
theorem placesFrom_eq_flatMap (h : ∀ more, slotAt head (more + index) = slot) (items : List Sexp) :
    placesFrom head index items = items.flatMap (places slot) := by
  induction items generalizing index with
  | nil =>
      rfl
  | cons item rest ih =>
      obtain ⟨hfirst, hrest⟩ := at_and_behind (P := fun index => slotAt head index = slot) h
      rw [placesFrom, ih hrest, hfirst, List.flatMap_cons]

/-- Items from some point on that are not read. -/
theorem placesFrom_eq_nil (h : ∀ more, slotAt head (more + index) = slot)
    (hslot : slot.isRead = false) (items : List Sexp) : placesFrom head index items = [] := by
  rw [placesFrom_eq_flatMap h]
  exact List.flatMap_eq_nil_iff.2 fun item _ => places_eq_nil hslot item

/-- An item that may be missing. -/
theorem placesFrom_toList (item : Option Sexp) :
    placesFrom head index item.toList = item.elim [] (places (slotAt head index)) := by
  cases item with
  | none => rfl
  | some item => exact List.append_nil _

end PlacesFrom

end Dump
end AssocLint
