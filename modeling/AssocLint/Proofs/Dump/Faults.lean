import AssocLint.Proofs.Dump.Fields

/-!
# What a fault is about

A fault of a form has the line of the form. Where a form is needed and something else stands, the
fault is about that value, and has its line if the value is a list. `Blames whole fault` says that a
fault is of one of these two kinds and is about something that stands in `whole`. `Blamed` says so
of every fault that a reading may end with, and the lemmas pass it on through the ways in which
readings are put together.
-/

namespace AssocLint

/-- A value is another one, or stands in it at some depth of lists. -/
inductive Sexp.Within : Sexp → Sexp → Prop where
  | refl (value : Sexp) : Within value value
  | item {part value : Sexp} {line : Option Nat} {items : List Sexp} (hitem : value ∈ items) :
      Within part value → Within part (.list line items)

theorem Sexp.Within.trans {part value whole : Sexp} (h : part.Within value)
    (hwhole : value.Within whole) : part.Within whole := by
  induction hwhole with
  | refl => exact h
  | item hitem _ ih => exact .item hitem ih

theorem Form.within_of_mem {form : Form} {item : Sexp} (h : item ∈ form.items) :
    item.Within form.toSexp :=
  .item (List.mem_cons_of_mem _ h) (.refl item)

/-- Whether a problem is one of a form. The others are those of a whole text, and that of a value
that stands in the place of a form. -/
def DumpProblem.isOfForm : DumpProblem → Bool
  | .malformed | .empty | .severalForms | .untagged _ => false
  | _ => true

namespace Dump

/-- A fault is one of a form that stands in a value, or of a value there that should be a form. -/
inductive Blames (whole : Sexp) : DumpFault → Prop where
  | form {form : Form} {problem : DumpProblem} (hform : form.toSexp.Within whole)
      (hproblem : problem.isOfForm) : Blames whole ⟨problem, some form.line⟩
  | untagged {part : Sexp} (hpart : part.Within whole) :
      Blames whole ⟨.untagged part, part.line?⟩

theorem Blames.mono {part whole : Sexp} {fault : DumpFault} (hpart : part.Within whole)
    (h : Blames part fault) : Blames whole fault := by
  cases h with
  | form hform hproblem => exact .form (hform.trans hpart) hproblem
  | untagged hvalue => exact .untagged (hvalue.trans hpart)

variable {α β : Type} {whole : Sexp}

/-- Whatever fault a reading ends with is about something in a value. -/
def Blamed (whole : Sexp) (result : DumpResult α) : Prop :=
  ∀ fault, result = .error fault → Blames whole fault

namespace Blamed

theorem ok (value : α) : Blamed whole (.ok value) :=
  nofun

theorem fault {form : Form} {problem : DumpProblem} (hform : form.toSexp.Within whole)
    (hproblem : problem.isOfForm) : Blamed whole (form.fault problem : DumpResult α) := by
  rintro _ ⟨⟩
  exact .form hform hproblem

theorem untagged (value : Sexp) :
    Blamed value (.error ⟨.untagged value, value.line?⟩ : DumpResult α) := by
  rintro _ ⟨⟩
  exact .untagged (.refl value)

/-- A reading of a part of a value. -/
theorem within {part : Sexp} {result : DumpResult α} (h : Blamed part result)
    (hpart : part.Within whole) : Blamed whole result :=
  fun fault hfault => (h fault hfault).mono hpart

/-- One reading after another, with what the first one gives. -/
theorem gives {P : α → Prop} {result : DumpResult α} {next : α → DumpResult β}
    (h : Blamed whole result) (hgives : Gives result P)
    (hnext : ∀ value, P value → Blamed whole (next value)) : Blamed whole (result >>= next) := by
  cases result with
  | error fault =>
      rintro _ ⟨⟩
      exact h fault rfl
  | ok value =>
      exact hnext value (hgives value rfl)

/-- One reading after another. -/
theorem bind {result : DumpResult α} {next : α → DumpResult β} (h : Blamed whole result)
    (hnext : ∀ value, Blamed whole (next value)) : Blamed whole (result >>= next) :=
  h.gives .self fun value _ => hnext value

/-- A last reading, whose value goes into the result. -/
theorem last {result : DumpResult α} {make : α → β} (h : Blamed whole result) :
    Blamed whole (result >>= fun value => pure (make value)) :=
  h.bind fun value => ok (make value)

theorem checked {failed : Prop} [Decidable failed] {form : Form} {problem : DumpProblem}
    {next : PUnit → DumpResult β} (hform : form.toSexp.Within whole) (hproblem : problem.isOfForm)
    (h : Blamed whole (next ⟨⟩)) :
    Blamed whole (if failed then form.fault problem >>= next else next ⟨⟩) := by
  split
  · exact (fault hform hproblem).bind fun _ => h
  · exact h

theorem mapM {values : List α} {read : α → DumpResult β}
    (h : ∀ value ∈ values, Blamed whole (read value)) : Blamed whole (values.mapM read) := by
  induction values with
  | nil =>
      exact ok []
  | cons value rest ih =>
      obtain ⟨hvalue, hrest⟩ := List.forall_mem_cons.1 h
      rw [List.mapM_cons]
      exact hvalue.bind fun _ => (ih hrest).last

/-- Several items of a value, each read on its own. -/
theorem items {read : Sexp → DumpResult α} (hread : ∀ value, Blamed value (read value))
    {items : List Sexp} (hitems : ∀ item ∈ items, item.Within whole) :
    Blamed whole (items.mapM read) :=
  mapM fun item hitem => (hread item).within (hitems item hitem)

/-- An item that may be missing. -/
theorem optional {read : Sexp → DumpResult α} (hread : ∀ value, Blamed value (read value))
    {item : Option Sexp} (hitem : ∀ value ∈ item, value.Within whole) :
    Blamed whole (item.mapM read) := by
  cases item with
  | none => exact ok none
  | some value => exact ((hread value).within (hitem value rfl)).last

theorem text {form : Form} (hform : form.toSexp.Within whole) (value : Sexp) :
    Blamed whole (form.text value) := by
  unfold Form.text
  split
  · exact ok _
  · exact fault hform rfl

theorem int {form : Form} (hform : form.toSexp.Within whole) (value : Sexp) :
    Blamed whole (form.int value) := by
  unfold Form.int
  split
  · exact ok _
  · exact fault hform rfl

theorem spanOf {form : Form} (hform : form.toSexp.Within whole) (file : String) (value : Sexp) :
    Blamed whole (form.spanOf file value) := by
  unfold Form.spanOf
  split
  · exact (int hform _).bind fun line => (int hform _).last
  · refine (int hform _).bind fun line => (int hform _).bind fun column => ?_
    exact (int hform _).bind fun lo => (int hform _).last
  · exact fault hform rfl

/-- What is read has to be a form, and is at fault if it is none. -/
theorem ofSexp (value : Sexp) : Blamed value (Form.ofSexp value) := by
  unfold Form.ofSexp
  split
  · exact ok _
  · exact untagged _

theorem ofSexp_bind {value : Sexp} {next : Form → DumpResult β}
    (hnext : ∀ form : Form, value = form.toSexp → Blamed value (next form)) :
    Blamed value (Form.ofSexp value >>= next) :=
  (ofSexp value).gives (fun _ => Form.ofSexp_eq_ok_iff.1) hnext

end Blamed

/-! ## The parts of a form -/

/-- A form stands in a value, and so do its parts. -/
structure PartsWithin (parts : Form.Parts) (whole : Sexp) : Prop where
  form : parts.form.toSexp.Within whole
  item : ∀ {item}, item ∈ parts.positional → item.Within whole
  value : ∀ {name value}, parts.value? name = some value → value.Within whole

/-- The fields of a form hold its items. -/
theorem mem_of_mem_fieldsOf {flags : List String} {items : List Sexp} {value : Sexp} :
    (.item value ∈ fieldsOf flags items → value ∈ items) ∧
      ∀ name, .keyword name value ∈ fieldsOf flags items → value ∈ items := by
  fun_induction fieldsOf flags items <;> grind

theorem PartsOf.partsWithin {parts : Form.Parts} {form : Form} {allowed flags : List String}
    (h : PartsOf parts form allowed flags) (hform : form.toSexp.Within whole) :
    PartsWithin parts whole := by
  refine ⟨h.form_eq ▸ hform, fun hitem => .trans ?_ hform, fun hvalue => .trans ?_ hform⟩
  · rw [h.positional] at hitem
    obtain ⟨field, hfield, hfound⟩ := List.mem_filterMap.1 hitem
    cases field with
    | item value =>
        cases hfound
        exact Form.within_of_mem (mem_of_mem_fieldsOf.1 hfield)
    | _ => cases hfound
  · exact Form.within_of_mem (mem_of_mem_fieldsOf.2 _ (h.value?_eq_some_iff.1 hvalue))

namespace Blamed

-- By induction on the fields: each fault that telling them apart can end with is one of the form.

theorem split {form : Form} (hform : form.toSexp.Within whole) (allowed flags : List String)
    (keywords : List (String × Option Sexp)) (items : List Sexp) :
    Blamed whole (form.split allowed flags keywords items) := by
  rw [split_eq_ofFields]
  fun_induction ofFields form allowed flags keywords (fieldsOf flags items) with
  | case1 => exact ok _
  | case2 keywords value rest ih => exact ih.last
  | case5 keywords name value rest _ _ ih => exact ih
  | case7 keywords name rest _ ih => exact ih
  | _ => exact fault hform rfl

/-- Telling the parts of a form that stands in a value, as do all the parts. -/
theorem partsIn {form : Form} {allowed flags : List String} {next : Form.Parts → DumpResult β}
    (hform : form.toSexp.Within whole)
    (hnext : ∀ parts, PartsWithin parts whole → Blamed whole (next parts)) :
    Blamed whole (form.parts allowed flags >>= next) :=
  (split hform allowed flags [] form.items).gives (partsOf form allowed flags)
    fun parts hparts => hnext parts (hparts.partsWithin hform)

theorem parts {form : Form} {allowed flags : List String} {next : Form.Parts → DumpResult β}
    (hnext : ∀ parts, PartsWithin parts form.toSexp → Blamed form.toSexp (next parts)) :
    Blamed form.toSexp (form.parts allowed flags >>= next) :=
  partsIn (.refl _) hnext

section Parts

variable {parts : Form.Parts} (hparts : PartsWithin parts whole)

include hparts

theorem span (outer : Span) : Blamed whole (parts.span outer) := by
  unfold Form.Parts.span
  split
  · exact ok outer
  · exact spanOf hparts.form _ _

theorem mapValue {name : String} {read : Sexp → DumpResult α}
    (h : ∀ value : Sexp, value.Within whole → Blamed whole (read value)) :
    Blamed whole (parts.mapValue name read) := by
  unfold Form.Parts.mapValue
  split
  · exact ok none
  · rename_i hvalue
    exact (h _ (hparts.value hvalue)).last

theorem wrongCount (least most : Nat) :
    Blamed whole (parts.wrongCount least most : DumpResult α) := by
  unfold Form.Parts.wrongCount
  dsimp only
  split <;> exact fault hparts.form rfl

/-- Taking some items of a form, all of which stand in it. -/
theorem taken {take : DumpResult α} {items : α → List Sexp} {next : α → DumpResult β}
    (h : Blamed whole take) (htake : Gives take fun value => parts.positional = items value)
    (hnext : ∀ value, (∀ item ∈ items value, item.Within whole) → Blamed whole (next value)) :
    Blamed whole (take >>= next) :=
  h.gives htake fun value hitems => hnext value (hitems ▸ fun _ => hparts.item)

theorem atMostOne (allowed : Bool) {next : Option Sexp → DumpResult β}
    (hnext : ∀ item : Option Sexp, (∀ a ∈ item, a.Within whole) → Blamed whole (next item)) :
    Blamed whole (parts.atMostOne allowed >>= next) := by
  refine taken hparts ?_ (fun _ htaken => (parts.atMostOne_eq_ok_iff.1 htaken).1)
    fun item hitem => ?_
  · unfold Form.Parts.atMostOne
    split
    · exact ok none
    · exact ok _
    · exact wrongCount hparts _ _
  · exact hnext item fun a ha => hitem a (Option.mem_toList.2 ha)

theorem one {next : Sexp → DumpResult β} (hnext : ∀ a, a.Within whole → Blamed whole (next a)) :
    Blamed whole (parts.one >>= next) := by
  refine taken hparts ?_ (fun _ => parts.one_eq_ok_iff.1) fun a hitems => ?_
  · unfold Form.Parts.one
    split
    · exact ok _
    · exact wrongCount hparts 1 1
  · exact hnext a (hitems a List.mem_cons_self)

theorem oneOrTwo {next : Sexp × Option Sexp → DumpResult β}
    (hnext : ∀ a (b : Option Sexp), a.Within whole → (∀ c ∈ b, c.Within whole) →
      Blamed whole (next (a, b))) :
    Blamed whole (parts.oneOrTwo >>= next) := by
  refine taken hparts ?_ (fun _ => parts.oneOrTwo_eq_ok_iff.1) ?_
  · unfold Form.Parts.oneOrTwo
    split
    · exact ok _
    · exact ok _
    · exact wrongCount hparts 1 2
  · rintro ⟨a, b⟩ hitems
    obtain ⟨ha, hb⟩ := List.forall_mem_cons.1 hitems
    exact hnext a b ha fun c hc => hb c (Option.mem_toList.2 hc)

theorem two {next : Sexp × Sexp → DumpResult β}
    (hnext : ∀ a b, a.Within whole → b.Within whole → Blamed whole (next (a, b))) :
    Blamed whole (parts.two >>= next) := by
  refine taken hparts ?_ (fun _ => parts.two_eq_ok_iff.1) ?_
  · unfold Form.Parts.two
    split
    · exact ok _
    · exact wrongCount hparts 2 2
  · rintro ⟨a, b⟩ hitems
    obtain ⟨ha, hb⟩ := List.forall_mem_cons.1 hitems
    exact hnext a b ha (hb b List.mem_cons_self)

theorem twoOrThree {next : Sexp × Sexp × Option Sexp → DumpResult β}
    (hnext : ∀ a b (c : Option Sexp), a.Within whole → b.Within whole →
      (∀ d ∈ c, d.Within whole) → Blamed whole (next (a, b, c))) :
    Blamed whole (parts.twoOrThree >>= next) := by
  refine taken hparts ?_ (fun _ => parts.twoOrThree_eq_ok_iff.1) ?_
  · unfold Form.Parts.twoOrThree
    split
    · exact ok _
    · exact ok _
    · exact wrongCount hparts 2 3
  · rintro ⟨a, b, c⟩ hitems
    obtain ⟨ha, hrest⟩ := List.forall_mem_cons.1 hitems
    obtain ⟨hb, hc⟩ := List.forall_mem_cons.1 hrest
    exact hnext a b c ha hb fun d hd => hc d (Option.mem_toList.2 hd)

theorem three {next : Sexp × Sexp × Sexp → DumpResult β}
    (hnext : ∀ a b c, a.Within whole → b.Within whole → c.Within whole →
      Blamed whole (next (a, b, c))) :
    Blamed whole (parts.three >>= next) := by
  refine taken hparts ?_ (fun _ => parts.three_eq_ok_iff.1) ?_
  · unfold Form.Parts.three
    split
    · exact ok _
    · exact wrongCount hparts 3 3
  · rintro ⟨a, b, c⟩ hitems
    obtain ⟨ha, hrest⟩ := List.forall_mem_cons.1 hitems
    obtain ⟨hb, hc⟩ := List.forall_mem_cons.1 hrest
    exact hnext a b c ha hb (hc c List.mem_cons_self)

theorem oneAndRest {next : Sexp × List Sexp → DumpResult β}
    (hnext : ∀ a (rest : List Sexp), a.Within whole → (∀ b ∈ rest, b.Within whole) →
      Blamed whole (next (a, rest))) :
    Blamed whole (parts.oneAndRest >>= next) := by
  refine taken hparts ?_ (fun _ => parts.oneAndRest_eq_ok_iff.1) ?_
  · unfold Form.Parts.oneAndRest
    split
    · exact ok _
    · exact wrongCount hparts 1 1
  · rintro ⟨a, rest⟩ hitems
    obtain ⟨ha, hrest⟩ := List.forall_mem_cons.1 hitems
    exact hnext a rest ha hrest

theorem twoAndRest {next : Sexp × Sexp × List Sexp → DumpResult β}
    (hnext : ∀ a b (rest : List Sexp), a.Within whole → b.Within whole →
      (∀ c ∈ rest, c.Within whole) → Blamed whole (next (a, b, rest))) :
    Blamed whole (parts.twoAndRest >>= next) := by
  refine taken hparts ?_ (fun _ => parts.twoAndRest_eq_ok_iff.1) ?_
  · unfold Form.Parts.twoAndRest
    split
    · exact ok _
    · exact wrongCount hparts 2 2
  · rintro ⟨a, b, rest⟩ hitems
    obtain ⟨ha, htail⟩ := List.forall_mem_cons.1 hitems
    obtain ⟨hb, hrest⟩ := List.forall_mem_cons.1 htail
    exact hnext a b rest ha hb hrest

end Parts

end Blamed

end Dump
end AssocLint
