import AssocLint.Proofs.Dump.Gives

/-!
# The fields of a form

The items of a form are cut into fields: values by themselves, keywords with their values, and
flags (`fieldsOf`). The parts of a form depend on its fields only (`split_eq_ofFields`), and once
they have been told apart it is known which values stand by themselves, which value a keyword has,
and which keywords there can be (`partsOf`).
-/

namespace AssocLint

/-- The value that a form is. -/
def Form.toSexp (form : Form) : Sexp :=
  .list (some form.line) (.symbol form.head :: form.items)

theorem Form.ofSexp_eq_ok_iff {value : Sexp} {form : Form} :
    Form.ofSexp value = .ok form ↔ value = form.toSexp := by
  constructor
  · intro h
    unfold Form.ofSexp at h
    split at h
    · cases h
      rfl
    · cases h
  · rintro rfl
    rfl

theorem Form.text_eq_ok_iff {form : Form} {value : Sexp} {text : String} :
    form.text value = .ok text ↔ value.word? = some text := by
  refine ⟨Dump.Gives.text text, fun h => ?_⟩
  rw [Form.text, h]

theorem Form.toSexp_inj {form form' : Form} (h : form.toSexp = form'.toSexp) : form = form' :=
  Except.ok.inj ((Form.ofSexp_eq_ok_iff.2 rfl).symm.trans (Form.ofSexp_eq_ok_iff.2 h))

namespace Dump

/-- A field of a form. -/
inductive Field (β : Type) where
  | item (value : β)
  | keyword (name : String) (value : β)
  | flag (name : String)
  /-- A keyword at the end of a form that lacks its value. -/
  | unfinished (name : String)

namespace Field

variable {β : Type}

/-- The value of a field that is no keyword. -/
def item? : Field β → Option β
  | .item value => some value
  | _ => none

/-- The value of a keyword with a given name. -/
def value? (name : String) : Field β → Option β
  | .keyword name' value => if name' = name then some value else none
  | _ => none

end Field

/-- Cuts the items of a form with the given flags into fields. -/
def fieldsOf (flags : List String) : List Sexp → List (Field Sexp)
  | [] => []
  | [item] =>
    match Form.keywordName? item with
    | none => [.item item]
    | some name => if flags.contains name then [.flag name] else [.unfinished name]
  | item :: value :: rest =>
    match Form.keywordName? item with
    | none => .item item :: fieldsOf flags (value :: rest)
    | some name =>
      if flags.contains name then .flag name :: fieldsOf flags (value :: rest)
      else .keyword name value :: fieldsOf flags rest

/-- Tells the keywords from the other fields, given those met so far. -/
def ofFields (form : Form) (allowed flags : List String) (keywords : List (String × Option Sexp)) :
    List (Field Sexp) → DumpResult Form.Parts
  | [] => .ok ⟨form, [], keywords⟩
  | .item value :: rest => do
    let parts ← ofFields form allowed flags keywords rest
    return { parts with positional := value :: parts.positional }
  | .keyword name value :: rest =>
    if !allowed.contains name && !flags.contains name then
      form.fault (.unknownKeyword (":" ++ name) form.head)
    else if (keywords.lookup name).isSome then
      form.fault (.repeatedKeyword (":" ++ name) form.head)
    else ofFields form allowed flags ((name, some value) :: keywords) rest
  | .flag name :: rest =>
    if (keywords.lookup name).isSome then form.fault (.repeatedKeyword (":" ++ name) form.head)
    else ofFields form allowed flags ((name, none) :: keywords) rest
  | .unfinished name :: _ =>
    if !allowed.contains name && !flags.contains name then
      form.fault (.unknownKeyword (":" ++ name) form.head)
    else if (keywords.lookup name).isSome then
      form.fault (.repeatedKeyword (":" ++ name) form.head)
    else form.fault (.keywordWithoutValue (":" ++ name))

theorem split_eq_ofFields (form : Form) (allowed flags : List String)
    (keywords : List (String × Option Sexp)) (items : List Sexp) :
    form.split allowed flags keywords items =
      ofFields form allowed flags keywords (fieldsOf flags items) := by
  fun_induction fieldsOf flags items generalizing keywords with
  | case1 =>
      rfl
  | case2 item hname =>
      simp only [Form.split, hname, ofFields]
  | case3 item name hname hflag =>
      simp only [Form.split, hname, hflag, ofFields, Bool.not_true, Bool.and_false,
        Bool.false_eq_true, if_false, if_true]
  | case4 item name hname hflag =>
      simp only [Form.split, hname, hflag, ofFields]
      rfl
  | case5 item value rest hname ih =>
      simp only [Form.split.eq_def _ _ _ _ (item :: _), hname, ih, ofFields]
  | case6 item value rest name hname hflag ih =>
      simp only [Form.split.eq_def _ _ _ _ (item :: _), hname, hflag, ih, ofFields, Bool.not_true,
        Bool.and_false, Bool.false_eq_true, if_false, if_true]
  | case7 item value rest name hname hflag ih =>
      simp only [Form.split, hname, hflag, ih, ofFields]
      rfl

/-! ## What is known of the parts -/

theorem lookup_cons_ne {name name' : String} (h : name' ≠ name) (value : Option Sexp)
    (keywords : List (String × Option Sexp)) :
    ((name', value) :: keywords).lookup name = keywords.lookup name := by
  rw [List.lookup_cons, beq_false_of_ne (Ne.symm h)]

section Parts

variable (form : Form) (allowed flags : List String) (keywords : List (String × Option Sexp))
  (fields : List (Field Sexp))

theorem positional_ofFields : Gives (ofFields form allowed flags keywords fields) fun parts =>
    parts.form = form ∧ parts.positional = fields.filterMap Field.item? := by
  fun_induction ofFields form allowed flags keywords fields with
  | case1 => exact .ok ⟨rfl, rfl⟩
  | case2 keywords value rest ih =>
      exact ih.bind fun parts hparts => .ok ⟨hparts.1, congrArg (value :: ·) hparts.2⟩
  | case5 keywords name value rest hknown hnew ih => exact ih
  | case7 keywords name rest hnew ih => exact ih
  | _ => exact .fault

/-- The value of a keyword is the one that was met before, or else the one that is written. -/
theorem value?_ofFields (name : String) :
    Gives (ofFields form allowed flags keywords fields) fun parts =>
      (parts.value? name).toList =
        (keywords.lookup name).join.toList ++ fields.filterMap (Field.value? name) := by
  fun_induction ofFields form allowed flags keywords fields with
  | case1 => exact .ok (List.append_nil _).symm
  | case2 keywords value rest ih =>
      exact ih.bind fun parts hparts => .ok hparts
  | case5 keywords name' value rest _ hnew ih =>
      have hnone : keywords.lookup name' = none := Option.not_isSome_iff_eq_none.1 hnew
      intro parts hparts
      rw [ih parts hparts]
      by_cases h : name' = name
      · subst h
        have hvalue : Field.value? name' (.keyword name' value) = some value := if_pos rfl
        rw [List.lookup_cons_self, hnone, List.filterMap_cons_some hvalue]
        rfl
      · have hvalue : Field.value? name (.keyword name' value) = none := if_neg h
        rw [lookup_cons_ne h _ keywords, List.filterMap_cons_none hvalue]
  | case7 keywords name' rest hnew ih =>
      have hnone : keywords.lookup name' = none := Option.not_isSome_iff_eq_none.1 hnew
      intro parts hparts
      rw [ih parts hparts, List.filterMap_cons_none rfl]
      by_cases h : name' = name
      · subst h
        rw [List.lookup_cons_self, hnone]
        rfl
      · rw [lookup_cons_ne h _ keywords]
  | _ => exact .fault

/-- Every keyword is one that the form may hold. -/
theorem named_ofFields :
    Gives (ofFields form allowed flags keywords fields) fun _ =>
      ∀ field ∈ fields, ∀ name value, field = .keyword name value →
        name ∈ allowed ∨ name ∈ flags := by
  fun_induction ofFields form allowed flags keywords fields with
  | case1 => exact .ok (List.forall_mem_nil _)
  | case2 keywords value rest ih =>
      exact ih.bind fun parts hparts => .ok (List.forall_mem_cons.2 ⟨nofun, hparts⟩)
  | case5 keywords name value rest hknown _ ih =>
      intro parts hparts
      refine List.forall_mem_cons.2 ⟨?_, ih parts hparts⟩
      rintro _ _ ⟨⟩
      simpa [Decidable.or_iff_not_imp_left] using hknown
  | case7 keywords name rest _ ih =>
      exact fun parts hparts => List.forall_mem_cons.2 ⟨nofun, ih parts hparts⟩
  | _ => exact .fault

end Parts

/-- A keyword with a value is no flag. -/
theorem not_mem_flags_of_mem_fieldsOf {flags : List String} {items : List Sexp} {name : String}
    {value : Sexp} (h : .keyword name value ∈ fieldsOf flags items) : name ∉ flags := by
  fun_induction fieldsOf flags items <;> grind

/-- What is known of the parts of a form once its keywords have been told apart. -/
structure PartsOf (parts : Form.Parts) (form : Form)
    (allowed flags : List String) : Prop where
  form_eq : parts.form = form
  positional : parts.positional = (fieldsOf flags form.items).filterMap Field.item?
  value? : ∀ name, (parts.value? name).toList =
    (fieldsOf flags form.items).filterMap (Field.value? name)
  allowed : ∀ name value, .keyword name value ∈ fieldsOf flags form.items → name ∈ allowed

namespace PartsOf

variable {parts : Form.Parts} {form : Form} {allowed flags : List String} {name : String}

/-- The value of a keyword is the one that is written. -/
theorem value?_eq_some_iff (h : PartsOf parts form allowed flags) {value : Sexp} :
    parts.value? name = some value ↔ .keyword name value ∈ fieldsOf flags form.items := by
  have hfound (field : Field Sexp) :
      Field.value? name field = some value ↔ field = .keyword name value := by
    cases field <;> simp [Field.value?]
  calc
    parts.value? name = some value
        ↔ value ∈ (parts.value? name).toList := Option.mem_toList.symm
    _ ↔ value ∈ (fieldsOf flags form.items).filterMap (Field.value? name) := by rw [h.value?]
    _ ↔ .keyword name value ∈ fieldsOf flags form.items := by
      simp only [List.mem_filterMap, hfound, exists_eq_right]

/-- A keyword that a form may not hold has no value. -/
theorem value?_eq_none (h : PartsOf parts form allowed flags) (hname : name ∉ allowed) :
    parts.value? name = none :=
  Option.eq_none_iff_forall_ne_some.2 fun value hvalue =>
    hname (h.allowed name value (h.value?_eq_some_iff.1 hvalue))

end PartsOf

theorem partsOf (form : Form) (allowed flags : List String) :
    Gives (form.parts allowed flags) fun parts => PartsOf parts form allowed flags := by
  intro parts hparts
  rw [Form.parts, split_eq_ofFields] at hparts
  obtain ⟨hform, hpositional⟩ := positional_ofFields _ _ _ _ _ parts hparts
  refine ⟨hform, hpositional, fun name => value?_ofFields _ _ _ _ _ name parts hparts,
    fun name value hmem => ?_⟩
  exact (named_ofFields _ _ _ _ _ parts hparts _ hmem name value rfl).resolve_right
    (not_mem_flags_of_mem_fieldsOf hmem)

/-- A form without keywords has all its items. -/
theorem positional_parts_nil (form : Form) :
    Gives (form.parts [] []) fun parts => parts.positional = form.items := by
  rw [Form.parts]
  induction form.items with
  | nil =>
      exact .ok rfl
  | cons item rest ih =>
      rw [Form.split.eq_def]
      dsimp only
      split
      · exact ih.bind fun parts hparts => .ok (congrArg (item :: ·) hparts)
      · exact .fault

/-! ## Spans -/

/-- The span that a value writes: line and column, or both of them and both byte offsets. -/
def writtenSpan? (file : String) : Sexp → Option Span
  | .list (some _) [.int line, .int column] => some { file, line, column }
  | .list (some _) [.int line, .int column, .int lo, .int hi] =>
    some { file, line, column, lo, hi }
  | _ => none

/-- A span is read where one is written, whatever the form around it. -/
theorem spanOf_eq_ok_iff {form : Form} {file : String} {value : Sexp} {span : Span} :
    form.spanOf file value = .ok span ↔ writtenSpan? file value = some span := by
  constructor
  · have hwritten : Gives (form.spanOf file value) fun span =>
        writtenSpan? file value = some span := by
      unfold Form.spanOf
      split
      · refine Gives.int.bind fun line hline => Gives.int.bind fun column hcolumn => .ok ?_
        subst hline hcolumn
        rfl
      · refine Gives.int.bind fun line hline => Gives.int.bind fun column hcolumn => ?_
        refine Gives.int.bind fun lo hlo => Gives.int.bind fun hi hhi => .ok ?_
        subst hline hcolumn hlo hhi
        rfl
      · exact .fault
    exact hwritten span
  · intro hwritten
    unfold writtenSpan? at hwritten
    split at hwritten <;> cases hwritten <;> rfl

/-- What a written span looks like. -/
theorem writtenSpan?_eq_some {file : String} {value : Sexp} {span : Span}
    (h : writtenSpan? file value = some span) :
    ∃ (line : Nat) (numbers : List Int), value = .list (some line) (numbers.map .int) ∧
      ∀ line', writtenSpan? file (.list (some line') (numbers.map .int)) = some span := by
  unfold writtenSpan? at h
  split at h <;> cases h
  · rename_i listLine line column
    exact ⟨listLine, [line, column], rfl, fun _ => rfl⟩
  · rename_i listLine line column lo hi
    exact ⟨listLine, [line, column, lo, hi], rfl, fun _ => rfl⟩

end Dump

/-! ## How many items there are -/

/-- Several values, the last of which is read in another way than the others. -/
theorem Dump.eq_dropLast_concat {α : Type} (first : α) (rest : List α) :
    first :: rest = (first :: rest).dropLast ++ [(first :: rest).getLast?.getD first] := by
  rw [List.getLast?_eq_some_getLast (List.cons_ne_nil first rest), Option.getD_some]
  exact (List.dropLast_concat_getLast _).symm

namespace Form.Parts

variable {parts : Parts}

theorem wrongCount_ne {α : Type} {least most : Nat} {value : α} :
    parts.wrongCount least most ≠ .ok value := by
  unfold wrongCount
  dsimp only
  split <;> nofun

theorem atMostOne_eq_ok_iff {allowed : Bool} {item : Option Sexp} :
    parts.atMostOne allowed = .ok item ↔
      parts.positional = item.toList ∧ (item.isSome → allowed) := by
  cases allowed <;> cases item <;> unfold atMostOne <;> split <;> simp_all [wrongCount_ne]

theorem one_eq_ok_iff {item : Sexp} : parts.one = .ok item ↔ parts.positional = [item] := by
  unfold one
  split <;> simp_all [wrongCount_ne]

theorem oneOrTwo_eq_ok_iff {items : Sexp × Option Sexp} :
    parts.oneOrTwo = .ok items ↔ parts.positional = items.1 :: items.2.toList := by
  obtain ⟨a, _ | b⟩ := items <;> unfold oneOrTwo <;> split <;> simp_all [wrongCount_ne]

theorem two_eq_ok_iff {items : Sexp × Sexp} :
    parts.two = .ok items ↔ parts.positional = [items.1, items.2] := by
  unfold two
  split <;> simp_all [wrongCount_ne, Prod.ext_iff]

theorem twoOrThree_eq_ok_iff {items : Sexp × Sexp × Option Sexp} :
    parts.twoOrThree = .ok items ↔
      parts.positional = items.1 :: items.2.1 :: items.2.2.toList := by
  obtain ⟨a, b, _ | c⟩ := items <;> unfold twoOrThree <;> split <;> simp_all [wrongCount_ne]

theorem three_eq_ok_iff {items : Sexp × Sexp × Sexp} :
    parts.three = .ok items ↔ parts.positional = [items.1, items.2.1, items.2.2] := by
  unfold three
  split <;> simp_all [wrongCount_ne, Prod.ext_iff]

theorem oneAndRest_eq_ok_iff {items : Sexp × List Sexp} :
    parts.oneAndRest = .ok items ↔ parts.positional = items.1 :: items.2 := by
  unfold oneAndRest
  split <;> simp_all [wrongCount_ne, Prod.ext_iff]

theorem twoAndRest_eq_ok_iff {items : Sexp × Sexp × List Sexp} :
    parts.twoAndRest = .ok items ↔ parts.positional = items.1 :: items.2.1 :: items.2.2 := by
  unfold twoAndRest
  split <;> simp_all [wrongCount_ne, Prod.ext_iff]

end Form.Parts
end AssocLint
