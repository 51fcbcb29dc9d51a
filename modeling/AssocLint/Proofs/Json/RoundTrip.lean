import AssocLint.Proofs.Json.Numbers
import AssocLint.Proofs.Json.Strings

/-!
# Values that are written and read

A value that is written is read back as it was (`read_render`), as long as it is exact: it holds no
fractions, which are written in decimal, and no object in which two fields have one name.

Each part of a value is read at the front of the text behind it. The reader counts its steps, and
takes no more of them than there are characters.
-/

namespace AssocLint
namespace Json

mutual

/-- Whether a value holds no fractions and no two fields of one name in an object. -/
def isExact : Json → Bool
  | .float _ => false
  | .array items => isExactAll items
  | .object fields => decide (fields.map (·.1)).Nodup && isExactFields fields
  | _ => true
termination_by structural value => value

def isExactAll : List Json → Bool
  | [] => true
  | item :: rest => item.isExact && isExactAll rest
termination_by structural items => items

def isExactFields : List (String × Json) → Bool
  | [] => true
  | (_, value) :: rest => value.isExact && isExactFields rest
termination_by structural fields => fields

end

/-! ## Beginnings -/

/-- A text that begins with a character at which a value can begin. -/
def BeginsValue (text : List Char) : Prop :=
  ∃ c more, text = c :: more ∧ c ∉ [' ', '\t', '\n', '\r', ']', '\x7d', '\ufeff']

theorem BeginsValue.append {text : List Char} (h : BeginsValue text) (rest : List Char) :
    BeginsValue (text ++ rest) := by
  obtain ⟨c, more, rfl, hc⟩ := h
  exact ⟨c, more ++ rest, rfl, hc⟩

theorem BeginsValue.head_ne {c : Char} {more : List Char} (h : BeginsValue (c :: more)) :
    c ≠ ']' ∧ c ≠ '\x7d' ∧ c ≠ '\ufeff' := by
  obtain ⟨_, _, ⟨⟩, hc⟩ := h
  simp only [List.mem_cons, List.not_mem_nil, or_false, not_or] at hc
  exact hc.2.2.2.2

theorem skipSpaces_of_beginsValue {text : List Char} (h : BeginsValue text) :
    skipSpaces text = text := by
  obtain ⟨c, more, rfl, hc⟩ := h
  simp only [List.mem_cons, List.not_mem_nil, or_false, not_or] at hc
  obtain ⟨hblank, htab, hline, hreturn, -⟩ := hc
  simp [skipSpaces, hblank, htab, hline, hreturn]

theorem toList_renderString (text : String) :
    (renderString text).toList = '"' :: (text.toList.flatMap escapeChar ++ ['"']) := by
  rw [renderString, String.toList_ofList, List.cons_append]

/-- An integer begins with a minus sign or a digit, and so with none of a list of other characters. -/
theorem exists_cons_intDigits (value : Int) {others : List Char}
    (hothers : ∀ c ∈ others, c ≠ '-' ∧ c.isDigit = false) :
    ∃ c more, intDigits value = c :: more ∧ c ∉ others := by
  obtain ⟨c, more, hcons, hc⟩ := exists_cons_toDigits value.natAbs
  rw [intDigits, hcons]
  split
  · exact ⟨'-', c :: more, rfl, fun hmem => (hothers '-' hmem).1 rfl⟩
  · refine ⟨c, more, rfl, fun hmem => ?_⟩
    rw [(hothers c hmem).2] at hc
    cases hc

theorem beginsValue_render {value : Json} (h : value.isExact = true) :
    BeginsValue value.render.toList := by
  cases value with
  | null =>
      exact ⟨'n', _, rfl, by decide⟩
  | bool value =>
      cases value with
      | false => exact ⟨'f', _, rfl, by decide⟩
      | true => exact ⟨'t', _, rfl, by decide⟩
  | int value =>
      rw [render, toList_toString_int]
      exact exists_cons_intDigits value (by simp)
  | float value =>
      cases h
  | string text =>
      rw [render, toList_renderString]
      exact ⟨'"', _, rfl, by decide⟩
  | array items =>
      rw [render, String.append_assoc, String.toList_append]
      exact ⟨'[', _, rfl, by decide⟩
  | object fields =>
      rw [render, String.append_assoc, String.toList_append]
      exact ⟨'\x7b', _, rfl, by decide⟩

theorem endsNumber_cons {c : Char} (h : c ∈ [',', ']', '\x7d']) (rest : List Char) :
    EndsNumber (c :: rest) := by
  have hall : ∀ c ∈ [',', ']', '\x7d'], c.isDigit = false ∧ c ≠ '.' ∧ c ≠ 'e' ∧ c ≠ 'E' := by
    simp
  rintro c' ⟨⟩
  exact hall c h

/-! ## The text of items and fields -/

/-- The items of an array as they are written between its brackets. -/
def itemsText (items : List Json) : List Char :=
  (", ".intercalate (renderItems items)).toList

/-- The fields of an object as they are written between its braces. -/
def fieldsText (fields : List (String × Json)) : List Char :=
  (", ".intercalate (renderFields fields)).toList

theorem toList_render_array (items : List Json) :
    (render (.array items)).toList = '[' :: (itemsText items ++ [']']) := by
  rw [render, String.append_assoc, String.toList_append, String.toList_append]
  rfl

theorem toList_render_object (fields : List (String × Json)) :
    (render (.object fields)).toList = '\x7b' :: (fieldsText fields ++ ['\x7d']) := by
  rw [render, String.append_assoc, String.toList_append, String.toList_append]
  rfl

theorem toList_intercalate_cons_cons (first second : String) (rest : List String) :
    (", ".intercalate (first :: second :: rest)).toList =
      first.toList ++ ',' :: ' ' :: (", ".intercalate (second :: rest)).toList := by
  rw [String.intercalate_cons_cons, String.toList_append, String.toList_append, List.append_assoc]
  rfl

theorem itemsText_singleton (item : Json) : itemsText [item] = item.render.toList := by
  rw [itemsText, renderItems, renderItems, String.intercalate_singleton]

theorem itemsText_cons_cons (item next : Json) (items : List Json) :
    itemsText (item :: next :: items) =
      item.render.toList ++ ',' :: ' ' :: itemsText (next :: items) :=
  toList_intercalate_cons_cons _ _ _

theorem toList_renderField (name : String) (value : Json) :
    (renderString name ++ ": " ++ value.render).toList =
      (renderString name).toList ++ ':' :: ' ' :: value.render.toList := by
  rw [String.toList_append, String.toList_append, List.append_assoc]
  rfl

theorem fieldsText_singleton (name : String) (value : Json) :
    fieldsText [(name, value)] =
      (renderString name).toList ++ ':' :: ' ' :: value.render.toList := by
  rw [fieldsText, renderFields, renderFields, String.intercalate_singleton, toList_renderField]

theorem fieldsText_cons_cons (name : String) (value : Json) (next : String × Json)
    (fields : List (String × Json)) :
    fieldsText ((name, value) :: next :: fields) =
      (renderString name).toList ++
        ':' :: ' ' :: (value.render.toList ++ ',' :: ' ' :: fieldsText (next :: fields)) := by
  rw [fieldsText, renderFields, renderFields, toList_intercalate_cons_cons, toList_renderField,
    List.append_assoc]
  rfl

theorem beginsValue_itemsText {item : Json} (h : item.isExact = true) (items : List Json) :
    BeginsValue (itemsText (item :: items)) := by
  cases items with
  | nil =>
      rw [itemsText_singleton]
      exact beginsValue_render h
  | cons next items =>
      rw [itemsText_cons_cons]
      exact (beginsValue_render h).append _

theorem beginsValue_fieldsText (field : String × Json) (fields : List (String × Json)) :
    BeginsValue (fieldsText (field :: fields)) := by
  cases fields with
  | nil =>
      rw [fieldsText_singleton, toList_renderString]
      exact ⟨'"', _, rfl, by decide⟩
  | cons next fields =>
      rw [fieldsText_cons_cons, toList_renderString]
      exact ⟨'"', _, rfl, by decide⟩

/-! ## Values of one character or more -/

theorem readValue_scalar {c : Char} (h : c ∉ ['"', '[', '\x7b']) (steps : Nat) (more : List Char) :
    readValue (steps + 1) (c :: more) = readScalar (c :: more) := by
  simp only [List.mem_cons, List.not_mem_nil, or_false, not_or] at h
  obtain ⟨hquote, hbracket, hbrace⟩ := h
  simp [readValue, hquote, hbracket, hbrace]

theorem readValue_int (value : Int) (steps : Nat) {rest : List Char} (h : EndsNumber rest) :
    readValue (steps + 1) ((toString value).toList ++ rest) = .ok (.int value, rest) := by
  rw [← readScalar_int value h, toList_toString_int]
  have hothers : ∀ c ∈ ['"', '[', '\x7b'], c ≠ '-' ∧ c.isDigit = false := by
    simp
  obtain ⟨c, more, hcons, hc⟩ := exists_cons_intDigits value hothers
  rw [hcons]
  exact readValue_scalar hc steps (more ++ rest)

theorem readValue_string (text : String) (steps : Nat) (rest : List Char) :
    readValue (steps + 1) ((renderString text).toList ++ rest) = .ok (.string text, rest) := by
  rw [toList_renderString, List.cons_append, List.append_assoc, readValue, List.singleton_append,
    readString_escaped]
  rfl

/-! ## Arrays -/

theorem readValue_array (steps : Nat) {text : List Char} (h : BeginsValue text) :
    readValue (steps + 1) ('[' :: text) =
      (readItems steps text).map fun (items, rest) => (.array items, rest) := by
  rw [readValue, skipSpaces_of_beginsValue h]
  split
  · exact absurd rfl h.head_ne.1
  · rfl

theorem readItems_last {steps : Nat} {text : List Char} {item : Json} {rest : List Char}
    (h : readValue steps text = .ok (item, ']' :: rest)) :
    readItems (steps + 1) text = .ok ([item], rest) := by
  rw [readItems, h]
  rfl

theorem readItems_cons {steps : Nat} {text : List Char} {item : Json} {more : List Char}
    (h : readValue steps text = .ok (item, ',' :: ' ' :: more)) (hmore : BeginsValue more) :
    readItems (steps + 1) text = (readItems steps more).map (Prod.map (item :: ·) id) := by
  have hskip : skipSpaces (' ' :: more) = more := skipSpaces_of_beginsValue hmore
  rw [readItems, h]
  change (readItems steps (skipSpaces (' ' :: more)) >>= _) = _
  rw [hskip]
  cases readItems steps more <;> rfl

/-! ## Objects -/

theorem setField_of_not_mem (fields : List (String × Json)) {name : String}
    (h : name ∉ fields.map (·.1)) (value : Json) :
    setField fields name value = fields ++ [(name, value)] := by
  induction fields with
  | nil =>
      rfl
  | cons field fields ih =>
      rw [List.map_cons, List.mem_cons, not_or] at h
      rw [setField, if_neg (by simpa using Ne.symm h.1), ih h.2, List.cons_append]

theorem readValue_object (steps : Nat) {text : List Char} (h : BeginsValue text) :
    readValue (steps + 1) ('\x7b' :: text) = readFields steps [] text := by
  rw [readValue, skipSpaces_of_beginsValue h]
  split
  · exact absurd rfl h.head_ne.2.1
  · rfl

section

variable {steps : Nat} (before : List (String × Json)) (name : String) {text : List Char}
  {value : Json} (hbegins : BeginsValue text)
include hbegins

theorem readFields_last {rest : List Char}
    (h : readValue steps text = .ok (value, '\x7d' :: rest)) :
    readFields (steps + 1) before ((renderString name).toList ++ ':' :: ' ' :: text) =
      .ok (.object (setField before name value), rest) := by
  have hskip : skipSpaces (' ' :: text) = text := skipSpaces_of_beginsValue hbegins
  rw [toList_renderString, List.cons_append, List.append_assoc, readFields, List.singleton_append,
    readString_escaped]
  change (readValue steps (skipSpaces (' ' :: text)) >>= _) = _
  rw [hskip, h]
  rfl

theorem readFields_cons {more : List Char}
    (h : readValue steps text = .ok (value, ',' :: ' ' :: more)) (hmore : BeginsValue more) :
    readFields (steps + 1) before ((renderString name).toList ++ ':' :: ' ' :: text) =
      readFields steps (setField before name value) more := by
  have hskip : skipSpaces (' ' :: text) = text := skipSpaces_of_beginsValue hbegins
  have hskip' : skipSpaces (' ' :: more) = more := skipSpaces_of_beginsValue hmore
  rw [toList_renderString, List.cons_append, List.append_assoc, readFields, List.singleton_append,
    readString_escaped]
  change (readValue steps (skipSpaces (' ' :: text)) >>= _) = _
  rw [hskip, h]
  change readFields steps (setField before name value) (skipSpaces (' ' :: more)) = _
  rw [hskip']

end

/-! ## Values -/

-- By recursion on the value, its items and its fields. The steps that are left stay ahead of the text
-- that is left: the step into an array or an object is paid for by its bracket, and the step to the
-- next item or field by the comma before it.

mutual

/-- A value is read back as it was written, given a step for each of its characters. -/
theorem readValue_render (value : Json) (hexact : value.isExact = true) {steps : Nat}
    (hsteps : value.render.toList.length < steps) {rest : List Char} (hrest : EndsNumber rest) :
    readValue steps (value.render.toList ++ rest) = .ok (value, rest) := by
  cases steps with
  | zero =>
      cases hsteps
  | succ steps =>
      cases value with
      | null =>
          rfl
      | bool value =>
          cases value <;> rfl
      | int value =>
          exact readValue_int value steps hrest
      | float value =>
          cases hexact
      | string text =>
          exact readValue_string text steps rest
      | array items =>
          cases items with
          | nil =>
              rfl
          | cons item items =>
              have hitem : item.isExact = true := (Bool.and_eq_true_iff.1 hexact).1
              have hbegins := beginsValue_itemsText hitem items
              rw [toList_render_array, List.length_cons, List.length_append, List.length_singleton]
                at hsteps
              rw [toList_render_array, List.cons_append, List.append_assoc, List.singleton_append,
                readValue_array steps (hbegins.append _),
                readItems_render (item :: items) hexact (List.cons_ne_nil _ _) (by omega)]
              rfl
      | object fields =>
          cases fields with
          | nil =>
              rfl
          | cons field fields =>
              obtain ⟨hnames, hvalues⟩ := Bool.and_eq_true_iff.1 hexact
              have hbegins := beginsValue_fieldsText field fields
              rw [toList_render_object, List.length_cons, List.length_append, List.length_singleton]
                at hsteps
              rw [toList_render_object, List.cons_append, List.append_assoc, List.singleton_append,
                readValue_object steps (hbegins.append _)]
              exact readFields_render (field :: fields) hvalues (List.cons_ne_nil _ _) []
                (of_decide_eq_true hnames) (by omega) rest
termination_by structural value

theorem readItems_render (items : List Json) (hexact : isExactAll items = true) (hnil : items ≠ [])
    {steps : Nat} (hsteps : (itemsText items).length + 1 < steps) (rest : List Char) :
    readItems steps (itemsText items ++ ']' :: rest) = .ok (items, rest) := by
  cases steps with
  | zero =>
      cases hsteps
  | succ steps =>
      cases items with
      | nil =>
          exact absurd rfl hnil
      | cons item items =>
          obtain ⟨hitem, hitems⟩ := Bool.and_eq_true_iff.1 hexact
          cases items with
          | nil =>
              rw [itemsText_singleton] at hsteps ⊢
              exact readItems_last (readValue_render item hitem (by omega)
                (endsNumber_cons (by decide) rest))
          | cons next items =>
              have hnext : next.isExact = true := (Bool.and_eq_true_iff.1 hitems).1
              have hbegins := beginsValue_itemsText hnext items
              rw [itemsText_cons_cons, List.length_append, List.length_cons, List.length_cons]
                at hsteps
              rw [itemsText_cons_cons, List.append_assoc, List.cons_append, List.cons_append,
                readItems_cons (readValue_render item hitem (by omega)
                  (endsNumber_cons (by decide) _)) (hbegins.append _),
                readItems_render (next :: items) hitems (List.cons_ne_nil _ _) (by omega)]
              rfl
termination_by structural items

theorem readFields_render (fields : List (String × Json)) (hexact : isExactFields fields = true)
    (hnil : fields ≠ []) (before : List (String × Json))
    (hnames : ((before ++ fields).map (·.1)).Nodup) {steps : Nat}
    (hsteps : (fieldsText fields).length + 1 < steps) (rest : List Char) :
    readFields steps before (fieldsText fields ++ '\x7d' :: rest) =
      .ok (.object (before ++ fields), rest) := by
  cases steps with
  | zero =>
      cases hsteps
  | succ steps =>
      cases fields with
      | nil =>
          exact absurd rfl hnil
      | cons field fields =>
          obtain ⟨name, value⟩ := field
          obtain ⟨hvalue, hvalues⟩ := Bool.and_eq_true_iff.1 hexact
          -- The name is new to the fields read so far, and so the field is set behind them.
          have hnew : name ∉ before.map (·.1) := by
            rw [List.map_append, List.map_cons] at hnames
            exact fun hmem => (List.nodup_append.1 hnames).2.2 name hmem name List.mem_cons_self rfl
          have hbegins := beginsValue_render hvalue
          cases fields with
          | nil =>
              rw [fieldsText_singleton] at hsteps ⊢
              simp only [List.length_append, List.length_cons] at hsteps
              rw [List.append_assoc, List.cons_append, List.cons_append,
                readFields_last before name (hbegins.append _) (readValue_render value hvalue
                  (by omega) (endsNumber_cons (by decide) rest)),
                setField_of_not_mem before hnew]
          | cons next fields =>
              have hnext := beginsValue_fieldsText next fields
              rw [fieldsText_cons_cons] at hsteps ⊢
              simp only [List.length_append, List.length_cons] at hsteps
              simp only [List.append_assoc, List.cons_append]
              rw [readFields_cons before name (hbegins.append _) (readValue_render value hvalue
                  (by omega) (endsNumber_cons (by decide) _)) (hnext.append _),
                setField_of_not_mem before hnew,
                readFields_render (next :: fields) hvalues (List.cons_ne_nil _ _)
                  (before ++ [(name, value)]) (by rwa [List.append_assoc]) (by omega),
                List.append_assoc]
              rfl
termination_by structural fields

end

theorem read_of_readValue {text : String} (hbegins : BeginsValue text.toList) {value : Json}
    (h : readValue (text.toList.length + 1) text.toList = .ok (value, [])) :
    read text = .ok value := by
  have hskip := skipSpaces_of_beginsValue hbegins
  have hnil : skipSpaces [] = [] := rfl
  unfold read
  cases hchars : text.toList with
  | nil =>
      obtain ⟨_, _, htext, -⟩ := hbegins
      cases hchars.symm.trans htext
  | cons c more =>
      rw [hchars] at hbegins hskip h
      rw [List.length_cons] at h
      have hmark : c ≠ '\ufeff' := hbegins.head_ne.2.2
      simp [hmark, hskip, h, hnil]

/-- A value is read back from the text that is written for it. -/
theorem read_render {value : Json} (hexact : value.isExact = true) :
    read value.render = .ok value := by
  have hends : EndsNumber [] := by
    rintro c ⟨⟩
  have hread := readValue_render value hexact (Nat.lt_succ_self _) hends
  rw [List.append_nil] at hread
  exact read_of_readValue (beginsValue_render hexact) hread

end Json
end AssocLint
