import AssocLint.Proofs.Json.RoundTrip

/-!
# Values on one line

The text of a value holds printable ASCII only (`printable_render`), and so no line end, whatever
characters are in its strings. As where texts are read back, the value holds no fractions.
-/

namespace AssocLint
namespace Json

/-- A text of printable ASCII. -/
def Printable (text : List Char) : Prop :=
  ∀ c ∈ text, 0x20 ≤ c.toNat ∧ c.toNat < 0x7f

@[simp]
theorem printable_nil : Printable [] :=
  List.forall_mem_nil _

@[simp]
theorem printable_cons {c : Char} {text : List Char} :
    Printable (c :: text) ↔ (0x20 ≤ c.toNat ∧ c.toNat < 0x7f) ∧ Printable text :=
  List.forall_mem_cons

@[simp]
theorem printable_append {text text' : List Char} :
    Printable (text ++ text') ↔ Printable text ∧ Printable text' :=
  List.forall_mem_append

theorem printable_escapeUnit (unit : Nat) : Printable (escapeUnit unit) := by
  have hall : ∀ digit < 16,
      0x20 ≤ (Nat.digitChar digit).toNat ∧ (Nat.digitChar digit).toNat < 0x7f := by
    decide
  have hdigit (n : Nat) := hall (n % 16) (Nat.mod_lt n (by decide))
  rw [escapeUnit, hexDigits_four]
  simp only [printable_cons, printable_nil, hdigit, and_true]
  decide

theorem printable_of_escaped? {c letter : Char} (h : escaped? letter = some c) :
    0x20 ≤ letter.toNat ∧ letter.toNat < 0x7f := by
  unfold escaped? at h
  split at h
  case h_9 =>
    cases h
  all_goals decide

theorem Escape.printable {c : Char} {written : List Char} (h : Escape c written) :
    Printable written := by
  cases h with
  | letter h =>
      have hletter := printable_of_escaped? h
      simpa using hletter
  | plain hquote hbackslash hplain =>
      simpa using hplain
  | unit h =>
      exact printable_escapeUnit _
  | pair hhigh hlow =>
      exact printable_append.2 ⟨printable_escapeUnit _, printable_escapeUnit _⟩

theorem printable_renderString (text : String) : Printable (renderString text).toList := by
  have hescaped : Printable (text.toList.flatMap escapeChar) := by
    intro c hc
    obtain ⟨written, -, hc⟩ := List.mem_flatMap.1 hc
    exact (escape_escapeChar written).printable c hc
  rw [toList_renderString]
  simp [hescaped]

/-! ## Integers -/

theorem printable_int (value : Int) : Printable (toString value).toList := by
  have hdigits : Printable (Nat.toDigits 10 value.natAbs) := by
    intro c hc
    have hdigit : c.isDigit = true := Nat.isDigit_of_mem_toDigits (by decide) (by decide) hc
    obtain ⟨hlow, hhigh⟩ := Char.isDigit_iff_toNat.1 hdigit
    exact ⟨Nat.le_trans (by decide) hlow, Nat.lt_of_le_of_lt hhigh (by decide)⟩
  rw [toList_toString_int, intDigits]
  split <;> simp [hdigits]

/-! ## Values -/

mutual

theorem printable_render (value : Json) (hexact : value.isExact = true) :
    Printable value.render.toList := by
  cases value with
  | null =>
      simp [render]
  | bool value =>
      cases value <;> simp [render]
  | int value =>
      exact printable_int value
  | float value =>
      cases hexact
  | string text =>
      exact printable_renderString text
  | array items =>
      have hitems := printable_itemsText items hexact
      rw [toList_render_array]
      simp [hitems]
  | object fields =>
      have hfields := printable_fieldsText fields (Bool.and_eq_true_iff.1 hexact).2
      rw [toList_render_object]
      simp [hfields]
termination_by structural value

theorem printable_itemsText (items : List Json) (hexact : isExactAll items = true) :
    Printable (itemsText items) := by
  cases items with
  | nil =>
      exact printable_nil
  | cons item items =>
      obtain ⟨hitem, hitems⟩ := Bool.and_eq_true_iff.1 hexact
      have htext := printable_render item hitem
      cases items with
      | nil =>
          rwa [itemsText_singleton]
      | cons next items =>
          have hmore := printable_itemsText (next :: items) hitems
          rw [itemsText_cons_cons]
          simp [htext, hmore]
termination_by structural items

theorem printable_fieldsText (fields : List (String × Json)) (hexact : isExactFields fields = true) :
    Printable (fieldsText fields) := by
  cases fields with
  | nil =>
      exact printable_nil
  | cons field fields =>
      obtain ⟨name, value⟩ := field
      obtain ⟨hvalue, hvalues⟩ := Bool.and_eq_true_iff.1 hexact
      have hname := printable_renderString name
      have htext := printable_render value hvalue
      cases fields with
      | nil =>
          rw [fieldsText_singleton]
          simp [hname, htext]
      | cons next fields =>
          have hmore := printable_fieldsText (next :: fields) hvalues
          rw [fieldsText_cons_cons]
          simp [hname, htext, hmore]
termination_by structural fields

end

end Json
end AssocLint
