import AssocLint.Json.Reader

/-!
# Strings that are written and read

Every character has an escape of its own, so a string between quotes is read back as it was, whatever
it holds (`readString_escaped`). The one escape that takes more than one piece is that of a
character beyond the first 65536: it is written as two UTF-16 units, which the reader puts together
again.
-/

namespace AssocLint
namespace Json

/-! ## Units -/

theorem hexValue?_digitChar {digit : Nat} (h : digit < 16) :
    hexValue? (Nat.digitChar digit) = some digit := by
  have hall : ∀ digit < 16, hexValue? (Nat.digitChar digit) = some digit := by decide
  exact hall digit h

theorem unit?_hexDigits {unit : Nat} (h : unit < 0x10000) :
    unit? (Nat.digitChar (unit / 16 / 16 / 16 % 16)) (Nat.digitChar (unit / 16 / 16 % 16))
      (Nat.digitChar (unit / 16 % 16)) (Nat.digitChar (unit % 16)) = some unit := by
  have hmod (n : Nat) : n % 16 < 16 := Nat.mod_lt n (by decide)
  simp only [unit?, hexValue?_digitChar (hmod _), Option.pure_def, Option.bind_eq_bind,
    Option.bind_some, Option.some.injEq]
  omega

theorem hexDigits_four (unit : Nat) :
    Text.hexDigits 4 unit =
      [Nat.digitChar (unit / 16 / 16 / 16 % 16), Nat.digitChar (unit / 16 / 16 % 16),
        Nat.digitChar (unit / 16 % 16), Nat.digitChar (unit % 16)] :=
  rfl

/-- A unit that is no half of a surrogate pair is a character. -/
theorem readUnits_hexDigits {unit : Nat} (h : unit < 0xd800 ∨ 0xe000 ≤ unit ∧ unit < 0x10000)
    {rest : List Char} (hrest : rest ≠ []) :
    readUnits (Text.hexDigits 4 unit ++ rest) = .ok (Char.ofNat unit, rest) := by
  have hbound : unit < 0x10000 := by omega
  have hunit := unit?_hexDigits hbound
  have hhigh : ¬ (0xd800 ≤ unit ∧ unit < 0xdc00) := by omega
  have hsurrogate : ¬ (0xd800 ≤ unit ∧ unit < 0xe000) := by omega
  rw [hexDigits_four]
  simp only [List.cons_append, List.nil_append, readUnits, hunit, List.isEmpty_iff, hrest, if_false,
    Bool.and_eq_true, decide_eq_true_eq, hhigh, unitChar, hsurrogate]
  rfl

theorem lowSurrogate?_escapeUnit {unit : Nat} (h : 0xdc00 ≤ unit ∧ unit < 0xe000)
    {rest : List Char} (hrest : rest ≠ []) :
    lowSurrogate? (escapeUnit unit ++ rest) = .ok (some (unit, rest)) := by
  have hbound : unit < 0x10000 := by omega
  have hunit := unit?_hexDigits hbound
  rw [escapeUnit, hexDigits_four]
  simp only [List.cons_append, List.nil_append, lowSurrogate?, hunit, List.isEmpty_iff, hrest,
    if_false, Bool.and_eq_true, decide_eq_true_eq, h, and_self, if_true]

/-- The two halves of a surrogate pair are one character. -/
theorem readUnits_pair {high low : Nat} (hhigh : 0xd800 ≤ high ∧ high < 0xdc00)
    (hlow : 0xdc00 ≤ low ∧ low < 0xe000) {rest : List Char} (hrest : rest ≠ []) :
    readUnits (Text.hexDigits 4 high ++ (escapeUnit low ++ rest)) =
      .ok (Char.ofNat (0x10000 + (high - 0xd800) * 0x400 + (low - 0xdc00)), rest) := by
  have hbound : high < 0x10000 := by omega
  have hunit := unit?_hexDigits hbound
  have hnext : escapeUnit low ++ rest ≠ [] := List.cons_ne_nil _ _
  rw [hexDigits_four]
  simp only [List.cons_append, List.nil_append, readUnits, hunit, List.isEmpty_iff, hnext, if_false,
    Bool.and_eq_true, decide_eq_true_eq, hhigh, and_self, if_true,
    lowSurrogate?_escapeUnit hlow hrest]
  rfl

/-! ## Characters -/

/-- The ways in which a character is written. -/
inductive Escape : Char → List Char → Prop
  | letter {c letter : Char} (h : escaped? letter = some c) : Escape c ['\\', letter]
  | plain {c : Char} (hquote : c ≠ '"') (hbackslash : c ≠ '\\')
      (hplain : 0x20 ≤ c.toNat ∧ c.toNat < 0x7f) : Escape c [c]
  | unit {unit : Nat} (h : unit < 0xd800 ∨ 0xe000 ≤ unit ∧ unit < 0x10000) :
      Escape (Char.ofNat unit) (escapeUnit unit)
  | pair {high low : Nat} (hhigh : 0xd800 ≤ high ∧ high < 0xdc00)
      (hlow : 0xdc00 ≤ low ∧ low < 0xe000) :
      Escape (Char.ofNat (0x10000 + (high - 0xd800) * 0x400 + (low - 0xdc00)))
        (escapeUnit high ++ escapeUnit low)

/-- No character has the number of half a surrogate pair. -/
theorem toNat_lt_or_le (c : Char) : c.toNat < 0xd800 ∨ 0xe000 ≤ c.toNat ∧ c.toNat < 0x110000 := by
  rcases c.valid with h | ⟨h, h'⟩
  · exact .inl h
  · exact .inr ⟨h, h'⟩

theorem escape_escapeChar (c : Char) : Escape c (escapeChar c) := by
  by_cases hspecial : c = '"' ∨ c = '\\' ∨ c = '\n' ∨ c = '\r' ∨ c = '\t' ∨ c = '\x0c' ∨ c = '\x08'
  · rcases hspecial with rfl | rfl | rfl | rfl | rfl | rfl | rfl <;> exact .letter rfl
  · simp only [not_or] at hspecial
    obtain ⟨hquote, hbackslash, hline, hreturn, htab, hfeed, hback⟩ := hspecial
    simp only [escapeChar, beq_iff_eq, Bool.or_eq_true, hquote, hbackslash, hline, hreturn, htab,
      hfeed, hback, or_self, if_false, Bool.and_eq_true, decide_eq_true_eq]
    have hvalid := toNat_lt_or_le c
    split
    · rename_i hplain
      exact .plain hquote hbackslash hplain
    split
    · rename_i hunit
      have hbound : c.toNat < 0xd800 ∨ 0xe000 ≤ c.toNat ∧ c.toNat < 0x10000 := by omega
      have h := Escape.unit hbound
      rwa [Char.ofNat_toNat] at h
    · rename_i hwide
      have hhigh : 0xd800 ≤ 0xd800 + (c.toNat - 0x10000) / 0x400 ∧
          0xd800 + (c.toNat - 0x10000) / 0x400 < 0xdc00 := by
        omega
      have hlow : 0xdc00 ≤ 0xdc00 + (c.toNat - 0x10000) % 0x400 ∧
          0xdc00 + (c.toNat - 0x10000) % 0x400 < 0xe000 := by
        omega
      have h := Escape.pair hhigh hlow
      have hcode : 0x10000 + (0xd800 + (c.toNat - 0x10000) / 0x400 - 0xd800) * 0x400 +
          (0xdc00 + (c.toNat - 0x10000) % 0x400 - 0xdc00) = c.toNat := by
        omega
      rwa [hcode, Char.ofNat_toNat] at h

example : escapeChar (Char.ofNat 0x1f600) = "\\ud83d\\ude00".toList := by
  decide

section

variable (opening steps : Nat) {c : Char} {rest : List Char}

theorem stringChars_letter {letter : Char} (h : escaped? letter = some c) :
    stringChars opening (steps + 1) ('\\' :: letter :: rest) =
      (stringChars opening steps rest).map (Prod.map (c :: ·) id) := by
  rw [stringChars, h]
  · cases stringChars opening steps rest <;> rfl
  · -- The letter is not the one that begins a unit.
    rintro rfl
    cases h

theorem stringChars_units {text : List Char} (h : readUnits text = .ok (c, rest)) :
    stringChars opening (steps + 1) ('\\' :: 'u' :: text) =
      (stringChars opening steps rest).map (Prod.map (c :: ·) id) := by
  rw [stringChars, h]
  change (stringChars opening steps rest >>= _) = _
  cases stringChars opening steps rest <;> rfl

theorem stringChars_plain (hquote : c ≠ '"') (hbackslash : c ≠ '\\') (hplain : 0x20 ≤ c.toNat) :
    stringChars opening (steps + 1) (c :: rest) =
      (stringChars opening steps rest).map (Prod.map (c :: ·) id) := by
  rw [stringChars, if_neg (Nat.not_lt.2 hplain)]
  · cases stringChars opening steps rest <;> rfl
  · exact hquote
  · exact fun h => absurd h hbackslash
  · exact fun _ h => absurd h hbackslash
  · exact fun _ _ h => absurd h hbackslash

/-- Reading goes past one character that is written, and on to the others. -/
theorem stringChars_escape {written : List Char} (h : Escape c written) (hrest : rest ≠ []) :
    stringChars opening (steps + 1) (written ++ rest) =
      (stringChars opening steps rest).map (Prod.map (c :: ·) id) := by
  cases h with
  | letter h =>
      exact stringChars_letter opening steps h
  | plain hquote hbackslash hplain =>
      exact stringChars_plain opening steps hquote hbackslash hplain.1
  | unit h =>
      exact stringChars_units opening steps (readUnits_hexDigits h hrest)
  | pair hhigh hlow =>
      exact stringChars_units opening steps (readUnits_pair hhigh hlow hrest)

end

/-! ## Strings -/

theorem stringChars_flatMap_escapeChar (opening : Nat) (chars : List Char) {steps : Nat}
    (hsteps : chars.length < steps) (rest : List Char) :
    stringChars opening steps (chars.flatMap escapeChar ++ '"' :: rest) = .ok (chars, rest) := by
  induction chars generalizing steps with
  | nil =>
      cases steps with
      | zero =>
          cases hsteps
      | succ steps =>
          rfl
  | cons c chars ih =>
      cases steps with
      | zero =>
          cases hsteps
      | succ steps =>
          have hrest : chars.flatMap escapeChar ++ '"' :: rest ≠ [] := by simp
          rw [List.flatMap_cons, List.append_assoc,
            stringChars_escape opening steps (escape_escapeChar c) hrest,
            ih (Nat.lt_of_succ_lt_succ hsteps)]
          rfl

theorem Escape.length_pos {c : Char} {written : List Char} (h : Escape c written) :
    0 < written.length := by
  cases h <;> simp [escapeUnit]

theorem length_le_flatMap_escapeChar (chars : List Char) :
    chars.length ≤ (chars.flatMap escapeChar).length := by
  induction chars with
  | nil =>
      exact Nat.le_refl 0
  | cons c chars ih =>
      have hpos := (escape_escapeChar c).length_pos
      rw [List.flatMap_cons, List.length_append, List.length_cons]
      omega

/-- A string is read back as it was written, and the text after its closing quote is left. -/
theorem readString_escaped (text : String) (rest : List Char) :
    readString (text.toList.flatMap escapeChar ++ '"' :: rest) = .ok (text, rest) := by
  have hsteps : text.toList.length <
      (text.toList.flatMap escapeChar ++ '"' :: rest).length + 1 := by
    have hle := length_le_flatMap_escapeChar text.toList
    rw [List.length_append]
    omega
  rw [readString, stringChars_flatMap_escapeChar _ _ hsteps]
  exact congrArg (fun text => Except.ok (text, rest)) String.ofList_toList

end Json
end AssocLint
