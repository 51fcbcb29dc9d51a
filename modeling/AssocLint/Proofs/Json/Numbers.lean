import AssocLint.Json.Reader

/-!
# Integers that are written and read

An integer is written by its decimal digits, behind a minus sign where it is negative. It is read
back as it was where the text behind it does not go on with the number (`readScalar_int`).
-/

namespace AssocLint
namespace Json

/-- A text that goes on with no number that ends before it. -/
def EndsNumber (rest : List Char) : Prop :=
  ∀ c ∈ rest.head?, c.isDigit = false ∧ c ≠ '.' ∧ c ≠ 'e' ∧ c ≠ 'E'

/-! ## Digits -/

/-- The digits of a number begin with a zero only where the number is zero. -/
theorem head?_toDigits_ne_zero (n : Nat) (h : n ≠ 0) : (Nat.toDigits 10 n).head? ≠ some '0' := by
  induction n using Nat.strongRecOn with
  | ind n ih =>
      rw [Nat.toDigits_eq_if (by decide)]
      split
      · simpa [Nat.digitChar_eq_zero] using h
      · rename_i hlarge
        have hhead := ih (n / 10) (by omega) (by omega)
        cases hdigits : Nat.toDigits 10 (n / 10) with
        | nil =>
            exact absurd hdigits Nat.toDigits_ne_nil
        | cons c more =>
            rw [hdigits] at hhead
            exact hhead

theorem wholeDigits_toDigits (n : Nat) {rest : List Char} (h : EndsNumber rest) :
    wholeDigits (Nat.toDigits 10 n ++ rest) = Nat.toDigits 10 n := by
  by_cases hzero : n = 0
  · subst hzero
    rfl
  · have hdigits : ∀ c ∈ Nat.toDigits 10 n, c.isDigit = true := fun c hc =>
      Nat.isDigit_of_mem_toDigits (by decide) (by decide) hc
    have hrest : rest.takeWhile Char.isDigit = [] := by
      cases rest with
      | nil => rfl
      | cons c rest => simp [(h c rfl).1]
    have hrun : (Nat.toDigits 10 n ++ rest).takeWhile Char.isDigit = Nat.toDigits 10 n := by
      rw [List.takeWhile_append_of_pos hdigits, hrest, List.append_nil]
    have hhead := head?_toDigits_ne_zero n hzero
    obtain ⟨c, more, hcons⟩ := List.exists_cons_of_ne_nil (Nat.toDigits_ne_nil (n := n) (b := 10))
    rw [hcons] at hhead hrun ⊢
    have hc : c ≠ '0' := fun heq => hhead (congrArg some heq)
    rw [List.cons_append] at hrun ⊢
    rw [wholeDigits, hrun]
    rintro rest' ⟨⟩
    exact hc rfl

theorem digitsValue_toDigits (n : Nat) : Literal.digitsValue (Nat.toDigits 10 n) = n := by
  have hvalue := Nat.ofDigitChars_ten_toDigits (n := n)
  rw [Nat.ofDigitChars_eq_foldl] at hvalue
  simpa only [Literal.digitsValue, Nat.mul_comm] using hvalue

/-! ## Numbers -/

theorem fractionDigits_eq_nil {rest : List Char} (h : EndsNumber rest) :
    fractionDigits rest = [] := by
  cases rest with
  | nil =>
      rfl
  | cons c rest =>
      rw [fractionDigits]
      rintro rest' ⟨⟩
      exact (h '.' rfl).2.1 rfl

theorem exponentPart_eq_none {rest : List Char} (h : EndsNumber rest) :
    exponentPart rest = none := by
  cases rest with
  | nil =>
      rfl
  | cons c rest =>
      simp [exponentPart, h c rfl]

/-- An integer as it is written. -/
def intDigits (value : Int) : List Char :=
  (if value < 0 then ['-'] else []) ++ Nat.toDigits 10 value.natAbs

theorem toList_toString_int (value : Int) : (toString value).toList = intDigits value := by
  cases value with
  | ofNat n =>
      simp only [Int.toString_eq_repr, Int.repr, Nat.repr_eq_ofList_toDigits, String.toList_ofList]
      rfl
  | negSucc n =>
      simp only [Int.toString_eq_repr, Int.repr, Nat.repr_eq_ofList_toDigits, String.toList_append,
        String.toList_ofList, intDigits, Int.negSucc_lt_zero, if_true]
      rfl

theorem exists_cons_toDigits (n : Nat) :
    ∃ c more, Nat.toDigits 10 n = c :: more ∧ c.isDigit = true := by
  obtain ⟨c, more, hcons⟩ := List.exists_cons_of_ne_nil (Nat.toDigits_ne_nil (n := n) (b := 10))
  have hmem : c ∈ Nat.toDigits 10 n := hcons ▸ List.mem_cons_self
  exact ⟨c, more, hcons, Nat.isDigit_of_mem_toDigits (by decide) (by decide) hmem⟩

theorem readNumber_intDigits (value : Int) {rest : List Char} (h : EndsNumber rest) :
    readNumber (intDigits value ++ rest) = .ok (.int value, rest) := by
  have hdigits : Nat.toDigits 10 value.natAbs ≠ [] := Nat.toDigits_ne_nil
  unfold readNumber
  split
  rename_i negative body hsplit
  -- The sign is split off, and the digits are what is left.
  have hsign : negative = decide (value < 0) ∧ body = Nat.toDigits 10 value.natAbs ++ rest := by
    by_cases hnegative : value < 0
    · simp only [intDigits, hnegative, if_true, List.cons_append, List.nil_append] at hsplit
      cases hsplit
      simp [hnegative]
    · simp only [intDigits, hnegative, if_false, List.nil_append] at hsplit
      split at hsplit
      · rename_i htext
        obtain ⟨c, more, hcons, hc⟩ := exists_cons_toDigits value.natAbs
        rw [hcons, List.cons_append] at htext
        cases htext
        cases hc
      · cases hsplit
        simp [hnegative]
  obtain ⟨rfl, rfl⟩ := hsign
  simp only [wholeDigits_toDigits _ h, List.isEmpty_iff, hdigits, if_false,
    List.drop_left, fractionDigits_eq_nil h, if_true, exponentPart_eq_none h, digitsValue_toDigits,
    decide_eq_true_eq]
  have hvalue : (if value < 0 then -(value.natAbs : Int) else value.natAbs) = value := by
    split <;> omega
  rw [hvalue]

/-! ## Scalars -/

/-- None of the words for values begins as an integer does. -/
theorem find?_words_intDigits (value : Int) (rest : List Char) :
    (words.find? fun word => word.1.toList.isPrefixOf (intDigits value ++ rest)) = none := by
  obtain ⟨c, more, hcons, hc⟩ := exists_cons_toDigits value.natAbs
  have hletter (letter : Char) (hletter : letter.isDigit = false) : (letter == c) = false := by
    rw [beq_eq_false_iff_ne]
    rintro rfl
    rw [hc] at hletter
    cases hletter
  rw [intDigits, hcons]
  split <;> simp [words, List.isPrefixOf, hletter]

theorem readScalar_int (value : Int) {rest : List Char} (h : EndsNumber rest) :
    readScalar ((toString value).toList ++ rest) = .ok (.int value, rest) := by
  rw [toList_toString_int, readScalar, find?_words_intDigits]
  exact readNumber_intDigits value h

end Json
end AssocLint
