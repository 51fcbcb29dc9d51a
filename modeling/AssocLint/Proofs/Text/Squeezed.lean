import AssocLint.Text.Squeezed

/-!
# Squeezing again

Squeezed text has no blank left to drop: squeezing it again leaves it as it is (`squeeze_squeeze`).
Text without blanks is squeezed from the start, and so are words, since no character of a word is
blank (`isBlank_eq_false_of_isWord`).
-/

namespace AssocLint
namespace Text

theorem squeezeFrom_squeezeFrom (last : Option Char) (gap : Bool) (text : List Char) :
    squeezeFrom last false (squeezeFrom last gap text) = squeezeFrom last gap text := by
  induction text generalizing last gap with
  | nil =>
      rfl
  | cons c rest ih =>
      cases hblank : isBlank c with
      | true =>
          simp only [squeezeFrom, hblank, if_true, ih]
      | false =>
          have hspace : isBlank ' ' = true := by decide
          cases hkept : gap && last.any (!isPunctuation ·) && !isPunctuation c with
          | true =>
              -- The blank that is kept stands between two words, so it is kept again.
              rw [Bool.and_eq_true, Bool.and_eq_true] at hkept
              rcases hkept with ⟨⟨hgap, hlast⟩, hc⟩
              simp [squeezeFrom, hblank, hspace, hgap, hlast, hc, ih]
          | false =>
              simp [squeezeFrom, hblank, hkept, ih]

theorem squeeze_squeeze (text : List Char) : squeeze (squeeze text) = squeeze text :=
  squeezeFrom_squeezeFrom none false text

theorem squeezed_ofList_squeeze (text : List Char) :
    squeezed (String.ofList (squeeze text)) = String.ofList (squeeze text) := by
  rw [squeezed, String.toList_ofList, squeeze_squeeze]

theorem squeezeFrom_of_noBlank (last : Option Char) {text : List Char}
    (h : ∀ c ∈ text, isBlank c = false) : squeezeFrom last false text = text := by
  induction text generalizing last with
  | nil =>
      rfl
  | cons c rest ih =>
      have hc := h c List.mem_cons_self
      have hrest := ih (some c) fun c' hc' => h c' (List.mem_cons_of_mem _ hc')
      simp [squeezeFrom, hc, hrest]

theorem squeezed_ofList_of_noBlank {text : List Char} (h : ∀ c ∈ text, isBlank c = false) :
    squeezed (String.ofList text) = String.ofList text := by
  rw [squeezed, String.toList_ofList, squeeze, squeezeFrom_of_noBlank none h]

/-! ## Words have no blanks -/

theorem isWord_of_isWordStart {c : Char} (h : isWordStart c = true) : isWord c = true := by
  rw [isWordStart, Bool.and_eq_true] at h
  exact h.1

/-- The code points of white space beyond ASCII. -/
def wideSpaces : List Nat :=
  [0x85, 0xa0, 0x1680, 0x2000, 0x2001, 0x2002, 0x2003, 0x2004, 0x2005, 0x2006, 0x2007, 0x2008,
    0x2009, 0x200a, 0x2028, 0x2029, 0x202f, 0x205f, 0x3000]

theorem inRanges_wordRanges_wideSpaces : ∀ code ∈ wideSpaces, inRanges wordRanges code = false := by
  decide +kernel

theorem lt_or_mem_wideSpaces_of_isBlank {c : Char} (h : isBlank c = true) :
    c.toNat ≤ 0x20 ∨ c.toNat ∈ wideSpaces := by
  simp only [isBlank, isWhiteSpace, Bool.or_eq_true, Bool.and_eq_true, beq_iff_eq,
    decide_eq_true_eq] at h
  simp only [wideSpaces, List.mem_cons, List.not_mem_nil, or_false]
  omega

/-- No character of a word is blank. -/
theorem isBlank_eq_false_of_isWord {c : Char} (h : isWord c = true) : isBlank c = false := by
  rw [← Bool.not_eq_true]
  intro hblank
  rcases lt_or_mem_wideSpaces_of_isBlank hblank with hascii | hwide
  · have hcode : c.toNat < 0x80 := by omega
    simp only [isWord, if_pos hcode, Bool.or_eq_true, Bool.and_eq_true, decide_eq_true_eq,
      beq_iff_eq] at h
    omega
  · have hcode : ¬ c.toNat < 0x80 := by
      intro hlt
      simp only [wideSpaces, List.mem_cons, List.not_mem_nil, or_false] at hwide
      omega
    simp only [isWord, if_neg hcode] at h
    rw [inRanges_wordRanges_wideSpaces _ hwide] at h
    cases h

end Text
end AssocLint
