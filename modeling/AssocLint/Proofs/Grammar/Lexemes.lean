import AssocLint.Proofs.Reference.Layout
import AssocLint.Proofs.Rule.Reads
import AssocLint.Proofs.Text.Squeezed
import Mathlib.Data.List.TakeWhile

/-!
# Lexemes in front of other text

Each lexeme takes as many characters as it can, so it is read as it was written where what follows
does not continue it: no word character behind a name, a lifetime or a number, no white space
behind white space.

`next?` is the first character of a text behind its white space. Most rules fail on a text that it
tells apart from what they begin with.
-/

namespace AssocLint
namespace Grammar

open Rule Text

/-- The first character that is no white space. -/
def next? (text : List Char) : Option Char :=
  (text.dropWhile isWhiteSpace).head?

/-- No word goes on from the end of a text into the next one. -/
def Apart (text rest : List Char) : Prop :=
  ∀ c ∈ text.getLast?, isWord c = true → ∀ c' ∈ rest.head?, isWord c' = false

/-! ## Runs of characters -/

section

variable {p : Char → Bool} {run rest : List Char}

theorem takeWhile_run (hrun : ∀ c ∈ run, p c = true) (hrest : ∀ c ∈ rest.head?, p c = false) :
    (run ++ rest).takeWhile p = run := by
  rw [List.takeWhile_append_of_pos hrun]
  cases rest with
  | nil => simp
  | cons c rest => simp [hrest c rfl]

theorem dropWhile_run (hrun : ∀ c ∈ run, p c = true) (hrest : ∀ c ∈ rest.head?, p c = false) :
    (run ++ rest).dropWhile p = rest := by
  rw [List.dropWhile_append_of_pos hrun]
  cases rest with
  | nil => rfl
  | cons c rest => simp [hrest c rfl]

end

/-! ## White space -/

theorem isWord_eq_false_of_isWhiteSpace {c : Char} (h : isWhiteSpace c = true) :
    isWord c = false := by
  rw [← Bool.not_eq_true]
  intro hword
  have hblank := isBlank_eq_false_of_isWord hword
  rw [isBlank_of_isWhiteSpace h] at hblank
  cases hblank

theorem isWhiteSpace_eq_false_of_isWord {c : Char} (h : isWord c = true) :
    isWhiteSpace c = false := by
  rw [← Bool.not_eq_true]
  intro hspace
  rw [isWord_eq_false_of_isWhiteSpace hspace] at h
  cases h

theorem next?_append {gap : List Char} (h : Spaces gap) (text : List Char) :
    next? (gap ++ text) = next? text := by
  rw [next?, List.dropWhile_append_of_pos h, next?]

theorem next?_cons {c : Char} (h : isWhiteSpace c = false) (text : List Char) :
    next? (c :: text) = some c := by
  simp [next?, h]

/-- A character at the front of a text is white space or the next one. -/
theorem isWhiteSpace_or_next? {text : List Char} {c : Char} (h : c ∈ text.head?) :
    isWhiteSpace c = true ∨ next? text = some c := by
  cases text with
  | nil =>
      cases h
  | cons c' rest =>
      cases h
      cases hspace : isWhiteSpace c with
      | true => exact Or.inl rfl
      | false => exact Or.inr (next?_cons hspace rest)

theorem reads_ws (text : List Char) : ws.Reads text () (text.dropWhile isWhiteSpace) :=
  Reads.bind (.lexeme rfl) (.pure () _)

theorem reads_ws_append {gap text : List Char} (hgap : Spaces gap)
    (h : ∀ c ∈ text.head?, isWhiteSpace c = false) : ws.Reads (gap ++ text) () text := by
  have hread := reads_ws (gap ++ text)
  rwa [dropWhile_run hgap h] at hread

theorem reads_ws_cons {gap rest : List Char} {c : Char} (hgap : Spaces gap)
    (h : isWhiteSpace c = false) : ws.Reads (gap ++ c :: rest) () (c :: rest) := by
  refine reads_ws_append hgap ?_
  rintro c' ⟨⟩
  exact h

theorem reads_ws1_append {gap text : List Char} (hgap : Spaces gap) (hne : gap ≠ [])
    (h : ∀ c ∈ text.head?, isWhiteSpace c = false) : ws1.Reads (gap ++ text) () text := by
  have hsome : someSpaces? (gap ++ text) = spaces? (gap ++ text) := by
    cases gap with
    | nil => exact absurd rfl hne
    | cons c rest => simp [someSpaces?, hgap c List.mem_cons_self]
  have hlexeme : someSpaces? (gap ++ text) = some (gap, text) := by
    rw [hsome, spaces?, takeWhile_run hgap h, dropWhile_run hgap h]
  exact .named (.bind (.lexeme hlexeme) (.pure () _))

theorem fails_ws1 {text : List Char} (h : ∀ c ∈ text.head?, isWhiteSpace c = false) :
    ws1.Fails text := by
  refine .named (.bind (.lexeme ?_))
  cases text with
  | nil => rfl
  | cons c rest => simp [someSpaces?, h c rfl]

/-! ## Ends of words -/

theorem Apart.right {text more rest : List Char} (h : Apart (text ++ more) rest) :
    Apart more rest := by
  intro c hc
  refine h c ?_
  rw [List.getLast?_append, Option.mem_def.1 hc]
  rfl

theorem Apart.left {text more rest : List Char} (h : Apart (text ++ more) rest)
    (hmore : ∀ c ∈ more.head?, isWord c = false) : Apart text (more ++ rest) := by
  intro c hc hword
  cases more with
  | nil =>
      rw [List.append_nil] at h
      exact h c hc hword
  | cons c' more =>
      exact hmore

theorem Apart.head {text rest : List Char} (h : Apart text rest) (hne : text ≠ [])
    (hlast : ∀ c ∈ text.getLast?, isWord c = true) : ∀ c ∈ rest.head?, isWord c = false := by
  cases hend : text.getLast? with
  | none => exact absurd (List.getLast?_eq_none_iff.1 hend) hne
  | some c => exact h c hend (hlast c hend)

theorem apart_of_head? {text rest : List Char} (h : ∀ c ∈ rest.head?, isWord c = false) :
    Apart text rest :=
  fun _ _ _ => h

theorem apart_append_cons {text gap rest : List Char} {c : Char} (hgap : Spaces gap)
    (hc : isWord c = false) : Apart text (gap ++ c :: rest) := by
  refine apart_of_head? ?_
  cases gap with
  | nil =>
      rintro c' ⟨⟩
      exact hc
  | cons c'' gap =>
      rintro c' ⟨⟩
      exact isWord_eq_false_of_isWhiteSpace (hgap c'' List.mem_cons_self)

theorem isWord_head?_append {gap rest : List Char} (hgap : Spaces gap)
    (h : ∀ c ∈ rest.head?, isWord c = false) : ∀ c ∈ (gap ++ rest).head?, isWord c = false := by
  cases gap with
  | nil => exact h
  | cons c gap =>
      rintro c' ⟨⟩
      exact isWord_eq_false_of_isWhiteSpace (hgap c List.mem_cons_self)

/-! ## Literals -/

theorem fails_literal {text : String} {whole : List Char} {c : Char} {rest : List Char}
    (htext : text.toList = c :: rest) (h : whole.head? ≠ some c) : (literal text).Fails whole := by
  refine Fails.literal ?_
  rw [htext]
  rintro ⟨more, rfl⟩
  exact h rfl

/-- A literal behind white space is found by the next character. -/
theorem fails_ws_literal {α : Type} {next : Unit → Rule α} {text : String} {whole : List Char}
    {c : Char} {rest : List Char} (htext : text.toList = c :: rest) (h : next? whole ≠ some c) :
    (ws >>= fun _ => literal text >>= next).Fails whole :=
  (reads_ws whole).bindFails (.bind (fails_literal htext h))

/-! ## Identifiers -/

theorem eq_cons_of_word? {text word rest : List Char} (h : word? text = some (word, rest)) :
    ∃ c more, text = c :: more ∧ isWordStart c = true ∧
      (c = '_' → ∃ c' ∈ more.head?, isWord c' = true) ∧
      word = c :: more.takeWhile isWord ∧ rest = more.dropWhile isWord := by
  cases text with
  | nil =>
      cases h
  | cons c more =>
      rw [word?] at h
      split at h
      · rename_i hstart
        cases h
        rw [Bool.and_eq_true, Bool.not_eq_true', Bool.and_eq_false_iff] at hstart
        refine ⟨c, more, rfl, hstart.1, ?_, rfl, rfl⟩
        rintro rfl
        simpa [Option.any_eq_true] using hstart.2
      · cases h

/-- All of a text that is one word can stand in a word. -/
theorem isWord_of_word? {word : List Char} (h : word? word = some (word, [])) :
    word ≠ [] ∧ ∀ c ∈ word, isWord c = true := by
  rcases eq_cons_of_word? h with ⟨c, more, rfl, hstart, -, -, hmore⟩
  exact ⟨List.cons_ne_nil c more, List.forall_mem_cons.2
    ⟨isWord_of_isWordStart hstart, List.dropWhile_eq_nil_iff.1 hmore.symm⟩⟩

/-- The sign of a raw identifier ends the word before it. -/
theorem word?_raw_ne (more : List Char) :
    word? ('r' :: '#' :: more) ≠ some ('r' :: '#' :: more, []) := by
  intro h
  have hsign := (isWord_of_word? h).2 '#' (List.mem_cons_of_mem _ List.mem_cons_self)
  cases hsign

theorem word?_append {word rest : List Char} (h : word? word = some (word, []))
    (hrest : ∀ c ∈ rest.head?, isWord c = false) : word? (word ++ rest) = some (word, rest) := by
  rcases eq_cons_of_word? h with ⟨c, more, rfl, hstart, hlone, -, hmore⟩
  have hall := List.dropWhile_eq_nil_iff.1 hmore.symm
  have hgood : (isWordStart c && !(c == '_' && !(more ++ rest).head?.any isWord)) = true := by
    rw [Bool.and_eq_true, Bool.not_eq_true', Bool.and_eq_false_iff, beq_eq_false_iff_ne]
    refine ⟨hstart, ?_⟩
    by_cases hc : c = '_'
    · rcases hlone hc with ⟨c', hc', hword⟩
      cases more with
      | nil => cases hc'
      | cons c'' more =>
          cases hc'
          simp [hword]
    · exact Or.inl hc
  rw [List.cons_append, word?, if_pos hgood, takeWhile_run hall hrest, dropWhile_run hall hrest]

/-- An identifier begins as a word does, and unless it is a raw one it is the whole word. -/
theorem eq_cons_of_identifier? {text name rest : List Char}
    (h : identifier? text = some (name, rest)) :
    ∃ c more, text = c :: more ∧ isWordStart c = true ∧
      (c = '_' → ∃ c' ∈ more.head?, isWord c' = true) ∧
      (c = 'r' ∧ more.head? = some '#' ∨
        name = c :: more.takeWhile isWord ∧ rest = more.dropWhile isWord) := by
  unfold identifier? at h
  split at h
  · rename_i more
    exact ⟨'r', '#' :: more, rfl, by decide, nofun, Or.inl ⟨rfl, rfl⟩⟩
  · rcases eq_cons_of_word? h with ⟨c, more, rfl, hstart, hlone, hname, hrest⟩
    exact ⟨c, more, rfl, hstart, hlone, Or.inr ⟨hname, hrest⟩⟩

theorem identifier?_append {name rest : List Char} (h : identifier? name = some (name, []))
    (hrest : ∀ c ∈ rest.head?, isWord c = false ∧ c ≠ '#') :
    identifier? (name ++ rest) = some (name, rest) := by
  have hword : ∀ c ∈ rest.head?, isWord c = false := fun c hc => (hrest c hc).1
  unfold identifier? at h
  split at h
  · rename_i more
    split at h
    · rename_i word rest' hmore
      cases h
      simp [identifier?, word?_append hmore hword]
    · exact absurd h (word?_raw_ne more)
  · rename_i hraw
    rcases eq_cons_of_word? h with ⟨c, more, rfl, -⟩
    unfold identifier?
    -- Where the name is `r` alone, what follows must not make a raw identifier of it.
    split
    · rename_i more' hsplit
      cases hsplit' : more with
      | nil =>
          rw [hsplit'] at hsplit
          cases rest with
          | nil => cases hsplit
          | cons c' rest =>
              cases hsplit
              exact absurd rfl (hrest '#' rfl).2
      | cons c' more'' =>
          rw [hsplit'] at hsplit
          cases hsplit
          exact absurd (congrArg _ hsplit') (hraw more'')
    · exact word?_append h hword

theorem isWord_of_mem_getLast?_identifier {name : List Char} (h : identifier? name = some (name, [])) :
    ∀ c ∈ name.getLast?, isWord c = true := by
  unfold identifier? at h
  split at h
  · rename_i more
    split at h
    · rename_i word rest hmore
      cases h
      rcases isWord_of_word? hmore with ⟨hne, hall⟩
      intro c hc
      cases more with
      | nil => exact absurd rfl hne
      | cons c' more =>
          rw [List.getLast?_cons_cons, List.getLast?_cons_cons] at hc
          exact hall c (List.mem_of_mem_getLast? hc)
    · exact absurd h (word?_raw_ne more)
  · exact fun c hc => (isWord_of_word? h).2 c (List.mem_of_mem_getLast? hc)

theorem reads_identifier {name : String} (h : IsName name) {rest : List Char}
    (hrest : ∀ c ∈ rest.head?, isWord c = false ∧ c ≠ '#') :
    identifier.Reads (name.toList ++ rest) name rest := by
  refine .named (.bind (.lexeme (identifier?_append h.identifier hrest)) ?_)
  rw [String.ofList_toList]
  exact .pure name rest

theorem fails_identifier {text : List Char} (h : ∀ c ∈ text.head?, isWordStart c = false) :
    identifier.Fails text := by
  refine .named (.bind (.lexeme ?_))
  cases hread : identifier? text with
  | none => rfl
  | some answer =>
      rcases eq_cons_of_identifier? hread with ⟨c, more, rfl, hstart, -⟩
      rw [h c rfl] at hstart
      cases hstart

/-! ## Other lexemes -/

theorem reads_inferred {rest : List Char} (hrest : ∀ c ∈ rest.head?, isWord c = false) :
    inferred.Reads ('_' :: rest) (.verbatim "_") rest := by
  have hnone : rest.head?.any isWord = false := by
    cases rest with
    | nil => rfl
    | cons c rest => exact hrest c rfl
  have hlexeme : inferred? ('_' :: rest) = some (['_'], rest) := by
    simp [inferred?, hnone]
  exact .named (.bind (.lexeme hlexeme) (.pure _ _))

theorem fails_inferred {text : List Char}
    (h : ∀ rest, text = '_' :: rest → ∃ c ∈ rest.head?, isWord c = true) :
    inferred.Fails text := by
  refine .named (.bind (.lexeme ?_))
  unfold inferred?
  split
  · rename_i rest
    rcases h rest rfl with ⟨c, hc, hword⟩
    simp [Option.mem_def.1 hc, hword]
  · rfl

theorem eq_cons_of_lifetime? {text taken rest : List Char}
    (h : lifetime? text = some (taken, rest)) :
    ∃ c more, text = '\'' :: c :: more ∧ isWordStart c = true ∧
      taken = '\'' :: c :: more.takeWhile isWord ∧ rest = more.dropWhile isWord := by
  unfold lifetime? at h
  split at h
  · split at h
    · rename_i hstart
      cases h
      exact ⟨_, _, rfl, hstart, rfl, rfl⟩
    · cases h
  · cases h

theorem isWord_of_mem_getLast?_lifetime {text : List Char}
    (h : lifetime? text = some (text, [])) : ∀ c ∈ text.getLast?, isWord c = true := by
  rcases eq_cons_of_lifetime? h with ⟨c, more, rfl, hstart, -, hmore⟩
  have hall : ∀ c' ∈ c :: more, isWord c' = true := List.forall_mem_cons.2
    ⟨isWord_of_isWordStart hstart, List.dropWhile_eq_nil_iff.1 hmore.symm⟩
  intro c' hc'
  rw [List.getLast?_cons_cons] at hc'
  exact hall c' (List.mem_of_mem_getLast? hc')

theorem reads_lifetime {text : String} (h : lifetime? text.toList = some (text.toList, []))
    {rest : List Char} (hrest : ∀ c ∈ rest.head?, isWord c = false) :
    lifetime.Reads (text.toList ++ rest) (.verbatim text) rest := by
  rcases eq_cons_of_lifetime? h with ⟨c, more, htext, hstart, -, hmore⟩
  have hall := List.dropWhile_eq_nil_iff.1 hmore.symm
  have hlexeme : lifetime? (text.toList ++ rest) = some (text.toList, rest) := by
    rw [htext, List.cons_append, List.cons_append, lifetime?, if_pos hstart,
      takeWhile_run hall hrest, dropWhile_run hall hrest]
  refine .named (.bind (.lexeme hlexeme) ?_)
  rw [String.ofList_toList]
  exact .pure _ rest

theorem fails_lifetime {text : List Char} (h : text.head? ≠ some '\'') : lifetime.Fails text := by
  refine .named (.bind (.lexeme ?_))
  unfold lifetime?
  split
  · exact absurd rfl h
  · rfl

/-! ## Integers -/

theorem toNat_of_isDigit {c : Char} (h : c.isDigit = true) : 48 ≤ c.toNat ∧ c.toNat ≤ 57 := by
  simpa [Char.isDigit, UInt32.le_iff_toNat_le] using h

theorem isWord_of_isDigit {c : Char} (h : c.isDigit = true) : isWord c = true := by
  rcases toNat_of_isDigit h with ⟨hleast, hmost⟩
  have hcode : c.toNat < 0x80 := by omega
  simp only [isWord, if_pos hcode, Bool.or_eq_true, Bool.and_eq_true, decide_eq_true_eq, beq_iff_eq]
  omega

/-- No word begins with a digit. -/
theorem isDigit_eq_false_of_isWordStart {c : Char} (h : isWordStart c = true) :
    c.isDigit = false := by
  rw [← Bool.not_eq_true]
  intro hdigit
  rcases toNat_of_isDigit hdigit with ⟨hleast, hmost⟩
  have hcode : c.toNat < 0x80 := by omega
  have hvalue : isDigit c = true := by
    simp only [isDigit, digitValue?, if_pos hcode]
    rw [if_pos (by simpa using ⟨hleast, hmost⟩)]
    rfl
  rw [isWordStart, hvalue] at h
  simp at h

theorem digits?_append {digits rest : List Char} (hne : digits ≠ [])
    (hdigits : ∀ c ∈ digits, c.isDigit = true) (hrest : ∀ c ∈ rest.head?, isWord c = false) :
    digits? (digits ++ rest) = some (digits, rest) := by
  have hend : ∀ c ∈ rest.head?, c.isDigit = false := by
    intro c hc
    rw [← Bool.not_eq_true]
    intro hdigit
    have hdigit' := isWord_of_isDigit hdigit
    rw [hrest c hc] at hdigit'
    cases hdigit'
  unfold digits?
  rw [takeWhile_run hdigits hend, dropWhile_run hdigits hend]
  cases digits with
  | nil => exact absurd rfl hne
  | cons c digits => rfl

theorem reads_constant {text : String} {digits : List Char} (hne : digits ≠ [])
    (hdigits : ∀ c ∈ digits, c.isDigit = true)
    (htext : text.toList = digits ∨ text.toList = '-' :: digits) {rest : List Char}
    (hrest : ∀ c ∈ rest.head?, isWord c = false) :
    constant.Reads (text.toList ++ rest) (.verbatim text) rest := by
  have hread := digits?_append hne hdigits hrest
  have hblank : ∀ c ∈ digits, isBlank c = false :=
    fun c hc => isBlank_eq_false_of_isWord (isWord_of_isDigit (hdigits c hc))
  have hlexeme : constant? (text.toList ++ rest) = some (text.toList, rest) := by
    rcases htext with htext | htext
    · rw [htext]
      cases digits with
      | nil =>
          exact absurd rfl hne
      | cons c more =>
          -- A digit is neither the sign nor the brace that a constant may begin with.
          have hc : c.isDigit = true := hdigits c List.mem_cons_self
          unfold constant?
          split
          · rename_i hminus
            cases hminus
            cases hc
          · rename_i hbrace
            cases hbrace
            cases hc
          · exact hread
    · rw [htext, List.cons_append, constant?, hread]
      rfl
  have hsqueeze : squeeze text.toList = text.toList := by
    refine squeezeFrom_of_noBlank none ?_
    rcases htext with htext | htext
    · rwa [htext]
    · rw [htext]
      exact List.forall_mem_cons.2 ⟨by decide, hblank⟩
  refine .named (.bind (.lexeme hlexeme) ?_)
  rw [hsqueeze, String.ofList_toList]
  exact .pure _ rest

theorem fails_constant {text : List Char} (hminus : text.head? ≠ some '-')
    (hbrace : text.head? ≠ some '\x7b') (hdigit : ∀ c ∈ text.head?, c.isDigit = false) :
    constant.Fails text := by
  refine .named (.bind (.lexeme ?_))
  unfold constant?
  split
  · exact absurd rfl hminus
  · exact absurd rfl hbrace
  · cases text with
    | nil => rfl
    | cons c rest => simp [digits?, hdigit c rfl]

end Grammar
end AssocLint
