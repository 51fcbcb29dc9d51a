import AssocLint.Proofs.Sexp.Zone
import AssocLint.Sexp.Reader

/-!
# Documents

What a text of symbolic expressions says, by its grammar and without a tokenizer: blank characters
and comments say nothing, a literal and a word each say one value, and a pair of parentheses says
the list of what stands between them. `Document before text values` is that grammar for a text that
follows `before`; a list is given the line of its own opening parenthesis, counted in `before`.

The grammar covers texts that write no backslash, single quote or square bracket outside literals
and comments (`IsPlain`). The lemmas say how each kind of piece passes through the tokenizer and
through the scan for parentheses.
-/

namespace AssocLint
namespace Sexp

open Parenthesis (Zone codeChars)

/-- The line on which the text after `before` begins. -/
def lineAfter (before : List Char) : Nat :=
  before.count '\n' + 1

/-- No backslash, single quote or square bracket stands outside literals and comments. -/
def IsPlain (zone : Zone) (text : List Char) : Prop :=
  ∀ c ∈ codeChars zone text, c ∉ ['\\', '[', ']', '\'']

instance (zone : Zone) (text : List Char) : Decidable (IsPlain zone text) :=
  decidable_of_iff ((codeChars zone text).all fun c => ! (['\\', '[', ']', '\''].contains c)) <| by
    simp only [List.all_eq_true, Bool.not_eq_true', List.contains_eq_mem, decide_eq_false_iff_not]
    exact Iff.rfl

/-- What stands between double quotes, and the characters that it means. -/
inductive Spelled : List Char → List Char → Prop where
  | nil : Spelled [] []
  | plain {c : Char} {written meant : List Char} (quote : c ≠ '"') (backslash : c ≠ '\\') :
      Spelled written meant → Spelled (c :: written) (c :: meant)
  | escaped {written meant : List Char} (c : Char) :
      Spelled written meant → Spelled ('\\' :: c :: written) ((Token.textEscape c).reverse ++ meant)

/-- A word: it holds no character that would end it, and none that has a meaning of its own. -/
structure IsPlainWord (word : List Char) : Prop where
  nonempty : word ≠ []
  chars : ∀ c ∈ word, Token.endsAtom c = false ∧ c ≠ '\\' ∧ c ≠ '\''

/-- The values of a text that follows another. -/
inductive Document : List Char → List Char → List Sexp → Prop where
  | nil (before : List Char) : Document before [] []
  | separator {before rest : List Char} {values : List Sexp} {c : Char}
      (blank : Token.isSeparator c = true) :
      Document (before ++ [c]) rest values → Document before (c :: rest) values
  | comment {before body rest : List Char} {values : List Sexp} (line : '\n' ∉ body) :
      Document (before ++ ';' :: (body ++ ['\n'])) rest values →
        Document before (';' :: (body ++ '\n' :: rest)) values
  | text {before written meant rest : List Char} {values : List Sexp}
      (spelled : Spelled written meant) :
      Document (before ++ '"' :: (written ++ ['"'])) rest values →
        Document before ('"' :: (written ++ '"' :: rest)) (.text (String.ofList meant) :: values)
  | word {before word rest : List Char} {values : List Sexp} (isWord : IsPlainWord word)
      (ends : ∀ c ∈ rest.head?, Token.endsAtom c = true) :
      Document (before ++ word) rest values →
        Document before (word ++ rest) (ofAtom word :: values)
  | list {before inner rest : List Char} {items values : List Sexp} :
      Document (before ++ ['(']) inner items →
        Document (before ++ '(' :: (inner ++ [')'])) rest values →
          Document before ('(' :: (inner ++ ')' :: rest))
            (.list (some (lineAfter before)) items :: values)

/-! ## Pieces in the scan for parentheses -/

theorem lineAfter_append (before text : List Char) :
    lineAfter (before ++ text) = lineAfter before + text.count '\n' := by
  simp only [lineAfter, List.count_append]
  omega

theorem Spelled.after_eq {written meant : List Char} (h : Spelled written meant) :
    Zone.text.after written = .text ∧ codeChars .text written = [] := by
  induction h with
  | nil =>
      exact ⟨rfl, rfl⟩
  | plain quote backslash _ ih =>
      simpa [codeChars, Zone.next, quote, backslash] using ih
  | escaped c _ ih =>
      simpa [codeChars, Zone.next] using ih

theorem after_literal {written meant : List Char} (h : Spelled written meant) :
    Zone.code.after ('"' :: (written ++ ['"'])) = .code ∧
      codeChars .code ('"' :: (written ++ ['"'])) = ['"'] := by
  have hwritten := h.after_eq
  simp [codeChars, Parenthesis.codeChars_append, Zone.next, hwritten.1, hwritten.2]

theorem after_commentBody {body : List Char} (h : '\n' ∉ body) :
    Zone.comment.after body = .comment ∧ codeChars .comment body = [] := by
  induction body with
  | nil =>
      exact ⟨rfl, rfl⟩
  | cons c body ih =>
      have hc : c ≠ '\n' := fun e => h (e ▸ List.mem_cons_self)
      have hbody := ih fun hmem => h (List.mem_cons_of_mem _ hmem)
      simpa [codeChars, Zone.next, hc] using hbody

theorem after_comment {body : List Char} (h : '\n' ∉ body) :
    Zone.code.after (';' :: (body ++ ['\n'])) = .code ∧
      codeChars .code (';' :: (body ++ ['\n'])) = [';'] := by
  have hbody := after_commentBody h
  simp [codeChars, Parenthesis.codeChars_append, Zone.next, hbody.1, hbody.2]

theorem IsPlainWord.after_eq {word : List Char} (h : ∀ c ∈ word, Token.endsAtom c = false) :
    Zone.code.after word = .code ∧ codeChars .code word = word := by
  induction word with
  | nil =>
      exact ⟨rfl, rfl⟩
  | cons c word ih =>
      have hc := h c List.mem_cons_self
      simp only [Token.endsAtom, Bool.or_eq_false_iff, List.contains_eq_mem, List.mem_cons,
        List.not_mem_nil, or_false, decide_eq_false_iff_not, not_or] at hc
      have hword := ih fun c hmem => h c (List.mem_cons_of_mem _ hmem)
      simpa [codeChars, Zone.next, hc] using hword

theorem IsPlainWord.noParens {word : List Char} (h : IsPlainWord word) :
    ∀ c ∈ codeChars .code word, c ≠ '(' ∧ c ≠ ')' := by
  intro c hc
  rw [(after_eq fun c hc => (h.chars c hc).1).2] at hc
  have hends := (h.chars c hc).1
  constructor <;> rintro rfl <;> cases hends

theorem after_separator {c : Char} (h : Token.isSeparator c = true) :
    Zone.code.next c = .code ∧ c ≠ '(' ∧ c ≠ ')' := by
  simp only [Token.isSeparator, List.contains_eq_mem, List.mem_cons, List.not_mem_nil, or_false,
    decide_eq_true_eq] at h
  rcases h with rfl | rfl | rfl | rfl | rfl | rfl <;> decide

/-! ## Pieces in the tokenizer -/

theorem scan_spelled {written meant : List Char} (h : Spelled written meant)
    (read rest : List Char) :
    Token.scan (.text read) (written ++ '"' :: rest) =
      (Token.scan .between rest).map (.text (read.reverse ++ meant) :: ·) := by
  induction h generalizing read with
  | nil =>
      simp [Token.scan, Token.step]
  | plain quote backslash _ ih =>
      simp [Token.scan, Token.step, quote, backslash, ih, Function.comp_def]
  | escaped c _ ih =>
      simp [Token.scan, Token.step, ih, Function.comp_def]

theorem scan_commentBody {body : List Char} (h : '\n' ∉ body) (rest : List Char) :
    Token.scan .comment (body ++ '\n' :: rest) = Token.scan .between rest := by
  induction body with
  | nil =>
      simp [Token.scan, Token.step]
  | cons c body ih =>
      have hc : c ≠ '\n' := fun e => h (e ▸ List.mem_cons_self)
      have hbody := ih fun hmem => h (List.mem_cons_of_mem _ hmem)
      simpa [Token.scan, Token.step, hc] using hbody

/-- What ends a word begins the next token as if nothing stood before it. -/
theorem scan_atom {word rest : List Char}
    (hword : ∀ c ∈ word, Token.endsAtom c = false ∧ c ≠ '\\' ∧ c ≠ '\'')
    (hends : ∀ c ∈ rest.head?, Token.endsAtom c = true) (read : List Char) :
    Token.scan (.atom read) (word ++ rest) =
      (Token.scan .between rest).map (.atom (read.reverse ++ word) :: ·) := by
  induction word generalizing read with
  | nil =>
      cases rest with
      | nil =>
          simp [Token.scan, Token.finish]
      | cons c rest =>
          have hc : Token.endsAtom c = true := hends c rfl
          simp [Token.scan, Token.step, hc, Function.comp_def]
  | cons c word ih =>
      have hc := hword c List.mem_cons_self
      have hrest := ih (fun c hmem => hword c (List.mem_cons_of_mem _ hmem)) (c :: read)
      simpa [Token.scan, Token.step, hc] using hrest

theorem scan_word {word rest : List Char} (hword : IsPlainWord word)
    (hends : ∀ c ∈ rest.head?, Token.endsAtom c = true) :
    Token.scan .between (word ++ rest) =
      (Token.scan .between rest).map (.atom word :: ·) := by
  cases word with
  | nil =>
      exact absurd rfl hword.nonempty
  | cons c word =>
      have hc := hword.chars c List.mem_cons_self
      have hrest := scan_atom (fun c hmem => hword.chars c (List.mem_cons_of_mem _ hmem)) hends [c]
      have hstart : Token.start c = ([], .atom [c]) := by
        simp only [Token.endsAtom, Bool.or_eq_false_iff, List.contains_eq_mem, List.mem_cons,
          List.not_mem_nil, or_false, decide_eq_false_iff_not, not_or] at hc
        simp [Token.start, hc]
      simpa [Token.scan, Token.step, hstart] using hrest

theorem scan_separator {c : Char} (h : Token.isSeparator c = true) (rest : List Char) :
    Token.scan .between (c :: rest) = Token.scan .between rest := by
  have hstart : Token.start c = ([], .between) := by
    simp only [Token.isSeparator, List.contains_eq_mem, List.mem_cons, List.not_mem_nil, or_false,
      decide_eq_true_eq] at h
    rcases h with rfl | rfl | rfl | rfl | rfl | rfl <;> rfl
  simp [Token.scan, Token.step, hstart]

end Sexp
end AssocLint
