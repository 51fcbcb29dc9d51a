import AssocLint.Proofs.Sexp.Document

/-!
# Parentheses with partners

`Paired` says that every parenthesis of a list has its partner. The tokenizer and the scan for
parentheses read a plain text side by side and see the same parentheses (`scan_tokens`), though they
share no state; building values from tokens succeeds only where all parentheses have their partners
(`closing_of_build`).
-/

namespace AssocLint

namespace Parenthesis

/-- Every parenthesis has its partner: what stands between an opening one and its closing one is
paired in itself. -/
inductive Paired : List Parenthesis → Prop where
  | nil : Paired []
  | pair {opening closing : Parenthesis} {inner rest : List Parenthesis}
      (opens : opening.isOpening = true) (closes : closing.isOpening = false) :
      Paired inner → Paired rest → Paired (opening :: (inner ++ closing :: rest))

/-- All parentheses have their partners but for a number of closing ones. -/
inductive Closing : Nat → List Parenthesis → Prop where
  | paired {parens : List Parenthesis} : Paired parens → Closing 0 parens
  | close {count : Nat} {inner rest : List Parenthesis} {closing : Parenthesis}
      (closes : closing.isOpening = false) :
      Paired inner → Closing count rest → Closing (count + 1) (inner ++ closing :: rest)

/-- A pair in front leaves no more to close. -/
theorem Closing.pair {count : Nat} {opening closing : Parenthesis}
    {inner rest : List Parenthesis} (opens : opening.isOpening = true)
    (closes : closing.isOpening = false) (hinner : Paired inner) (h : Closing count rest) :
    Closing count (opening :: (inner ++ closing :: rest)) := by
  cases h with
  | paired hrest =>
      exact .paired (.pair opens closes hinner hrest)
  | @close count inner' rest' closing' closes' hinner' hrest =>
      have hfront := Paired.pair opens closes hinner hinner'
      simpa only [List.append_assoc, List.cons_append] using Closing.close closes' hfront hrest

end Parenthesis

namespace Sexp

open Parenthesis (Zone Closing Paired codeChars)

/-! ## Tokens and parentheses -/

/-- Whether a token opens or closes a list. -/
def opens? : Token → Option Bool
  | .opening _ => some true
  | .closing _ => some false
  | _ => none

/-- Where the tokenizer stands in a plain text when the scan stands in a zone. -/
inductive Agrees : Token.State → Zone → Prop where
  | between : Agrees .between .code
  | atom (read : List Char) : Agrees (.atom read) .code
  | text (read : List Char) : Agrees (.text read) .text
  | textEscape (read : List Char) : Agrees (.textEscape read) .escape
  | comment : Agrees .comment .comment

/-- The parentheses of one character. -/
theorem scan_singleton (zone : Zone) (line : Nat) (c : Char) :
    (Parenthesis.scan zone line [c]).map (·.isOpening) =
      if zone == .code && c == '(' then [true]
      else if zone == .code && c == ')' then [false] else [] := by
  simp only [Parenthesis.scan]
  split
  · rfl
  · split <;> rfl

/-- Between tokens, both views make the same of a character that has no meaning of its own beyond
parentheses, quotes and comments. -/
theorem agrees_start {c : Char} (h : c ∉ ['\\', '[', ']', '\'']) (line : Nat) :
    Agrees (Token.start c).2 (Zone.code.next c) ∧
      (Token.start c).1.filterMap opens? =
        (Parenthesis.scan .code line [c]).map (·.isOpening) := by
  rw [scan_singleton]
  by_cases hquote : c = '"'
  · subst hquote
    exact ⟨.text [], rfl⟩
  by_cases hopening : c = '('
  · subst hopening
    exact ⟨.between, rfl⟩
  by_cases hclosing : c = ')'
  · subst hclosing
    exact ⟨.between, rfl⟩
  by_cases hcomment : c = ';'
  · subst hcomment
    exact ⟨.comment, rfl⟩
  simp only [List.mem_cons, List.not_mem_nil, or_false, not_or] at h
  have hnext : Zone.code.next c = .code := by
    simp [Zone.next, hquote, hcomment]
  rw [hnext]
  cases hblank : Token.isSeparator c with
  | true =>
      simp [Token.start, hopening, hclosing, h, hblank, Agrees.between]
  | false =>
      simp [Token.start, hopening, hclosing, h, hblank, Agrees.atom]

theorem agrees_step {state : Token.State} {zone : Zone} {c : Char} (hstate : Agrees state zone)
    (hplain : zone = .code → c ∉ ['\\', '[', ']', '\'']) (line : Nat) :
    Agrees (Token.step state c).2 (zone.next c) ∧
      (Token.step state c).1.filterMap opens? =
        (Parenthesis.scan zone line [c]).map (·.isOpening) := by
  cases hstate with
  | between =>
      exact agrees_start (hplain rfl) line
  | atom read =>
      have hstart := agrees_start (hplain rfl) line
      cases hends : Token.endsAtom c with
      | true =>
          simpa [Token.step, hends, opens?, List.filterMap_cons] using hstart
      | false =>
          -- The character goes on with the word, so it is none that the scan looks at.
          have hback : c ≠ '\\' := fun e => hplain rfl (e ▸ List.mem_cons_self)
          simp only [Token.endsAtom, Bool.or_eq_false_iff, List.contains_eq_mem, List.mem_cons,
            List.not_mem_nil, or_false, decide_eq_false_iff_not, not_or] at hends
          have hnext : Zone.code.next c = .code := by
            simp [Zone.next, hends]
          rw [hnext, scan_singleton]
          simp [Token.step, Token.endsAtom, hends, hback, Agrees.atom]
  | text read =>
      rw [scan_singleton]
      by_cases hquote : c = '"'
      · subst hquote
        exact ⟨.between, rfl⟩
      by_cases hback : c = '\\'
      · subst hback
        exact ⟨.textEscape read, rfl⟩
      simp [Token.step, Zone.next, hquote, hback, Agrees.text]
  | textEscape read =>
      rw [scan_singleton]
      exact ⟨.text _, rfl⟩
  | comment =>
      rw [scan_singleton]
      by_cases hline : c = '\n'
      · subst hline
        exact ⟨.between, rfl⟩
      simp [Token.step, Zone.next, hline, Agrees.comment]

theorem scan_cons (state : Token.State) (c : Char) (rest : List Char) :
    Token.scan state (c :: rest) =
      (Token.scan (Token.step state c).2 rest).map ((Token.step state c).1 ++ ·) :=
  rfl

/-- A plain text that can be cut into tokens has no open literal, and its tokens have the
parentheses that the scan sees. -/
theorem scan_tokens {state : Token.State} {zone : Zone} {text : List Char} {tokens : List Token}
    (hstate : Agrees state zone) (hplain : IsPlain zone text)
    (h : Token.scan state text = some tokens) (line : Nat) :
    (zone.after text ≠ .text ∧ zone.after text ≠ .escape) ∧
      tokens.filterMap opens? = (Parenthesis.scan zone line text).map (·.isOpening) := by
  induction text generalizing state zone tokens line with
  | nil =>
      -- At the end of the text only an open literal is refused.
      cases hstate with
      | between | comment =>
          cases h
          exact ⟨⟨nofun, nofun⟩, rfl⟩
      | atom read =>
          cases h
          exact ⟨⟨nofun, nofun⟩, rfl⟩
      | text read | textEscape read =>
          cases h
  | cons c rest ih =>
      have hc : zone = .code → c ∉ ['\\', '[', ']', '\''] := by
        rintro rfl
        exact hplain c (by simp [codeChars])
      have hrest : IsPlain (zone.next c) rest := by
        intro c' hc'
        refine hplain c' ?_
        rw [← List.singleton_append, Parenthesis.codeChars_append]
        exact List.mem_append_right _ hc'
      rcases agrees_step hstate hc line with ⟨hnext, hparens⟩
      rw [scan_cons] at h
      rcases Option.map_eq_some_iff.1 h with ⟨tokens', htokens', rfl⟩
      rcases ih hnext hrest htokens' (line + [c].count '\n') with ⟨hclosed, hparens'⟩
      have hsplit : Parenthesis.scan zone line (c :: rest) = Parenthesis.scan zone line [c] ++
          Parenthesis.scan (zone.next c) (line + [c].count '\n') rest :=
        Parenthesis.scan_append zone line [c] rest
      refine ⟨hclosed, ?_⟩
      rw [List.filterMap_append, hparens, hparens', hsplit, List.map_append]

/-- Building values closes all the lists that are being read. -/
theorem closing_of_build {frame : Frame} {outer : List Frame} {tokens : List Token}
    {values : List Sexp} (h : build frame outer tokens = some values) {parens : List Parenthesis}
    (hparens : parens.map (·.isOpening) = tokens.filterMap opens?) :
    Closing outer.length parens := by
  induction tokens generalizing frame outer parens with
  | nil =>
      cases outer with
      | nil =>
          simp only [List.filterMap_nil, List.map_eq_nil_iff] at hparens
          rw [hparens]
          exact .paired .nil
      | cons parent outer =>
          simp [build] at h
  | cons token rest ih =>
      cases token with
      | text chars =>
          exact ih h hparens
      | atom chars =>
          exact ih h hparens
      | quote =>
          exact ih h hparens
      | opening square =>
          rcases List.map_eq_cons_iff.1 hparens with ⟨opening, parens', rfl, hopens, hparens'⟩
          -- The list that is opened here is closed first.
          cases ih h hparens' with
          | close closes hinner hrest =>
              exact Closing.pair hopens closes hinner hrest
      | closing square =>
          rcases List.map_eq_cons_iff.1 hparens with ⟨closing, parens', rfl, hcloses, hparens'⟩
          cases outer with
          | nil =>
              simp [build] at h
          | cons parent outer =>
              simp only [build] at h
              split at h
              · -- Nothing more of the list stands before the parenthesis that closes it.
                have hclosed := Closing.close hcloses Paired.nil (ih h hparens')
                exact hclosed
              · cases h

end Sexp
end AssocLint
