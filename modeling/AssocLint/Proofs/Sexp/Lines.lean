import AssocLint.Proofs.Sexp.Views
import Mathlib.Data.List.TakeWhile

/-!
# The lines of lists

Reading a plain text gives exactly the values that the grammar of documents gives, each list with
the line of its own opening parenthesis, and it succeeds exactly where every literal is closed and
every parenthesis has its partner (`readAll?_plain`). Half of this is to take a text apart by the
grammar: `exists_document` does so piece by piece, as far as the parentheses are paired.
-/

namespace AssocLint
namespace Sexp

open Parenthesis (Zone Paired LiteralsClosed codeChars)

/-! ## Taking a text apart -/

/-- A plain text without open literal, and the parentheses in it. -/
structure IsPlainCode (before text : List Char) (parens : List Parenthesis) : Prop where
  plain : IsPlain .code text
  closed : Zone.code.after text = .code
  parens_eq : Parenthesis.scan .code (lineAfter before) text = parens

/-- A piece of code that is no list, with its values, in front of a text that goes on in some way. -/
structure IsPiece (before piece rest : List Char) (values : List Sexp) : Prop where
  nonempty : piece ≠ []
  after_eq : Zone.code.after piece = .code
  noParens : ∀ c ∈ codeChars .code piece, c ≠ '(' ∧ c ≠ ')'
  prepend : ∀ inner items, inner <+: rest → Document (before ++ piece) inner items →
    Document before (piece ++ inner) (values ++ items)

/-- A text begins with a document, and what follows that begins with a closing parenthesis. -/
def BeginsWithDocument (before text : List Char) (parens : List Parenthesis) : Prop :=
  ∃ inner rest items, text = inner ++ rest ∧ Document before inner items ∧
    (∀ c ∈ rest.head?, c = ')') ∧ IsPlainCode (before ++ inner) rest parens

theorem IsPlainCode.drop {before piece rest : List Char} {parens : List Parenthesis}
    (h : IsPlainCode before (piece ++ rest) parens) (hafter : Zone.code.after piece = .code)
    (hparens : ∀ c ∈ codeChars .code piece, c ≠ '(' ∧ c ≠ ')') :
    IsPlainCode (before ++ piece) rest parens := by
  constructor
  case plain =>
    intro c hc
    refine h.plain c ?_
    rw [Parenthesis.codeChars_append, hafter]
    exact List.mem_append_right _ hc
  case closed =>
    have hclosed := h.closed
    rwa [Zone.after_append, hafter] at hclosed
  case parens_eq =>
    have heq := h.parens_eq
    rwa [Parenthesis.scan_append, Parenthesis.scan_eq_nil _ hparens, hafter, List.nil_append,
      ← lineAfter_append] at heq

/-- Behind a parenthesis there is one parenthesis less. -/
theorem IsPlainCode.tail {before rest : List Char} {c : Char} {paren : Parenthesis}
    {parens : List Parenthesis} (hc : c = '(' ∨ c = ')')
    (h : IsPlainCode before (c :: rest) (paren :: parens)) :
    IsPlainCode (before ++ [c]) rest parens := by
  have hnext : Zone.code.next c = .code := by
    rcases hc with rfl | rfl <;> rfl
  constructor
  case plain =>
    intro c' hc'
    refine h.plain c' ?_
    simp only [codeChars, hnext, beq_self_eq_true, if_true]
    exact List.mem_cons_of_mem _ hc'
  case closed =>
    simpa [hnext] using h.closed
  case parens_eq =>
    have htail := congrArg List.tail h.parens_eq
    rw [List.tail_cons] at htail
    rw [← htail, lineAfter_append]
    rcases hc with rfl | rfl <;> rfl

theorem IsPlain.concat_newline {text : List Char} (h : IsPlain .code text) :
    IsPlain .code (text ++ ['\n']) := by
  intro c hc
  rw [Parenthesis.codeChars_append] at hc
  rcases List.mem_append.1 hc with hc | hc
  · exact h c hc
  · have hline : c = '\n' := by
      revert hc
      cases Zone.code.after text <;> simp [codeChars]
    subst hline
    decide

theorem scan_concat_newline (text : List Char) :
    Parenthesis.scan .code (lineAfter []) (text ++ ['\n']) = Parenthesis.ofChars text := by
  have hnone : ∀ zone line, Parenthesis.scan zone line ['\n'] = [] := by
    intro zone line
    cases zone <;> rfl
  rw [Parenthesis.scan_append, hnone, List.append_nil]
  rfl

/-- A literal that ends somewhere ends at its first quote without a backslash. -/
theorem exists_spelled : ∀ {text : List Char}, Zone.text.after text = .code →
    ∃ written meant rest, text = written ++ '"' :: rest ∧ Spelled written meant
  | [], h => by
      cases h
  | [c], h => by
      by_cases hquote : c = '"'
      · subst hquote
        exact ⟨[], [], [], rfl, .nil⟩
      · by_cases hback : c = '\\' <;> simp [Zone.next, hquote, hback] at h
  | c :: d :: rest, h => by
      by_cases hquote : c = '"'
      · subst hquote
        exact ⟨[], [], d :: rest, rfl, .nil⟩
      by_cases hback : c = '\\'
      · subst hback
        have hrest : Zone.text.after rest = .code := by
          simpa [Zone.next] using h
        rcases exists_spelled hrest with ⟨written, meant, rest', rfl, hspelled⟩
        exact ⟨'\\' :: d :: written, _, rest', rfl, .escaped d hspelled⟩
      · have hrest : Zone.text.after (d :: rest) = .code := by
          simpa [Zone.next, hquote, hback] using h
        rcases exists_spelled hrest with ⟨written, meant, rest', heq, hspelled⟩
        exact ⟨c :: written, _, rest', by rw [heq]; rfl, .plain hquote hback hspelled⟩

theorem exists_commentBody {text : List Char} (h : Zone.comment.after text = .code) :
    ∃ body rest, text = body ++ '\n' :: rest ∧ '\n' ∉ body := by
  have hmem : '\n' ∈ text := by
    by_contra hnone
    have hopen := (after_commentBody hnone).1
    rw [h] at hopen
    cases hopen
  exact List.eq_append_cons_of_mem hmem

/-- What is left of a text that begins with a word: the longest word there, and what ends it. -/
theorem exists_word {c : Char} {rest : List Char} (hplain : IsPlain .code (c :: rest))
    (hc : Token.endsAtom c = false) :
    ∃ word rest', c :: rest = word ++ rest' ∧ IsPlainWord word ∧
      ∀ c' ∈ rest'.head?, Token.endsAtom c' = true := by
  have hsplit := (List.takeWhile_append_dropWhile (p := fun c => !Token.endsAtom c)
    (l := c :: rest)).symm
  have hends : ∀ c' ∈ (c :: rest).takeWhile (fun c => !Token.endsAtom c),
      Token.endsAtom c' = false := by
    intro c' hc'
    simpa using List.mem_takeWhile_imp hc'
  have hne : (c :: rest).takeWhile (fun c => !Token.endsAtom c) ≠ [] := by
    simp [hc]
  refine ⟨_, _, hsplit, ⟨hne, ?_⟩, ?_⟩
  · intro c' hc'
    have hcode : c' ∈ codeChars .code (c :: rest) := by
      rw [hsplit, Parenthesis.codeChars_append, (IsPlainWord.after_eq hends).2]
      exact List.mem_append_left _ hc'
    have hspecial := hplain c' hcode
    simp only [List.mem_cons, List.not_mem_nil, or_false, not_or] at hspecial
    exact ⟨hends c' hc', hspecial.1, hspecial.2.2.2⟩
  · intro c' hc'
    have hstop := List.head?_dropWhile_not (fun c => !Token.endsAtom c) (c :: rest)
    rw [Option.mem_def.1 hc'] at hstop
    simpa using hstop

/-- Code that does not begin with a parenthesis begins with a piece that is no list. -/
theorem exists_piece {c : Char} {rest : List Char} (before : List Char)
    (hplain : IsPlain .code (c :: rest)) (hclosed : Zone.code.after (c :: rest) = .code)
    (hopening : c ≠ '(') (hclosing : c ≠ ')') :
    ∃ piece rest' values, c :: rest = piece ++ rest' ∧ IsPiece before piece rest' values := by
  cases hblank : Token.isSeparator c with
  | true =>
      rcases after_separator hblank with ⟨hafter, hparens⟩
      refine ⟨[c], rest, [], rfl, List.cons_ne_nil _ _, hafter, by simpa [codeChars] using hparens,
        ?_⟩
      intro inner items _ hdocument
      exact .separator hblank hdocument
  | false =>
  -- A comment ends with its line, and a literal at its quote.
  by_cases hcomment : c = ';'
  · subst hcomment
    rcases exists_commentBody hclosed with ⟨body, rest', rfl, hline⟩
    rcases after_comment hline with ⟨hafter, hcode⟩
    refine ⟨';' :: (body ++ ['\n']), rest', [], by simp, List.cons_ne_nil _ _, hafter,
      by rw [hcode]; exact List.forall_mem_singleton.2 (by decide), ?_⟩
    intro inner items _ hdocument
    simpa using Document.comment hline hdocument
  by_cases hquote : c = '"'
  · subst hquote
    rcases exists_spelled hclosed with ⟨written, meant, rest', rfl, hspelled⟩
    rcases after_literal hspelled with ⟨hafter, hcode⟩
    refine ⟨'"' :: (written ++ ['"']), rest', [.text (String.ofList meant)], by simp,
      List.cons_ne_nil _ _, hafter, by rw [hcode]; exact List.forall_mem_singleton.2 (by decide), ?_⟩
    intro inner items _ hdocument
    simpa using Document.text hspelled hdocument
  -- No other character ends a word, so one begins here.
  have hends : Token.endsAtom c = false := by
    have hspecial := hplain c (by simp [codeChars])
    simp only [List.mem_cons, List.not_mem_nil, or_false, not_or] at hspecial
    simp [Token.endsAtom, hblank, hquote, hcomment, hopening, hclosing, hspecial]
  rcases exists_word hplain hends with ⟨word, rest', heq, hword, hstop⟩
  have hafter := (IsPlainWord.after_eq fun c hc => (hword.chars c hc).1).1
  refine ⟨word, rest', [ofAtom word], heq, hword.nonempty, hafter, hword.noParens, ?_⟩
  intro inner items hprefix hdocument
  refine Document.word hword ?_ hdocument
  intro c hc
  rcases hprefix with ⟨suffix, rfl⟩
  cases inner with
  | nil => cases hc
  | cons c' inner => exact hstop c hc

/-! ## As far as the parentheses are paired -/

theorem BeginsWithDocument.nil {before text : List Char} {parens : List Parenthesis}
    (h : IsPlainCode before text parens) (hstop : ∀ c ∈ text.head?, c = ')') :
    BeginsWithDocument before text parens := by
  refine ⟨[], text, [], rfl, .nil before, hstop, ?_⟩
  rw [List.append_nil]
  exact h

theorem BeginsWithDocument.prepend {before piece text : List Char} {parens : List Parenthesis}
    {values : List Sexp} (hpiece : IsPiece before piece text values)
    (h : BeginsWithDocument (before ++ piece) text parens) :
    BeginsWithDocument before (piece ++ text) parens := by
  rcases h with ⟨inner, rest, items, rfl, hdocument, hstop, hrest⟩
  refine ⟨piece ++ inner, rest, values ++ items, ?_, ?_, hstop, ?_⟩
  · rw [List.append_assoc]
  · exact hpiece.prepend inner items (List.prefix_append inner rest) hdocument
  · rwa [← List.append_assoc]

/-- A list, which begins with what stands inside it and goes on behind its closing parenthesis. -/
theorem BeginsWithDocument.list {before inside text : List Char} {parens : List Parenthesis}
    {items : List Sexp} (hinside : Document (before ++ ['(']) inside items)
    (h : BeginsWithDocument (before ++ '(' :: (inside ++ [')'])) text parens) :
    BeginsWithDocument before ('(' :: (inside ++ ')' :: text)) parens := by
  rcases h with ⟨inner, rest, values, rfl, hdocument, hstop, hrest⟩
  refine ⟨'(' :: (inside ++ ')' :: inner), rest, _, by simp, .list hinside hdocument, hstop, ?_⟩
  simpa using hrest

theorem IsPlainCode.beginsWithDocument {before text : List Char} {parens more : List Parenthesis}
    (h : IsPlainCode before text (parens ++ more)) (hpaired : Paired parens)
    (hmore : ∀ paren ∈ more.head?, paren.isOpening = false) :
    BeginsWithDocument before text more := by
  -- By the length of the text: what a list holds is a shorter text than the list, and what follows
  -- the list is a shorter one again.
  induction hlength : text.length using Nat.strongRecOn generalizing before text parens more with
  | ind length ih =>
  subst hlength
  cases text with
  | nil =>
      have hnil : parens = [] := (List.append_eq_nil_iff.1 h.parens_eq.symm).1
      subst hnil
      exact .nil h nofun
  | cons c rest =>
      by_cases hopening : c = '('
      · subst hopening
        cases hpaired with
        | nil =>
            -- What is left to others begins with a closing parenthesis.
            have hhead := congrArg List.head? h.parens_eq
            cases hmore _ hhead.symm
        | @pair opening closing inner after opens closes hinner hafter =>
            have hrest : IsPlainCode (before ++ ['(']) rest (inner ++ closing :: (after ++ more)) :=
              IsPlainCode.tail (.inl rfl) (by simpa using h)
            have hstop : ∀ paren ∈ (closing :: (after ++ more)).head?, paren.isOpening = false := by
              rintro paren ⟨⟩
              exact closes
            rcases ih rest.length (Nat.lt_succ_self _) hrest hinner hstop rfl with
              ⟨inside, following, items, rfl, hdocument, hhead, hfollowing⟩
            cases following with
            | nil =>
                cases hfollowing.parens_eq
            | cons c following =>
                have hc : c = ')' := hhead c rfl
                subst hc
                have houtside := hfollowing.tail (.inr rfl)
                rw [List.append_assoc, List.append_assoc] at houtside
                have hshorter :
                    following.length < ('(' :: (inside ++ ')' :: following)).length := by
                  simp
                  omega
                exact .list hdocument (ih _ hshorter houtside hafter hmore rfl)
      by_cases hclosing : c = ')'
      · subst hclosing
        -- The parentheses begin with a closing one, so no pair comes first.
        cases hpaired with
        | nil =>
            exact .nil h (by simp)
        | pair opens closes _ _ =>
            have hhead := congrArg (fun parens => parens.head?.map (·.isOpening)) h.parens_eq
            simp [Parenthesis.scan, opens] at hhead
      -- Any other piece adds no parenthesis.
      rcases exists_piece before h.plain h.closed hopening hclosing with
        ⟨piece, rest', values, heq, hpiece⟩
      rw [heq] at h ih ⊢
      have hshorter : rest'.length < (piece ++ rest').length := by
        have hpos := List.length_pos_iff.2 hpiece.nonempty
        rw [List.length_append]
        omega
      have hrest := h.drop hpiece.after_eq hpiece.noParens
      exact (ih _ hshorter hrest hpaired hmore rfl).prepend hpiece

/-- A plain text is a document where its literals are closed and its parentheses paired. The line
end added to the text ends a comment on its last line. -/
theorem exists_document {text : List Char} (hplain : IsPlain .code text)
    (hclosed : LiteralsClosed text) (hpaired : Paired (Parenthesis.ofChars text)) :
    ∃ values, Document [] (text ++ ['\n']) values := by
  have hcode : IsPlainCode [] (text ++ ['\n']) (Parenthesis.ofChars text ++ []) := by
    refine ⟨hplain.concat_newline, ?_, ?_⟩
    · exact (Parenthesis.after_concat_newline_eq_code_iff text).2 hclosed
    · rw [List.append_nil]
      exact scan_concat_newline text
  rcases hcode.beginsWithDocument hpaired nofun with
    ⟨inner, rest, values, heq, hdocument, hstop, hrest⟩
  cases rest with
  | nil =>
      rw [List.append_nil] at heq
      exact ⟨values, heq ▸ hdocument⟩
  | cons c rest =>
      -- A closing parenthesis that is left over would be among those that are left over: none.
      have hc : c = ')' := hstop c rfl
      subst hc
      cases hrest.parens_eq

/-! ## Reading -/

theorem readAll?_of_document {text : String} {values : List Sexp}
    (h : Document [] (text.toList ++ ['\n']) values) : readAll? text = some values := by
  rcases h.exists_views with ⟨tokens, raw, hviews⟩
  have htokens : Token.ofChars? (text.toList ++ ['\n']) = some tokens := by
    have hscan := hviews.tokens_eq [] nofun
    simpa [Token.ofChars?, Token.scan, Token.finish] using hscan
  have hparse : parse? text.toList = some raw := by
    have hbuild := hviews.build_eq false [] [] []
    simp only [List.append_nil] at hbuild
    simp [parse?, htokens, hbuild, build]
  have hattach := hviews.attach_eq []
  rw [List.append_nil] at hattach
  have hlines : Parenthesis.ofChars text.toList =
      Parenthesis.scan .code (lineAfter []) (text.toList ++ ['\n']) :=
    (scan_concat_newline text.toList).symm
  simp [readAll?, hparse, hlines, hattach]

theorem closed_and_paired_of_readAll? {text : String} {values : List Sexp}
    (hplain : IsPlain .code text.toList) (h : readAll? text = some values) :
    LiteralsClosed text.toList ∧ Paired (Parenthesis.ofChars text.toList) := by
  rcases Option.bind_eq_some_iff.1 h with ⟨raw, hparse, -⟩
  rcases Option.bind_eq_some_iff.1 hparse with ⟨tokens, htokens, hbuild⟩
  rcases scan_tokens .between hplain.concat_newline htokens (lineAfter []) with
    ⟨⟨htext, hescape⟩, hopens⟩
  constructor
  · rw [Zone.after_append] at htext hescape
    constructor <;> intro hopen <;> rw [hopen] at htext hescape
    · exact htext rfl
    · exact htext rfl
  · rw [scan_concat_newline] at hopens
    cases closing_of_build hbuild hopens.symm with
    | paired hpaired => exact hpaired

/-- A plain text is read exactly where its literals are closed and its parentheses have their
partners, and then as the grammar of documents has it: each list has the line of its own opening
parenthesis. -/
theorem readAll?_plain (text : String) (hplain : IsPlain .code text.toList) :
    ((readAll? text).isSome ↔
        LiteralsClosed text.toList ∧ Paired (Parenthesis.ofChars text.toList)) ∧
      ∀ values, readAll? text = some values ↔ Document [] (text.toList ++ ['\n']) values := by
  have hsome {values : List Sexp} (h : readAll? text = some values) :
      Document [] (text.toList ++ ['\n']) values := by
    rcases closed_and_paired_of_readAll? hplain h with ⟨hclosed, hpaired⟩
    rcases exists_document hplain hclosed hpaired with ⟨values', hdocument⟩
    have hvalues : values' = values :=
      Option.some.inj ((readAll?_of_document hdocument).symm.trans h)
    exact hvalues ▸ hdocument
  refine ⟨⟨?_, ?_⟩, fun values => ⟨hsome, readAll?_of_document⟩⟩
  · intro h
    rcases Option.isSome_iff_exists.1 h with ⟨values, hread⟩
    exact closed_and_paired_of_readAll? hplain hread
  · rintro ⟨hclosed, hpaired⟩
    rcases exists_document hplain hclosed hpaired with ⟨values, hdocument⟩
    rw [readAll?_of_document hdocument]
    rfl

/-- A literal with an escaped quote and an opening parenthesis, a comment with a closing one, and a
list that opens on the second line. -/
theorem readAll?_plain_second_line :
    let text := "(a \"\\\"(\" ; )\n (b))"
    IsPlain .code text.toList ∧ LiteralsClosed text.toList ∧
      Paired (Parenthesis.ofChars text.toList) ∧
      ∃ values, readAll? text = some values ∧ Document [] (text.toList ++ ['\n']) values := by
  intro text
  have hplain : IsPlain .code text.toList := by
    have hall : (codeChars .code text.toList).all
        (fun c => ! (['\\', '[', ']', '\''].contains c)) = true := by
      decide
    intro c hc
    simpa using List.all_eq_true.1 hall c hc
  have hclosed : LiteralsClosed text.toList := by
    unfold LiteralsClosed
    decide
  have hparens : Parenthesis.ofChars text.toList =
      [⟨true, 1⟩, ⟨true, 2⟩, ⟨false, 2⟩, ⟨false, 2⟩] := by
    decide
  have hpaired : Paired (Parenthesis.ofChars text.toList) := by
    rw [hparens]
    have hsecond : Paired [⟨true, 2⟩, ⟨false, 2⟩] := .pair rfl rfl .nil .nil
    exact .pair rfl rfl hsecond .nil
  rcases readAll?_plain text hplain with ⟨hsome, hvalues⟩
  rcases Option.isSome_iff_exists.1 (hsome.2 ⟨hclosed, hpaired⟩) with ⟨values, hread⟩
  exact ⟨hplain, hclosed, hpaired, values, hread, (hvalues values).1 hread⟩

end Sexp
end AssocLint
