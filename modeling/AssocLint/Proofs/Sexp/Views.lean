import AssocLint.Proofs.Sexp.Balance

/-!
# Two views of a document

The values of a text come from its tokens, and the lines of its lists from a second view that sees
only parentheses; the two are joined by position. `Views` says what either view makes of a document
wherever it stands, and that the join gives each list the line of its own opening parenthesis. Every
document has these views (`Document.exists_views`): pieces that are no list add to the tokens alone,
and a list adds one token and one parenthesis on either side of what it holds.
-/

namespace AssocLint
namespace Sexp

open Parenthesis (Zone Paired codeChars)

/-! ## From documents to both views -/

/-- What both views make of a text that follows another: the tokens with the values they build, and
the parentheses with the lines they give. -/
structure Views (before text : List Char) (values : List Sexp) (tokens : List Token)
    (raw : List Sexp) : Prop where
  tokens_eq : ∀ rest : List Char, (∀ c ∈ rest.head?, Token.endsAtom c = true) →
    Token.scan .between (text ++ rest) = (Token.scan .between rest).map (tokens ++ ·)
  build_eq : ∀ (square : Bool) (read : List Sexp) (outer : List Frame) (more : List Token),
    build ⟨square, 0, read⟩ outer (tokens ++ more) =
      build ⟨square, 0, raw.reverse ++ read⟩ outer more
  after_eq : Zone.code.after text = .code
  paired : Paired (Parenthesis.scan .code (lineAfter before) text)
  attach_eq : ∀ more : List Nat,
    attachAll raw
        (Parenthesis.openingLines (Parenthesis.scan .code (lineAfter before) text) ++ more) =
      (values, more)

theorem attachAll_append (values values' : List Sexp) (lines : List Nat) :
    attachAll (values ++ values') lines =
      ((attachAll values lines).1 ++ (attachAll values' (attachAll values lines).2).1,
        (attachAll values' (attachAll values lines).2).2) := by
  induction values generalizing lines with
  | nil =>
      rfl
  | cons value values ih =>
      simp only [List.cons_append, attachAll, ih]

theorem Views.nil (before : List Char) : Views before [] [] [] [] where
  tokens_eq rest _ := by
    simp
  build_eq square read outer more := rfl
  after_eq := rfl
  paired := .nil
  attach_eq more := rfl

/-- A piece of text that is no list, in front of a text that follows it. -/
theorem Views.prepend {before text : List Char} {values : List Sexp} {tokens : List Token}
    {raw : List Sexp} (piece : List Char) (pieceTokens : List Token) (pieceValues : List Sexp)
    (hscan : ∀ rest : List Char, (∀ c ∈ rest.head?, Token.endsAtom c = true) →
      Token.scan .between (piece ++ (text ++ rest)) =
        (Token.scan .between (text ++ rest)).map (pieceTokens ++ ·))
    (hbuild : ∀ (square : Bool) (read : List Sexp) (outer : List Frame) (more : List Token),
      build ⟨square, 0, read⟩ outer (pieceTokens ++ more) =
        build ⟨square, 0, pieceValues.reverse ++ read⟩ outer more)
    (hafter : Zone.code.after piece = .code)
    (hparens : ∀ c ∈ codeChars .code piece, c ≠ '(' ∧ c ≠ ')')
    (hattach : ∀ lines : List Nat, attachAll pieceValues lines = (pieceValues, lines))
    (h : Views (before ++ piece) text values tokens raw) :
    Views before (piece ++ text) (pieceValues ++ values) (pieceTokens ++ tokens)
      (pieceValues ++ raw) := by
  -- The piece has no parenthesis in code; it only moves the line on.
  have hsplit : Parenthesis.scan .code (lineAfter before) (piece ++ text) =
      Parenthesis.scan .code (lineAfter (before ++ piece)) text := by
    rw [Parenthesis.scan_append, Parenthesis.scan_eq_nil _ hparens, hafter, lineAfter_append,
      List.nil_append]
  constructor
  case tokens_eq =>
    intro rest hends
    rw [List.append_assoc, hscan rest hends, h.tokens_eq rest hends, Option.map_map]
    congr 1
    funext more
    simp only [Function.comp_apply, List.append_assoc]
  case build_eq =>
    intro square read outer more
    rw [List.append_assoc, hbuild, h.build_eq, List.reverse_append, List.append_assoc]
  case after_eq =>
    rw [Zone.after_append, hafter, h.after_eq]
  case paired =>
    rw [hsplit]
    exact h.paired
  case attach_eq =>
    intro more
    rw [hsplit, attachAll_append, hattach, h.attach_eq]

/-- The parentheses of a list are its own two with those inside between them. -/
theorem scan_list (before : List Char) {inner : List Char} (rest : List Char)
    (hinner : Zone.code.after inner = .code) :
    Parenthesis.scan .code (lineAfter before) ('(' :: (inner ++ ')' :: rest)) =
      ⟨true, lineAfter before⟩ ::
        (Parenthesis.scan .code (lineAfter (before ++ ['('])) inner ++
          ⟨false, lineAfter (before ++ '(' :: inner)⟩ ::
            Parenthesis.scan .code (lineAfter (before ++ '(' :: (inner ++ [')']))) rest) := by
  have hopening : Zone.code.next '(' = .code := rfl
  have hclosing : Zone.code.next ')' = .code := rfl
  simp [Parenthesis.scan, Parenthesis.scan_append, hopening, hclosing, hinner, lineAfter_append]

theorem Views.list {before inner text : List Char} {items values : List Sexp}
    {innerTokens tokens : List Token} {innerRaw raw : List Sexp}
    (hinner : Views (before ++ ['(']) inner items innerTokens innerRaw)
    (h : Views (before ++ '(' :: (inner ++ [')'])) text values tokens raw) :
    Views before ('(' :: (inner ++ ')' :: text)) (.list (some (lineAfter before)) items :: values)
      (.opening false :: (innerTokens ++ .closing false :: tokens)) (.list none innerRaw :: raw) := by
  have hscan := scan_list before text hinner.after_eq
  constructor
  case tokens_eq =>
    intro rest hends
    -- Either parenthesis is a token of its own and leaves the tokenizer between tokens.
    have hstep (c : Char) (token : Token) (hc : Token.step .between c = ([token], .between))
        (following : List Char) : Token.scan .between (c :: following) =
          (Token.scan .between following).map (token :: ·) := by
      rw [scan_cons, hc]
      rfl
    have hclosing : ∀ c ∈ (')' :: (text ++ rest)).head?, Token.endsAtom c = true := by
      rintro c ⟨⟩
      rfl
    rw [List.cons_append, List.append_assoc, List.cons_append, hstep '(' (.opening false) rfl,
      hinner.tokens_eq _ hclosing, hstep ')' (.closing false) rfl, h.tokens_eq rest hends]
    simp [Function.comp_def]
  case build_eq =>
    intro square read outer more
    calc
      build ⟨square, 0, read⟩ outer
            (.opening false :: (innerTokens ++ .closing false :: tokens) ++ more)
          = build ⟨false, 0, []⟩ (⟨square, 0, read⟩ :: outer)
              (innerTokens ++ .closing false :: (tokens ++ more)) := by
            simp only [List.cons_append, List.append_assoc, build]
      _ = build ⟨false, 0, innerRaw.reverse⟩ (⟨square, 0, read⟩ :: outer)
              (.closing false :: (tokens ++ more)) := by
            rw [hinner.build_eq, List.append_nil]
      _ = build ⟨square, 0, .list none innerRaw :: read⟩ outer (tokens ++ more) := by
            simp [build, Frame.push, Frame.value, quote]
      _ = build ⟨square, 0, (.list none innerRaw :: raw).reverse ++ read⟩ outer more := by
            rw [h.build_eq]
            simp
  case after_eq =>
    have hrest : Zone.code.after text = .code := h.after_eq
    have hopening : Zone.code.next '(' = .code := rfl
    have hclosing : Zone.code.next ')' = .code := rfl
    simp [hinner.after_eq, hopening, hclosing, hrest]
  case paired =>
    rw [hscan]
    exact .pair rfl rfl hinner.paired h.paired
  case attach_eq =>
    intro more
    -- The list takes the first line, what it holds the next ones, and what follows it the rest.
    have hlines : Parenthesis.openingLines
        (Parenthesis.scan .code (lineAfter before) ('(' :: (inner ++ ')' :: text))) ++ more =
          lineAfter before ::
            (Parenthesis.openingLines
                (Parenthesis.scan .code (lineAfter (before ++ ['('])) inner) ++
              (Parenthesis.openingLines (Parenthesis.scan .code
                (lineAfter (before ++ '(' :: (inner ++ [')']))) text) ++ more)) := by
      rw [hscan]
      simp [Parenthesis.openingLines]
    rw [hlines]
    simp [attachAll, attach, hinner.attach_eq, h.attach_eq]

theorem attach_ofAtom (word : List Char) (lines : List Nat) :
    attach (ofAtom word) lines = (ofAtom word, lines) := by
  unfold ofAtom
  split
  · rfl
  · split <;> rfl

theorem Document.exists_views {before text : List Char} {values : List Sexp}
    (h : Document before text values) : ∃ tokens raw, Views before text values tokens raw := by
  induction h with
  | nil before =>
      exact ⟨[], [], .nil before⟩
  | @separator before rest values c blank _ ih =>
      rcases ih with ⟨tokens, raw, h⟩
      rcases after_separator blank with ⟨hafter, hparens⟩
      refine ⟨_, _, Views.prepend [c] [] [] ?_ ?_ ?_ ?_ ?_ h⟩
      · intro following _
        simp [scan_separator blank]
      · intro square read outer more
        rfl
      · exact hafter
      · simpa [codeChars] using hparens
      · intro lines
        rfl
  | @comment before body rest values line _ ih =>
      rcases ih with ⟨tokens, raw, h⟩
      rcases after_comment line with ⟨hafter, hcode⟩
      have hviews := Views.prepend (';' :: (body ++ ['\n'])) [] [] ?_ ?_ hafter ?_ ?_ h
      · exact ⟨_, _, by simpa using hviews⟩
      · intro following _
        have hbody := scan_commentBody line (rest ++ following)
        simpa [scan_cons, Token.step, Token.start] using hbody
      · intro square read outer more
        rfl
      · rw [hcode]
        exact List.forall_mem_singleton.2 (by decide)
      · intro lines
        rfl
  | @text before written meant rest values spelled _ ih =>
      rcases ih with ⟨tokens, raw, h⟩
      rcases after_literal spelled with ⟨hafter, hcode⟩
      have hviews := Views.prepend ('"' :: (written ++ ['"'])) [.text meant]
        [.text (String.ofList meant)] ?_ ?_ hafter ?_ ?_ h
      · exact ⟨_, _, by simpa using hviews⟩
      · intro following _
        have hliteral := scan_spelled spelled [] (rest ++ following)
        simpa [scan_cons, Token.step, Token.start] using hliteral
      · intro square read outer more
        rfl
      · rw [hcode]
        exact List.forall_mem_singleton.2 (by decide)
      · intro lines
        rfl
  | @word before word rest values isWord ends _ ih =>
      rcases ih with ⟨tokens, raw, h⟩
      have hafter := (IsPlainWord.after_eq fun c hc => (isWord.chars c hc).1).1
      refine ⟨_, _, Views.prepend word [.atom word] [ofAtom word] ?_ ?_ hafter
        isWord.noParens ?_ h⟩
      · intro following hends
        refine scan_word isWord ?_
        -- What follows the word is what follows the document, where the document ends with it.
        cases rest with
        | nil => exact hends
        | cons c rest => exact ends
      · intro square read outer more
        rfl
      · intro lines
        simp [attachAll, attach_ofAtom]
  | list _ _ ihInner ih =>
      rcases ihInner with ⟨innerTokens, innerRaw, hinner⟩
      rcases ih with ⟨tokens, raw, h⟩
      exact ⟨_, _, hinner.list h⟩

end Sexp
end AssocLint
