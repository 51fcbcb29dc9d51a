import AssocLint.Proofs.Grammar.Lexemes

/-!
# Choices that are decided by what comes next

A generic argument is tried as `_`, as a lifetime, as a constant, as a binding and as a type that is
no path, before it is tried as a path. On a text that begins a path (`BeginsPath`) all of these fail,
though some of them only behind a name: a binding lacks its `=`, a bounded type its white space and a
function pointer its parenthesis.

Behind a segment the list of generic arguments is tried, which may begin with `::`, and then the next
member. `Stops` and `Continues` say what can follow a path and a segment.
-/

namespace AssocLint
namespace Grammar

open Rule Text

/-- A text at whose front a path is read, if anything. -/
inductive BeginsPath : List Char → Prop where
  | bracket (rest : List Char) : BeginsPath ('<' :: rest)
  | separator (rest : List Char) : BeginsPath (':' :: rest)
  | name {text name rest : List Char} : identifier? text = some (name, rest) →
      name ≠ "dyn".toList → name ≠ "impl".toList → next? rest ≠ some '=' → next? rest ≠ some '(' →
      BeginsPath text

/-- What can follow a path. -/
def Stops (text : List Char) : Prop :=
  ∀ c ∈ next? text, c = ',' ∨ c = '>' ∨ c = 'a'

/-- What can follow a segment of a path. -/
inductive Continues : List Char → Prop where
  | stops {text : List Char} : Stops text → Continues text
  | member {gap₁ gap₂ rest : List Char} {c : Char} : Spaces gap₁ → Spaces gap₂ →
      isWordStart c = true → Continues (gap₁ ++ ':' :: ':' :: (gap₂ ++ c :: rest))

variable {nested : Nested} {text : List Char}

/-! ## What begins a path -/

theorem BeginsPath.head?_ne (h : BeginsPath text) {c : Char} (hword : isWordStart c = false)
    (hbracket : c ≠ '<') (hseparator : c ≠ ':') : text.head? ≠ some c := by
  cases h with
  | bracket rest =>
      simpa using Ne.symm hbracket
  | separator rest =>
      simpa using Ne.symm hseparator
  | name hname =>
      rcases eq_cons_of_identifier? hname with ⟨c', more, rfl, hstart, -⟩
      rintro ⟨⟩
      rw [hword] at hstart
      cases hstart

theorem BeginsPath.noSpace (h : BeginsPath text) :
    ∀ c ∈ text.head?, isWhiteSpace c = false := by
  intro c hc
  cases h with
  | bracket rest =>
      cases hc
      rfl
  | separator rest =>
      cases hc
      rfl
  | name hname =>
      rcases eq_cons_of_identifier? hname with ⟨c', more, rfl, hstart, -⟩
      cases hc
      exact isWhiteSpace_eq_false_of_isWord (isWord_of_isWordStart hstart)

/-- A path that begins otherwise begins with a name. -/
theorem BeginsPath.exists_name {c : Char} {rest : List Char} (h : BeginsPath (c :: rest))
    (hbracket : c ≠ '<') (hseparator : c ≠ ':') :
    ∃ name rest', identifier? (c :: rest) = some (name, rest') ∧ name ≠ "dyn".toList ∧
      name ≠ "impl".toList ∧ next? rest' ≠ some '=' ∧ next? rest' ≠ some '(' := by
  generalize htext : c :: rest = text at h
  cases h with
  | bracket =>
      cases htext
      exact absurd rfl hbracket
  | separator =>
      cases htext
      exact absurd rfl hseparator
  | name hname hdyn himpl hbinding hcall =>
      exact ⟨_, _, hname, hdyn, himpl, hbinding, hcall⟩

/-- An identifier goes on behind a keyword as far as word characters do. -/
theorem eq_of_identifier?_keyword {c : Char} {more name rest rest' : List Char} (hc : c ≠ 'r')
    (hmore : ∀ c' ∈ more, isWord c' = true)
    (h : identifier? (c :: (more ++ rest)) = some (name, rest')) :
    name = c :: (more ++ rest.takeWhile isWord) ∧ rest' = rest.dropWhile isWord := by
  rcases eq_cons_of_identifier? h with ⟨c', more', hcons, -, -, hraw⟩
  cases hcons
  rcases hraw with hraw | ⟨hname, hrest⟩
  · exact absurd hraw.1 hc
  · rw [List.takeWhile_append_of_pos hmore] at hname
    rw [List.dropWhile_append_of_pos hmore] at hrest
    exact ⟨hname, hrest⟩

theorem takeWhile_eq_nil {p : Char → Bool} {rest : List Char}
    (h : ∀ c ∈ rest.head?, p c = false) : rest.takeWhile p = [] := by
  have hrun := takeWhile_run (List.forall_mem_nil (p · = true)) h
  exact hrun

/-! ## Types that are no paths -/

theorem BeginsPath.fails_ws1 {c : Char} {more rest : List Char}
    (h : BeginsPath (c :: (more ++ rest))) (hkeyword : c :: more = "dyn".toList ∨
      c :: more = "impl".toList) : ws1.Fails rest := by
  have hkind : c ≠ 'r' ∧ c ≠ '<' ∧ c ≠ ':' ∧ ∀ c' ∈ more, isWord c' = true := by
    rcases hkeyword with hkeyword | hkeyword <;> cases hkeyword
    · exact ⟨by decide, by decide, by decide, List.all_eq_true.1 (by decide)⟩
    · exact ⟨by decide, by decide, by decide, List.all_eq_true.1 (by decide)⟩
  rcases hkind with ⟨hc, hbracket, hseparator, hmore⟩
  rcases h.exists_name hbracket hseparator with ⟨name, rest', hname, hdyn, himpl, -⟩
  have hwhole := (eq_of_identifier?_keyword hc hmore hname).1
  -- White space would end the name, which would be the keyword.
  refine Grammar.fails_ws1 fun c' hc' => ?_
  rw [← Bool.not_eq_true]
  intro hspace
  have hend : rest.takeWhile isWord = [] := by
    refine takeWhile_eq_nil fun c'' hc'' => ?_
    rw [Option.mem_unique hc'' hc']
    exact isWord_eq_false_of_isWhiteSpace hspace
  rw [hend, List.append_nil] at hwhole
  rcases hkeyword with hkeyword | hkeyword
  · exact hdyn (hwhole.trans hkeyword)
  · exact himpl (hwhole.trans hkeyword)

theorem BeginsPath.fails_boundedType (h : BeginsPath text) : (boundedType nested).Fails text := by
  refine .named ?_
  -- A name may begin with the letters of a keyword, but then it goes on behind them.
  by_cases hdyn : "dyn".toList <+: text
  · rcases hdyn with ⟨rest, rfl⟩
    refine ((Reads.literal "dyn" rest).orElse _).named.bindFails (.bind ?_)
    exact h.fails_ws1 (Or.inl rfl)
  · by_cases himpl : "impl".toList <+: text
    · rcases himpl with ⟨rest, rfl⟩
      refine ((Fails.literal hdyn).orElse (Reads.literal "impl" rest)).named.bindFails (.bind ?_)
      exact h.fails_ws1 (Or.inr rfl)
    · exact .bind (.named ((Fails.literal hdyn).orElseFails (.literal himpl)))

theorem BeginsPath.fails_functionType (h : BeginsPath text) :
    (functionType nested).Fails text := by
  refine .named ?_
  by_cases hfn : "fn".toList <+: text
  · rcases hfn with ⟨rest, rfl⟩
    refine (Reads.literal "fn" rest).bindFails ((reads_ws rest).bindFails (.bind (.bind ?_)))
    refine fails_literal rfl ?_
    rcases h.exists_name (by decide) (by decide) with ⟨name, rest', hname, -, -, -, hcall⟩
    have hrest' := (eq_of_identifier?_keyword (by decide) (List.all_eq_true.1 (by decide)) hname).2
    -- A longer name goes on with a word character, which is no parenthesis.
    cases rest with
    | nil => nofun
    | cons c rest =>
        cases hword : isWord c with
        | true =>
            have hnext := next?_cons (isWhiteSpace_eq_false_of_isWord hword) rest
            rw [next?] at hnext
            rw [hnext]
            rintro ⟨⟩
            cases hword
        | false =>
            rw [List.dropWhile_cons_of_neg (by simp [hword])] at hrest'
            rwa [hrest', next?] at hcall
  · exact .bind (.literal hfn)

/-- What begins with none of the signs of a type that is no path is one by its keyword only. -/
theorem fails_verbatimType (hsign : ∀ c ∈ ['&', '*', '(', '[', '!'], text.head? ≠ some c)
    (hbounded : (boundedType nested).Fails text) (hfunction : (functionType nested).Fails text) :
    (verbatimType nested).Fails text := by
  refine .named (.bind (.taken ?_))
  refine .orElseFails (.named (.bind (fails_literal rfl (hsign '&' (by decide))))) ?_
  refine .orElseFails (.named (.bind (fails_literal rfl (hsign '*' (by decide))))) ?_
  refine .orElseFails (.named (.bind (fails_literal rfl (hsign '(' (by decide))))) ?_
  refine .orElseFails (.named (.bind (fails_literal rfl (hsign '[' (by decide))))) ?_
  refine .orElseFails (.named (fails_literal rfl (hsign '!' (by decide)))) ?_
  exact hbounded.orElseFails hfunction

/-! ## Arguments and types that are paths -/

theorem BeginsPath.fails_inferred (h : BeginsPath text) : inferred.Fails text := by
  refine Grammar.fails_inferred fun rest htext => ?_
  rw [htext] at h
  rcases h.exists_name (by decide) (by decide) with ⟨name, rest', hname, -⟩
  rcases eq_cons_of_identifier? hname with ⟨c, more, hcons, -, hlone, -⟩
  cases hcons
  exact hlone rfl

theorem BeginsPath.fails_constant (h : BeginsPath text) : constant.Fails text := by
  refine Grammar.fails_constant (h.head?_ne (by decide) (by decide) (by decide))
    (h.head?_ne (by decide) (by decide) (by decide)) fun c hc => ?_
  cases hstart : isWordStart c with
  | true =>
      exact isDigit_eq_false_of_isWordStart hstart
  | false =>
      rw [← Bool.not_eq_true]
      intro hdigit
      refine h.head?_ne hstart ?_ ?_ hc
      · rintro rfl
        cases hdigit
      · rintro rfl
        cases hdigit

theorem BeginsPath.fails_bindingArgument (h : BeginsPath text) :
    (bindingArgument nested).Fails text := by
  refine .named (.bind (.taken ?_))
  cases h with
  | bracket rest =>
      exact .bind (fails_identifier (by rintro c ⟨⟩; decide))
  | separator rest =>
      exact .bind (fails_identifier (by rintro c ⟨⟩; decide))
  | name hname _ _ hbinding _ =>
      -- The name is read, and the rule fails at the `=` that is not there.
      refine Reads.bindFails (.named (.bind (.lexeme hname) (.pure _ _))) ?_
      exact fails_ws_literal rfl hbinding

theorem BeginsPath.fails_verbatimType (h : BeginsPath text) : (verbatimType nested).Fails text := by
  refine Grammar.fails_verbatimType ?_ h.fails_boundedType h.fails_functionType
  intro c hc
  simp only [List.mem_cons, List.not_mem_nil, or_false] at hc
  rcases hc with rfl | rfl | rfl | rfl | rfl <;>
    exact h.head?_ne (by decide) (by decide) (by decide)

theorem BeginsPath.reads_typeForm (h : BeginsPath text) {ref : Reference} {rest : List Char}
    (hread : (path nested).Reads text ref rest) : (typeForm nested).Reads text ref rest :=
  .named (h.fails_inferred.orElse (h.fails_verbatimType.orElse hread))

theorem BeginsPath.reads_argument (h : BeginsPath text) {ref : Reference} {rest : List Char}
    (hread : (path nested).Reads text ref rest) : (argument nested).Reads text ref rest := by
  have hlifetime : lifetime.Fails text :=
    fails_lifetime (h.head?_ne (by decide) (by decide) (by decide))
  exact .named (h.fails_inferred.orElse (hlifetime.orElse (h.fails_constant.orElse
    (h.fails_bindingArgument.orElse (h.fails_verbatimType.orElse hread)))))

/-- Behind the last argument of a list there is none. -/
theorem fails_argument_closing (rest : List Char) : (argument nested).Fails ('>' :: rest) := by
  have hstart : ∀ c ∈ ('>' :: rest).head?, isWordStart c = false := by
    rintro c ⟨⟩
    decide
  have hhead {c : Char} (hc : c ≠ '>') : ('>' :: rest).head? ≠ some c := by
    simpa using Ne.symm hc
  -- Every alternative wants a sign, a quote, a digit or a name in front.
  have hverbatim : (verbatimType nested).Fails ('>' :: rest) := by
    refine fails_verbatimType (by simp) ?_ ?_
    · exact .named (.bind (.named ((fails_literal rfl (hhead (by decide))).orElseFails
        (fails_literal rfl (hhead (by decide))))))
    · exact .named (.bind (fails_literal rfl (hhead (by decide))))
  have hpath : (path nested).Fails ('>' :: rest) := by
    refine .named (.orElseFails (.named (.bind (fails_literal rfl (hhead (by decide))))) (.named ?_))
    refine (Fails.named (fails_literal rfl (hhead (by decide)))).optional.bindFails ?_
    exact .bind (.named (.bind (fails_identifier hstart)))
  refine .named ((fails_inferred (by simp)).orElseFails ?_)
  refine (fails_lifetime (by simp)).orElseFails ?_
  refine (fails_constant (by simp) (by simp) (by rintro c ⟨⟩; decide)).orElseFails ?_
  refine Fails.orElseFails ?_ (hverbatim.orElseFails hpath)
  exact .named (.bind (.taken (.bind (fails_identifier hstart))))

/-! ## Behind a segment -/

theorem Continues.next? (h : Continues text) :
    ∀ c ∈ Grammar.next? text, c = ',' ∨ c = '>' ∨ c = 'a' ∨ c = ':' := by
  cases h with
  | stops hstops =>
      intro c hc
      rcases hstops c hc with hc | hc | hc
      · exact Or.inl hc
      · exact Or.inr (Or.inl hc)
      · exact Or.inr (Or.inr (Or.inl hc))
  | member hgap _ _ =>
      rw [next?_append hgap, next?_cons (by decide)]
      rintro c ⟨⟩
      exact Or.inr (Or.inr (Or.inr rfl))

theorem Continues.next?_ne (h : Continues text) {c : Char}
    (hc : c ∉ [',', '>', 'a', ':']) : Grammar.next? text ≠ some c := by
  intro hnext
  have hmem := h.next? c hnext
  exact hc (by simpa using hmem)

/-- What follows a name does not make it longer. -/
theorem Continues.endsName (h : Continues text) (hword : ∀ c ∈ text.head?, isWord c = false) :
    ∀ c ∈ text.head?, isWord c = false ∧ c ≠ '#' := by
  intro c hc
  refine ⟨hword c hc, ?_⟩
  rintro rfl
  rcases isWhiteSpace_or_next? hc with hspace | hnext
  · cases hspace
  · exact h.next?_ne (by decide) hnext

theorem stops_append_cons {gap rest : List Char} {c : Char} (hgap : Spaces gap)
    (hspace : isWhiteSpace c = false) (hc : c = ',' ∨ c = '>' ∨ c = 'a') :
    Stops (gap ++ c :: rest) := by
  rw [Stops, next?_append hgap, next?_cons hspace]
  rintro c' ⟨⟩
  exact hc

theorem Stops.fails_member (h : Stops text) : (member nested).Fails text := by
  refine .named (fails_ws_literal rfl ?_)
  intro hnext
  rcases h ':' hnext with hc | hc | hc <;> cases hc

theorem fails_genericArgs (h : Continues text) : (genericArgs nested).Fails text := by
  refine .named ?_
  by_cases hseparator : text.head? = some ':'
  · -- Only the next member begins with `::`, and behind that stands a name.
    cases h with
    | stops hstops =>
        rcases isWhiteSpace_or_next? hseparator with hspace | hnext
        · cases hspace
        · rcases hstops ':' hnext with hc | hc | hc <;> cases hc
    | @member gap₁ gap₂ rest c hgap₁ hgap₂ hstart =>
        cases gap₁ with
        | nil =>
            have hsome : (optional (named (literal "::"))).Reads (':' :: ':' :: (gap₂ ++ c :: rest))
                (some ()) (gap₂ ++ c :: rest) :=
              (Reads.named (.literal "::" _)).optional (List.cons_ne_nil _ _)
            refine hsome.bindFails (fails_ws_literal rfl ?_)
            have hspace := isWhiteSpace_eq_false_of_isWord (isWord_of_isWordStart hstart)
            rw [next?_append hgap₂, next?_cons hspace]
            rintro ⟨⟩
            cases isWord_of_isWordStart hstart
        | cons c' gap₁ =>
            cases hseparator
            have hspace := hgap₁ ':' List.mem_cons_self
            cases hspace
  · have hnone : (optional (named (literal "::"))).Reads text none text :=
      (Fails.named (fails_literal rfl hseparator)).optional
    exact hnone.bindFails (fails_ws_literal rfl (h.next?_ne (by decide)))

end Grammar
end AssocLint
