import AssocLint.Proofs.Dump.Blamed
import AssocLint.Proofs.Dump.Survey
import AssocLint.Proofs.Sexp.Lines

/-!
# The line that a failure names

In a plain text every list has the line of its opening parenthesis, and every other value is an
atom, which has no line. A fault of the shape of a dump is about something that stands in it, so it
names the line of a list, unless it is about an atom that stands where a form has to stand.
-/

namespace AssocLint

open Dump
open Parenthesis (Zone)

namespace Sexp

/-! ## Lists of a plain text -/

/-- In the code of a text that follows another a list opens on a line. -/
def OpensIn (before text : List Char) (line : Nat) : Prop :=
  ∃ inner after, text = inner ++ '(' :: after ∧ Zone.code.after inner = .code ∧
    lineAfter (before ++ inner) = line

/-- A value is an atom or a list with a line on which it opens. -/
def Placed (before text : List Char) (value : Sexp) : Prop :=
  isAtom value ∨ ∃ line items, value = .list (some line) items ∧ OpensIn before text line

section Placed

variable {before text : List Char} {value : Sexp}

theorem Placed.prepend (piece : List Char) (h : Placed (before ++ piece) text value)
    (hpiece : Zone.code.after piece = .code) : Placed before (piece ++ text) value := by
  refine h.imp_right ?_
  rintro ⟨_, items, rfl, inner, after, rfl, hinner, rfl⟩
  refine ⟨_, items, rfl, piece ++ inner, after, (List.append_assoc ..).symm, ?_, ?_⟩
  · rw [Zone.after_append, hpiece, hinner]
  · rw [List.append_assoc]

theorem Placed.append (h : Placed before text value) (more : List Char) :
    Placed before (text ++ more) value := by
  refine h.imp_right ?_
  rintro ⟨line, items, rfl, inner, after, rfl, hinner⟩
  exact ⟨line, items, rfl, inner, after ++ more, by simp, hinner⟩

theorem Within.eq_of_isAtom {part : Sexp} (h : part.Within value) (hvalue : isAtom value) :
    part = value := by
  cases h with
  | refl => rfl
  | item => cases hvalue

theorem line?_of_isAtom (h : isAtom value) : value.line? = none := by
  cases value with
  | list => cases h
  | _ => rfl

theorem isAtom_ofAtom (word : List Char) : isAtom (ofAtom word) := by
  unfold ofAtom
  split
  · rfl
  · split <;> rfl

theorem Document.after_eq {values : List Sexp} (h : Document before text values) :
    Zone.code.after text = .code := by
  obtain ⟨tokens, raw, hviews⟩ := h.exists_views
  exact hviews.after_eq

/-- Whatever stands in a document is an atom or opens on its line. -/
theorem Document.placed {values : List Sexp} (h : Document before text values) :
    ∀ value ∈ values, ∀ part : Sexp, part.Within value → Placed before text part := by
  have hatom {value part : Sexp} {before text : List Char} (hvalue : isAtom value)
      (hpart : part.Within value) : Placed before text part :=
    .inl (hpart.eq_of_isAtom hvalue ▸ hvalue)
  -- Along the grammar. A piece in front of a document is part of what the document follows, so the
  -- lists behind it open on the same lines as before.
  induction h with
  | nil before =>
      exact nofun
  | @separator before rest values c blank _ ih =>
      exact fun value hvalue part hpart =>
        (ih value hvalue part hpart).prepend [c] (after_separator blank).1
  | @comment before body rest values line _ ih =>
      intro value hvalue part hpart
      have hplaced := (ih value hvalue part hpart).prepend _ (after_comment line).1
      simpa using hplaced
  | @text before written meant rest values spelled _ ih =>
      refine List.forall_mem_cons.2
        ⟨fun part hpart => hatom rfl hpart, fun value hvalue part hpart => ?_⟩
      have hplaced := (ih value hvalue part hpart).prepend _ (after_literal spelled).1
      simpa using hplaced
  | @word before word rest values isWord ends _ ih =>
      refine List.forall_mem_cons.2
        ⟨fun part hpart => hatom (isAtom_ofAtom word) hpart, fun value hvalue part hpart => ?_⟩
      exact (ih value hvalue part hpart).prepend word
        (IsPlainWord.after_eq fun c hc => (isWord.chars c hc).1).1
  | @list before inner rest items values hinner _ ihinner ih =>
      refine List.forall_mem_cons.2 ⟨fun part hpart => ?_, fun value hvalue part hpart => ?_⟩
      -- What stands in the list follows its opening parenthesis, and is followed by the other one.
      · cases hpart with
        | refl =>
            refine .inr ⟨_, items, rfl, [], inner ++ ')' :: rest, rfl, rfl, ?_⟩
            rw [List.append_nil]
        | item hitem hwithin =>
            have hplaced := (ihinner _ hitem part hwithin).append (')' :: rest)
            exact hplaced.prepend ['('] rfl
      · have hpiece : Zone.code.after ('(' :: (inner ++ [')'])) = .code := by
          have hclosing : (Zone.code.next '(').after inner = .code := hinner.after_eq
          rw [Zone.after_cons, Zone.after_append, hclosing]
          rfl
        have hplaced := (ih value hvalue part hpart).prepend _ hpiece
        simpa using hplaced

end Placed

theorem OpensIn.pos {before text : List Char} {line : Nat} (h : OpensIn before text line) :
    1 ≤ line := by
  obtain ⟨inner, after, -, -, rfl⟩ := h
  exact Nat.succ_pos _

/-- The line end behind a text opens no list. -/
theorem OpensIn.of_concat_newline {before text : List Char} {line : Nat}
    (h : OpensIn before (text ++ ['\n']) line) : OpensIn before text line := by
  obtain ⟨inner, after, htext, hinner⟩ := h
  rcases List.eq_nil_or_concat after with rfl | ⟨after, c, rfl⟩
  · have hlast := (List.append_inj' htext rfl).2
    cases hlast
  · have hsplit : text ++ ['\n'] = (inner ++ '(' :: after) ++ [c] := by
      rw [htext, List.concat_eq_append, List.append_assoc, List.cons_append]
    exact ⟨inner, after, (List.append_inj' hsplit rfl).1, hinner⟩

/-- What stands in a plain text that is read. -/
theorem placed_of_readAll? {text : String} {values : List Sexp}
    (hplain : IsPlain .code text.toList) (hread : readAll? text = some values) {value part : Sexp}
    (hvalue : value ∈ values) (hpart : part.Within value) : Placed [] text.toList part := by
  obtain ⟨hclosed, hpaired⟩ := closed_and_paired_of_readAll? hplain hread
  obtain ⟨values', hdocument⟩ := exists_document hplain hclosed hpaired
  obtain rfl : values' = values :=
    Option.some.inj ((readAll?_of_document hdocument).symm.trans hread)
  refine (hdocument.placed value hvalue part hpart).imp_right ?_
  rintro ⟨line, items, rfl, hopens⟩
  exact ⟨line, items, rfl, hopens.of_concat_newline⟩

end Sexp

/-! ## What a failure is about -/

/-- The value that a problem is about where that is not a form: the value stands where a form has to
stand, or it is the second of a document that may hold one only. -/
def DumpProblem.misplaced? (values : List Sexp) : DumpProblem → Option Sexp
  | .untagged value => some value
  | .severalForms => values[1]?
  | _ => none

/-- A fault is about an atom. -/
def DumpFault.IsOfAtom (values : List Sexp) (fault : DumpFault) : Prop :=
  ∃ value ∈ fault.problem.misplaced? values, isAtom value

theorem DumpProblem.misplaced?_eq_none {problem : DumpProblem} (h : problem.isOfForm)
    (values : List Sexp) : problem.misplaced? values = none := by
  cases problem <;> first | rfl | cases h

/-- Every fault of the shape of a document is about something that stands in it, and has the line of
that. -/
theorem Dump.exists_subject {values : List Sexp} {fault : DumpFault}
    (h : readCrate values = .error fault) (hkind : fault.problem.kind = .dumpShape) :
    ∃ value ∈ values, ∃ part : Sexp, part.Within value ∧ fault.line = part.line? ∧
      (fault.IsOfAtom values ↔ isAtom part) := by
  rcases values with _ | ⟨value, _ | ⟨second, rest⟩⟩
  -- A document without values has no shape to be at fault.
  · cases h
    cases hkind
  · refine ⟨value, List.mem_cons_self, ?_⟩
    cases blamed_readCrate value fault h with
    | @form form problem hform hproblem =>
        refine ⟨form.toSexp, hform, rfl, ?_⟩
        simp [DumpFault.IsOfAtom, DumpProblem.misplaced?_eq_none hproblem, Form.toSexp, isAtom]
    | @untagged part hpart =>
        refine ⟨part, hpart, rfl, ?_⟩
        simp [DumpFault.IsOfAtom, DumpProblem.misplaced?]
  · cases h
    refine ⟨second, by simp, second, .refl second, rfl, ?_⟩
    simp [DumpFault.IsOfAtom, DumpProblem.misplaced?]

/-- A list of a document opens on a line of its text. -/
structure OpensOn (text : String) (values : List Sexp) (line : Nat) : Prop where
  pos : 1 ≤ line
  list : ∃ items, ∃ value ∈ values, (Sexp.list (some line) items).Within value
  opens : Sexp.OpensIn [] text.toList line

/-- Where a plain text is read but has not the shape of a dump, the failure names the dump, and a
line on which a list of the document opens. If it is about an atom, it names no line. -/
theorem Crate.place_of_ofDump {text name : String} {values : List Sexp} {failure : Failure}
    (hplain : Sexp.IsPlain .code text.toList) (hread : Sexp.readAll? text = some values)
    (h : Crate.ofDump text name = .error failure) (hkind : failure.kind = .dumpShape) :
    failure.place.file = name ∧
      ∃ fault, readCrate values = .error fault ∧ failure = fault.toFailure name ∧
        (¬ fault.IsOfAtom values →
          ∃ line : Nat, failure.place.line = line ∧ OpensOn text values line) ∧
        (fault.IsOfAtom values → failure.place.line = 0) := by
  have hcrate : (readCrate values).mapError (DumpFault.toFailure name) = .error failure := by
    rwa [Crate.ofDump, readValues, hread] at h
  cases hfault : readCrate values with
  | ok crate =>
      rw [hfault] at hcrate
      cases hcrate
  | error fault =>
      rw [hfault] at hcrate
      obtain rfl : fault.toFailure name = failure := Except.error.inj hcrate
      refine ⟨rfl, fault, rfl, rfl, ?_⟩
      -- The line is that of what the fault is about, and of an atom there is none.
      obtain ⟨value, hvalue, part, hpart, hline, hatom⟩ := exists_subject hfault hkind
      have hplace : (fault.toFailure name).place.line = (part.line?.getD 0 : Nat) := by
        rw [← hline]
        rfl
      rw [hatom, hplace]
      rcases Sexp.placed_of_readAll? hplain hread hvalue hpart with
        hnone | ⟨line, items, rfl, hopens⟩
      · refine ⟨fun hlist => absurd hnone hlist, fun _ => ?_⟩
        rw [Sexp.line?_of_isAtom hnone]
        rfl
      · exact ⟨fun _ => ⟨line, rfl, hopens.pos, ⟨items, value, hvalue, hpart⟩, hopens⟩, nofun⟩

/-- A definition without name and type opens on the second line. -/
theorem Crate.place_of_ofDump_second_line :
    let text := "(crate a\n  (impl (type)))"
    ∃ values failure, Sexp.IsPlain .code text.toList ∧ Sexp.readAll? text = some values ∧
      Crate.ofDump text "dump" = .error failure ∧ failure.kind = .dumpShape ∧
      failure.place = ⟨"dump", 2, 0⟩ ∧ OpensOn text values 2 := by
  intro text
  have hplain : Sexp.IsPlain .code text.toList := by decide
  have hsome : (Sexp.readAll? text).isSome := by decide +kernel
  obtain ⟨values, hread⟩ := Option.isSome_iff_exists.1 hsome
  have hfailure : (Crate.ofDump text "dump").map (fun _ => ()) =
      .error ⟨.dumpShape, "(type ...) needs at least 2 argument(s), got 0", .dumpMissingField,
        ⟨"dump", 2, 0⟩, ""⟩ := by
    decide +kernel
  have hdump := eq_error_of_map hfailure
  obtain ⟨-, fault, -, -, hline, hatom⟩ := Crate.place_of_ofDump hplain hread hdump rfl
  have hform : ¬ fault.IsOfAtom values := fun h => absurd (hatom h) (by decide)
  obtain ⟨line, hplace, hopens⟩ := hline hform
  obtain rfl : 2 = line := Int.ofNat.inj hplace
  exact ⟨values, _, hplain, hread, hdump, rfl, rfl, hopens⟩

/-- A word stands where an item of the crate has to stand, and the failure names no line. -/
theorem Crate.place_of_ofDump_atom :
    let text := "(crate \"a.rs\" foo)"
    ∃ values failure, Sexp.IsPlain .code text.toList ∧ Sexp.readAll? text = some values ∧
      Crate.ofDump text "dump" = .error failure ∧ failure.kind = .dumpShape ∧
      failure.place.line = 0 := by
  intro text
  have hplain : Sexp.IsPlain .code text.toList := by decide
  have hsome : (Sexp.readAll? text).isSome := by decide +kernel
  obtain ⟨values, hread⟩ := Option.isSome_iff_exists.1 hsome
  have hfailure : (Crate.ofDump text "dump").map (fun _ => ()) =
      .error ⟨.dumpShape, "expected a (tag ...) form, got Symbol('foo')", .dumpUnexpectedForm,
        ⟨"dump", 0, 0⟩, ""⟩ := by
    decide +kernel
  exact ⟨values, _, hplain, hread, eq_error_of_map hfailure, rfl, rfl⟩

end AssocLint
