import AssocLint.Proofs.Dump.Reads

/-!
# Forms that are read as paths

A form that writes a path may say, by a word after `:res`, what the path resolved to. The word of a
form with one text is looked at before the text is read. That of a form with two texts is looked at
behind them, and only where the grammar accepts both. `succeeds_readPathForm_iff` tells exactly
which forms are read.
-/

namespace AssocLint
namespace Dump

/-! ## Readings that succeed -/

def Succeeds {α : Type} (result : DumpResult α) : Prop :=
  ∃ value, result = .ok value

section Succeeds

variable {α β : Type}

@[simp]
theorem succeeds_ok (value : α) : Succeeds (.ok value) :=
  ⟨value, rfl⟩

@[simp]
theorem succeeds_pure (value : α) : Succeeds (pure value) :=
  ⟨value, rfl⟩

@[simp]
theorem not_succeeds_fault (form : Form) (problem : DumpProblem) :
    ¬ Succeeds (form.fault problem : DumpResult α) :=
  nofun

/-- One reading after another gives something where the first does, and the second behind it. -/
theorem succeeds_bind_iff {result : DumpResult α} {next : α → DumpResult β} :
    Succeeds (result >>= next) ↔ ∃ value, result = .ok value ∧ Succeeds (next value) := by
  constructor
  · rintro ⟨answer, h⟩
    cases result with
    | error fault => cases h
    | ok value => exact ⟨value, rfl, answer, h⟩
  · rintro ⟨value, rfl, h⟩
    exact h

/-- A last reading, whose value goes into the result. -/
theorem succeeds_map_iff {result : DumpResult α} {make : α → β} :
    Succeeds (result >>= fun value => pure (make value)) ↔ Succeeds result := by
  simp only [succeeds_bind_iff, succeeds_pure, and_true]
  exact Iff.rfl

end Succeeds

/-! ## Words for resolutions -/

/-- The words that a dump may write for a resolution. -/
def resolutionWords : List String :=
  ["type", "variant", "assoc-item", "self-ty", "ty-param", "local", "err"]

/-- These are the words that stand for a resolution. -/
theorem isSome_ofKeyword?_iff {word : String} :
    (Resolution.ofKeyword? word).isSome ↔ word ∈ resolutionWords := by
  simp only [Resolution.ofKeyword?, List.find?_isSome, beq_iff_eq]
  exact List.mem_map.symm

def IsResolution (value : Sexp) : Prop :=
  ∃ word ∈ resolutionWords, value.word? = some word

/-- Whatever a form writes after `:res` is a word for a resolution. -/
def ResolutionKnown (form : Form) : Prop :=
  ∀ value, .keyword "res" value ∈ fieldsOf (flagsOf form.head) form.items → IsResolution value

/-- Whatever a form writes after `:span` is a span. -/
def SpanWritten (file : String) (form : Form) : Prop :=
  ∀ value, .keyword "span" value ∈ fieldsOf (flagsOf form.head) form.items →
    ∃ span, writtenSpan? file value = some span

section Parts

variable {parts : Form.Parts} {form : Form} {allowed : List String}
  (hparts : PartsOf parts form allowed (flagsOf form.head))

include hparts

/-- The resolution is read where its word is known, or where none is written. -/
theorem succeeds_resolution_iff : Succeeds (resolution parts) ↔ ResolutionKnown form := by
  simp only [ResolutionKnown, ← hparts.value?_eq_some_iff]
  unfold resolution Form.Parts.mapValue
  cases parts.value? "res" with
  | none =>
      exact ⟨fun _ => nofun, fun _ => succeeds_pure none⟩
  | some value =>
      have hknown : IsResolution value ↔
          ∃ res, value.word?.bind Resolution.ofKeyword? = some res := by
        simp only [IsResolution, ← isSome_ofKeyword?_iff, ← Option.isSome_iff_exists,
          Option.isSome_bind, Option.any_eq_true, and_comm]
      simp only [succeeds_map_iff, Option.some.injEq, forall_eq', hknown]
      cases value.word?.bind Resolution.ofKeyword? <;> simp

/-- The span is read where one is written, or where the form has none of its own. -/
theorem succeeds_span_iff {outer : Span} :
    Succeeds (parts.span outer) ↔ SpanWritten outer.file form := by
  simp only [SpanWritten, ← hparts.value?_eq_some_iff]
  unfold Form.Parts.span
  cases parts.value? "span" with
  | none =>
      exact ⟨fun _ => nofun, fun _ => succeeds_ok outer⟩
  | some value =>
      simp only [Succeeds, spanOf_eq_ok_iff, Option.some.injEq, forall_eq']

end Parts

/-! ## Forms that write paths -/

/-- What is known of a form that writes a path, where it is read as one. Of a form with two texts
the word for the resolution may be anything where one of the texts is refused. -/
def IsReadable (file : String) (form : Form) : Prop :=
  ∃ written, Writes form written ∧ SpanWritten file form ∧
    (ResolutionKnown form ∨ form.head = "relative" ∧ ¬ written.IsAccepted)

theorem isReadable_of_succeeds {form : Form} {outer : Span}
    (h : Succeeds (readPathForm form outer)) : IsReadable outer.file form := by
  obtain ⟨line, head, items⟩ := form
  unfold readPathForm at h
  dsimp only at h
  split at h <;> try simp only [succeeds_bind_iff] at h
  -- With one text the resolution is read in any case.
  · obtain ⟨parts, hparts, value, hvalue, text, htext, res, hres, span, hspan, -⟩ := h
    have hpartsOf := partsOf _ _ _ parts hparts
    exact ⟨_, .text rfl hparts (parts.one_eq_ok_iff.1 hvalue) (Form.text_eq_ok_iff.1 htext),
      (succeeds_span_iff hpartsOf).1 ⟨span, hspan⟩,
      .inl ((succeeds_resolution_iff hpartsOf).1 ⟨res, hres⟩)⟩
  -- With two texts it comes into play behind both, if they are accepted.
  · obtain ⟨parts, hparts, ⟨first, second⟩, hitems, base, hbase, name, hname, h⟩ := h
    have hpartsOf := partsOf _ _ _ parts hparts
    refine ⟨_, .member rfl hparts (parts.two_eq_ok_iff.1 hitems) (Form.text_eq_ok_iff.1 hbase)
      (Form.text_eq_ok_iff.1 hname), ?_⟩
    rw [← Written.isSome_memberText?]
    cases hmember : memberText? base name with
    | none =>
        simp only [hmember, succeeds_bind_iff] at h
        obtain ⟨span, hspan, -⟩ := h
        exact ⟨(succeeds_span_iff hpartsOf).1 ⟨span, hspan⟩, .inr ⟨rfl, nofun⟩⟩
    | some make =>
        simp only [hmember, succeeds_bind_iff] at h
        obtain ⟨res, hres, span, hspan, -⟩ := h
        exact ⟨(succeeds_span_iff hpartsOf).1 ⟨span, hspan⟩,
          .inl ((succeeds_resolution_iff hpartsOf).1 ⟨res, hres⟩)⟩
  -- A tag has none.
  · obtain ⟨parts, hparts, value, hvalue, tag, htag, span, hspan, -⟩ := h
    have hpartsOf := partsOf _ _ _ parts hparts
    refine ⟨_, .tag rfl hparts (parts.one_eq_ok_iff.1 hvalue) (Form.text_eq_ok_iff.1 htag),
      (succeeds_span_iff hpartsOf).1 ⟨span, hspan⟩, .inl fun res hres => ?_⟩
    exact absurd (hpartsOf.allowed "res" res hres) (by decide)
  · exact (not_succeeds_fault _ _ h).elim

theorem succeeds_of_isReadable {form : Form} {outer : Span} (h : IsReadable outer.file form) :
    Succeeds (readPathForm form outer) := by
  obtain ⟨line, head, items⟩ := form
  obtain ⟨written, hwrites, hspan, hres⟩ := h
  cases hwrites with
  | text hhead hparts hitems hpath =>
      subst hhead
      have hpartsOf := partsOf _ _ _ _ hparts
      have hknown := hres.resolve_right fun h => absurd h.1 (by simp)
      obtain ⟨res, hres⟩ := (succeeds_resolution_iff hpartsOf).2 hknown
      obtain ⟨span, hspan⟩ := (succeeds_span_iff hpartsOf).2 hspan
      simp only [readPathForm, succeeds_bind_iff]
      exact ⟨_, hparts, _, Form.Parts.one_eq_ok_iff.2 hitems, _, Form.text_eq_ok_iff.2 hpath,
        res, hres, span, hspan, succeeds_pure _⟩
  | @member parts first second base name hhead hparts hitems hbase hname =>
      subst hhead
      have hpartsOf := partsOf _ _ _ _ hparts
      obtain ⟨span, hspan⟩ := (succeeds_span_iff hpartsOf).2 hspan
      simp only [readPathForm, succeeds_bind_iff]
      refine ⟨_, hparts, (first, second), Form.Parts.two_eq_ok_iff.2 hitems, _,
        Form.text_eq_ok_iff.2 hbase, _, Form.text_eq_ok_iff.2 hname, ?_⟩
      rw [← Written.isSome_memberText?] at hres
      -- The resolution is read only where the two texts make a path.
      cases hmember : memberText? base name with
      | none =>
          exact succeeds_bind_iff.2 ⟨span, hspan, succeeds_pure _⟩
      | some make =>
          have hknown := hres.resolve_right fun h => h.2 (hmember ▸ rfl)
          obtain ⟨res, hres⟩ := (succeeds_resolution_iff hpartsOf).2 hknown
          exact succeeds_bind_iff.2
            ⟨res, hres, succeeds_bind_iff.2 ⟨span, hspan, succeeds_pure _⟩⟩
  | tag hhead hparts hitems hname =>
      subst hhead
      obtain ⟨span, hspan⟩ := (succeeds_span_iff (partsOf _ _ _ _ hparts)).2 hspan
      simp only [readPathForm, succeeds_bind_iff]
      exact ⟨_, hparts, _, Form.Parts.one_eq_ok_iff.2 hitems, _, Form.text_eq_ok_iff.2 hname, span,
        hspan, succeeds_pure _⟩

/-- Exactly the readable forms are read as paths. -/
theorem succeeds_readPathForm_iff {form : Form} {outer : Span} :
    Succeeds (readPathForm form outer) ↔ IsReadable outer.file form :=
  ⟨isReadable_of_succeeds, succeeds_of_isReadable⟩

/-- At every form among the places of a crate that has been read a path is read. -/
theorem isReadable_of_reads {places : List Place} {refs : List Reference} (h : Reads places refs)
    {form : Form} (hform : .form form ∈ places) : ∃ file, IsReadable file form := by
  have hread (place : Place) (ref : Reference) (href : place.IsReadAs ref) :
      (∀ form, place = .form form → ∃ file, IsReadable file form) ∧ place.IsReadAs ref := by
    refine ⟨?_, href⟩
    rintro form rfl
    obtain ⟨outer, span, hanswer⟩ := href
    exact ⟨outer.file, isReadable_of_succeeds ⟨_, hanswer⟩⟩
  exact ((List.forall₂_and_left _ _).1 (h.imp hread)).1 (.form form) hform form rfl

end Dump
end AssocLint
