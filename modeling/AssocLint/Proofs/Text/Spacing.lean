import AssocLint.Proofs.Text.Squeezed
import Mathlib.Data.List.DropRight

/-!
# What squeezing forgets

Two texts are squeezed to one text exactly when they differ in insignificant blanks only: they have
the same solid characters, and between two neighbours of which neither is punctuation the one has
blanks where the other has (`SameUpToSpacing`, `squeezed_eq_iff`).

The proof goes through marks. A mark is a solid character with the note whether blanks stand before
it. Squeezing reads the marks of a text, strikes out the notes that mean nothing, and writes what is
left with one space for each note. What is written has these marks again, so nothing else is lost.

Squeezing goes through a text once. It does the work of three passes: blanks are taken off both
ends, then each run of blanks becomes one space, and then spaces beside punctuation are dropped
(`squeeze_eq_passes`).
-/

namespace AssocLint
namespace Text

/-! ## Solid characters and the gaps between them -/

/-- The characters of a text that are not blank. -/
def solid (text : List Char) : List Char :=
  text.filter fun c => !isBlank c

/-- Whether a text begins with blanks that a solid character follows. -/
def BeginsWithGap (text : List Char) : Prop :=
  ∃ gap c after, text = gap ++ c :: after ∧ gap ≠ [] ∧ (∀ blank ∈ gap, isBlank blank = true) ∧
    isBlank c = false

/-- Whether blanks stand between a solid character, given by its number, and the next one. -/
def HasGapAfter (text : List Char) (place : Nat) : Prop :=
  ∃ before c after, text = before ++ c :: after ∧ (solid before).length = place ∧
    isBlank c = false ∧ BeginsWithGap after

/-- Whether two texts differ at most in blanks at their ends or beside punctuation, and in what the
blanks between two words are. -/
structure SameUpToSpacing (text text' : List Char) : Prop where
  solid_eq : solid text = solid text'
  gap_iff : ∀ place c c', (solid text)[place]? = some c → (solid text)[place + 1]? = some c' →
    isPunctuation c = false → isPunctuation c' = false →
      (HasGapAfter text place ↔ HasGapAfter text' place)

/-! ## Marks -/

/-- The solid characters of a text, each with whether blanks stand before it. -/
def marksFrom (gap : Bool) : List Char → List (Bool × Char)
  | [] => []
  | c :: rest => if isBlank c then marksFrom true rest else (gap, c) :: marksFrom false rest

/-- Marks that note a gap only where it stands between two characters of which neither is
punctuation. -/
def significantFrom (last : Option Char) : List (Bool × Char) → List (Bool × Char)
  | [] => []
  | (gap, c) :: rest =>
    (gap && last.any (!isPunctuation ·) && !isPunctuation c, c) :: significantFrom (some c) rest

/-- The significant marks of a text. Blanks before its first character mean nothing. -/
def significant (text : List Char) : List (Bool × Char) :=
  significantFrom none (marksFrom false text)

/-- The text with the given marks in which each gap is one space. -/
def writeMarks : List (Bool × Char) → List Char
  | [] => []
  | (true, c) :: rest => ' ' :: c :: writeMarks rest
  | (false, c) :: rest => c :: writeMarks rest

theorem map_snd_marksFrom (gap : Bool) (text : List Char) :
    (marksFrom gap text).map (·.2) = solid text := by
  induction text generalizing gap with
  | nil =>
      rfl
  | cons c rest ih =>
      cases hblank : isBlank c <;> simp [marksFrom, solid, hblank] <;> exact ih _

theorem getElem?_solid (gap : Bool) (text : List Char) (place : Nat) :
    (solid text)[place]? = (marksFrom gap text)[place]?.map (·.2) := by
  rw [← map_snd_marksFrom gap, List.getElem?_map]

theorem map_snd_significantFrom (last : Option Char) (marks : List (Bool × Char)) :
    (significantFrom last marks).map (·.2) = marks.map (·.2) := by
  induction marks generalizing last with
  | nil =>
      rfl
  | cons mark rest ih =>
      simp only [significantFrom, List.map_cons, ih]

theorem map_snd_significant (text : List Char) : (significant text).map (·.2) = solid text :=
  (map_snd_significantFrom none _).trans (map_snd_marksFrom false text)

/-- Squeezing writes the significant marks of a text. -/
theorem squeezeFrom_eq_writeMarks (last : Option Char) (gap : Bool) (text : List Char) :
    squeezeFrom last gap text = writeMarks (significantFrom last (marksFrom gap text)) := by
  -- What squeezing keeps of the text behind it is split: `marksFrom` knows of the blanks and
  -- `significantFrom` of the last solid character.
  induction text generalizing last gap with
  | nil =>
      rfl
  | cons c rest ih =>
      cases hblank : isBlank c with
      | true =>
          simp only [squeezeFrom, marksFrom, hblank, if_true, ih]
      | false =>
          cases hkept : gap && last.any (!isPunctuation ·) && !isPunctuation c <;>
            simp [squeezeFrom, marksFrom, significantFrom, writeMarks, hblank, hkept, ih]

theorem squeeze_eq_writeMarks (text : List Char) : squeeze text = writeMarks (significant text) :=
  squeezeFrom_eq_writeMarks none false text

/-- Marks can be read back from what they are written as. -/
theorem marksFrom_writeMarks {marks : List (Bool × Char)}
    (h : ∀ mark ∈ marks, isBlank mark.2 = false) : marksFrom false (writeMarks marks) = marks := by
  have hspace : isBlank ' ' = true := by decide
  induction marks with
  | nil =>
      rfl
  | cons mark rest ih =>
      obtain ⟨gap, c⟩ := mark
      have hc : isBlank c = false := h (gap, c) List.mem_cons_self
      have hrest := ih fun mark hmark => h mark (List.mem_cons_of_mem _ hmark)
      cases gap <;> simp [writeMarks, marksFrom, hspace, hc, hrest]

/-- Marks of solid characters have no blank in them. -/
theorem isBlank_eq_false_of_map_snd {marks : List (Bool × Char)} {text : List Char}
    (h : marks.map (·.2) = solid text) : ∀ mark ∈ marks, isBlank mark.2 = false := by
  intro mark hmark
  have hmem : mark.2 ∈ solid text := h ▸ List.mem_map_of_mem hmark
  simpa using (List.mem_filter.1 hmem).2

/-- Two texts are squeezed to one text exactly when they have the same significant marks. -/
theorem squeeze_eq_iff_significant (text text' : List Char) :
    squeeze text = squeeze text' ↔ significant text = significant text' := by
  rw [squeeze_eq_writeMarks, squeeze_eq_writeMarks]
  constructor
  · intro h
    have hread : ∀ text : List Char,
        marksFrom false (writeMarks (significant text)) = significant text := by
      intro text
      apply marksFrom_writeMarks
      apply isBlank_eq_false_of_map_snd
      exact map_snd_significant text
    rw [← hread text, h, hread text']
  · intro h
    rw [h]

/-! ## Gaps and marks -/

theorem solid_cons_of_isBlank {c : Char} (h : isBlank c = true) (text : List Char) :
    solid (c :: text) = solid text := by
  simp [solid, h]

theorem solid_cons_of_not_isBlank {c : Char} (h : isBlank c = false) (text : List Char) :
    solid (c :: text) = c :: solid text := by
  simp [solid, h]

/-- What is read after a blank has as its first mark, if any, one that notes a gap. -/
theorem getElem?_marksFrom_true_zero (text : List Char) :
    (∃ c, (marksFrom true text)[0]? = some (true, c)) ↔
      ∃ gap c after, text = gap ++ c :: after ∧ (∀ blank ∈ gap, isBlank blank = true) ∧
        isBlank c = false := by
  induction text with
  | nil =>
      simp [marksFrom]
  | cons first rest ih =>
      cases hblank : isBlank first with
      | true =>
          simp only [marksFrom, hblank, if_true]
          rw [ih]
          constructor
          · rintro ⟨gap, c, after, rfl, hgap, hc⟩
            exact ⟨first :: gap, c, after, rfl, List.forall_mem_cons.2 ⟨hblank, hgap⟩, hc⟩
          · rintro ⟨gap, c, after, heq, hgap, hc⟩
            cases gap with
            | nil =>
                cases heq
                simp [hc] at hblank
            | cons blank gap =>
                cases heq
                exact ⟨gap, c, after, rfl, (List.forall_mem_cons.1 hgap).2, hc⟩
      | false =>
          simp only [marksFrom, hblank, Bool.false_eq_true, if_false]
          constructor
          · intro _
            exact ⟨[], first, rest, rfl, by simp, hblank⟩
          · intro _
            exact ⟨first, rfl⟩

theorem beginsWithGap_iff (text : List Char) :
    BeginsWithGap text ↔ ∃ c, (marksFrom false text)[0]? = some (true, c) := by
  cases text with
  | nil =>
      simp [BeginsWithGap, marksFrom]
  | cons first rest =>
      cases hblank : isBlank first with
      | true =>
          simp only [marksFrom, hblank, if_true]
          rw [getElem?_marksFrom_true_zero]
          constructor
          · rintro ⟨gap, c, after, heq, hne, hgap, hc⟩
            cases gap with
            | nil =>
                exact absurd rfl hne
            | cons blank gap =>
                cases heq
                exact ⟨gap, c, after, rfl, (List.forall_mem_cons.1 hgap).2, hc⟩
          · rintro ⟨gap, c, after, rfl, hgap, hc⟩
            exact ⟨first :: gap, c, after, rfl, List.cons_ne_nil _ _,
              List.forall_mem_cons.2 ⟨hblank, hgap⟩, hc⟩
      | false =>
          constructor
          · rintro ⟨gap, c, after, heq, hne, hgap, hc⟩
            cases gap with
            | nil =>
                exact absurd rfl hne
            | cons blank gap =>
                cases heq
                simp [hblank] at hgap
          · simp [marksFrom, hblank]

theorem hasGapAfter_cons_of_isBlank {first : Char} (h : isBlank first = true) (text : List Char)
    (place : Nat) : HasGapAfter (first :: text) place ↔ HasGapAfter text place := by
  constructor
  · rintro ⟨before, c, after, heq, hplace, hc, hgap⟩
    cases before with
    | nil =>
        cases heq
        simp [hc] at h
    | cons blank before =>
        cases heq
        rw [solid_cons_of_isBlank h] at hplace
        exact ⟨before, c, after, rfl, hplace, hc, hgap⟩
  · rintro ⟨before, c, after, rfl, hplace, hc, hgap⟩
    exact ⟨first :: before, c, after, rfl, by rw [solid_cons_of_isBlank h, hplace], hc, hgap⟩

theorem hasGapAfter_cons_zero {first : Char} (h : isBlank first = false) (text : List Char) :
    HasGapAfter (first :: text) 0 ↔ BeginsWithGap text := by
  constructor
  · rintro ⟨before, c, after, heq, hplace, hc, hgap⟩
    cases before with
    | nil =>
        cases heq
        exact hgap
    | cons head before =>
        cases heq
        simp [solid_cons_of_not_isBlank h] at hplace
  · intro hgap
    exact ⟨[], first, text, rfl, rfl, h, hgap⟩

theorem hasGapAfter_cons_succ {first : Char} (h : isBlank first = false) (text : List Char)
    (place : Nat) : HasGapAfter (first :: text) (place + 1) ↔ HasGapAfter text place := by
  constructor
  · rintro ⟨before, c, after, heq, hplace, hc, hgap⟩
    cases before with
    | nil =>
        cases hplace
    | cons head before =>
        cases heq
        rw [solid_cons_of_not_isBlank h, List.length_cons, Nat.add_right_cancel_iff] at hplace
        exact ⟨before, c, after, rfl, hplace, hc, hgap⟩
  · rintro ⟨before, c, after, rfl, hplace, hc, hgap⟩
    exact ⟨first :: before, c, after, rfl,
      by rw [solid_cons_of_not_isBlank h, List.length_cons, hplace], hc, hgap⟩

/-- A gap after a solid character is noted in the mark of the next one. -/
theorem hasGapAfter_iff (gap : Bool) (text : List Char) (place : Nat) :
    HasGapAfter text place ↔ ∃ c, (marksFrom gap text)[place + 1]? = some (true, c) := by
  -- A blank at the front of a text changes no place, a solid character moves all of them by one.
  induction text generalizing gap place with
  | nil =>
      simp [HasGapAfter, marksFrom]
  | cons c rest ih =>
      cases hblank : isBlank c with
      | true =>
          rw [hasGapAfter_cons_of_isBlank hblank, ih true]
          simp only [marksFrom, hblank, if_true]
      | false =>
          simp only [marksFrom, hblank, Bool.false_eq_true, if_false, List.getElem?_cons_succ]
          cases place with
          | zero =>
              rw [hasGapAfter_cons_zero hblank, beginsWithGap_iff]
          | succ place =>
              rw [hasGapAfter_cons_succ hblank, ih false]

/-! ## Significant marks -/

/-- A mark is significant on account of the solid character before it. -/
theorem getElem?_significantFrom_zero (last : Option Char) (marks : List (Bool × Char)) :
    (significantFrom last marks)[0]? = marks[0]?.map fun mark =>
      (mark.1 && last.any (!isPunctuation ·) && !isPunctuation mark.2, mark.2) := by
  cases marks <;> rfl

theorem getElem?_significantFrom_succ (last : Option Char) (marks : List (Bool × Char))
    (place : Nat) :
    (significantFrom last marks)[place + 1]? = marks[place + 1]?.map fun mark =>
      (mark.1 && (marks[place]?.map (·.2)).any (!isPunctuation ·) && !isPunctuation mark.2,
        mark.2) := by
  induction marks generalizing last place with
  | nil =>
      rfl
  | cons mark rest ih =>
      simp only [significantFrom, List.getElem?_cons_succ]
      cases place with
      | zero =>
          rw [getElem?_significantFrom_zero]
          rfl
      | succ place =>
          rw [ih, List.getElem?_cons_succ]

/-- The note of a mark says whether there is a gap after the solid character before it. -/
theorem eq_true_iff_hasGapAfter {text : List Char} {place : Nat} {gap : Bool} {c : Char}
    (h : (marksFrom false text)[place + 1]? = some (gap, c)) :
    gap = true ↔ HasGapAfter text place := by
  rw [hasGapAfter_iff false, h]
  simp

/-- Whether a gap keeps two words apart: the solid character before it, given by its number, and the
one after it are no punctuation. -/
def IsApartAfter (text : List Char) (place : Nat) : Prop :=
  HasGapAfter text place ∧
    ∃ c c', (solid text)[place]? = some c ∧ (solid text)[place + 1]? = some c' ∧
      isPunctuation c = false ∧ isPunctuation c' = false

/-- The first character of a text is kept apart from nothing. -/
theorem getElem?_significant_zero (text : List Char) :
    (significant text)[0]? = (solid text)[0]?.map (false, ·) := by
  rw [significant, getElem?_significantFrom_zero, getElem?_solid false, Option.map_map]
  simp [Function.comp_def]

/-- After the first one, the significant marks of a text are its solid characters, each with whether
a gap keeps it apart from the one before it. -/
theorem getElem?_significant_iff (text : List Char) (place : Nat) (gap : Bool) (c : Char) :
    (significant text)[place + 1]? = some (gap, c) ↔
      (solid text)[place + 1]? = some c ∧ (gap = true ↔ IsApartAfter text place) := by
  rw [significant, getElem?_significantFrom_succ, ← getElem?_solid]
  cases hmark : (marksFrom false text)[place + 1]? with
  | none =>
      simp [getElem?_solid false, hmark]
  | some mark =>
      obtain ⟨noted, c'⟩ := mark
      have hsolid : (solid text)[place + 1]? = some c' := by rw [getElem?_solid false, hmark]; rfl
      have hapart : IsApartAfter text place ↔
          (noted && (solid text)[place]?.any (!isPunctuation ·) && !isPunctuation c') = true := by
        rw [IsApartAfter, ← eq_true_iff_hasGapAfter hmark, hsolid]
        cases (solid text)[place]? <;> simp [and_assoc]
      rw [hapart, hsolid, Option.map_some, Option.some.injEq, Option.some.injEq, Prod.mk.injEq,
        ← Bool.eq_iff_iff, and_comm, eq_comm (a := gap)]

theorem isApartAfter_iff_hasGapAfter {text : List Char} {place : Nat} {c c' : Char}
    (hc : (solid text)[place]? = some c) (hc' : (solid text)[place + 1]? = some c')
    (hword : isPunctuation c = false) (hword' : isPunctuation c' = false) :
    IsApartAfter text place ↔ HasGapAfter text place := by
  constructor
  · exact And.left
  · intro hgap
    exact ⟨hgap, c, c', hc, hc', hword, hword'⟩

/-- Texts differ in insignificant blanks only where they have the same solid characters and their
gaps keep the same words apart. -/
theorem sameUpToSpacing_iff (text text' : List Char) :
    SameUpToSpacing text text' ↔
      solid text = solid text' ∧ ∀ place, IsApartAfter text place ↔ IsApartAfter text' place := by
  constructor
  · rintro ⟨hsolid, hgap⟩
    refine ⟨hsolid, ?_⟩
    intro place
    constructor
    · rintro ⟨hbetween, c, c', hc, hc', hword, hword'⟩
      have hbetween' := (hgap place c c' hc hc' hword hword').1 hbetween
      exact ⟨hbetween', c, c', hsolid ▸ hc, hsolid ▸ hc', hword, hword'⟩
    · rintro ⟨hbetween', c, c', hc, hc', hword, hword'⟩
      rw [← hsolid] at hc hc'
      have hbetween := (hgap place c c' hc hc' hword hword').2 hbetween'
      exact ⟨hbetween, c, c', hc, hc', hword, hword'⟩
  · rintro ⟨hsolid, hapart⟩
    refine ⟨hsolid, ?_⟩
    intro place c c' hc hc' hword hword'
    calc
      HasGapAfter text place ↔ IsApartAfter text place :=
        (isApartAfter_iff_hasGapAfter hc hc' hword hword').symm
      _ ↔ IsApartAfter text' place := hapart place
      _ ↔ HasGapAfter text' place :=
        isApartAfter_iff_hasGapAfter (hsolid ▸ hc) (hsolid ▸ hc') hword hword'

/-- The significant marks of two texts are equal exactly when the texts differ in insignificant
blanks only. -/
theorem significant_eq_iff (text text' : List Char) :
    significant text = significant text' ↔ SameUpToSpacing text text' := by
  rw [sameUpToSpacing_iff]
  constructor
  · intro h
    have hsolid : solid text = solid text' := by
      rw [← map_snd_significant text, h, map_snd_significant text']
    refine ⟨hsolid, ?_⟩
    intro place
    cases hc : (solid text)[place + 1]? with
    | none =>
        -- After the last character there is nothing to be kept apart from.
        simp [IsApartAfter, ← hsolid, hc]
    | some c =>
        classical
        have hmark := (getElem?_significant_iff text place (decide (IsApartAfter text place)) c).2
          ⟨hc, decide_eq_true_iff⟩
        rw [h] at hmark
        have hmark' := ((getElem?_significant_iff text' place _ c).1 hmark).2
        rwa [decide_eq_true_iff] at hmark'
  · rintro ⟨hsolid, hapart⟩
    apply List.ext_getElem?
    intro place
    cases place with
    | zero =>
        rw [getElem?_significant_zero, getElem?_significant_zero, hsolid]
    | succ place =>
        -- A mark after the first is told by its character and by what its note stands for.
        apply Option.ext
        rintro ⟨gap, c⟩
        rw [getElem?_significant_iff, getElem?_significant_iff, hsolid, hapart]

/-! ## Three passes -/

/-- A text in which each run of blanks is one space, given whether a run has begun before it. -/
def collapseFrom (inRun : Bool) : List Char → List Char
  | [] => []
  | c :: rest =>
    if isBlank c then
      if inRun then collapseFrom true rest else ' ' :: collapseFrom true rest
    else c :: collapseFrom false rest

/-- A text without the spaces beside punctuation, given whether it follows on punctuation. -/
def tightenFrom (inside : Bool) : List Char → List Char
  | [] => []
  | c :: rest =>
    if isPunctuation c then c :: tightenFrom true rest
    else if c == ' ' && (inside || rest.head?.any isPunctuation) then tightenFrom false rest
    else c :: tightenFrom false rest

theorem rdropWhile_cons {α : Type} (p : α → Bool) (first : α) (rest : List α) :
    (first :: rest).rdropWhile p =
      if p first = true ∧ rest.rdropWhile p = [] then [] else first :: rest.rdropWhile p := by
  simp only [List.rdropWhile, List.reverse_cons, List.dropWhile_append, List.isEmpty_iff,
    List.reverse_eq_nil_iff]
  by_cases hrest : rest.reverse.dropWhile p = []
  · cases hfirst : p first <;> simp [hrest, hfirst]
  · simp [hrest]

/-- Collapsing the blanks of a text without blanks at its end writes the marks of the text. Inside a
run of blanks its space is already written, and it is right to have written it if a solid character
follows. -/
theorem collapseFrom_rdropWhile (text : List Char) :
    collapseFrom false (text.rdropWhile isBlank) = writeMarks (marksFrom false text) ∧
      (text.rdropWhile isBlank = [] → ∀ gap, marksFrom gap text = []) ∧
      (text.rdropWhile isBlank ≠ [] →
        ' ' :: collapseFrom true (text.rdropWhile isBlank) =
          writeMarks (marksFrom true text)) := by
  induction text with
  | nil =>
      simp [collapseFrom, marksFrom, writeMarks]
  | cons c rest ih =>
      obtain ⟨hcollapse, hnil, hrun⟩ := ih
      rw [rdropWhile_cons]
      cases hblank : isBlank c with
      | true =>
          -- A blank goes with the end of the text, or it is the first of a run before something.
          by_cases hempty : rest.rdropWhile isBlank = []
          · simp [hempty, collapseFrom, marksFrom, writeMarks, hblank, hnil hempty]
          · simp [hempty, collapseFrom, marksFrom, hblank, hrun hempty]
      | false =>
          simp [collapseFrom, marksFrom, writeMarks, hblank, hcollapse]

/-- Tightening what marks are written as strikes out the notes that mean nothing. -/
theorem tightenFrom_writeMarks (last : Char) {marks : List (Bool × Char)}
    (h : ∀ mark ∈ marks, isBlank mark.2 = false) :
    tightenFrom (isPunctuation last) (writeMarks marks) =
      writeMarks (significantFrom (some last) marks) := by
  have hspace : isPunctuation ' ' = false := by decide
  induction marks generalizing last with
  | nil =>
      rfl
  | cons mark rest ih =>
      obtain ⟨gap, c⟩ := mark
      have hc : isBlank c = false := h (gap, c) List.mem_cons_self
      -- The space written for a gap is never taken for a solid character, nor the other way round.
      have hne : ¬ c = ' ' := by
        rintro rfl
        cases hc
      have hrest := ih c fun mark hmark => h mark (List.mem_cons_of_mem _ hmark)
      cases gap <;> cases hlast : isPunctuation last <;> cases hword : isPunctuation c <;>
        simp_all [writeMarks, significantFrom, tightenFrom]

/-- Blanks at the start of a text only show in the note of its first mark, which means nothing. -/
theorem significantFrom_dropWhile (gap gap' : Bool) (text : List Char) :
    significantFrom none (marksFrom gap (text.dropWhile isBlank)) =
      significantFrom none (marksFrom gap' text) := by
  induction text generalizing gap' with
  | nil =>
      rfl
  | cons c rest ih =>
      cases hblank : isBlank c with
      | true =>
          simp only [List.dropWhile_cons, marksFrom, hblank, if_true, ih true]
      | false =>
          simp [marksFrom, significantFrom, hblank]

/-- Tightening what the marks of a text are written as, its blanks at the start left out. -/
theorem tightenFrom_writeMarks_dropWhile (text : List Char) :
    tightenFrom false (writeMarks (marksFrom false (text.dropWhile isBlank))) =
      writeMarks (significant text) := by
  rw [significant, ← significantFrom_dropWhile false]
  cases hdrop : text.dropWhile isBlank with
  | nil =>
      rfl
  | cons first rest =>
      have hfirst : isBlank first = false := by
        have hne : text.dropWhile isBlank ≠ [] := by simp [hdrop]
        have hnot := List.head_dropWhile_not isBlank hne
        simpa only [hdrop, List.head_cons, Bool.not_eq_true] using hnot
      have hne : ¬ first = ' ' := by
        rintro rfl
        cases hfirst
      have hrest := tightenFrom_writeMarks first
        (isBlank_eq_false_of_map_snd (map_snd_marksFrom false rest))
      cases hword : isPunctuation first <;>
        simp_all [marksFrom, writeMarks, significantFrom, tightenFrom]

/-- Squeezing does in one pass what trimming, collapsing and tightening do one after another. -/
theorem squeeze_eq_passes (text : List Char) :
    squeeze text = tightenFrom false (collapseFrom false (trimmed text)) := by
  calc
    squeeze text = writeMarks (significant text) := squeeze_eq_writeMarks text
    _ = tightenFrom false (writeMarks (marksFrom false (text.dropWhile isBlank))) :=
      (tightenFrom_writeMarks_dropWhile text).symm
    _ = tightenFrom false (collapseFrom false (trimmed text)) := by
      rw [← (collapseFrom_rdropWhile (text.dropWhile isBlank)).1]
      rfl

/-! ## Squeezed texts -/

/-- Two texts are squeezed to one text exactly when they differ in insignificant blanks only, and a
squeezed text is left as it is. Squeezing trims a text, makes each run of blanks one space and drops
the spaces beside punctuation. -/
theorem squeezed_eq_iff (text text' : String) :
    (squeezed text = squeezed text' ↔ SameUpToSpacing text.toList text'.toList) ∧
      squeezed (squeezed text) = squeezed text ∧
      squeezed text =
        String.ofList (tightenFrom false (collapseFrom false (trimmed text.toList))) := by
  refine ⟨?_, ?_, ?_⟩
  · calc
      squeezed text = squeezed text' ↔ squeeze text.toList = squeeze text'.toList :=
        String.ofList_inj
      _ ↔ _ := squeeze_eq_iff_significant text.toList text'.toList
      _ ↔ SameUpToSpacing text.toList text'.toList := significant_eq_iff text.toList text'.toList
  · exact squeezed_ofList_squeeze text.toList
  · rw [squeezed, squeeze_eq_passes]

end Text
end AssocLint
