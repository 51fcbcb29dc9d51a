import AssocLint.Suppression

/-!
# Marks in the source

A mark silences its id on its own line and on the line below it. Suppressions to which the marks of
a crate are added cover what they covered before, and what one of these marks silences
(`covers_addCrate`).
-/

namespace AssocLint

/-- Whether a mark silences a diagnostic: it stands in the same file, on the line of the diagnostic
or on the line above it, and is about the id of the diagnostic or about every id. -/
def SuppressionMark.silences (mark : SuppressionMark) (diagnostic : Diagnostic) : Bool :=
  mark.file == diagnostic.location.file &&
    (diagnostic.location.line == mark.line || diagnostic.location.line == mark.line + 1) &&
      (mark.id == diagnostic.id || mark.id == Suppressions.anyId)

/-- Whether one of the marks of a crate silences a diagnostic. -/
def Crate.silences (crate : Crate) (diagnostic : Diagnostic) : Bool :=
  crate.marks.any (·.silences diagnostic)

namespace Suppressions

theorem idsCover_insert (added : String) (ids : List String) (id : String) :
    idsCover (ids.insert added) id = (idsCover ids id || (added == id || added == anyId)) := by
  rw [Bool.eq_iff_iff]
  simp only [idsCover, Bool.or_eq_true, List.contains_iff_mem, List.mem_insert_iff, beq_iff_eq]
  grind

/-- A mark covers more on its own line only. -/
theorem lineCovers_addMark (suppressions : Suppressions) (mark : SuppressionMark)
    (id file : String) (line : Int) :
    (suppressions.addMark mark).lineCovers id file line =
      (suppressions.lineCovers id file line ||
        (mark.file == file && line == mark.line && (mark.id == id || mark.id == anyId))) := by
  simp only [lineCovers, addMark, Table.get?_adjust]
  by_cases hplace : (file, line) = (mark.file, mark.line)
  · obtain ⟨rfl, rfl⟩ := Prod.mk.injEq .. ▸ hplace
    simp only [if_true, Option.getD_some, addId, idsCover_insert, beq_self_eq_true, Bool.true_and]
  · have hother : (mark.file == file && line == mark.line) = false := by
      rw [Bool.eq_false_iff, ne_eq, Bool.and_eq_true, beq_iff_eq, beq_iff_eq]
      rintro ⟨rfl, rfl⟩
      exact hplace rfl
    rw [if_neg hplace, hother, Bool.false_and, Bool.or_false]

theorem covers_addMark (suppressions : Suppressions) (mark : SuppressionMark)
    (diagnostic : Diagnostic) :
    (suppressions.addMark mark).covers diagnostic =
      (suppressions.covers diagnostic || mark.silences diagnostic) := by
  -- A diagnostic asks for marks on its line and on the line above it, a mark tells its own line.
  have hbelow : (diagnostic.location.line - 1 == mark.line) =
      (diagnostic.location.line == mark.line + 1) := by
    rw [Bool.eq_iff_iff, beq_iff_eq, beq_iff_eq]
    omega
  have heverywhere : (suppressions.addMark mark).everywhere = suppressions.everywhere := rfl
  have hfiles : (suppressions.addMark mark).files = suppressions.files := rfl
  simp only [covers, SuppressionMark.silences, lineCovers_addMark, heverywhere, hfiles, hbelow,
    Bool.and_or_distrib_left, Bool.and_or_distrib_right]
  ac_rfl

/-- The marks of a crate are added to what is covered already. -/
theorem covers_addCrate (suppressions : Suppressions) (crate : Crate) (diagnostic : Diagnostic) :
    (suppressions.addCrate crate).covers diagnostic =
      (suppressions.covers diagnostic || crate.silences diagnostic) := by
  unfold addCrate Crate.silences
  induction crate.marks generalizing suppressions with
  | nil =>
      rw [List.foldl_nil, List.any_nil, Bool.or_false]
  | cons mark marks ih =>
      rw [List.foldl_cons, ih, covers_addMark, List.any_cons, Bool.or_assoc]

end Suppressions
end AssocLint
