import AssocLint.Config
import AssocLint.Proofs.Suppression.Marks
import Mathlib.Data.List.Infix

/-!
# What is registered is what is silenced

Suppressions are built by registrations, one after another and in any order: the marks of a crate,
single marks, patterns of files, and ids that are silenced everywhere. Each registration adds
entries and takes nothing back (`covers_register`). So a diagnostic is silenced if and only if an
entry that was registered covers it, and neither the order nor the repetition of registrations
matters (`covers_ofRegistrations`). The suppressions of a configuration are built in this way
(`Config.suppressions_eq`).
-/

namespace AssocLint

/-! ## Entries -/

/-- An id that is silenced, with the place where it is. -/
inductive Suppression where
  | everywhere (id : String)
  | mark (mark : SuppressionMark)
  /-- In the files that a pattern describes. -/
  | files (id pattern : String)

namespace Suppression

def id : Suppression → String
  | .everywhere id => id
  | .mark written => written.id
  | .files id _ => id

/-- Whether a place belongs to those where the id is silenced. A mark stands on the line of the
place or on the line before. -/
def Reaches (location : Location) : Suppression → Prop
  | .everywhere _ => True
  | .mark written =>
    written.file = location.file ∧
      (written.line = location.line ∨ written.line = location.line - 1)
  | .files _ pattern =>
    pattern = location.file ∨ pattern.toList <:+ location.file.toList ∨
      Glob.fits pattern location.file

/-- Whether a diagnostic is silenced by an entry. -/
def Covers (entry : Suppression) (diagnostic : Diagnostic) : Prop :=
  (entry.id = diagnostic.id ∨ entry.id = "*") ∧ entry.Reaches diagnostic.location

instance (entry : Suppression) (location : Location) :
    Decidable (entry.Reaches location) := by
  cases entry <;> unfold Reaches <;> infer_instance

instance (entry : Suppression) (diagnostic : Diagnostic) : Decidable (entry.Covers diagnostic) :=
  inferInstanceAs (Decidable (_ ∧ _))

end Suppression

/-! ## Registrations -/

/-- A table that holds nothing. -/
def Table.empty (κ α : Type) : Table κ α where
  entries := []

/-- A way to add to suppressions. -/
inductive Registration where
  /-- All marks of a crate. -/
  | crate (crate : Crate)
  | mark (mark : SuppressionMark)
  | files (id pattern : String)
  | everywhere (id : String)

/-- What a registration adds. -/
def Registration.entries : Registration → List Suppression
  | .crate loaded => loaded.marks.map .mark
  | .mark written => [.mark written]
  | .files id pattern => [.files id pattern]
  | .everywhere id => [.everywhere id]

namespace Suppressions

/-- Suppressions after a registration. -/
def register (suppressions : Suppressions) : Registration → Suppressions
  | .crate crate => suppressions.addCrate crate
  | .mark mark => suppressions.addMark mark
  | .files id pattern => suppressions.addFiles id pattern
  | .everywhere id => suppressions.addEverywhere id

/-- Suppressions to which nothing but the given registrations has been added, in their order. -/
def ofRegistrations (registrations : List Registration) : Suppressions :=
  registrations.foldl register { marks := .empty _ _, files := .empty _ _ }

/-! ## One registration -/

theorem silences_iff {mark : SuppressionMark} {diagnostic : Diagnostic} :
    mark.silences diagnostic ↔ (Suppression.mark mark).Covers diagnostic := by
  simp only [SuppressionMark.silences, Suppression.Covers, Suppression.Reaches, Suppression.id,
    anyId, Bool.and_eq_true, Bool.or_eq_true, beq_iff_eq]
  grind

theorem patternCovers_iff {pattern file : String} :
    patternCovers pattern file ↔
      pattern = file ∨ pattern.toList <:+ file.toList ∨ Glob.fits pattern file := by
  rw [patternCovers, Bool.or_eq_true, Bool.or_eq_true, beq_iff_eq, List.isSuffixOf_iff_suffix,
    or_assoc, eq_comm]

theorem covers_addEverywhere (suppressions : Suppressions) (id : String)
    (diagnostic : Diagnostic) :
    (suppressions.addEverywhere id).covers diagnostic ↔
      suppressions.covers diagnostic ∨ (Suppression.everywhere id).Covers diagnostic := by
  have hlines (file : String) (line : Int) :
      (suppressions.addEverywhere id).lineCovers diagnostic.id file line =
        suppressions.lineCovers diagnostic.id file line := rfl
  have hfiles : (suppressions.addEverywhere id).files = suppressions.files := rfl
  have heverywhere : (suppressions.addEverywhere id).everywhere =
      suppressions.everywhere.insert id := rfl
  simp only [covers, hlines, hfiles, heverywhere, idsCover_insert, Suppression.Covers,
    Suppression.Reaches, Suppression.id, anyId, Bool.or_eq_true, beq_iff_eq, and_true]
  grind

/-- A pattern has more ids after an adjustment, and no other pattern has. -/
theorem any_adjustEntries (added pattern id file : String)
    (entries : List (String × List String)) :
    (Table.adjustEntries pattern (addId added) entries).any (fun entry =>
        idsCover entry.2 id && patternCovers entry.1 file) =
      (entries.any (fun entry => idsCover entry.2 id && patternCovers entry.1 file) ||
        ((added == id || added == anyId) && patternCovers pattern file)) := by
  induction entries with
  | nil =>
      have hnothing : idsCover [] id = false := rfl
      simp only [Table.adjustEntries, addId, Option.getD_none, List.any_cons, List.any_nil,
        idsCover_insert, hnothing, Bool.or_false, Bool.false_or]
  | cons entry rest ih =>
      rw [Table.adjustEntries]
      split
      · rename_i hpattern
        subst hpattern
        simp only [addId, Option.getD_some, List.any_cons, idsCover_insert,
          Bool.and_or_distrib_right]
        ac_rfl
      · rw [List.any_cons, List.any_cons, ih, Bool.or_assoc]

theorem covers_addFiles (suppressions : Suppressions) (id pattern : String)
    (diagnostic : Diagnostic) :
    (suppressions.addFiles id pattern).covers diagnostic ↔
      suppressions.covers diagnostic ∨ (Suppression.files id pattern).Covers diagnostic := by
  have hlines (file : String) (line : Int) :
      (suppressions.addFiles id pattern).lineCovers diagnostic.id file line =
        suppressions.lineCovers diagnostic.id file line := rfl
  have heverywhere : (suppressions.addFiles id pattern).everywhere = suppressions.everywhere := rfl
  have hfiles : (suppressions.addFiles id pattern).files.entries =
      Table.adjustEntries pattern (addId id) suppressions.files.entries := rfl
  simp only [covers, hlines, heverywhere, hfiles, any_adjustEntries, Suppression.Covers,
    Suppression.Reaches, Suppression.id, anyId, ← patternCovers_iff, Bool.or_eq_true,
    Bool.and_eq_true, beq_iff_eq, or_assoc]

/-- A registration silences what its entries cover, and keeps silenced what was so before. -/
theorem covers_register (suppressions : Suppressions) (registration : Registration)
    (diagnostic : Diagnostic) :
    (suppressions.register registration).covers diagnostic ↔
      suppressions.covers diagnostic ∨
        ∃ entry ∈ registration.entries, entry.Covers diagnostic := by
  cases registration with
  | crate crate =>
      simp only [register, Registration.entries, covers_addCrate, Crate.silences, Bool.or_eq_true,
        List.any_eq_true, silences_iff, List.mem_map, exists_exists_and_eq_and]
  | mark mark =>
      simp only [register, Registration.entries, covers_addMark, Bool.or_eq_true, silences_iff,
        List.mem_singleton,
        exists_eq_left]
  | files id pattern =>
      simp only [register, Registration.entries, covers_addFiles, List.mem_singleton,
        exists_eq_left]
  | everywhere id =>
      simp only [register, Registration.entries, covers_addEverywhere, List.mem_singleton,
        exists_eq_left]

/-! ## All registrations -/

/-- Registrations add up, whatever is there before. -/
theorem covers_foldl_register (suppressions : Suppressions) (registrations : List Registration)
    (diagnostic : Diagnostic) :
    (registrations.foldl register suppressions).covers diagnostic ↔
      suppressions.covers diagnostic ∨
        ∃ entry ∈ registrations.flatMap Registration.entries, entry.Covers diagnostic := by
  induction registrations generalizing suppressions with
  | nil =>
      simp
  | cons registration rest ih =>
      rw [List.foldl_cons, ih, covers_register, List.flatMap_cons, or_assoc]
      simp only [List.mem_append, or_and_right, exists_or]

theorem covers_iff_registered (registrations : List Registration) (diagnostic : Diagnostic) :
    (ofRegistrations registrations).covers diagnostic ↔
      ∃ entry ∈ registrations.flatMap Registration.entries, entry.Covers diagnostic := by
  have hnothing : (ofRegistrations []).covers diagnostic = false := rfl
  have hadded := covers_foldl_register (ofRegistrations []) registrations diagnostic
  exact hadded.trans (or_iff_right (Bool.eq_false_iff.1 hnothing))

/-- After any registrations a diagnostic is silenced if and only if a registered entry covers it.
Registrations with the same entries silence the same, in whatever order and however often they are
made; more of them silence no less; and the diagnostics that are kept are those that no entry
covers, in their order. -/
theorem covers_ofRegistrations (registrations : List Registration) (diagnostic : Diagnostic) :
    ((ofRegistrations registrations).covers diagnostic ↔
        ∃ entry ∈ registrations.flatMap Registration.entries, entry.Covers diagnostic) ∧
      (∀ others : List Registration,
        (∀ entry, entry ∈ others.flatMap Registration.entries ↔
          entry ∈ registrations.flatMap Registration.entries) →
        (ofRegistrations others).covers diagnostic =
          (ofRegistrations registrations).covers diagnostic) ∧
      (∀ more : List Registration,
        registrations.flatMap Registration.entries ⊆ more.flatMap Registration.entries →
        (ofRegistrations registrations).covers diagnostic →
          (ofRegistrations more).covers diagnostic) ∧
      ∀ diagnostics : List Diagnostic,
        (ofRegistrations registrations).keep diagnostics =
          diagnostics.filter fun diagnostic =>
            ¬ ∃ entry ∈ registrations.flatMap Registration.entries, entry.Covers diagnostic := by
  refine ⟨covers_iff_registered registrations diagnostic, fun others hsame => ?_,
    fun more hmore hcovers => ?_, fun diagnostics => ?_⟩
  · rw [Bool.eq_iff_iff, covers_iff_registered, covers_iff_registered]
    simp only [hsame]
  · obtain ⟨entry, hentry, hcovered⟩ := (covers_iff_registered registrations diagnostic).1 hcovers
    exact (covers_iff_registered more diagnostic).2 ⟨entry, hmore hentry, hcovered⟩
  · refine List.filter_congr fun diagnostic _ => ?_
    rw [Bool.eq_iff_iff, Bool.not_eq_true', decide_eq_true_iff, ← covers_iff_registered,
      Bool.not_eq_true]

/-- A mark on the line above a diagnostic, beside a pattern that is registered before and after the
mark instead of once after it. -/
theorem covers_ofRegistrations_repeated :
    let mark : Registration := .mark ⟨"used", "src/a.rs", 4⟩
    let files : Registration := .files "unused" "a.rs"
    let diagnostic : Diagnostic :=
      { id := "used", message := "", severity := .warning,
        location := { file := "src/a.rs", line := 5 } }
    (∀ entry, entry ∈ [files, mark, files].flatMap Registration.entries ↔
        entry ∈ [mark, files].flatMap Registration.entries) ∧
      (ofRegistrations [mark, files]).covers diagnostic ∧
      (ofRegistrations [files, mark, files]).covers diagnostic ∧
      (ofRegistrations [files]).keep [diagnostic, { diagnostic with id := "unused" }] =
        [diagnostic] := by
  intro mark files diagnostic
  have hsame : ∀ entry, entry ∈ [files, mark, files].flatMap Registration.entries ↔
      entry ∈ [mark, files].flatMap Registration.entries := by
    intro entry
    simp only [mark, files, Registration.entries, List.flatMap_cons, List.flatMap_nil,
      List.mem_append, List.mem_singleton, List.not_mem_nil]
    grind
  have hcovers : (ofRegistrations [mark, files]).covers diagnostic :=
    (covers_ofRegistrations [mark, files] diagnostic).1.2
      ⟨.mark ⟨"used", "src/a.rs", 4⟩, List.mem_cons_self, by decide⟩
  refine ⟨hsame, hcovers, ?_, ?_⟩
  · rw [(covers_ofRegistrations [mark, files] diagnostic).2.1 _ hsame]
    exact hcovers
  · rw [(covers_ofRegistrations [files] diagnostic).2.2.2]
    decide

end Suppressions

/-! ## Configurations -/

/-- What a configuration registers: ids everywhere, and then the ids of each pattern of files. -/
def Config.registrations (config : Config) : List Registration :=
  config.suppress.map .everywhere ++ config.fileSuppressions.entries.flatMap fun entry =>
    entry.2.map fun id => .files id entry.1

theorem Config.suppressions_eq (config : Config) :
    config.suppressions = Suppressions.ofRegistrations config.registrations := by
  rw [Suppressions.ofRegistrations, registrations, List.foldl_append, List.foldl_map,
    List.foldl_flatMap]
  simp only [List.foldl_map]
  rfl

end AssocLint
