import AssocLint.Proofs.Dump.PathForms
import AssocLint.Proofs.Dump.ReadOnce
import AssocLint.Proofs.Sexp.Equality

/-!
# No path of a dump is lost

The references of a crate are what is read at the places of its dump, one at each. Among the places
are all forms that write paths in the implementation blocks, each of them once.
-/

namespace AssocLint

open Dump

namespace Dump

/-- The forms that write paths in the implementation blocks of a document. -/
def documentPathForms (values : List Sexp) : List Form :=
  (implForms values).flatMap fun form => pathForms .form form.toSexp

section Crate

variable {values : List Sexp} {crate : Crate} (h : readCrate values = .ok crate)
include h

theorem isReadable_of_mem_documentPlaces {form : Form}
    (hform : .form form ∈ documentPlaces values) : ∃ file, IsReadable file form :=
  isReadable_of_reads (readOnce_readCrate values crate h) hform

/-- They are the places of the document that are no bare text. -/
theorem perm_documentPlaces :
    ((documentPlaces values).filterMap Place.form?).Perm (documentPathForms values) := by
  rw [documentPlaces, documentPathForms, List.filterMap_flatMap]
  refine List.Perm.flatMap_left _ fun form hform => ?_
  exact perm_places .form form.toSexp fun inner hinner =>
    isReadable_of_mem_documentPlaces h (List.mem_flatMap.2 ⟨form, hform, hinner⟩)

/-- A path is read at each of them. -/
theorem isReadable_of_mem_documentPathForms {form : Form}
    (hform : form ∈ documentPathForms values) : ∃ file, IsReadable file form := by
  obtain ⟨place, hplace, hfound⟩ := List.mem_filterMap.1 ((perm_documentPlaces h).mem_iff.2 hform)
  cases place with
  | text path => cases hfound
  | form inner =>
      cases hfound
      exact isReadable_of_mem_documentPlaces h hplace

end Crate

end Dump

/-- Each reference of a crate is what is read at one place of its dump, and at each place one
reference is read. Every form that writes a path in an implementation block is one of these places,
once, wherever it is nested. Left out are the tokens of macros, nested items, the lengths of arrays,
literals, what stands in a form that needs no items, and what stands after `:res` in a form with two
texts of which the grammar refuses one. -/
theorem Crate.ofDump_reads_each_path {text name : String} {crate : Crate}
    (h : Crate.ofDump text name = .ok crate) :
    ∃ values, readValues text = .ok values ∧ Reads (documentPlaces values) crate.references ∧
      ((documentPlaces values).filterMap Place.form?).Perm (documentPathForms values) := by
  obtain ⟨values, hvalues, hcrate⟩ := Crate.ofDump_eq_ok_iff.1 h
  exact ⟨values, hvalues, readOnce_readCrate values crate hcrate, perm_documentPlaces hcrate⟩

/-- The type that a function returns is written before its parameters and body, and stands after
them in the tree. What a macro and a nested item hold is left out, and so is the path beside a text
that is refused. -/
theorem Crate.ofDump_reads_each_path_out_of_order :
    let text := "(crate a (impl :trait T (type Item (path A))
      (fn f :ret (lang-item Sized) (param (binding x) (relative Self B))
        (param (binding y) (relative \"<\" B :res (path R)))
        (block (item (path Q)) (semi (macro m (path M))) (tail (path C))))))"
    ∃ crate values, Crate.ofDump text "dump" = .ok crate ∧ readValues text = .ok values ∧
      Reads (documentPlaces values) crate.references ∧
      ((documentPlaces values).filterMap Place.form?).Perm (documentPathForms values) ∧
      (documentPathForms values).map Form.head =
        ["path", "lang-item", "relative", "relative", "path"] ∧
      (documentPlaces values).map (fun place => place.form?.map Form.head) =
        [none, some "path", some "relative", some "relative", some "path", some "lang-item"] := by
  intro text
  have hread : (readValues text).toOption.map (fun values =>
      ((readCrate values).toOption.isSome, (documentPathForms values).map Form.head,
        (documentPlaces values).map fun place => place.form?.map Form.head)) =
      some (true, ["path", "lang-item", "relative", "relative", "path"],
        [none, some "path", some "relative", some "relative", some "path", some "lang-item"]) := by
    decide +kernel
  obtain ⟨values, hvalues, hfound⟩ := Option.map_eq_some_iff.1 hread
  simp only [Prod.mk.injEq] at hfound
  obtain ⟨hloaded, hforms, hplaces⟩ := hfound
  obtain ⟨crate, hcrate⟩ := isSome_toOption.1 hloaded
  have hvalues := eq_ok_of_toOption hvalues
  have hdump : Crate.ofDump text "dump" = .ok crate :=
    Crate.ofDump_eq_ok_iff.2 ⟨values, hvalues, hcrate⟩
  obtain ⟨values', hvalues', hreads, hperm⟩ := Crate.ofDump_reads_each_path hdump
  obtain rfl := Except.ok.inj (hvalues.symm.trans hvalues')
  exact ⟨crate, values, hdump, hvalues, hreads, hperm, hforms, hplaces⟩

/-- A path that is the length of an array is shown as an underscore, and no reference is read from
it. -/
theorem Crate.ofDump_skips_array_length :
    let text := "(crate \"a.rs\" (impl (type Item (array \"A\" (path \"N\")))))"
    let length : Form := ⟨1, "path", [.text "N"]⟩
    readValues text = .ok [.list (some 1) [.symbol "crate", .text "a.rs",
      .list (some 1) [.symbol "impl", .list (some 1) [.symbol "type", .symbol "Item",
        .list (some 1) [.symbol "array", .text "A", length.toSexp]]]]] ∧
    (Place.form length).reference.render = "N" ∧
    ∃ crate, Crate.ofDump text "dump" = .ok crate ∧
      crate.references.map Reference.render = ["A"] := by
  intro text length
  have hread : (Crate.ofDump text "dump").toOption.map (·.references.map Reference.render) =
      some ["A"] := by
    decide +kernel
  refine ⟨eq_ok_of_toOption (by decide +kernel), by decide +kernel, ?_⟩
  cases hcrate : Crate.ofDump text "dump" with
  | error failure =>
      rw [hcrate] at hread
      cases hread
  | ok crate =>
      rw [hcrate] at hread
      exact ⟨crate, rfl, Option.some.inj hread⟩

end AssocLint
