import AssocLint.Proofs.Dump.NothingLost

/-!
# The resolutions that a dump writes

A form that writes a path may say, by a word after `:res`, what the path resolved to. In a dump that
is read every such word is known, except beside a text that is refused: `IsReadable` tells exactly
what may stand in the forms that are read.
-/

namespace AssocLint

open Dump

/-- In a dump that is read, the resolution of every form that writes a path is one of the seven, or
the form has two texts of which one is refused. -/
theorem Crate.resolutions_of_ofDump {text name : String} {crate : Crate}
    (h : Crate.ofDump text name = .ok crate) :
    ∃ values, readValues text = .ok values ∧ ∀ form ∈ documentPathForms values,
      ResolutionKnown form ∨ form.head = "relative" ∧ ¬ (Place.form form).IsAccepted := by
  obtain ⟨values, hvalues, hcrate⟩ := Crate.ofDump_eq_ok_iff.1 h
  refine ⟨values, hvalues, fun form hform => ?_⟩
  obtain ⟨file, written, hwrites, -, hres⟩ := isReadable_of_mem_documentPathForms hcrate hform
  refine hres.imp_right fun hexempt => ⟨hexempt.1, fun haccepted => hexempt.2 ?_⟩
  exact haccepted written hwrites.writtenIn?_eq

/-- Known words stand after a path and after a member of a type, and all the texts are accepted. -/
theorem Crate.resolutions_of_ofDump_known :
    let text := "(crate a (impl (type T (path \"Vec<u8>\" :res type))
      (fn f (block (tail (relative Self new :res \"assoc-item\"))))))"
    ∃ crate values, Crate.ofDump text "dump" = .ok crate ∧ readValues text = .ok values ∧
      (documentPathForms values).map Form.head = ["path", "relative"] ∧
      ∀ form ∈ documentPathForms values,
        ResolutionKnown form ∨ form.head = "relative" ∧ ¬ (Place.form form).IsAccepted := by
  intro text
  have hread : (readValues text).toOption.map (fun values =>
      ((readCrate values).toOption.isSome, (documentPathForms values).map Form.head)) =
      some (true, ["path", "relative"]) := by
    decide +kernel
  obtain ⟨values, hvalues, hfound⟩ := Option.map_eq_some_iff.1 hread
  obtain ⟨hloaded, hforms⟩ := Prod.mk.inj hfound
  obtain ⟨crate, hcrate⟩ := isSome_toOption.1 hloaded
  have hvalues := eq_ok_of_toOption hvalues
  have hdump : Crate.ofDump text "dump" = .ok crate :=
    Crate.ofDump_eq_ok_iff.2 ⟨values, hvalues, hcrate⟩
  obtain ⟨values', hvalues', hknown⟩ := Crate.resolutions_of_ofDump hdump
  obtain rfl := Except.ok.inj (hvalues.symm.trans hvalues')
  exact ⟨crate, values, hdump, hvalues, hforms, hknown⟩

/-- The word after the second text is none of the seven, and is not looked at, as this text is no
segment of a path. -/
theorem Crate.resolutions_of_ofDump_unknown :
    let text := "(crate \"a.rs\" (impl (type T (relative \"Self\" \"::bad::\" :res foo))))"
    let written : Form :=
      ⟨1, "relative", [.text "Self", .text "::bad::", .symbol ":res", .symbol "foo"]⟩
    (∃ crate values, Crate.ofDump text "dump" = .ok crate ∧ readValues text = .ok values ∧
      written ∈ documentPathForms values) ∧ ¬ ResolutionKnown written := by
  intro text written
  constructor
  · have hread : (readValues text).toOption.map (fun values =>
        ((readCrate values).toOption.isSome, (documentPathForms values).map Form.toSexp)) =
        some (true, [written.toSexp]) := by
      decide +kernel
    obtain ⟨values, hvalues, hfound⟩ := Option.map_eq_some_iff.1 hread
    obtain ⟨hloaded, hforms⟩ := Prod.mk.inj hfound
    obtain ⟨crate, hcrate⟩ := isSome_toOption.1 hloaded
    have hvalues := eq_ok_of_toOption hvalues
    obtain ⟨form, hform, hsame⟩ := List.map_eq_singleton_iff.1 hforms
    obtain rfl := Form.toSexp_inj hsame
    exact ⟨crate, values, Crate.ofDump_eq_ok_iff.2 ⟨values, hvalues, hcrate⟩, hvalues,
      hform ▸ List.mem_singleton.2 rfl⟩
  · intro hknown
    have hfields : fieldsOf (flagsOf written.head) written.items =
        [.item (.text "Self"), .item (.text "::bad::"), .keyword "res" (.symbol "foo")] := rfl
    obtain ⟨word, hword, hfoo⟩ := hknown (.symbol "foo") (by rw [hfields]; simp)
    cases hfoo
    exact absurd hword (by decide)

end AssocLint
