import AssocLint.Diagnostic
import AssocLint.Table
import AssocLint.Text.Glob
import AssocLint.Tree.Crate

/-!
# Suppressions

A diagnostic is silenced by its id, in one of three ways: everywhere, by a mark on its own line or
on the line above it, or in the files that a pattern describes. The id `*` silences every kind of
diagnostic.
-/

namespace AssocLint

/-- What is silenced: ids everywhere, ids by the place of a mark and ids by the pattern of files. -/
structure Suppressions where
  everywhere : List String := []
  marks : Table (String × Int) (List String) := {}
  files : Table String (List String) := {}

namespace Suppressions

/-- The id that stands for every id. -/
def anyId : String := "*"

def idsCover (ids : List String) (id : String) : Bool :=
  ids.contains id || ids.contains anyId

/-- Whether a pattern describes a file: by its name, by the end of its name or as a glob. -/
def patternCovers (pattern file : String) : Bool :=
  file == pattern || pattern.toList.isSuffixOf file.toList || Glob.fits pattern file

/-! ## Registering -/

/-- Adds an id to those of a key. -/
def addId (id : String) (ids? : Option (List String)) : List String :=
  (ids?.getD []).insert id

def addEverywhere (suppressions : Suppressions) (id : String) : Suppressions :=
  { suppressions with everywhere := suppressions.everywhere.insert id }

/-- Silences an id near a line. -/
def addMark (suppressions : Suppressions) (mark : SuppressionMark) : Suppressions :=
  { suppressions with marks := suppressions.marks.adjust (mark.file, mark.line) (addId mark.id) }

def addFiles (suppressions : Suppressions) (id pattern : String) : Suppressions :=
  { suppressions with files := suppressions.files.adjust pattern (addId id) }

def addCrate (suppressions : Suppressions) (crate : Crate) : Suppressions :=
  crate.marks.foldl addMark suppressions

/-! ## Asking -/

/-- Whether a mark on a given line of a file covers an id. -/
def lineCovers (suppressions : Suppressions) (id file : String) (line : Int) : Bool :=
  idsCover ((suppressions.marks.get? (file, line)).getD []) id

def covers (suppressions : Suppressions) (diagnostic : Diagnostic) : Bool :=
  let id := diagnostic.id
  let location := diagnostic.location
  idsCover suppressions.everywhere id ||
    suppressions.lineCovers id location.file location.line ||
    suppressions.lineCovers id location.file (location.line - 1) ||
    suppressions.files.entries.any fun entry =>
      idsCover entry.2 id && patternCovers entry.1 location.file

def keep (suppressions : Suppressions) (diagnostics : List Diagnostic) : List Diagnostic :=
  diagnostics.filter (!suppressions.covers ·)

end Suppressions
end AssocLint
