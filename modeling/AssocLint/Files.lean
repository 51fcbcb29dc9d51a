import AssocLint.Files.PathName
import AssocLint.Text.Quoted

/-!
# Files

`Files` is what a run can learn about files: which names are those of files, the bytes of each or
why it cannot be read, whether a file could be opened for writing, and whether an output that is
open takes all that is written to it. A run never changes it; what is to be written is part of its
outcome. The working directory exists, and every user whose home is asked for is known.
-/

namespace AssocLint

/-- Why a file cannot be used: a number and its text. -/
structure FileError where
  number : Nat
  text : String
  deriving DecidableEq, Repr

namespace FileError

def missing : FileError := ⟨2, "No such file or directory"⟩

def alreadyExists : FileError := ⟨17, "File exists"⟩

/-- The name leads through something that is no directory. -/
def notDirectory : FileError := ⟨20, "Not a directory"⟩

def isDirectory : FileError := ⟨21, "Is a directory"⟩

/-- An error as messages show it where no name belongs to it. -/
def describe (error : FileError) : String :=
  "[Errno " ++ toString error.number ++ "] " ++ error.text

/-- An error about a file as messages show it. -/
def render (error : FileError) (name : PathName) : String :=
  error.describe ++ ": " ++ Text.quoted name.render

end FileError

/-- What can be learned about files. -/
structure Files where
  /-- What the working directory is called. -/
  directory : String
  /-- The home directory that the first part of a name stands for where it begins with a tilde. -/
  home : String → PathName
  /-- Whether something is a file, be it readable or not. The system may refuse to tell. -/
  isFile : PathName → Except FileError Bool
  /-- The bytes of a file. -/
  read : PathName → Except FileError (List UInt8)
  /-- Why a file cannot be opened for writing, and the name that stands in the way. Directories that
  are missing on the way to the file are made first. -/
  refusal? : PathName → Option (FileError × PathName)
  /-- Why a text is not written in full to an output that is open, and what is written of it all the
  same. The standard output has no name. -/
  shortfall? : Option PathName → String → Option (FileError × String)

namespace Files

/-- Files of which each can be read or is not there, with outputs that never fail. No home directory
is known, so that names stand for themselves. -/
def ofRead (directory : String) (read : PathName → Except FileError (List UInt8)) : Files where
  directory := directory
  home part := { parts := [part] }
  isFile name := .ok (read name).toOption.isSome
  read := read
  refusal? _ := none
  shortfall? _ _ := none

variable (files : Files)

/-- The name of something in the working directory, from the root on. -/
def inDirectory (part : String) : PathName :=
  let directory := PathName.ofString files.directory
  { directory with parts := directory.parts ++ [part] }

/-- A name with the home directory that it begins with. -/
def expand (name : PathName) : PathName :=
  match name.parts with
  | first :: rest =>
    if name.root.isEmpty && first.toList.head? == some '~' then
      { files.home first with parts := (files.home first).parts ++ rest }
    else name
  | [] => name

end Files
end AssocLint
