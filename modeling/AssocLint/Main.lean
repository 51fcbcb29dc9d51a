import AssocLint.CommandLine

/-!
# The program

Reads the files that a command line names, answers it and carries the outcome out. All decisions
are made by `CommandLine.run`.
-/

namespace AssocLint
namespace Program

def fileError : IO.Error → FileError
  | .noFileOrDirectory .. => .missing
  | .alreadyExists .. => .alreadyExists
  | .inappropriateType _ code _ => if code == 20 then .notDirectory else .isDirectory
  | .permissionDenied _ code _ => ⟨code.toNat, "Permission denied"⟩
  | error => ⟨5, toString error⟩

/-- The names of the files that a command line may read. -/
def inputs (words : List String) : List String :=
  match Request.ofWords words with
  | .ok (.check request) => CommandLine.defaultConfig :: request.config.toList ++ request.dumps
  | .ok (.dump file _) => [file]
  | _ => []

def readFile (name : PathName) : IO (PathName × Except FileError (List UInt8)) := do
  try
    let bytes ← IO.FS.readBinFile name.render
    return (name, .ok bytes.toList)
  catch error =>
    return (name, .error (fileError error))

/-- Whether a file was found, be it readable or not. -/
def isFound : Except FileError (List UInt8) → Bool
  | .ok _ => true
  | .error error => error ∉ [.missing, .notDirectory, .isDirectory]

/-- The home directory of the user, under the name that stands for it. -/
def home (own : Option String) (part : String) : PathName :=
  match own with
  | some directory => if part == "~" then .ofString directory else { parts := [part] }
  | none => { parts := [part] }

/-- Reads the files that a command line may read. Whether a file can be written is found out when
it is written. -/
def readFiles (words : List String) : IO Files := do
  let contents ← (inputs words).mapM fun file => readFile (PathName.ofString file)
  let read name := (contents.lookup name).getD (.error .missing)
  return { Files.ofRead (← IO.currentDir).toString read with
    home := home (← IO.getEnv "HOME")
    isFile := fun name => .ok (isFound (read name)) }

/-- Opens a file for writing, in directories that are made where they are missing. -/
def openFile (name : PathName) : IO IO.FS.Handle := do
  IO.FS.createDirAll name.parent.render
  IO.FS.Handle.mk name.render .write

def fill (file : IO.FS.Handle) (text : String) : IO Unit := do
  file.putStr text
  file.flush

/-- Writes a file, and answers with what went wrong. Once the file is open its name is not told any
more. -/
def writeFile (name : PathName) (text : String) : IO (Option String) := do
  match ← (openFile name).toBaseIO with
  | .error error => return some ((fileError error).render name)
  | .ok file =>
    match ← (fill file text).toBaseIO with
    | .error error => return some (fileError error).describe
    | .ok () => return none

/-- Writes the file of an outcome, where there is one, and ends with a status. -/
def deliver (written : Option (PathName × String)) (status : UInt32) : IO UInt32 := do
  let problem ← match written with
    | none => pure none
    | some (name, text) => writeFile name text
  match problem with
  | none => return status
  | some message =>
    (← IO.getStderr).putStr (CommandLine.failLogged message).errors
    return 2

def perform (outcome : Outcome) : IO UInt32 := do
  (← IO.getStdout).putStr outcome.output
  (← IO.getStderr).putStr outcome.errors
  match outcome.ending with
  | .status code => deliver outcome.written (UInt32.ofNat code)
  | .crash fault =>
    IO.eprintln fault.message
    return 1

end Program
end AssocLint

def main (words : List String) : IO UInt32 := do
  let files ← AssocLint.Program.readFiles words
  AssocLint.Program.perform (AssocLint.CommandLine.run files words)
