import AssocLint.Files

/-!
# File trees

A tree of files in memory, seen from its top as the working directory. Outside of the tree there
are directories, but none of them is known to hold anything.
-/

namespace AssocLint

/-- Files by their places below the working directory. -/
structure FileTree where
  files : List (List String × List UInt8)

namespace FileTree

inductive Node where
  | file (bytes : List UInt8)
  | directory

/-- What stands at a place below the working directory. -/
def node? (tree : FileTree) (place : List String) : Option Node :=
  match tree.files.lookup place with
  | some bytes => some (.file bytes)
  | none =>
    if place.isEmpty || tree.files.any fun file => place.isPrefixOf file.1 then some .directory
    else none

/-- The place that parts of a name lead to from another one. No place stands for a directory outside
of the tree. -/
def follow (tree : FileTree) :
    Option (List String) → List String → Except FileError (Option (List String))
  | place, [] => .ok place
  | none, part :: rest => if part == ".." then follow tree none rest else .error .missing
  | some place, part :: rest =>
    match tree.node? place with
    | some .directory =>
      if part == ".." then
        follow tree (if place.isEmpty then none else some place.dropLast) rest
      else if (tree.node? (place ++ [part])).isSome then follow tree (some (place ++ [part])) rest
      else .error .missing
    | some (.file _) => .error .notDirectory
    | none => .error .missing

/-- What stands under a name. -/
def resolve (tree : FileTree) (name : PathName) : Except FileError Node := do
  let start := if name.root.isEmpty then some [] else none
  match ← tree.follow start name.parts with
  | none => return .directory
  | some place => (tree.node? place).elim (.error .missing) .ok

def read (tree : FileTree) (name : PathName) : Except FileError (List UInt8) :=
  match tree.resolve name with
  | .ok (.file bytes) => .ok bytes
  | .ok .directory => .error .isDirectory
  | .error error => .error error

/-- Why a file cannot be opened for writing. The directories on the way to it come first. -/
def refusal? (tree : FileTree) (name : PathName) : Option (FileError × PathName) :=
  match tree.resolve name.parent with
  | .ok (.file _) => some (.alreadyExists, name.parent)
  | .ok .directory =>
    match tree.resolve name with
    | .ok .directory => some (.isDirectory, name)
    | _ => none
  | .error error => if error == .notDirectory then some (error, name.parent) else none

/-- A tree as a run sees it. -/
def view (tree : FileTree) (directory : String) : Files :=
  { Files.ofRead directory tree.read with refusal? := tree.refusal? }

end FileTree
end AssocLint
