/-!
# Names of files

A name leads from a root, or from the working directory, through names of directories. Empty parts
and single dots are left out when a name is read; double dots are kept, since what they mean is
decided by the directories that they lead through.
-/

namespace AssocLint

structure PathName where
  /-- The slashes of an absolute name; empty where the name begins at the working directory. -/
  root : String := ""
  parts : List String := []
  deriving DecidableEq, Repr

namespace PathName

/-- The root of a written name: two slashes at its start count, any other number is one. -/
def rootOf (text : String) : String :=
  match (text.toList.takeWhile (· == '/')).length with
  | 0 => ""
  | 2 => "//"
  | _ => "/"

def ofString (text : String) : PathName where
  root := rootOf text
  parts := (text.splitOn "/").filter fun part => !part.isEmpty && part != "."

def render (name : PathName) : String :=
  if name.root.isEmpty && name.parts.isEmpty then "."
  else name.root ++ "/".intercalate name.parts

/-- The name without its last part. A name without parts is its own parent. -/
def parent (name : PathName) : PathName :=
  { name with parts := name.parts.dropLast }

/-- The parts of a name that stays inside the working directory, without double dots. -/
def inside? (name : PathName) : Option (List String) :=
  if name.root.isEmpty then
    name.parts.foldlM
      (fun place part =>
        if part != ".." then some (place ++ [part])
        else if place.isEmpty then none
        else some place.dropLast)
      []
  else none

end PathName
end AssocLint
