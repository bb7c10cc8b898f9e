/-!
# Directories of texts

A `Directory` holds texts by path. Two paths that lead to the same place are the
same: empty names and single dots stay where they are, and two dots go back up.
-/

namespace SchemaCompiler
namespace Loading

/-- The pieces of a path between slashes. -/
def pathPieces (path : String) : List String :=
  (path.toList.splitOn '/').map String.ofList

/-- The place reached by one more piece of a path, innermost name first. -/
def enter (place : List String) (piece : String) : List String :=
  match piece with
  | "" | "." => place
  | ".." =>
      match place with
      | [] => [".."]
      | ".." :: outer => ".." :: ".." :: outer
      | "/" :: _ => ["/"]
      | _ :: outer => outer
  | name => name :: place

/-- Names on the way to a place, a slash in front of those that begin at the root. -/
def placeOf (path : String) : List String :=
  let start := if path.toList.head? = some '/' then ["/"] else []
  ((pathPieces path).foldl enter start).reverse

/-- The path ends with a name, so it may lead to a file. -/
def namesFile (path : String) : Bool :=
  match (pathPieces path).getLast? with
  | some piece => !(["", ".", ".."].contains piece)
  | none => false

/-- Texts by place. -/
structure Directory where
  files : List (List String × String) := []
deriving Repr, DecidableEq, Inhabited

namespace Directory

/-- The text of a file. -/
def read? (directory : Directory) (path : String) : Option String :=
  if namesFile path then directory.files.lookup (placeOf path) else none

/-- The directory with a text at a path. -/
def write (directory : Directory) (path text : String) : Directory where
  files := (placeOf path, text) :: directory.files.filter fun (place, _) => place ≠ placeOf path

/-- The directory with many texts. -/
def writeAll (directory : Directory) (texts : List (String × String)) : Directory :=
  texts.foldl (fun written (path, text) => written.write path text) directory

/-- Paths of all files below a path, in order. -/
def filesBelow (directory : Directory) (path : String) : List String :=
  let below := directory.files.filter fun (place, _) =>
    (placeOf path).isPrefixOf place && placeOf path ≠ place
  (below.map fun (place, _) => String.intercalate "/" place).mergeSort (· ≤ ·)

end Directory
end Loading
end SchemaCompiler
