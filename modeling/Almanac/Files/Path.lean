/-!
# Paths

A path is a row of names, walked from the root or from the current directory.  Names
are kept as they stand between the slashes: an empty name and `.` stay where they are,
`..` goes back, and each of them asks for a directory to stand in.
-/

namespace Almanac

structure Path where
  /-- Whether the walk begins at the root. -/
  absolute : Bool
  names : List String
  deriving Repr, DecidableEq

namespace Path

def pieces : List Char → List (List Char)
  | [] => [[]]
  | c :: cs =>
    if c = '/' then [] :: pieces cs
    else
      match pieces cs with
      | [] => [[c]]
      | p :: ps => (c :: p) :: ps

/-- The path that a text spells; the empty text spells the path without names. -/
def ofText (s : String) : Path :=
  match s.toList with
  | [] => ⟨false, []⟩
  | c :: cs => ⟨c = '/', (pieces (c :: cs)).map String.ofList⟩

/-- The number of bytes that a path is written with, slashes included. -/
def size (p : Path) : Nat :=
  p.names.foldl (fun n name => n + name.utf8ByteSize + 1) 0 - 1

def isStep (name : String) : Bool := name ≠ "" ∧ name ≠ "."

/-- The last name of a path and the folder in which it stands; a path that ends by
going back has neither. -/
def split? (p : Path) : Option (Path × String) :=
  match (p.names.filter isStep).reverse with
  | [] => none
  | ".." :: _ => none
  | name :: front => some (⟨p.absolute, front.reverse⟩, name)

def child (folder : Path) (name : String) : Path := ⟨folder.absolute, folder.names ++ [name]⟩

/-- A name behind the text of a folder, with one slash between them. -/
def join (folder name : String) : String :=
  match folder.toList.getLast? with
  | none | some '/' => folder ++ name
  | some _ => folder ++ "/" ++ name

/-- A name without what follows its last full stop; a full stop in front does not
count. -/
def stem (name : String) : String :=
  match name.toList.reverse.dropWhile (· ≠ '.') with
  | '.' :: c :: cs => String.ofList (c :: cs).reverse
  | _ => name

example : (ofText "/a//b.toml").split? = some (⟨true, ["a"]⟩, "b.toml") := by decide
example : (ofText "/a//b.toml").size = 10 := by decide
example : join "/etc" "a" = "/etc/a" ∧ join "/etc/" "a" = "/etc/a" := by decide
example : stem "x.y.conf" = "x.y" ∧ stem ".x" = ".x" ∧ stem "x" = "x" := by decide

end Path

end Almanac
