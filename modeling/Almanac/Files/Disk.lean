import Almanac.Files.Basic
import Almanac.Files.Path
import Almanac.Table

/-!
# Disks

A tree of directories and files, and the actions that change it.  An action that fails
leaves behind what it has changed before.  A name has 255 bytes at most, and a path
fewer than 4096.

There are no links and no special files: a file has one place, and `..` leads to the
directory in which a directory stands.
-/

namespace Almanac

inductive DiskNode where
  | directory
  | file (bytes : ByteArray)

/-- A place on a disk: the names from there back to the root. -/
abbrev Place := List String

def Place.step (p : Place) (name : String) : Place :=
  if name = ".." then p.tail else if Path.isStep name then name :: p else p

/-- A disk; its root is a directory. -/
structure Disk where
  nodes : Table Place DiskNode := .empty
  /-- The current directory. -/
  current : Place := []

namespace Disk

def node? (d : Disk) : Place → Option DiskNode
  | [] => some .directory
  | p => d.nodes.get? p

/-- Whether no directory has room for a name. -/
def isTooLong (name : String) : Bool := 255 < name.utf8ByteSize

/-- Where the names lead.  Every place on the way has to be a directory; at the last one
there may be anything, or nothing. -/
def walk (d : Disk) (p : Place) : List String → Except FileFault Place
  | [] => .ok p
  | name :: rest =>
    match d.node? p with
    | none => .error .notFound
    | some (.file _) => .error .notDirectory
    | some .directory =>
      if isTooLong name then .error .nameTooLong else d.walk (p.step name) rest

/-- Why a path cannot be walked at all. -/
def refusal? (path : Path) : Option FileFault :=
  if path.names.any fun name => name.toList.contains '\x00' then some .nameWithNul
  else if 4096 ≤ path.size then some .nameTooLong
  else none

def start (d : Disk) (path : Path) : Place := if path.absolute then [] else d.current

/-- The place of a path; the path without names has none. -/
def locate (d : Disk) (path : Path) : Except FileFault Place :=
  match refusal? path with
  | some fault => .error fault
  | none =>
    if path.names.isEmpty then .error .notFound else d.walk (d.start path) path.names

def bytesAt (d : Disk) (p : Place) : Except FileFault ByteArray :=
  match d.node? p with
  | none => .error .notFound
  | some .directory => .error .isDirectory
  | some (.file bytes) => .ok bytes

def read (d : Disk) (path : Path) : Except FileFault ByteArray :=
  match d.locate path with
  | .error fault => .error fault
  | .ok p => d.bytesAt p

def files (d : Disk) : Files := fun path => d.read (.ofText path)

def filePlaces (d : Disk) : List Place :=
  d.nodes.entries.filterMap fun
    | (name :: p, .file _) => some (name :: p)
    | _ => none

def put (d : Disk) (p : Place) (n : DiskNode) : Disk := { d with nodes := d.nodes.put p n }

def erase (d : Disk) (p : Place) : Disk := { d with nodes := d.nodes.erase p }

/-! ## Actions -/

abbrev Action := EStateM FileFault Disk

namespace Action

def ofExcept {α : Type} : Except FileFault α → Action α
  | .ok a => pure a
  | .error fault => throw fault

/-- Makes the directories that the names lead through, as far as they are missing.  A file
on the way to the last of them cannot be walked through; but once a directory had to be
`made`, the next one is to be made as well. -/
def createAlong (p : Place) (made : Bool) : List String → Action Unit
  | [] => pure ()
  | name :: rest => do
    let next := p.step name
    match (← get).node? next with
    | some .directory => createAlong next made rest
    | some (.file _) => throw (if made || rest.isEmpty then .taken else .notDirectory)
    | none =>
      if isTooLong name then throw .nameTooLong
      modify (·.put next .directory)
      createAlong next true rest

def createDirectories (path : Path) : Action Unit := do
  match refusal? path with
  | some fault => throw fault
  | none => createAlong ((← get).start path) false path.names

def writeAt (p : Place) (bytes : ByteArray) : Action Unit := do
  match (← get).node? p with
  | some .directory => throw .isDirectory
  | _ => modify (·.put p (.file bytes))

def write (path : Path) (bytes : ByteArray) : Action Unit := do
  writeAt (← ofExcept ((← get).locate path)) bytes

/-- Moves a file to another path, in place of the file that is there. -/
def rename (source target : Path) : Action Unit := do
  let p ← ofExcept ((← get).locate source)
  let q ← ofExcept ((← get).locate target)
  let bytes ← ofExcept ((← get).bytesAt p)
  writeAt q bytes
  if p ≠ q then modify (·.erase p)

end Action

end Disk

end Almanac
