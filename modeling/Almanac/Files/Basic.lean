/-!
# Files

Files as a reader sees them: a path leads to the bytes of a file, or there is a reason
why it does not.  A path at which nothing is, one that goes on after a file, and one that
cannot be walked lead nowhere; one that leads to a directory leads somewhere.
-/

namespace Almanac

inductive FileFault where
  | notFound
  /-- Something else stands where a directory is to be made. -/
  | taken
  | isDirectory
  | notDirectory
  /-- A name, or a whole path, has more bytes than there may be. -/
  | nameTooLong
  /-- A name holds the character that ends names. -/
  | nameWithNul
  | notText
  deriving Repr, DecidableEq

def FileFault.message : FileFault → String
  | .notFound => "No such file or directory (os error 2)"
  | .taken => "File exists (os error 17)"
  | .isDirectory => "Is a directory (os error 21)"
  | .notDirectory => "Not a directory (os error 20)"
  | .nameTooLong => "File name too long (os error 36)"
  | .nameWithNul => "file name contained an unexpected NUL byte"
  | .notText => "stream did not contain valid UTF-8"

/-- What can be read: for each path the bytes of a file. -/
abbrev Files := String → Except FileFault ByteArray

namespace Files

/-- Whether a path leads to anything, be it a directory. -/
def has (files : Files) (path : String) : Bool :=
  match files path with
  | .error .isDirectory => true
  | .error _ => false
  | .ok _ => true

def text (files : Files) (path : String) : Except FileFault String :=
  match files path with
  | .error fault => .error fault
  | .ok bytes =>
    match String.fromUTF8? bytes with
    | some s => .ok s
    | none => .error .notText

end Files

end Almanac
