/-!
# Blanks

Which characters count as white space around a text, and trimming.  The set is
the Unicode property White_Space, so a full-width space is trimmed like an
ordinary one.  Letters are compared after folding ASCII capitals only: a text
in another script is compared as it stands.
-/

namespace Almanac.Text

/-- The 25 characters with the Unicode property White_Space. -/
def isBlank (c : Char) : Bool :=
  let n := c.toNat
  (0x09 ≤ n && n ≤ 0x0D) || n == 0x20 || n == 0x85 || n == 0xA0 || n == 0x1680
    || (0x2000 ≤ n && n ≤ 0x200A) || n == 0x2028 || n == 0x2029 || n == 0x202F
    || n == 0x205F || n == 0x3000

def trimStart (cs : List Char) : List Char := cs.dropWhile isBlank

def trimEnd (cs : List Char) : List Char := (cs.reverse.dropWhile isBlank).reverse

def trim (cs : List Char) : List Char := trimEnd (trimStart cs)

def lower (cs : List Char) : List Char := cs.map Char.toLower

/-- The form in which names typed by a person are compared: trimmed, with ASCII
capitals made small. -/
def folded (s : String) : String := String.ofList (lower (trim s.toList))

example : trim "\u3000 solar\n".toList = "solar".toList := by decide
example : folded " MALE\t" = "male" := by decide

end Almanac.Text
