/-
  Blank characters and the trimming of text.

  A character is blank when Unicode gives it the property White_Space.  Command
  lines and their arguments are cut free of blanks at both ends.
-/
set_option autoImplicit false

namespace Chiptune.Text

/-- The characters with the Unicode property White_Space. -/
def isBlank (c : Char) : Bool :=
  let n := c.toNat
  (0x09 ≤ n && n ≤ 0x0D) || n == 0x20 || n == 0x85 || n == 0xA0 || n == 0x1680 ||
    (0x2000 ≤ n && n ≤ 0x200A) || n == 0x2028 || n == 0x2029 || n == 0x202F ||
    n == 0x205F || n == 0x3000

/-- The characters without the blanks they begin and end with. -/
def trimChars (cs : List Char) : List Char :=
  ((cs.dropWhile isBlank).reverse.dropWhile isBlank).reverse

/-- The text without the blanks it begins and ends with. -/
def trim (text : String) : String :=
  String.ofList (trimChars text.toList)

end Chiptune.Text
