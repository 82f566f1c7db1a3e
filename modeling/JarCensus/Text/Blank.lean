/-!
# Blank characters

The characters with the Unicode property `White_Space`, and text trimmed of them.
-/

namespace JarCensus.Text

/-- Whether the character has the property `White_Space`. -/
def isBlank (c : Char) : Bool :=
  let code := c.toNat
  (9 ≤ code && code ≤ 13) || code == 0x20 || code == 0x85 || code == 0xA0 ||
    code == 0x1680 || (0x2000 ≤ code && code ≤ 0x200A) || code == 0x2028 ||
    code == 0x2029 || code == 0x202F || code == 0x205F || code == 0x3000

/-- The text without the blanks at its end. -/
def trimEnd (chars : List Char) : List Char :=
  (chars.reverse.dropWhile isBlank).reverse

/-- The text without the blanks at both ends. -/
def trim (chars : List Char) : List Char :=
  trimEnd (chars.dropWhile isBlank)

end JarCensus.Text
