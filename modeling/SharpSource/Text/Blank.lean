/-!
# Blank characters

A character is **blank** when it is white space for the Unicode standard: the
property `White_Space`, twenty-five characters in eight ranges. Names,
directives, attributes and types are all trimmed of blanks at their ends, and
an indentation is made of nothing else.
-/

namespace SharpSource.Text

/-- The characters with the property `White_Space`. -/
def isBlank (c : Char) : Bool :=
  let n := c.toNat
  n == 0x20 || (0x9 ≤ n && n ≤ 0xd) || n == 0x85 || n == 0xa0 || n == 0x1680 ||
    (0x2000 ≤ n && n ≤ 0x200a) || n == 0x2028 || n == 0x2029 || n == 0x202f ||
    n == 0x205f || n == 0x3000

end SharpSource.Text
