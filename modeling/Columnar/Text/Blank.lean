/-!
# `Columnar.Text.Blank` — white space

The characters with the Unicode property White_Space, and texts trimmed of them.
-/

namespace Columnar.Text

/-- The code points with the Unicode property White_Space. -/
def isBlank (c : Char) : Bool :=
  let n := c.toNat
  (0x09 ≤ n && n ≤ 0x0D) || n == 0x20 || n == 0x85 || n == 0xA0 || n == 0x1680
    || (0x2000 ≤ n && n ≤ 0x200A) || n == 0x2028 || n == 0x2029 || n == 0x202F
    || n == 0x205F || n == 0x3000

/-- The text without the white space in front of it. -/
def trimStart (cs : List Char) : List Char := cs.dropWhile isBlank

/-- The text without the white space around it. -/
def trim (cs : List Char) : List Char :=
  (trimStart (trimStart cs).reverse).reverse

end Columnar.Text
