/-!
# White space

The property `White_Space` of the Unicode Character Database: the characters that
`Text.trim` takes off the ends of a text. It is wider than `Char.isWhitespace`, which
knows the ASCII blanks only.
-/

namespace WorkflowPolicy.Text

/-- **The characters with the property `White_Space`**: the five ASCII controls from tab to
carriage return, the space, the next-line control, the no-break space, and the separators
of the three categories `Zs`, `Zl` and `Zp`. -/
def isBlank (c : Char) : Bool :=
  let n := c.toNat
  (0x09 ≤ n && n ≤ 0x0D) || n == 0x20 || n == 0x85 || n == 0xA0 || n == 0x1680 ||
    (0x2000 ≤ n && n ≤ 0x200A) || n == 0x2028 || n == 0x2029 || n == 0x202F ||
    n == 0x205F || n == 0x3000

/-- The end of a list from its first non-blank character on. -/
def dropBlank (s : List Char) : List Char := s.dropWhile isBlank

/-- **Trimming**: the text without the blanks at its two ends. -/
def trim (s : List Char) : List Char := (dropBlank (dropBlank s).reverse).reverse

end WorkflowPolicy.Text
