/-!
# Blank characters

Blanks separate the words of a declaration and are stripped from lines and settings. They are the
space separators of Unicode 14 together with the control characters that end lines, paragraphs,
groups or records; the zero-width space and the byte order mark are not blanks.
-/

namespace Lineage.Unicode

/-- A blank: a space separator, a tab, or a control character that ends a line or a record. -/
def isBlank (c : Char) : Bool :=
  let code := c.toNat
  (0x09 ≤ code && code ≤ 0x0D) || (0x1C ≤ code && code ≤ 0x20) || code == 0x85 || code == 0xA0 ||
    code == 0x1680 || (0x2000 ≤ code && code ≤ 0x200A) || code == 0x2028 || code == 0x2029 ||
    code == 0x202F || code == 0x205F || code == 0x3000

end Lineage.Unicode
