import MapAlgebra.Text.WordRanges
import MapAlgebra.Text.PrintableRanges

/-!
# Word characters and printable characters

A word character is a letter or number of any script or the underscore. Printable characters are
those that a quoted text shows as themselves.
-/

namespace MapAlgebra.Text

private def within (ranges : List (Nat × Nat)) (n : Nat) : Bool :=
  ranges.any fun range => range.1 ≤ n && n ≤ range.2

/-- A letter, a number or the underscore. -/
def isWord (c : Char) : Bool :=
  let n := c.toNat
  if n < 128 then c.isAlphanum || c == '_' else within wordRanges n

def isPrintable (c : Char) : Bool :=
  let n := c.toNat
  if n < 128 then 32 ≤ n && n < 127 else within printableRanges n

end MapAlgebra.Text
