import MapAlgebra.Text.Basic
import MapAlgebra.Text.Word

/-!
# Quoted text

A text is shown between single quotes, or between double quotes when it holds a single quote and
no double one. The quote in use, the backslash and characters that cannot be printed are escaped.
-/

namespace MapAlgebra.Text

/-- The low `width` hexadecimal digits of a number. -/
def hexDigits : (width n : Nat) → Text
  | 0, _ => []
  | width + 1, n => hexDigits width (n / 16) ++ [Nat.digitChar (n % 16)]

/-- One character inside quotes. -/
def escaped (quote c : Char) : Text :=
  if c == quote || c == '\\' then ['\\', c]
  else if c == '\t' then ['\\', 't']
  else if c == '\n' then ['\\', 'n']
  else if c == '\r' then ['\\', 'r']
  else if isPrintable c then [c]
  else if c.toNat < 0x100 then '\\' :: 'x' :: hexDigits 2 c.toNat
  else if c.toNat < 0x10000 then '\\' :: 'u' :: hexDigits 4 c.toNat
  else '\\' :: 'U' :: hexDigits 8 c.toNat

/-- The text between quotes. -/
def quoted (text : Text) : Text :=
  let quote := if text.contains '\x27' && !text.contains '\x22' then '\x22' else '\x27'
  quote :: text.flatMap (escaped quote) ++ [quote]

end MapAlgebra.Text
