import MapAlgebra.Text.Basic

/-!
# Bytes

Text files hold UTF-8. Words of 32 bits are stored with the lowest byte first.
-/

namespace MapAlgebra.Bytes

def ofText (text : Text) : List UInt8 :=
  (String.ofList text).toUTF8.toList

/-- The text that UTF-8 bytes spell, if they do. -/
def toText? (bytes : List UInt8) : Option Text :=
  (String.fromUTF8? ⟨bytes.toArray⟩).map String.toList

/-- The text of a file without a byte order mark. -/
def dropMark : Text → Text
  | '\uFEFF' :: rest => rest
  | text => text

/-- The four bytes of a word. -/
def ofWord (word : UInt32) : List UInt8 :=
  let n := word.toNat
  [.ofNat n, .ofNat (n / 256), .ofNat (n / 65536), .ofNat (n / 16777216)]

def wordOf (b₀ b₁ b₂ b₃ : UInt8) : UInt32 :=
  .ofNat (b₀.toNat + 256 * b₁.toNat + 65536 * b₂.toNat + 16777216 * b₃.toNat)

/-- The words of a run of bytes; up to three bytes at the end that make no word are left out. -/
def toWords : List UInt8 → List UInt32
  | b₀ :: b₁ :: b₂ :: b₃ :: rest => wordOf b₀ b₁ b₂ b₃ :: toWords rest
  | _ => []

theorem toWords_ofWord_append (word : UInt32) (rest : List UInt8) :
    toWords (ofWord word ++ rest) = word :: toWords rest := by
  have bound := word.toNat_lt
  simp only [ofWord, toWords, wordOf, List.cons_append, List.nil_append, List.cons.injEq, and_true]
  apply UInt32.toNat_inj.mp
  simp only [UInt8.toNat_ofNat', UInt32.toNat_ofNat']
  omega

/-- The whole number a word stands for in two's complement. -/
def toInt (word : UInt32) : Int :=
  word.toInt32.toInt

/-- The word that stands for a whole number. -/
def ofInt (n : Int) : UInt32 :=
  (Int32.ofInt n).toUInt32

end MapAlgebra.Bytes
