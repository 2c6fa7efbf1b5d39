/-!
# Text

Source text is a list of characters. Blanks are the separators and control characters that
Unicode counts as white space, and a line ends at any of its line boundaries.
-/

namespace MapAlgebra

/-- Source text: expressions, script lines, names of variables and files. -/
abbrev Text := List Char

/-- A text as a string, for messages. -/
abbrev str : Text → String := String.ofList

namespace Text

/-- White space of any script, line boundaries and the information separators included. -/
def isBlank (c : Char) : Bool :=
  let n := c.toNat
  (9 ≤ n && n ≤ 13) || (28 ≤ n && n ≤ 32) || n == 0x85 || n == 0xA0 || n == 0x1680 ||
    (0x2000 ≤ n && n ≤ 0x200A) || n == 0x2028 || n == 0x2029 || n == 0x202F || n == 0x205F ||
    n == 0x3000

def trimLeft (text : Text) : Text :=
  text.dropWhile isBlank

def trimRight (text : Text) : Text :=
  (text.reverse.dropWhile isBlank).reverse

/-- The text without the blanks at its two ends. -/
def trim (text : Text) : Text :=
  trimLeft (trimRight text)

/-- The text without any blank. -/
def squeeze (text : Text) : Text :=
  text.filter fun c => !isBlank c

/-- The characters before the first that fails `keep`, and the rest. -/
def span (keep : Char → Bool) (text : Text) : Text × Text :=
  (text.takeWhile keep, text.dropWhile keep)

theorem length_dropWhile_le {α : Type} (keep : α → Bool) (list : List α) :
    (list.dropWhile keep).length ≤ list.length :=
  (List.dropWhile_sublist keep).length_le

/-- The maximal runs of characters that are not blank. -/
def words (text : Text) : List Text :=
  match _h : text.dropWhile isBlank with
  | [] => []
  | c :: rest =>
      (c :: rest.takeWhile fun d => !isBlank d) :: words (rest.dropWhile fun d => !isBlank d)
termination_by text.length
decreasing_by
  have h1 := length_dropWhile_le isBlank text
  have h2 := length_dropWhile_le (fun d => !isBlank d) rest
  rw [_h] at h1
  simp at h1
  omega

/-- Characters that end a line on their own. -/
def isLineBreak (c : Char) : Bool :=
  let n := c.toNat
  (10 ≤ n && n ≤ 13) || (28 ≤ n && n ≤ 30) || n == 0x85 || n == 0x2028 || n == 0x2029

/-- The rest after one line boundary; a carriage return takes a following line feed with it. -/
def skipLineBreak : Text → Text
  | '\r' :: '\n' :: rest => rest
  | _ :: rest => rest
  | [] => []

theorem length_skipLineBreak_le (text : Text) :
    (skipLineBreak text).length ≤ text.length - 1 := by
  unfold skipLineBreak
  split <;> simp

/-- The lines of a text without their boundaries. A boundary at the very end starts no line. -/
def lines (text : Text) : List Text :=
  match text with
  | [] => []
  | c :: rest =>
      ((c :: rest).takeWhile fun d => !isLineBreak d) ::
        lines (skipLineBreak ((c :: rest).dropWhile fun d => !isLineBreak d))
termination_by text.length
decreasing_by
  have h1 := length_dropWhile_le (fun d => !isLineBreak d) (c :: rest)
  have h2 := length_skipLineBreak_le ((c :: rest).dropWhile fun d => !isLineBreak d)
  simp only [List.length_cons] at h1 h2 ⊢
  omega

/-- Whether `part` occurs in the text. -/
def hasPart (part : Text) : Text → Bool
  | [] => part.isEmpty
  | c :: rest => part.isPrefixOf (c :: rest) || hasPart part rest

/-- Every occurrence of `old`, taken from the left and without overlap, replaced by `new`. -/
def replace (old new : Text) (text : Text) : Text :=
  match text with
  | [] => []
  | c :: rest =>
      if old.isPrefixOf (c :: rest) then
        new ++ replace old new (rest.drop (old.length - 1))
      else
        c :: replace old new rest
termination_by text.length
decreasing_by all_goals simp; try omega

/-- Every line end `\r\n` or `\r` becomes the line feed `\n`. -/
def unifyLineFeeds : Text → Text
  | '\r' :: '\n' :: rest => '\n' :: unifyLineFeeds rest
  | '\r' :: rest => '\n' :: unifyLineFeeds rest
  | c :: rest => c :: unifyLineFeeds rest
  | [] => []

end Text

end MapAlgebra
