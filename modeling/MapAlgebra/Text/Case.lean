import MapAlgebra.Text.Basic
import MapAlgebra.Text.CaseTables

/-!
# Letter case

Upper case forms, lower case forms, and the comparison of letters that ignores their case. One
letter may have an upper case of several letters, so only the comparison works letter by letter.
-/

namespace MapAlgebra.Text

namespace CaseRun

/-- Whether the run maps the code point. -/
def covers (run : CaseRun) (n : Nat) : Bool :=
  run.first ≤ n && n ≤ run.last && (n - run.first) % run.step == 0

end CaseRun

private def shifted (runs : List CaseRun) (c : Char) : Char :=
  match runs.find? fun run => run.covers c.toNat with
  | some run => Char.ofNat (Int.toNat (c.toNat + run.shift))
  | none => c

/-- The one letter that is the lower case of `c`; letters without one stay as they are. -/
def lowerChar (c : Char) : Char :=
  if c.toNat < 128 then c.toLower else shifted lowerRuns c

/-- A letter beyond ASCII is its own lower case, or a run of letters gives it. -/
theorem lowerChar_eq_self_or {c : Char} (h : ¬ c.toNat < 128) :
    lowerChar c = c ∨ ∃ run ∈ lowerRuns, run.covers c.toNat ∧
      lowerChar c = Char.ofNat (Int.toNat (c.toNat + run.shift)) := by
  unfold lowerChar shifted
  rw [if_neg h]
  split
  next run hfound =>
    have hcovers : run.covers c.toNat := by simpa using List.find?_some hfound
    exact .inr ⟨run, List.mem_of_find?_eq_some hfound, hcovers, rfl⟩
  next => exact .inl rfl

/-- The upper case of one letter. -/
def upperChar (c : Char) : Text :=
  if c.toNat < 128 then
    [c.toUpper]
  else
    match upperExpansions.find? fun entry => entry.1 == c.toNat with
    | some entry => entry.2.map Char.ofNat
    | none => [shifted upperRuns c]

/-- The upper case of a text, the key under which names are kept. -/
def upper (text : Text) : Text :=
  text.flatMap upperChar

/-- Whether a letter has another case. -/
def isCased (c : Char) : Bool :=
  lowerChar c != c || upperChar c != [c]

/-- Whether `c` may stand where `wanted` is asked for when case is ignored: the two agree in
lower case or their lower case letters share an upper case. -/
def sameLetter (wanted c : Char) : Bool :=
  if isCased wanted then
    let low := lowerChar wanted
    let other := lowerChar c
    low == other ||
      match caseKin.find? fun entry => entry.1 == low.toNat with
      | some entry => entry.2.contains other.toNat
      | none => false
  else
    wanted == c

/-- The rest of the text behind `part`, when the text begins with it up to the case of letters. -/
def dropCaseless? : (part text : Text) → Option Text
  | [], text => some text
  | _ :: _, [] => none
  | wanted :: part, c :: text => if sameLetter wanted c then dropCaseless? part text else none

theorem length_le_of_dropCaseless? {part text rest : Text}
    (h : dropCaseless? part text = some rest) : part.length + rest.length = text.length := by
  fun_induction dropCaseless? part text with
  | case1 text => simp_all
  | case2 => simp at h
  | case3 wanted part c text _ ih =>
      have := ih h
      simp only [List.length_cons]
      omega
  | case4 => simp at h

/-- Upper case of the ASCII letters; others stay. It decides keywords whose letters are all ASCII. -/
def upperAscii (text : Text) : Text :=
  text.map Char.toUpper

/-- Lower case of the ASCII letters; others stay. It decides file suffixes and function names. -/
def lowerAscii (text : Text) : Text :=
  text.map Char.toLower

/-- Whether the text ends in `ending` up to the case of ASCII letters. -/
def endsCaseless (ending text : Text) : Bool :=
  ending.isSuffixOf (lowerAscii text)

end MapAlgebra.Text
