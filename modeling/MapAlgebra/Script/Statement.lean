import MapAlgebra.Fault
import MapAlgebra.Number.Reading

/-!
# Statements

Each line of a script is one statement: blank, a comment, the head or the end of a loop, or an
assignment.
-/

namespace MapAlgebra.Script

/-- The last value of a loop variable. -/
inductive LoopEnd
  | value (n : Int)
  /-- The number of files that a pattern finds. -/
  | files (pattern : Text)
  deriving DecidableEq, Repr

/-- The line `FOR name = first TO last`. -/
structure LoopHead where
  name : Text
  first : Int
  last : LoopEnd
  deriving DecidableEq, Repr

/-- The line `name = expression`, where directories may stand in front of the name. -/
structure Assignment where
  folder : Option Text
  name : Text
  expression : Text
  deriving DecidableEq, Repr

inductive Statement
  | blank
  | comment (text : Text)
  | loop (head : LoopHead)
  /-- The line `NEXT`, which may repeat the name of the loop variable. -/
  | next (name : Option Text)
  | assign (assignment : Assignment)
  deriving DecidableEq, Repr

/-- Whether the text begins with a word that is written in upper case, in any letter case. -/
def beginsWith (word text : Text) : Bool :=
  word.isPrefixOf (Text.upperAscii text)

/-- Takes blanks off the front of a text, at least one. -/
def dropBlanks? (text : Text) : Option Text :=
  if text.head?.any Text.isBlank then some (Text.trimLeft text) else none

/-- Takes a word off the front of a text that is written in upper case, in any letter case. -/
def dropWord? (word text : Text) : Option Text :=
  if beginsWith word text then some (text.drop word.length) else none

def remWord : Text := ['R', 'E', 'M']

def isComment (text : Text) : Bool :=
  let text := Text.trim text
  Text.upperAscii text == remWord || beginsWith (remWord ++ [' ']) text ||
    beginsWith ['/', '/'] text || beginsWith ['\x27'] text

/-- What a comment says. -/
def commentText (text : Text) : Text :=
  match [remWord, ['/', '/'], ['\x27']].findSome? fun mark => dropWord? mark text with
  | some rest => Text.trim rest
  | none => text

/-- Whether a line is the head of a loop, whatever its bounds. -/
def isLoopHead (text : Text) : Bool :=
  beginsWith ['F', 'O', 'R', ' '] (Text.trim text)

/-- The end of a loop head behind the word `TO`. Blanks alone count as the last of them. -/
def lastText? (text : Text) : Option Text := do
  let rest ← dropBlanks? text
  if rest.isEmpty then
    (text.drop 1).reverse.find? (· != '\n') |>.map fun c => [c]
  else
    let rest := Text.trimRight rest
    if rest.contains '\n' then none else some rest

/-- The parts of a loop head: the name, the first value with its sign, and the last one. -/
def loopParts? (text : Text) : Option (Text × Bool × Text × Text) := do
  let rest ← dropBlanks? (← dropWord? ['F', 'O', 'R'] (Text.trimLeft text))
  let (name, rest) := Text.span Text.isWord rest
  let '=' :: rest := Text.trimLeft rest | none
  let (negative, rest) := Reading.sign (Text.trimLeft rest)
  let (digits, rest) := Text.span Text.isDigit rest
  if name.isEmpty || digits.isEmpty then
    none
  let rest ← dropWord? ['T', 'O'] (← dropBlanks? rest)
  return (name, negative, digits, ← lastText? rest)

/-- The pattern in `count("pattern")`. -/
def countPattern? (text : Text) : Option Text := do
  let rest ← dropWord? ['C', 'O', 'U', 'N', 'T', '('] text
  let '\x22' :: rest := Text.trimLeft rest | none
  let (pattern, rest) := Text.span (· != '\x22') rest
  let '\x22' :: rest := rest | none
  if Text.trimLeft rest == [')'] then some pattern else none

/-- The last value that a text writes. -/
def LoopEnd.ofText? (text : Text) : Option LoopEnd :=
  match countPattern? text with
  | some pattern => some (.files pattern)
  | none => (Reading.whole? text).map .value

/-- The head of a loop; none when the line is something else. -/
def LoopHead.ofText (text : Text) : Except Fault (Option LoopHead) :=
  match loopParts? text with
  | none =>
      if isLoopHead text then .error (.script (.invalidFor (Text.trim text))) else .ok none
  | some (name, negative, digits, last) =>
      match LoopEnd.ofText? last with
      | none => .error (.script (.forEnd last))
      | some stop =>
          if Reading.digitLimit < digits.length then .error (.number .unreadable)
          else
            let value : Int := Text.digitsValue digits
            .ok (some ⟨name, if negative then -value else value, stop⟩)

/-- The name, if any, on a line that ends a loop; none when the line is something else. -/
def loopEnd? (text : Text) : Option (Option Text) := do
  let rest ← dropWord? ['N', 'E', 'X', 'T'] (Text.trimLeft text)
  if (Text.trimLeft rest).isEmpty then
    return none
  let (name, behind) := Text.span Text.isWord (← dropBlanks? rest)
  if name.isEmpty || !(Text.trimLeft behind).isEmpty then none else some (some name)

/-- The directories in front of a name and the name. Both slashes divide. -/
def splitFolder (name : Text) : Option Text × Text :=
  let isSlash (c : Char) : Bool := c == '/' || c == '\\'
  if name.any isSlash then
    let last := (name.reverse.takeWhile fun c => !isSlash c).reverse
    (some (name.take (name.length - last.length - 1)), last)
  else (none, name)

/-- Comparison operators and the marks that hide them while an assignment is divided at its equal
sign. -/
def hidden : List (Text × Text) := [
  (['=', '='], ['#', '@', '1', '#']),
  (['!', '='], ['#', '@', '2', '#']),
  (['>', '='], ['#', '@', '3', '#']),
  (['<', '='], ['#', '@', '4', '#'])]

def hideComparisons (text : Text) : Text :=
  hidden.foldl (fun text entry => Text.replace entry.1 entry.2 text) text

def showComparisons (text : Text) : Text :=
  hidden.foldl (fun text entry => Text.replace entry.2 entry.1 text) text

/-- The assignment that a line writes. -/
def Assignment.ofText (text : Text) : Except ScriptFault Assignment :=
  match hidden.find? fun entry => Text.hasPart entry.2 text with
  | some (_, mark) => .error (.reserved mark)
  | none =>
      let text := hideComparisons text
      if text.count '=' != 1 then .error .equalSigns
      else
        let (left, right) := Text.span (· != '=') text
        let target := Text.trim (showComparisons left)
        let expression := Text.trim (showComparisons (right.drop 1))
        let (folder, name) := splitFolder target
        if target.isEmpty then .error .missingName
        else if expression.isEmpty then .error (.missingExpression target)
        else if name.isEmpty then .error (.missingNameAfter (folder.getD []))
        else .ok { folder, name, expression }

/-- The statement that a line writes. -/
def Statement.ofText (line : Text) : Except Fault Statement := do
  let text := Text.trim line
  if text.isEmpty then
    return .blank
  if isComment text then
    return .comment (commentText text)
  if let some head ← LoopHead.ofText text then
    return .loop head
  if let some name := loopEnd? text then
    return .next name
  if text.contains '=' then
    match Assignment.ofText text with
    | .ok assignment => return .assign assignment
    | .error fault => throw (.script fault)
  throw (.script (.invalidStatement text))

end MapAlgebra.Script
