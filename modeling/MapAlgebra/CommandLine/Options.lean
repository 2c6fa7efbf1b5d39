import MapAlgebra.Number.Reading

/-!
# Command line arguments

A command line names a script and possibly an output directory, with options anywhere between them.
Long options may be shortened as long as they stay unique, and options of one letter that take no
value may share a dash. A lone double dash ends the options.
-/

namespace MapAlgebra.CommandLine

/-- An option of the program. -/
inductive Switch
  | help
  | extent
  | nodata
  | debug
  | intermediate
  | metadata
  | quiet
  | round
  | verbose
  | maxDepth
  | logFile
  deriving DecidableEq, Repr

/-- What an option takes besides its name. -/
inductive Intake
  | nothing
  | value
  | valueOrNothing
  deriving DecidableEq, Repr

namespace Switch

def all : List Switch :=
  [help, extent, nodata, debug, intermediate, metadata, quiet, round, verbose, maxDepth, logFile]

/-- The names of an option with their dashes. -/
def names : Switch → List Text
  | help => ["-h".toList, "--help".toList]
  | extent => ["-e".toList, "--extent".toList]
  | nodata => ["-v".toList, "--nodata-as-value".toList]
  | debug => ["-d".toList, "--debug".toList]
  | intermediate => ["-i".toList, "--intermediate".toList]
  | metadata => ["-m".toList, "--metadata".toList]
  | quiet => ["-q".toList, "--quiet".toList]
  | round => ["-r".toList, "--round".toList]
  | verbose => ["--verbose".toList]
  | maxDepth => ["--max-depth".toList]
  | logFile => ["--log-file".toList]

def intake : Switch → Intake
  | extent | maxDepth | logFile => .value
  | nodata | round => .valueOrNothing
  | help | debug | intermediate | metadata | quiet | verbose => .nothing

def ofName? (name : Text) : Option Switch :=
  all.find? fun switch => switch.names.contains name

/-- The options with a name that begins with the given text. -/
def beginningWith (text : Text) : List Switch :=
  all.filter fun switch => switch.names.any text.isPrefixOf

end Switch

/-- The reading ends early: help was asked for, or the arguments are not acceptable. -/
inductive Stop
  | help
  | misuse
  deriving DecidableEq, Repr

/-- An option as it is written. -/
structure Use where
  switch : Switch
  /-- Whether it is a single letter. -/
  isLetter : Bool
  /-- Whether an equal sign stands in front of the value. -/
  isDivided : Bool := false
  /-- The value in the same argument. -/
  value : Option Text := none
  deriving DecidableEq, Repr

/-- What an argument is. -/
inductive Word
  | divider
  | plain
  | known (use : Use)
  | unknown
  deriving DecidableEq, Repr

/-- A negative decimal number, which is no option. -/
def isNegativeNumber : Text → Bool
  | '-' :: rest =>
      let (whole, behind) := Text.span Text.isDigit rest
      match behind with
      | [] => !whole.isEmpty
      | '.' :: fraction => !fraction.isEmpty && fraction.all Text.isDigit
      | _ => false
  | _ => false

/-- A text at its first equal sign, and whether it has one. -/
def divide (text : Text) : Text × Option Text :=
  let (name, rest) := Text.span (· != '=') text
  match rest with
  | _ :: value => (name, some value)
  | [] => (name, none)

/-- The options that an argument may stand for, when it is no full name of one. -/
def candidates (text : Text) : List Use :=
  match text with
  | '-' :: '-' :: _ =>
      let (name, value) := divide text
      (Switch.beginningWith name).map fun switch =>
        { switch, isLetter := false, isDivided := value.isSome, value }
  | '-' :: letter :: rest =>
      (Switch.ofName? ['-', letter]).toList.map fun switch =>
        { switch, isLetter := true, value := some rest }
  | _ => []

/-- The option whose name an argument has in full. -/
def fullName? (text : Text) : Option Use :=
  let isLetter := !"--".toList.isPrefixOf text
  match Switch.ofName? text with
  | some switch => some { switch, isLetter }
  | none =>
      match divide text with
      | (name, some value) =>
          (Switch.ofName? name).map fun switch =>
            { switch, isLetter, isDivided := true, value := some value }
      | (_, none) => none

/-- What an argument is in front of a double dash. -/
def classify (text : Text) : Except Stop Word :=
  if text == ['-', '-'] then .ok .divider
  else if text.head? != some '-' || text.length == 1 then .ok .plain
  else
    match fullName? text with
    | some use => .ok (.known use)
    | none =>
        match candidates text with
        | [use] => .ok (.known use)
        | _ :: _ :: _ => .error .misuse
        | [] => .ok (if isNegativeNumber text || text.contains ' ' then .plain else .unknown)

/-- What all arguments are. Behind a double dash there are no options. -/
def classifyAll : List Text → Except Stop (List (Word × Text))
  | [] => .ok []
  | text :: rest => do
      let word ← classify text
      if word == .divider then
        return (word, text) :: rest.map fun text => (.plain, text)
      return (word, text) :: (← classifyAll rest)

/-- What the arguments ask for. -/
structure Choices where
  script : Option Text := none
  output : Text := []
  extent : Option Text := none
  nodata : Option Text := none
  debug : Bool := false
  intermediate : Bool := false
  metadata : Bool := false
  quiet : Bool := false
  round : Option Int := none
  verbose : Bool := false
  maxDepth : Option Int := none
  logFile : Option Text := none
  deriving DecidableEq, Repr

/-- Stands for the NoData value of each grid. -/
def ownNodata : Text := "own".toList

/-- A whole number as the value of an option. -/
def wholeValue (text : Text) : Except Stop Int :=
  match Reading.whole? text with
  | some n => .ok n
  | none => .error .misuse

namespace Choices

/-- The choices with an option and its value, if it has one. -/
def choose (choices : Choices) (switch : Switch) (value : Option Text) : Except Stop Choices :=
  match switch with
  | .help => .error .help
  | .extent => .ok { choices with extent := value }
  | .nodata => .ok { choices with nodata := some (value.getD ownNodata) }
  | .debug => .ok { choices with debug := true }
  | .intermediate => .ok { choices with intermediate := true }
  | .metadata => .ok { choices with metadata := true }
  | .quiet => .ok { choices with quiet := true }
  | .round => do
      match value with
      | some text => return { choices with round := some (← wholeValue text) }
      | none => return { choices with round := some 0 }
  | .verbose => .ok { choices with verbose := true }
  | .maxDepth => do return { choices with maxDepth := ← value.mapM wholeValue }
  | .logFile => .ok { choices with logFile := value }

end Choices

/-- The option of a letter behind others, and what follows the letter. -/
def Use.ofLetter (switch : Switch) : Text → Use
  | [] => { switch, isLetter := true }
  | '=' :: value => { switch, isLetter := true, isDivided := true, value := some value }
  | rest => { switch, isLetter := true, value := some rest }

theorem Use.length_ofLetter (switch : Switch) (rest : Text) :
    ((Use.ofLetter switch rest).value.getD []).length ≤ rest.length := by
  unfold Use.ofLetter
  split <;> simp

/-- The options without a value that share a dash, and the one that comes last with its value, if
the last letter is one. -/
def Use.letters (use : Use) : Except Stop (List Switch × Option (Switch × Option Text)) :=
  match _h : use.value with
  | none => .ok ([], some (use.switch, none))
  | some value =>
      if use.switch.intake != .nothing then .ok ([], some (use.switch, some value))
      else
        match value with
        | [] => .error .misuse
        | letter :: rest =>
            if !use.isLetter || use.isDivided || letter == '-' then .error .misuse
            else
              match Switch.ofName? ['-', letter] with
              | none => .ok ([use.switch], none)
              | some next => do
                  let (switches, last) ← (Use.ofLetter next rest).letters
                  return (use.switch :: switches, last)
termination_by (use.value.getD []).length
decreasing_by
  have := Use.length_ofLetter next rest
  simp only [_h, Option.getD_some, List.length_cons]
  omega

/-- The value of the last option of an argument, which may be the next argument, and what is left
of the arguments. -/
def takeValue (switch : Switch) (value : Option Text) (rest : List (Word × Text)) :
    Except Stop (Option Text × List (Word × Text)) :=
  match value, switch.intake, rest with
  | some value, _, rest => .ok (some value, rest)
  | none, .nothing, rest => .ok (none, rest)
  | none, _, (.plain, text) :: rest => .ok (some text, rest)
  | none, .value, _ => .error .misuse
  | none, .valueOrNothing, rest => .ok (none, rest)

theorem length_takeValue {switch : Switch} {value : Option Text} {rest : List (Word × Text)}
    {found : Option Text × List (Word × Text)} (h : takeValue switch value rest = .ok found) :
    found.2.length ≤ rest.length := by
  unfold takeValue at h
  split at h <;> simp_all <;> (subst h; simp)

/-- The state of the reading. -/
structure Progress where
  choices : Choices := {}
  /-- Whether the script and the output directory are settled. -/
  isSettled : Bool := false
  /-- Whether an argument was left over. -/
  hasExcess : Bool := false

/-- A plain argument with the double dashes around it, and what is left. -/
def takePlain (words : List (Word × Text)) : Option (List Text) × List (Word × Text) :=
  let isDivider (word : Word × Text) : Bool := word.1 == .divider
  let before := words.takeWhile isDivider
  match words.dropWhile isDivider with
  | (.plain, text) :: rest =>
      let after := rest.takeWhile isDivider
      (some (before.map (·.2) ++ text :: after.map (·.2)), rest.dropWhile isDivider)
  | rest => (none, rest)

/-- The first double dash among arguments does not count. -/
def withoutDivider (texts : List Text) : Option Text :=
  (texts.erase ['-', '-']).head?

/-- Settles the script and the output directory, which is empty without an argument of its own in
front of the next option. -/
def settle (progress : Progress) (words : List (Word × Text)) : Progress × List (Word × Text) :=
  match progress.isSettled, takePlain words with
  | false, (some script, behind) =>
      let (output, rest) := takePlain behind
      let choices := { progress.choices with
        script := withoutDivider script
        output := (output.bind withoutDivider).getD [] }
      ({ progress with choices, isSettled := true }, rest)
  | _, _ => (progress, words)

def Word.isOption : Word → Bool
  | known _ | unknown => true
  | divider | plain => false

/-- Takes an option that stands in front of the other arguments. -/
def takeOption (progress : Progress) (use : Use) (rest : List (Word × Text)) :
    Except Stop (Progress × { left : List (Word × Text) // left.length ≤ rest.length }) := do
  let (switches, last) ← use.letters
  let choose (choices : Choices) (switch : Switch) : Except Stop Choices :=
    choices.choose switch none
  match last with
  | none =>
      let choices ← switches.foldlM choose progress.choices
      return ({ progress with choices, hasExcess := true }, ⟨rest, Nat.le_refl _⟩)
  | some (switch, value) =>
      match h : takeValue switch value rest with
      | .error stop => throw stop
      | .ok (value, left) =>
          let choices ← switches.foldlM choose progress.choices
          let choices ← choices.choose switch value
          return ({ progress with choices }, ⟨left, length_takeValue h⟩)

/-- Reads arguments from the left: plain ones up to the next option, then the option. -/
def advance (progress : Progress) (words : List (Word × Text)) : Except Stop Progress :=
  if words.any (·.1.isOption) then
    let (settled, rest) := if (words.head?.any (·.1.isOption)) then (progress, words)
      else settle progress words
    if _h : rest.length < words.length then advance settled rest
    else
      let isPlain (word : Word × Text) : Bool := !word.1.isOption
      match _hnext : words.dropWhile isPlain with
      | [] => .ok settled
      | (word, _) :: behind =>
          let excess := settled.hasExcess || words.head?.any isPlain
          match word with
          | .known use => do
              let (progress, left) ← takeOption { settled with hasExcess := excess } use behind
              advance progress left.1
          | _ => advance { settled with hasExcess := true } behind
  else
    let (settled, rest) := settle progress words
    .ok { settled with hasExcess := settled.hasExcess || !rest.isEmpty }
termination_by words.length
decreasing_by
  · exact _h
  · have hle := Text.length_dropWhile_le isPlain words
    rw [_hnext] at hle
    have := left.2
    simp only [List.length_cons] at hle
    omega
  · have hle := Text.length_dropWhile_le isPlain words
    rw [_hnext] at hle
    simp only [List.length_cons] at hle
    omega

/-- The choices that arguments make. There has to be a script, and no argument may be left over. -/
def Choices.ofArguments (arguments : List Text) : Except Stop Choices := do
  let words ← classifyAll arguments
  let progress ← advance {} words
  if progress.hasExcess || progress.choices.script.isNone then
    throw .misuse
  return progress.choices

end MapAlgebra.CommandLine
