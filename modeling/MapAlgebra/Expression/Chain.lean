import MapAlgebra.Fault
import MapAlgebra.Operator
import MapAlgebra.Text.Digit

/-!
# Chains

An expression is a chain of terms with operators between them; a group or an argument of a function
is a chain again. Reading never fails: where the text breaks off or goes wrong the chain says so,
since the terms in front of the break are still evaluated.
-/

namespace MapAlgebra.Expression

/-- A place in a text. -/
structure Cursor where
  text : Text
  /-- The number of characters in front of the place, or behind it counted as negative. -/
  position : Int := 0
  deriving DecidableEq, Repr

namespace Cursor

/-- The place with a number of characters left. -/
def withLeft (text : Text) (left : Nat) : Cursor :=
  ⟨text, text.length - left⟩

/-- The character at an offset from the place, if there is one. -/
def peek? (cursor : Cursor) (offset : Int := 0) : Option Char :=
  let index := cursor.position + offset
  let index := if index < 0 then index + cursor.text.length else index
  if index < 0 then none else cursor.text[index.toNat]?

def atEnd (cursor : Cursor) : Bool :=
  (cursor.text.length : Int) ≤ cursor.position

def advance (cursor : Cursor) (count : Int := 1) : Cursor :=
  { cursor with position := cursor.position + count }

/-- The place behind a wanted character, which has to be there. -/
def expect (cursor : Cursor) (wanted : Text) : Except ExpressionFault Cursor :=
  if cursor.peek?.toList == wanted then .ok cursor.advance
  else .error (.expected wanted (cursor.position + 1).toNat cursor.peek? cursor.text)

end Cursor

mutual

/-- Terms with operators between them. -/
inductive Chain
  | last (term : Term)
  | join (term : Term) (op : Operator) (rest : Chain)
  /-- A term behind which the text stops or goes on with neither an operator nor one of the wanted
  characters. -/
  | broken (term : Term) (wanted : Text) (left : Nat)

/-- An operand of a chain. -/
inductive Term
  | token (text : Text)
  /-- Nothing where a token was due. -/
  | missing (left : Nat)
  | group (negated : Bool) (body : Chain)
  | call (negated : Bool) (name : Text) (arguments : Arguments)

/-- The chains between the parentheses of a call. -/
inductive Arguments
  | none
  | more (first : Chain) (rest : Arguments)

end

/-- The digits of a number with an optional point among them. -/
def isDigitsWithPoint (text : Text) : Bool :=
  let (whole, rest) := Text.span Text.isDigit text
  match rest with
  | [] => !whole.isEmpty
  | '.' :: fraction => fraction.all Text.isDigit && !(whole.isEmpty && fraction.isEmpty)
  | _ => false

/-- Whether a token is a number up to the letter of its exponent, so that a sign belongs to it. -/
def awaitsExponent (token : Text) : Bool :=
  let number := match token with
    | '-' :: rest => rest
    | _ => token
  match number.getLast? with
  | some c => (c == 'e' || c == 'E') && isDigitsWithPoint number.dropLast
  | none => false

/-- Whether a character goes on with a token in a text where the wanted characters end a chain. -/
def continuesToken (wanted token : Text) (c : Char) : Bool :=
  (c == '-' && token.isEmpty) ||
    ((c == '+' || c == '-') && awaitsExponent token) ||
    !(Operator.startsSign c || c == '(' || c == ')' || c == ',' || wanted.contains c)

/-- The token at the start of a text, of which `token` has been read before, and the rest. -/
def readToken (wanted token : Text) : Text → Text × Text
  | [] => (token, [])
  | c :: rest =>
      if continuesToken wanted token c then readToken wanted (token ++ [c]) rest
      else (token, c :: rest)

/-- The operator at the start of a text and the rest. Of two signs the longer one is read. -/
def leadingOperator? (text : Text) : Option (Operator × Text) :=
  match text with
  | [] => none
  | [c] => (Operator.ofSign? [c]).map (·, [])
  | c :: d :: rest =>
      match Operator.ofSign? [c, d] with
      | some op => some (op, rest)
      | none => (Operator.ofSign? [c]).map (·, d :: rest)

/-- Whether a chain ends in front of a text: at one of the wanted characters, or at the end of the
whole text when none is wanted. -/
def endsChain (wanted : Text) : Text → Bool
  | [] => wanted.isEmpty
  | c :: _ => wanted.contains c

/-- The minus sign and the name that a token in front of a parenthesis is made of. -/
def signedName : Text → Bool × Text
  | '-' :: name => (true, name)
  | name => (false, name)

/-- What is left of a text behind something read from it; none behind a break. -/
abbrev Rest (text : Text) := Option { rest : Text // rest.length < text.length }

theorem length_readToken (wanted token text : Text) :
    (readToken wanted token text).1.length + (readToken wanted token text).2.length =
      token.length + text.length := by
  induction text generalizing token with
  | nil => simp [readToken]
  | cons c rest ih =>
      unfold readToken
      split
      · rw [ih]
        simp only [List.length_append, List.length_cons, List.length_nil]
        omega
      · rfl

theorem length_leadingOperator? {text : Text} {found : Operator × Text}
    (h : leadingOperator? text = some found) : found.2.length < text.length := by
  unfold leadingOperator? at h
  split at h
  next => simp at h
  next =>
    obtain ⟨op, _, rfl⟩ := Option.map_eq_some_iff.1 h
    simp
  next =>
    split at h
    next =>
      rw [← Option.some.inj h]
      simp only [List.length_cons]
      omega
    next =>
      obtain ⟨op, _, rfl⟩ := Option.map_eq_some_iff.1 h
      simp

mutual

/-- The chain at the start of a text and the rest, which begins with one of the wanted characters
or is empty when none is wanted. -/
def readChain (wanted text : Text) : Chain × Rest text :=
  match readTerm wanted text with
  | (term, none) => (.last term, none)
  | (term, some ⟨rest, hrest⟩) =>
      if endsChain wanted rest then (.last term, some ⟨rest, hrest⟩)
      else
        match hop : leadingOperator? rest with
        | none => (.broken term wanted rest.length, none)
        | some (op, behind) =>
            have hbehind : behind.length < text.length :=
              Nat.lt_trans (length_leadingOperator? hop) hrest
            let (chain, left) := readChain wanted behind
            (.join term op chain, left.map fun left => ⟨left.1, Nat.lt_trans left.2 hbehind⟩)
termination_by (text.length, 1)

/-- The term at the start of a text and the rest. -/
def readTerm (wanted text : Text) : Term × Rest text :=
  match htoken : readToken wanted [] text with
  | (token, '(' :: inner) =>
      have hinner : inner.length < text.length := by
        have := length_readToken wanted [] text
        rw [htoken] at this
        simp only [List.length_cons, List.length_nil] at this
        omega
      let (negated, name) := signedName token
      if name.isEmpty then
        let (body, left) := readChain [')'] inner
        (.group negated body, left.map fun left =>
          ⟨left.1.drop 1, by have := left.2; rw [List.length_drop]; omega⟩)
      else if inner.head? == some ')' then
        (.call negated name .none, some ⟨inner.drop 1, by rw [List.length_drop]; omega⟩)
      else
        let (arguments, left) := readArguments inner
        (.call negated name arguments,
          left.map fun left => ⟨left.1, Nat.lt_trans left.2 hinner⟩)
  | ([], rest) => (.missing rest.length, none)
  | (c :: token, rest) =>
      (.token (c :: token), some ⟨rest, by
        have := length_readToken wanted [] text
        rw [htoken] at this
        simp only [List.length_cons, List.length_nil] at this
        omega⟩)
termination_by (text.length, 0)

/-- The arguments at the start of a text, at least one, and the rest behind the parenthesis that
closes them. -/
def readArguments (text : Text) : Arguments × Rest text :=
  match readChain [',', ')'] text with
  | (first, none) => (.more first .none, none)
  | (first, some ⟨rest, hrest⟩) =>
      have hbehind : (rest.drop 1).length < text.length := by
        rw [List.length_drop]
        omega
      if rest.head? == some ',' then
        let (arguments, left) := readArguments (rest.drop 1)
        (.more first arguments, left.map fun left => ⟨left.1, Nat.lt_trans left.2 hbehind⟩)
      else (.more first .none, some ⟨rest.drop 1, hbehind⟩)
termination_by (text.length, 2)

end

end MapAlgebra.Expression
