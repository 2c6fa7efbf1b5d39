import MapAlgebra.Proofs.PlainLines

/-!
# Blanks behind the word FOR

Two tests tell the head of a loop. The one that reads a head takes any blanks behind the word
`FOR`, the one that is used in the search for the end of a loop takes a space alone. So the search
takes a loop within a loop for one exactly if a space stands behind its `FOR`. Within a loop, other
blanks can be put there only if that stays as it is.
-/

namespace MapAlgebra.Script

/-- Whether a space stands right behind the word that a line has in front. -/
def isSpaced (text : Text) : Bool :=
  (dropWord? ['F', 'O', 'R'] (Text.trimLeft text)).any fun rest => rest.head? == some ' '

theorem isSpaced_of_isLoopHead {text : Text} (h : isLoopHead text) : isSpaced text := by
  obtain ⟨front, word, rest, htext, hfront, hupper, -⟩ := isLoopHead_iff.mp h
  unfold isSpaced
  rw [(dropWord?_trimLeft_eq_some_iff (by decide)).mpr ⟨front, word, htext, hfront, hupper⟩]
  rfl

/-- A line with the word `FOR` in front, and blanks and more behind it. -/
structure HeadLine where
  front : Text
  word : Text
  gap : Text
  rest : Text
  isBlank_front : ∀ c ∈ front, Text.isBlank c
  upper_word : Text.upperAscii word = ['F', 'O', 'R']
  gap_ne : gap ≠ []
  isBlank_gap : ∀ c ∈ gap, Text.isBlank c
  exists_rest : ∃ c more, rest = c :: more ∧ Text.isBlank c = false

namespace HeadLine

variable (line : HeadLine)

def text : Text := line.front ++ (line.word ++ (line.gap ++ line.rest))

/-- The line is the head of a loop. -/
def IsHead : Prop := line.gap.head? = some ' ' ∨ (headParts? line.rest).isSome

theorem loopParts?_text : loopParts? line.text = headParts? line.rest := by
  obtain ⟨c, more, hrest, hc⟩ := line.exists_rest
  have hbehind : behindFor? line.text = some line.rest :=
    behindFor?_eq_some_iff.mpr ⟨line.front, line.word, line.gap, rfl, line.isBlank_front,
      line.upper_word, line.gap_ne, line.isBlank_gap, fun d hd => by
        rw [hrest] at hd
        cases hd
        exact hc⟩
  rw [loopParts?_eq, hbehind, Option.bind_some]

theorem isSpaced_text : isSpaced line.text = (line.gap.head? == some ' ') := by
  have hdrop : dropWord? ['F', 'O', 'R'] (Text.trimLeft line.text) = some (line.gap ++ line.rest) :=
    (dropWord?_trimLeft_eq_some_iff (by decide)).mpr
      ⟨line.front, line.word, rfl, line.isBlank_front, line.upper_word⟩
  obtain ⟨g, gap, hgap⟩ := List.exists_cons_of_ne_nil line.gap_ne
  unfold isSpaced
  rw [hdrop, hgap]
  rfl

theorem isLoopHead_text : isLoopHead line.text = (line.gap.head? == some ' ') := by
  rw [Bool.eq_iff_iff]
  constructor
  · intro h
    rw [← line.isSpaced_text]
    exact isSpaced_of_isLoopHead h
  · intro h
    obtain ⟨gap, hgap⟩ := List.head?_eq_some_iff.mp (beq_iff_eq.mp h)
    obtain ⟨c, more, hrest, hc⟩ := line.exists_rest
    refine isLoopHead_iff.mpr ⟨line.front, line.word, gap ++ line.rest, ?_, line.isBlank_front,
      line.upper_word, c, List.mem_append_right _ (hrest ▸ List.mem_cons_self), hc⟩
    rw [text, hgap, List.cons_append]

theorem loopEnd?_text : loopEnd? line.text = none := by
  obtain ⟨f, letters, hword, hblank⟩ := isBlank_of_upperAscii line.upper_word (by decide)
  have hupper := line.upper_word
  rw [hword] at hupper
  have hf : f.toUpper ≠ 'N' := by
    rw [(List.cons.inj hupper).1]
    decide
  have htrim : Text.trimLeft line.text = f :: (letters ++ (line.gap ++ line.rest)) :=
    trimLeft_eq_iff.mpr ⟨line.front, by rw [text, hword]; rfl, line.isBlank_front,
      fun c hc => by cases hc; exact hblank⟩
  have hnone : dropWord? ['N', 'E', 'X', 'T'] (Text.trimLeft line.text) = none := by
    rw [htrim]
    exact if_neg (by rw [beginsWith_cons_of_ne hf]; decide)
  unfold loopEnd?
  rw [hnone]
  rfl

/-- The line with other blanks behind the word. -/
def withGap (gap : Text) (hne : gap ≠ []) (hblank : ∀ c ∈ gap, Text.isBlank c) : HeadLine :=
  { line with gap, gap_ne := hne, isBlank_gap := hblank }

/-- The line with a value for a loop variable. -/
def fill (name : Text) (value : Int) : HeadLine :=
  { line with
    rest := substitute name value line.rest
    exists_rest := by
      obtain ⟨c, more, hrest, hc⟩ := line.exists_rest
      rw [hrest]
      exact exists_substitute_cons value hc more }

theorem substitute_text (name : Text) (value : Int) :
    substitute name value line.text = (line.fill name value).text := by
  have hpercent : Text.isBlank '%' = false := by decide
  have hword : '%' ∉ line.word := not_mem_of_upperAscii (by rw [line.upper_word]; decide)
  unfold text
  rw [substitute_of_not_mem_append value (not_mem_of_forall line.isBlank_front hpercent),
    substitute_of_not_mem_append value hword,
    substitute_of_not_mem_append value (not_mem_of_forall line.isBlank_gap hpercent)]
  rfl

theorem isHead_text : isHead line.text ↔ line.IsHead := by
  unfold isHead IsHead
  rw [line.loopParts?_text, line.isLoopHead_text, Bool.or_eq_true, beq_iff_eq, or_comm]

end HeadLine

theorem exists_headLine {text : Text} (h : isHead text) :
    ∃ line : HeadLine, line.text = text ∧ line.IsHead := by
  rcases Bool.or_eq_true_iff.mp h with hparts | hhead
  · obtain ⟨front, word, gap, head, behind, rfl, hfront, hupper, hne, hgap, hbehind⟩ :=
      isSome_loopParts?_iff.mp hparts
    obtain ⟨c, more, hmore, hc⟩ := head.exists_cons
    exact ⟨⟨front, word, gap, head.text ++ behind, hfront, hupper, hne, hgap, c, more ++ behind,
      by rw [hmore, List.cons_append], hc⟩, rfl,
      .inr (isSome_headParts?_iff.mpr ⟨head, behind, rfl, hbehind⟩)⟩
  · obtain ⟨front, word, rest, rfl, hfront, hupper, d, hd, hblank⟩ := isLoopHead_iff.mp hhead
    obtain ⟨blanks, more, rfl, hblanks, hmore⟩ := exists_trimLeft rest
    cases more with
    | nil =>
        rw [List.append_nil] at hd
        rw [hblanks d hd] at hblank
        cases hblank
    | cons c more =>
        refine ⟨⟨front, word, ' ' :: blanks, c :: more, hfront, hupper, List.cons_ne_nil _ _, ?_,
          c, more, rfl, hmore c rfl⟩, rfl, .inl rfl⟩
        exact List.forall_mem_cons.mpr ⟨by decide, hblanks⟩

/-- The search for the end of a loop takes those heads for heads that have a space behind the
word. -/
theorem isLoopHead_eq_isSpaced {text : Text} (h : isHead text) :
    isLoopHead text = isSpaced text := by
  obtain ⟨line, rfl, -⟩ := exists_headLine h
  rw [line.isLoopHead_text, line.isSpaced_text]

theorem isHead_of_isLoopHead {text : Text} (h : isLoopHead text) : isHead text :=
  Bool.or_eq_true_iff.mpr (.inr h)

theorem isHead_of_loopEnd? {text : Text} (h : (loopEnd? text).isSome) : isHead text = false := by
  by_contra hhead
  obtain ⟨line, rfl, -⟩ := exists_headLine (by simpa using hhead)
  rw [line.loopEnd?_text] at h
  cases h

section Balance

/-- How many loops are open behind lines, when so many are open in front of them; none when a line
ends a loop that is not open. -/
def openLoops? (opened : Nat) : List Line → Option Nat
  | [] => some opened
  | line :: rest =>
      if isHead line.text then openLoops? (opened + 1) rest
      else if (loopEnd? line.text).isSome then
        match opened with
        | 0 => none
        | opened + 1 => openLoops? opened rest
      else openLoops? opened rest

/-- A head that the search for the end of a loop takes for something else. -/
def isOverlooked (line : Line) : Bool := isHead line.text && !isSpaced line.text

variable {start : Line} {head : LoopHead} {depth : Nat} {lines body behind : List Line}

section OpenLoops

variable {line : Line} (opened : Nat)

theorem openLoops?_head (h : isHead line.text) :
    openLoops? opened (line :: lines) = openLoops? (opened + 1) lines :=
  if_pos h

theorem openLoops?_end (h : (loopEnd? line.text).isSome) :
    openLoops? (opened + 1) (line :: lines) = openLoops? opened lines :=
  (if_neg (by rw [isHead_of_loopEnd? h]; decide)).trans (if_pos h)

theorem openLoops?_plain (hhead : isHead line.text = false) (hend : loopEnd? line.text = none) :
    openLoops? opened (line :: lines) = openLoops? opened lines :=
  (if_neg (by rw [hhead]; decide)).trans (if_neg (by rw [hend]; decide))

end OpenLoops

theorem behind_eq_ok {line : Line} {found : Except Fault (List Line × List Line)}
    (h : Script.behind [line] found = .ok (body, behind)) :
    ∃ body', found = .ok (body', behind) ∧ body = line :: body' := by
  cases found with
  | error fault => cases h
  | ok found =>
      cases h
      exact ⟨found.1, rfl, rfl⟩

/-- The fault of a loop that is ended by the name of another. -/
def mismatch? (line : Line) (head : LoopHead) (name : Option Text) : Option Fault :=
  match name with
  | none => none
  | some name =>
      if Text.upper name == Text.upper head.name then none
      else some (line.fault (.script (.nextMismatch name head.name)))

theorem loopBody_end_outer {line : Line} {rest : List Line} (hhead : isLoopHead line.text = false)
    {name : Option Text} (hend : loopEnd? line.text = some name) :
    loopBody start head 0 (line :: rest) =
      match mismatch? line head name with
      | none => .ok ([], rest)
      | some fault => .error fault := by
  conv_lhs => unfold loopBody
  dsimp only
  rw [hhead, hend, if_neg Bool.false_ne_true]
  unfold mismatch?
  cases name with
  | none => rfl
  | some name =>
      dsimp only
      split
      next => rfl
      next => rfl

/-- What the search for the end of a loop makes of a line. -/
theorem loopBody_cons_eq_ok {line : Line} {rest : List Line}
    (h : loopBody start head depth (line :: rest) = .ok (body, behind)) :
    (∃ body', body = line :: body' ∧
      ((isLoopHead line.text ∧ loopBody start head (depth + 1) rest = .ok (body', behind)) ∨
        (isLoopHead line.text = false ∧ loopEnd? line.text = none ∧
          loopBody start head depth rest = .ok (body', behind)) ∨
        ∃ outer, depth = outer + 1 ∧ (loopEnd? line.text).isSome ∧
          loopBody start head outer rest = .ok (body', behind))) ∨
      (depth = 0 ∧ (loopEnd? line.text).isSome ∧ body = [] ∧ behind = rest) := by
  cases hhead : isLoopHead line.text with
  | true =>
      rw [loopBody_head hhead] at h
      obtain ⟨body', hbody, rfl⟩ := behind_eq_ok h
      exact .inl ⟨body', rfl, .inl ⟨rfl, hbody⟩⟩
  | false =>
      cases hend : loopEnd? line.text with
      | none =>
          rw [loopBody_plain hhead hend] at h
          obtain ⟨body', hbody, rfl⟩ := behind_eq_ok h
          exact .inl ⟨body', rfl, .inr (.inl ⟨rfl, rfl, hbody⟩)⟩
      | some name =>
          cases depth with
          | succ outer =>
              rw [loopBody_end_inner hhead (by rw [hend]; rfl)] at h
              obtain ⟨body', hbody, rfl⟩ := behind_eq_ok h
              exact .inl ⟨body', rfl, .inr (.inr ⟨outer, rfl, rfl, hbody⟩)⟩
          | zero =>
              refine .inr ⟨rfl, rfl, ?_⟩
              rw [loopBody_end_outer hhead hend] at h
              split at h
              next =>
                cases h
                exact ⟨rfl, rfl⟩
              next => cases h

/-- Behind the lines of a loop those loops are open that the search for its end has overlooked. -/
theorem openLoops?_of_loopBody (h : loopBody start head depth lines = .ok (body, behind))
    (overlooked : Nat) : openLoops? (depth + overlooked) body =
      some (overlooked + body.countP isOverlooked) := by
  induction lines generalizing depth body overlooked with
  | nil => cases h
  | cons line rest ih =>
      rcases loopBody_cons_eq_ok h with ⟨body', rfl, ⟨hhead, hbody⟩ | ⟨hhead, hend, hbody⟩ |
        ⟨outer, rfl, hend, hbody⟩⟩ | ⟨rfl, hend, rfl, rfl⟩
      · have hseen : isOverlooked line = false := by
          simp [isOverlooked, isSpaced_of_isLoopHead hhead]
        rw [openLoops?_head _ (isHead_of_isLoopHead hhead),
          List.countP_cons_of_neg (by simp [hseen]), ← ih hbody overlooked]
        congr 1
        omega
      · cases hother : isHead line.text with
        | true =>
            have hoverlooked : isOverlooked line := by
              rw [isOverlooked, hother, ← isLoopHead_eq_isSpaced hother, hhead]
              rfl
            rw [openLoops?_head _ hother, List.countP_cons_of_pos hoverlooked, Nat.add_assoc depth,
              ih hbody (overlooked + 1)]
            congr 1
            omega
        | false =>
            have hnone : isOverlooked line = false := by simp [isOverlooked, hother]
            rw [openLoops?_plain _ hother hend, List.countP_cons_of_neg (by simp [hnone])]
            exact ih hbody overlooked
      · have hother : isHead line.text = false := isHead_of_loopEnd? hend
        have hnone : isOverlooked line = false := by simp [isOverlooked, hother]
        rw [Nat.add_right_comm, openLoops?_end _ hend, List.countP_cons_of_neg (by simp [hnone])]
        exact ih hbody overlooked
      · rw [Nat.zero_add]
        rfl

/-- The lines of a loop are those up to a line that ends one. -/
theorem exists_close (h : loopBody start head depth lines = .ok (body, behind)) :
    ∃ close, lines = body ++ close :: behind ∧ (loopEnd? close.text).isSome := by
  induction lines generalizing depth body with
  | nil => cases h
  | cons line rest ih =>
      rcases loopBody_cons_eq_ok h with
        ⟨body', rfl, ⟨-, hbody⟩ | ⟨-, -, hbody⟩ | ⟨_, -, -, hbody⟩⟩ | ⟨-, hend, rfl, rfl⟩
      · obtain ⟨close, rfl, hclose⟩ := ih hbody
        exact ⟨close, rfl, hclose⟩
      · obtain ⟨close, rfl, hclose⟩ := ih hbody
        exact ⟨close, rfl, hclose⟩
      · obtain ⟨close, rfl, hclose⟩ := ih hbody
        exact ⟨close, rfl, hclose⟩
      · exact ⟨line, rfl, hend⟩

/-- The end that is found for a loop balances the heads in it exactly if none of them is
overlooked. -/
theorem openLoops?_eq_zero_iff (h : loopBody start head 0 lines = .ok (body, behind)) :
    openLoops? 0 body = some 0 ↔ ∀ line ∈ body, isHead line.text → isSpaced line.text := by
  have hcount := openLoops?_of_loopBody h 0
  rw [Nat.add_zero] at hcount
  rw [hcount, Nat.zero_add, Option.some.injEq, List.countP_eq_zero]
  simp [isOverlooked]

end Balance

/-- Other blanks between the word `FOR` and the rest, in the head of a loop. -/
inductive Respaced : Text → Text → Prop
  | refl (text : Text) : Respaced text text
  | head (line : HeadLine) {gap : Text} (hne : gap ≠ []) (hblank : ∀ c ∈ gap, Text.isBlank c)
      (h : line.IsHead) (h' : (line.withGap gap hne hblank).IsHead) :
      Respaced line.text (line.withGap gap hne hblank).text

namespace Respaced

variable {text text' : Text}

theorem loopParts?_eq (h : Respaced text text') : loopParts? text' = loopParts? text := by
  cases h with
  | refl => rfl
  | head line => rw [line.loopParts?_text, HeadLine.loopParts?_text]; rfl

theorem loopEnd?_eq (h : Respaced text text') : loopEnd? text' = loopEnd? text := by
  cases h with
  | refl => rfl
  | head line => rw [line.loopEnd?_text, HeadLine.loopEnd?_text]

theorem eq_or_isHead (h : Respaced text text') : text' = text ∨ (isHead text ∧ isHead text') := by
  cases h with
  | refl => exact .inl rfl
  | head line _ _ h h' => exact .inr ⟨line.isHead_text.mpr h, (HeadLine.isHead_text _).mpr h'⟩

theorem isLoopHead_eq (h : Respaced text text') (hspaced : isSpaced text' = isSpaced text) :
    isLoopHead text' = isLoopHead text := by
  rcases h.eq_or_isHead with rfl | ⟨hhead, hhead'⟩
  · rfl
  · rw [isLoopHead_eq_isSpaced hhead, isLoopHead_eq_isSpaced hhead', hspaced]

/-- Both heads are read alike, or they are both worded badly. -/
theorem ofText_eq (h : Respaced text text') : LoopHead.ofText text' = LoopHead.ofText text ∨
    (LoopHead.ofText text = .error (.script (.invalidFor (Text.trim text))) ∧
      LoopHead.ofText text' = .error (.script (.invalidFor (Text.trim text')))) := by
  rcases h.eq_or_isHead with rfl | ⟨hhead, hhead'⟩
  · exact .inl rfl
  · unfold isHead at hhead hhead'
    unfold LoopHead.ofText
    rw [h.loopParts?_eq] at hhead' ⊢
    cases hparts : loopParts? text with
    | some parts => exact .inl rfl
    | none =>
        rw [hparts, Option.isSome_none, Bool.false_or] at hhead hhead'
        rw [hhead, hhead']
        exact .inr ⟨rfl, rfl⟩

theorem substitute (h : Respaced text text') (name : Text) (value : Int) :
    Respaced (Script.substitute name value text) (Script.substitute name value text') := by
  cases h with
  | refl => exact .refl _
  | head line hne hblank h h' =>
      rw [line.substitute_text, HeadLine.substitute_text]
      exact .head (line.fill name value) hne hblank
        (h.imp_right (isSome_headParts?_substitute name value))
        (h'.imp_right (isSome_headParts?_substitute name value))

theorem isSpaced_substitute_eq (h : Respaced text text')
    (hspaced : isSpaced text' = isSpaced text) (name : Text) (value : Int) :
    isSpaced (Script.substitute name value text') =
      isSpaced (Script.substitute name value text) := by
  cases h with
  | refl => rfl
  | head =>
      rw [HeadLine.isSpaced_text, HeadLine.isSpaced_text] at hspaced
      rw [HeadLine.substitute_text, HeadLine.substitute_text, HeadLine.isSpaced_text,
        HeadLine.isSpaced_text]
      exact hspaced

end Respaced

/-- A line with other blanks between the word `FOR` and the rest, if it is the head of a loop. -/
structure Line.Respaced (line line' : Line) : Prop where
  number_eq : line'.number = line.number
  text : Script.Respaced line.text line'.text

/-- The other blanks begin with a space where those of the line do. -/
structure Line.Steady (line line' : Line) : Prop extends line.Respaced line' where
  isSpaced_eq : isSpaced line'.text = isSpaced line.text

/-- How many loops are open behind a line, when so many are open in front of it. The search for the
end of the outermost one counts those within it. -/
def Line.openBehind (line : Line) : Nat → Nat
  | 0 => if isHead line.text then 1 else 0
  | opened + 1 =>
      if isLoopHead line.text then opened + 2
      else if (loopEnd? line.text).isSome then opened
      else opened + 1

/-- Lines with other blanks in the heads of loops, when so many loops are open. Within a loop, the
other blanks begin with a space where those of the lines do; outside, they are any blanks. -/
inductive RespacedWithin : Nat → List Line → List Line → Prop
  | nil (opened : Nat) : RespacedWithin opened [] []
  | outside {line line' : Line} {rest rest' : List Line} (hline : line.Respaced line')
      (hrest : RespacedWithin (line.openBehind 0) rest rest') :
      RespacedWithin 0 (line :: rest) (line' :: rest')
  | inside {opened : Nat} {line line' : Line} {rest rest' : List Line} (hline : line.Steady line')
      (hrest : RespacedWithin (line.openBehind (opened + 1)) rest rest') :
      RespacedWithin (opened + 1) (line :: rest) (line' :: rest')

/-- Faults that tell the same of a line, which they show with the blanks that it has. -/
inductive SameFault : Fault → Fault → Prop
  | refl (fault : Fault) : SameFault fault fault
  | line {text text' : Text} (h : Respaced text text') (number : Nat) (cause : Fault) :
      SameFault (.line number (Text.trim text) cause) (.line number (Text.trim text') cause)
  | invalidFor {text text' : Text} (h : Respaced text text') (number : Nat) :
      SameFault (.line number (Text.trim text) (.script (.invalidFor (Text.trim text))))
        (.line number (Text.trim text') (.script (.invalidFor (Text.trim text'))))

/-- Two outcomes are related results, or faults that tell the same. -/
inductive SameOutcome {α β : Type} (R : α → β → Prop) : Except Fault α → Except Fault β → Prop
  | ok {a : α} {b : β} (h : R a b) : SameOutcome R (.ok a) (.ok b)
  | error {fault fault' : Fault} (h : SameFault fault fault') :
      SameOutcome R (.error fault) (.error fault')

namespace SameOutcome

variable {α β γ δ : Type} {R : α → β → Prop} {Q : γ → δ → Prop}

theorem bind {outcome : Except Fault α} {outcome' : Except Fault β} {next : α → Except Fault γ}
    {next' : β → Except Fault δ} (h : SameOutcome R outcome outcome')
    (hnext : ∀ a b, outcome = .ok a → R a b → SameOutcome Q (next a) (next' b)) :
    SameOutcome Q (outcome >>= next) (outcome' >>= next') := by
  cases h with
  | ok h => exact hnext _ _ rfl h
  | error h => exact .error h

theorem map {outcome : Except Fault α} {outcome' : Except Fault β} {f : α → γ} {f' : β → δ}
    (h : SameOutcome R outcome outcome') (hmap : ∀ a b, R a b → Q (f a) (f' b)) :
    SameOutcome Q (outcome.map f) (outcome'.map f') := by
  cases h with
  | ok h => exact .ok (hmap _ _ h)
  | error h => exact .error h

theorem mapM {ε : Type} {step step' : ε → Except Fault γ} (list : List ε)
    (h : ∀ a, SameOutcome (· = ·) (step a) (step' a)) :
    SameOutcome (· = ·) (list.mapM step) (list.mapM step') := by
  induction list with
  | nil => exact .ok rfl
  | cons a list ih =>
      rw [List.mapM_cons, List.mapM_cons]
      refine (h a).bind fun b b' _ hb => ih.bind fun more more' _ hmore => ?_
      cases hb
      cases hmore
      exact .ok rfl

end SameOutcome

section Runs

variable {line line' start start' : Line} {lines lines' rest rest' : List Line} {head : LoopHead}

theorem Line.Respaced.sameFault (h : line.Respaced line') (cause : Fault) :
    SameFault (line.fault cause) (line'.fault cause) := by
  unfold Line.fault
  rw [h.number_eq]
  exact .line h.text _ _

theorem Line.Steady.substitute (h : line.Steady line') (name : Text) (value : Int) :
    (line.substitute name value).Steady (line'.substitute name value) :=
  ⟨⟨h.number_eq, h.text.substitute name value⟩,
    h.text.isSpaced_substitute_eq h.isSpaced_eq name value⟩

theorem Line.Steady.isLoopHead_eq (h : line.Steady line') :
    isLoopHead line'.text = isLoopHead line.text :=
  h.text.isLoopHead_eq h.isSpaced_eq

theorem Line.Respaced.eq_of_isHead (h : line.Respaced line') (hhead : isHead line.text = false) :
    line' = line := by
  obtain ⟨number, text⟩ := line
  obtain ⟨number', text'⟩ := line'
  obtain ⟨hnumber, htext⟩ := h
  rcases htext.eq_or_isHead with heq | ⟨htrue, -⟩
  · exact congrArg₂ Line.mk hnumber heq
  · rw [hhead] at htrue
    cases htrue

theorem loopHead?_respaced (h : line.Respaced line') :
    SameOutcome (· = ·) (loopHead? line) (loopHead? line') := by
  unfold loopHead?
  rcases h.text.ofText_eq with heq | ⟨hread, hread'⟩
  · rw [heq]
    cases LoopHead.ofText line.text with
    | ok found => exact .ok rfl
    | error fault =>
        cases fault with
        | script fault => exact .error (h.sameFault _)
        | _ => exact .error (.refl _)
  · rw [hread, hread']
    unfold Line.fault
    rw [h.number_eq]
    exact .error (.invalidFor h.text line.number)

theorem isHead_of_loopHead? {found : Option LoopHead} (h : loopHead? line = .ok found) :
    isHead line.text = found.isSome := by
  have hread := ofText_of_loopHead? h
  cases found with
  | none => exact isHead_eq_false_iff.mpr hread
  | some head => exact isHead_iff.mpr (by rw [hread]; nofun)

theorem respacedWithin_of_steady (h : List.Forall₂ Line.Steady lines lines') (opened : Nat) :
    RespacedWithin opened lines lines' := by
  induction h generalizing opened with
  | nil => exact .nil opened
  | cons hline _ ih =>
      cases opened with
      | zero => exact .outside hline.toRespaced (ih _)
      | succ opened => exact .inside hline (ih _)

/-- The lines of a loop and those behind it, with other blanks in the heads of loops. -/
def RespacedParts (found found' : List Line × List Line) : Prop :=
  List.Forall₂ Line.Steady found.1 found'.1 ∧ RespacedWithin 0 found.2 found'.2

/-- The search for the end of a loop finds the same lines, whatever blanks the loop itself has. -/
theorem loopBody_respaced {depth : Nat} (hstart : start.Respaced start')
    (h : RespacedWithin (depth + 1) lines lines') :
    SameOutcome RespacedParts (loopBody start head depth lines)
      (loopBody start' head depth lines') := by
  induction lines generalizing depth lines' with
  | nil =>
      cases h
      exact .error (hstart.sameFault _)
  | cons line rest ih =>
      cases h with
      | @inside _ _ line' _ rest' hline hrest =>
          have hwithin {inner : Nat} (hopen : line.openBehind (depth + 1) = inner + 1) :
              SameOutcome RespacedParts (behind [line] (loopBody start head inner rest))
                (behind [line'] (loopBody start' head inner rest')) :=
            (ih (hopen ▸ hrest)).map fun _ _ hfound => ⟨hfound.1.cons hline, hfound.2⟩
          cases hhead : isLoopHead line.text with
          | true =>
              rw [loopBody_head hhead, loopBody_head (hline.isLoopHead_eq.trans hhead)]
              exact hwithin (by simp [Line.openBehind, hhead])
          | false =>
              have hhead' := hline.isLoopHead_eq.trans hhead
              cases hend : loopEnd? line.text with
              | none =>
                  rw [loopBody_plain hhead hend,
                    loopBody_plain hhead' (hline.text.loopEnd?_eq.trans hend)]
                  exact hwithin (by simp [Line.openBehind, hhead, hend])
              | some name =>
                  -- the end of a loop is no head, and stays as it is
                  obtain rfl := hline.eq_of_isHead (isHead_of_loopEnd? (hend ▸ rfl))
                  have hopen : line'.openBehind (depth + 1) = depth := by
                    simp [Line.openBehind, hhead, hend]
                  cases depth with
                  | succ outer =>
                      rw [loopBody_end_inner hhead (hend ▸ rfl),
                        loopBody_end_inner hhead (hend ▸ rfl)]
                      exact hwithin hopen
                  | zero =>
                      rw [loopBody_end_outer hhead hend, loopBody_end_outer hhead hend]
                      cases mismatch? line' head name with
                      | none => exact .ok ⟨.nil, hopen ▸ hrest⟩
                      | some fault => exact .error (.refl fault)

/-- Lines unroll to the same if what is behind the first of them does. -/
theorem unroll_cons_respaced {files : FileTree} {base : Path} (hline : line.Respaced line')
    (hrest : RespacedWithin (line.openBehind 0) rest rest')
    (hshorter : ∀ lines lines', lines.length ≤ rest.length → RespacedWithin 0 lines lines' →
      SameOutcome (· = ·) (unroll files base lines) (unroll files base lines')) :
    SameOutcome (· = ·) (unroll files base (line :: rest))
      (unroll files base (line' :: rest')) := by
  rw [unroll_cons, unroll_cons]
  refine (loopHead?_respaced hline).bind fun found found' hfound heq => ?_
  cases heq
  have hhead := isHead_of_loopHead? hfound
  cases found with
  | none =>
      obtain rfl := hline.eq_of_isHead hhead
      have hopen : line'.openBehind 0 = 0 := by simp [Line.openBehind, hhead]
      dsimp only
      split
      next => exact .error (.refl _)
      next =>
        refine (hshorter rest rest' (Nat.le_refl _) (hopen ▸ hrest)).bind fun _ _ _ hmore => ?_
        cases hmore
        exact .ok rfl
  | some head =>
      have hopen : line.openBehind 0 = 0 + 1 := by simp [Line.openBehind, hhead]
      refine (loopBody_respaced hline (hopen ▸ hrest)).bind fun parts parts' hparts hfound => ?_
      have hlength := length_loopBody hparts
      refine (SameOutcome.mapM _ fun value => ?_).bind fun repeated repeated' _ hrepeated => ?_
      · refine hshorter _ _ (by rw [List.length_map]; omega) (respacedWithin_of_steady ?_ 0)
        exact List.forall₂_map_left_iff.mpr (List.forall₂_map_right_iff.mpr
          (hfound.1.imp fun _ _ h => h.substitute head.name value))
      · cases hrepeated
        refine (hshorter _ _ (by omega) hfound.2).bind fun _ _ _ hmore => ?_
        cases hmore
        exact .ok rfl

/-- Unrolling gives the same lines for other blanks in the heads of loops. -/
theorem unroll_respaced (files : FileTree) (base : Path) (h : RespacedWithin 0 lines lines') :
    SameOutcome (· = ·) (unroll files base lines) (unroll files base lines') := by
  induction hlength : lines.length using Nat.strong_induction_on generalizing lines lines' with
  | _ length ih =>
      cases h with
      | nil =>
          rw [unroll]
          exact .ok rfl
      | @outside line line' rest rest' hline hrest =>
          refine unroll_cons_respaced hline hrest fun more more' hle hmore => ?_
          refine ih more.length ?_ hmore rfl
          rw [← hlength, List.length_cons]
          omega

end Runs

/-- The two tests for the head of a loop agree exactly where a space stands behind its `FOR`. The
end that is found for a loop balances the heads in it exactly where they agree on all of these.
Other blanks in the heads change nothing that comes out, as long as those within a loop begin with a
space where the others do. -/
theorem isLoopHead_iff_isSpaced (files : FileTree) (base : Path) :
    (∀ text, LoopHead.ofText text ≠ .ok none → (isLoopHead text ↔ isSpaced text)) ∧
    (∀ start head lines body behind, loopBody start head 0 lines = .ok (body, behind) →
      (∃ close, lines = body ++ close :: behind ∧ (loopEnd? close.text).isSome) ∧
      (openLoops? 0 body = some 0 ↔
        ∀ line ∈ body, LoopHead.ofText line.text ≠ .ok none → isSpaced line.text)) ∧
    ∀ lines lines', RespacedWithin 0 lines lines' →
      SameOutcome (· = ·) (unroll files base lines) (unroll files base lines') := by
  refine ⟨fun text hhead => ?_, fun start head lines body behind hbody => ⟨exists_close hbody, ?_⟩,
    fun lines lines' => unroll_respaced files base⟩
  · rw [isLoopHead_eq_isSpaced (isHead_iff.mpr hhead)]
  · rw [openLoops?_eq_zero_iff hbody]
    simp only [isHead_iff]

/-- The head of a loop with some blanks behind its `FOR`. -/
def innerHead (gap : Text) : Text := 'F' :: 'O' :: 'R' :: (gap ++ "j = 1 TO 2".toList)

/-- A loop within a loop. -/
def nestedLoops (gap : Text) : List Line := [
  ⟨1, "FOR i = 1 TO 2".toList⟩, ⟨2, innerHead gap⟩, ⟨3, "A%i%%j% = 1".toList⟩, ⟨4, "NEXT".toList⟩,
  ⟨5, "NEXT".toList⟩]

theorem respaced_innerHead {gap gap' : Text} (hne : gap ≠ []) (hne' : gap' ≠ [])
    (hblank : ∀ c ∈ gap, Text.isBlank c) (hblank' : ∀ c ∈ gap', Text.isBlank c) :
    Respaced (innerHead gap) (innerHead gap') := by
  have hread : (headParts? "j = 1 TO 2".toList).isSome := by decide
  exact .head ⟨[], ['F', 'O', 'R'], gap, "j = 1 TO 2".toList, nofun, rfl, hne, hblank,
    'j', " = 1 TO 2".toList, rfl, by decide⟩ hne' hblank' (.inr hread) (.inr hread)

theorem unroll_nestedLoops_tab_behind_space :
    (isLoopHead (innerHead [' ']) ↔ isSpaced (innerHead [' '])) ∧
      (openLoops? 0 ((nestedLoops [' ']).tail.take 3) = some 0 ↔
        ∀ line ∈ (nestedLoops [' ']).tail.take 3,
          LoopHead.ofText line.text ≠ .ok none → isSpaced line.text) ∧
      SameOutcome (· = ·) (unroll ⟨[], []⟩ ⟨[], []⟩ (nestedLoops [' ']))
        (unroll ⟨[], []⟩ ⟨[], []⟩ (nestedLoops [' ', '\t'])) := by
  obtain ⟨hheads, hbodies, houtcome⟩ := isLoopHead_iff_isSpaced ⟨[], []⟩ ⟨[], []⟩
  have hsteady (line : Line) : line.Steady line := ⟨⟨rfl, .refl _⟩, rfl⟩
  have hspace : ∀ c ∈ [' '], Text.isBlank c := List.forall_mem_singleton.mpr (by decide)
  have htab : ∀ c ∈ [' ', '\t'], Text.isBlank c :=
    List.forall_mem_cons.mpr ⟨by decide, List.forall_mem_singleton.mpr (by decide)⟩
  have hinner : Line.Steady ⟨2, innerHead [' ']⟩ ⟨2, innerHead [' ', '\t']⟩ :=
    ⟨⟨rfl, respaced_innerHead (by decide) (by decide) hspace htab⟩, by decide⟩
  have hbehind : List.Forall₂ Line.Steady ((nestedLoops [' ']).drop 2)
      ((nestedLoops [' ', '\t']).drop 2) := List.forall₂_same.mpr fun line _ => hsteady line
  have hlines : List.Forall₂ Line.Steady (nestedLoops [' ']) (nestedLoops [' ', '\t']) :=
    .cons (hsteady _) (.cons hinner hbehind)
  have hbody : loopBody ⟨1, "FOR i = 1 TO 2".toList⟩ ⟨['i'], 1, .value 2⟩ 0
      (nestedLoops [' ']).tail = .ok ((nestedLoops [' ']).tail.take 3, []) := by decide +kernel
  exact ⟨hheads _ (by decide +kernel), (hbodies _ _ _ _ _ hbody).2,
    houtcome _ _ (respacedWithin_of_steady hlines 0)⟩

/-- With a tab, the outer loop is given the end of the inner one. -/
theorem unroll_nestedLoops :
    LoopHead.ofText (innerHead ['\t']) = .ok (some ⟨['j'], 1, .value 2⟩) ∧
      isLoopHead (innerHead ['\t']) = false ∧
      unroll ⟨[], []⟩ ⟨[], []⟩ (nestedLoops [' ']) = .ok [⟨3, "A11 = 1".toList⟩,
        ⟨3, "A12 = 1".toList⟩, ⟨3, "A21 = 1".toList⟩, ⟨3, "A22 = 1".toList⟩] ∧
      unroll ⟨[], []⟩ ⟨[], []⟩ (nestedLoops ['\t']) =
        .error (.line 2 (innerHead ['\t']) (.script (.forWithoutNext ['j']))) := by
  decide +kernel

end MapAlgebra.Script
