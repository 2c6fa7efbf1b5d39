import MapAlgebra.Proofs.Agreement
import MapAlgebra.Proofs.Grammar

/-!
# Where tokens are read

A text is read token after token: at its start, behind an operator, and behind the parenthesis or
comma in front of a group or an argument. The tokens of the chain are those that are read so, and
every character of a part that has been read stands in one of them unless it is an operator, a
parenthesis or a comma.
-/

namespace MapAlgebra.Expression

section Ends

variable {wanted text token rest : Text}

/-- What is left behind something that has been read from a text is an end of the text. -/
def LeavesEnd {α : Type} (text : Text) (found : α × Option Text) : Prop :=
  ∀ rest ∈ found.2, rest <:+ text

-- By induction on the length of the text. A term comes before the chain that begins with it and a
-- chain before the arguments that begin with it, as the three share a text.
mutual

theorem leavesEnd_readChain (wanted text : Text) :
    LeavesEnd text (seen (readChain wanted text)) := by
  intro left hleft
  have hterm := leavesEnd_readTerm wanted text
  rw [seen_readChain] at hleft
  rcases hread : seen (readTerm wanted text) with ⟨term, _ | rest⟩
  · rw [hread] at hleft
    cases hleft
  · rw [hread] at hleft hterm
    have hrest := hterm rest rfl
    dsimp only at hleft
    split at hleft
    next =>
      cases hleft
      exact hrest
    next =>
      split at hleft
      next => cases hleft
      next op behind hop =>
        have hlength : behind.length < text.length :=
          (length_leadingOperator? hop).trans_le hrest.length_le
        have hbehind := leavesEnd_readChain wanted behind left hleft
        rw [eq_of_leadingOperator? hop] at hrest
        exact (hbehind.trans (List.suffix_append _ _)).trans hrest
termination_by (text.length, 1)

theorem leavesEnd_readTerm (wanted text : Text) :
    LeavesEnd text (seen (readTerm wanted text)) := by
  intro left hleft
  rcases hread : readToken wanted [] text with ⟨token, rest⟩
  have htext := append_of_readToken hread
  by_cases hopen : ∃ inner, rest = '(' :: inner
  · obtain ⟨inner, rfl⟩ := hopen
    have hinner : inner <:+ text := ⟨token ++ ['('], by simp [htext]⟩
    have hlength : inner.length < text.length := by
      rw [htext, List.length_append, List.length_cons]
      omega
    rw [seen_readTerm_open hread] at hleft
    rcases signedName token with ⟨negated, name⟩
    dsimp only at hleft
    split at hleft
    next =>
      obtain ⟨closed, hclosed, rfl⟩ := Option.map_eq_some_iff.mp hleft
      have hbody := leavesEnd_readChain [')'] inner closed hclosed
      exact ((List.drop_suffix 1 closed).trans hbody).trans hinner
    next =>
      split at hleft
      next =>
        cases hleft
        exact (List.drop_suffix 1 inner).trans hinner
      next => exact (leavesEnd_readArguments inner left hleft).trans hinner
  · rw [seen_readTerm_token hread (not_exists.mp hopen)] at hleft
    split at hleft
    next => cases hleft
    next =>
      cases hleft
      exact ⟨token, htext.symm⟩
termination_by (text.length, 0)

theorem leavesEnd_readArguments (text : Text) :
    LeavesEnd text (seen (readArguments text)) := by
  intro left hleft
  have hchain := leavesEnd_readChain [',', ')'] text
  rw [seen_readArguments] at hleft
  rcases hread : seen (readChain [',', ')'] text) with ⟨first, _ | rest⟩
  · rw [hread] at hleft
    cases hleft
  · rw [hread] at hleft hchain
    have hrest := hchain rest rfl
    dsimp only at hleft
    split at hleft
    next hcomma =>
      obtain ⟨behind, rfl⟩ : ∃ behind, rest = ',' :: behind :=
        List.head?_eq_some_iff.mp (eq_of_beq hcomma)
      have hlength : behind.length < text.length := hrest.length_le
      have hbehind := leavesEnd_readArguments behind left hleft
      exact (hbehind.trans (List.suffix_cons _ _)).trans hrest
    next =>
      cases hleft
      exact (List.drop_suffix 1 rest).trans hrest
termination_by (text.length, 2)

end

end Ends

/-- A token is read at the start of an end of a text, where some characters close what is read: at
the start of the text, behind an operator, and behind the parenthesis or comma in front of a group or
an argument. -/
inductive Visits (whole : Text) : Text → Text → Prop
  | first : Visits whole [] whole
  | operator {wanted text rest behind : Text} {op : Operator} (h : Visits whole wanted text)
      (hterm : (seen (readTerm wanted text)).2 = some rest) (hends : endsChain wanted rest = false)
      (hop : leadingOperator? rest = some (op, behind)) : Visits whole wanted behind
  | group {wanted text token inner : Text} (h : Visits whole wanted text)
      (htoken : readToken wanted [] text = (token, '(' :: inner))
      (hname : (signedName token).2 = []) : Visits whole [')'] inner
  | argument {wanted text token inner : Text} (h : Visits whole wanted text)
      (htoken : readToken wanted [] text = (token, '(' :: inner))
      (hname : (signedName token).2 ≠ []) (hinner : inner.head? ≠ some ')') :
      Visits whole [',', ')'] inner
  | next {text rest : Text} (h : Visits whole [',', ')'] text)
      (hchain : (seen (readChain [',', ')'] text)).2 = some (',' :: rest)) :
      Visits whole [',', ')'] rest

section Due

variable {whole wanted text : Text}

/-- In front of a text there is nothing, or a character that no token takes in. -/
def IsDue (whole text : Text) : Prop :=
  ∃ front, whole = front ++ text ∧ ∀ c ∈ front.getLast?, isPlain c = false

/-- A token is due behind a character that no token takes in. -/
theorem isDue_of_suffix {front : Text} {c : Char} (hc : isPlain c = false)
    (h : c :: text <:+ front) (hfront : front <:+ whole) : IsDue whole text := by
  obtain ⟨before, hbefore⟩ := h.trans hfront
  exact ⟨before ++ [c], by simp [← hbefore], by simp [hc]⟩

/-- Tokens are read where they are due. -/
theorem Visits.isDue (h : Visits whole wanted text) : IsDue whole text ∧ Closes wanted := by
  induction h with
  | first => exact ⟨⟨[], rfl, by simp⟩, by simp [Closes]⟩
  | @operator wanted text rest behind op _ hterm _ hop ih =>
      obtain ⟨⟨front, rfl, -⟩, hcloses⟩ := ih
      have hrest := leavesEnd_readTerm wanted text rest hterm
      rw [eq_of_leadingOperator? hop] at hrest
      obtain ⟨init, last, hsign, hlast⟩ : ∃ init last, op.sign = init ++ [last] ∧
          isPlain last = false := by
        cases op <;> first | exact ⟨[], _, rfl, rfl⟩ | exact ⟨[_], _, rfl, rfl⟩
      have hsuffix : last :: behind <:+ text := by
        refine List.IsSuffix.trans ⟨init, ?_⟩ hrest
        simp [hsign]
      exact ⟨isDue_of_suffix hlast hsuffix (List.suffix_append _ _), hcloses⟩
  | @group wanted text token inner _ htoken _ ih =>
      obtain ⟨⟨front, rfl, -⟩, -⟩ := ih
      exact ⟨isDue_of_suffix (c := '(') rfl ⟨token, (append_of_readToken htoken).symm⟩
        (List.suffix_append _ _), by simp [Closes]⟩
  | @argument wanted text token inner _ htoken _ _ ih =>
      obtain ⟨⟨front, rfl, -⟩, -⟩ := ih
      exact ⟨isDue_of_suffix (c := '(') rfl ⟨token, (append_of_readToken htoken).symm⟩
        (List.suffix_append _ _), closes_argument⟩
  | @next text rest _ hchain ih =>
      obtain ⟨⟨front, rfl, -⟩, hcloses⟩ := ih
      exact ⟨isDue_of_suffix (c := ',') rfl (leavesEnd_readChain _ _ _ hchain)
        (List.suffix_append _ _), hcloses⟩

end Due

/-- A token of a text that is read between what stands in front of it and what is left. -/
def Reads (whole front token rest : Text) : Prop :=
  whole = front ++ (token ++ rest) ∧ ∃ wanted, Visits whole wanted (token ++ rest) ∧
    readToken wanted [] (token ++ rest) = (token, rest)

section Reads

variable {whole : Text}

theorem Visits.exists_reads {wanted text token rest : Text} (h : Visits whole wanted text)
    (hread : readToken wanted [] text = (token, rest)) : ∃ front, Reads whole front token rest := by
  obtain ⟨⟨front, hwhole, -⟩, -⟩ := h.isDue
  have htext := append_of_readToken hread
  exact ⟨front, htext ▸ hwhole, wanted, htext ▸ h, htext ▸ hread⟩

-- By induction on the length of the text, along the places that are visited from it.
mutual

/-- The tokens of a chain are read from the text. -/
theorem Visits.reads_chain {wanted text : Text} (h : Visits whole wanted text) :
    ∀ token ∈ (readChain wanted text).1.tokens, ∃ front rest, Reads whole front token rest := by
  have hterm := h.reads_term
  show ∀ token ∈ (seen (readChain wanted text)).1.tokens, _
  rw [seen_readChain]
  rcases hread : seen (readTerm wanted text) with ⟨term, _ | rest⟩
  · rw [hread] at hterm
    exact hterm
  · rw [hread] at hterm
    dsimp only
    split
    next => exact hterm
    next hends =>
      split
      next => exact hterm
      next op behind hop =>
        have hlength : behind.length < text.length :=
          (length_leadingOperator? hop).trans_le
            (leavesEnd_readTerm wanted text rest (by rw [hread]; rfl)).length_le
        have hbehind := h.operator (by rw [hread]) (eq_false_of_ne_true hends) hop
        intro token htoken
        rcases List.mem_append.mp htoken with htoken | htoken
        · exact hterm token htoken
        · exact hbehind.reads_chain token htoken
termination_by (text.length, 1)

theorem Visits.reads_term {wanted text : Text} (h : Visits whole wanted text) :
    ∀ token ∈ (seen (readTerm wanted text)).1.tokens,
      ∃ front rest, Reads whole front token rest := by
  rcases hread : readToken wanted [] text with ⟨token, rest⟩
  by_cases hopen : ∃ inner, rest = '(' :: inner
  · obtain ⟨inner, rfl⟩ := hopen
    have hlength : inner.length < text.length := by
      rw [append_of_readToken hread, List.length_append, List.length_cons]
      omega
    rw [seen_readTerm_open hread]
    rcases hsigned : signedName token with ⟨negated, name⟩
    dsimp only
    split
    next hname =>
      exact (h.group hread (by rw [hsigned]; exact List.isEmpty_iff.mp hname)).reads_chain
    next hname =>
      split
      next => simp [Term.tokens, Arguments.tokens]
      next hinner =>
        refine (h.argument hread ?_ ?_).reads_arguments
        · rw [hsigned]
          exact fun hnil => hname (List.isEmpty_iff.mpr hnil)
        · exact fun hclose => hinner (by rw [hclose]; rfl)
  · rw [seen_readTerm_token hread (not_exists.mp hopen)]
    split
    next => simp [Term.tokens]
    next =>
      intro other hother
      cases List.mem_singleton.mp hother
      obtain ⟨front, hreads⟩ := h.exists_reads hread
      exact ⟨front, rest, hreads⟩
termination_by (text.length, 0)

theorem Visits.reads_arguments {text : Text} (h : Visits whole [',', ')'] text) :
    ∀ token ∈ (seen (readArguments text)).1.tokens, ∃ front rest, Reads whole front token rest := by
  have hfirst : ∀ token ∈ (seen (readChain [',', ')'] text)).1.tokens, _ := h.reads_chain
  have hsuffix := leavesEnd_readChain [',', ')'] text
  rw [seen_readArguments]
  rcases hread : seen (readChain [',', ')'] text) with ⟨first, _ | rest⟩
  · rw [hread] at hfirst
    simpa [Arguments.tokens] using hfirst
  · rw [hread] at hfirst hsuffix
    dsimp only
    split
    next hcomma =>
      obtain ⟨behind, rfl⟩ : ∃ behind, rest = ',' :: behind :=
        List.head?_eq_some_iff.mp (eq_of_beq hcomma)
      have hlength : behind.length < text.length := (hsuffix _ rfl).length_le
      have hbehind := h.next (by rw [hread])
      intro token htoken
      rcases List.mem_append.mp htoken with htoken | htoken
      · exact hfirst token htoken
      · exact hbehind.reads_arguments token htoken
    next => simpa [Arguments.tokens] using hfirst
termination_by (text.length, 2)

end

end Reads

/-- Of the text between two ends of a whole, each plain character stands in a token that is read. -/
def Covers (whole text rest : Text) : Prop :=
  ∀ c behind, c :: behind <:+ text → rest <:+ behind → isPlain c →
    ∃ front token left, Reads whole front token left ∧ c :: behind <:+ token ++ left ∧
      left <:+ behind

section Covers

variable {whole : Text}

theorem Covers.trans {text middle rest : Text} (h : Covers whole text middle)
    (hmiddle : middle <:+ text) (hrest : Covers whole middle rest) : Covers whole text rest := by
  intro c behind hc hbehind hplain
  rcases List.suffix_or_suffix_of_suffix hc hmiddle with hwithin | hover
  · exact hrest c behind hwithin hbehind hplain
  · rcases List.suffix_cons_iff.mp hover with rfl | hover
    · exact hrest c behind List.suffix_rfl hbehind hplain
    · exact h c behind hc hover hplain

theorem covers_of_not_plain {front : Text} (h : ∀ c ∈ front, isPlain c = false) (rest : Text) :
    Covers whole (front ++ rest) rest := by
  intro c behind ⟨before, hbefore⟩ hbehind hplain
  obtain ⟨more, rfl⟩ := hbehind
  have hfront : before ++ c :: more = front :=
    List.append_cancel_right (show _ ++ rest = _ by rw [← hbefore]; simp)
  cases (h c (by simp [← hfront])).symm.trans hplain

theorem covers_cons {c : Char} (h : isPlain c = false) (rest : Text) :
    Covers whole (c :: rest) rest :=
  covers_of_not_plain (by simpa using h : ∀ d ∈ [c], isPlain d = false) rest

theorem Visits.covers_token {wanted text token rest : Text} (h : Visits whole wanted text)
    (hread : readToken wanted [] text = (token, rest)) : Covers whole text rest := by
  intro c behind hc hbehind _
  obtain ⟨front, hreads⟩ := h.exists_reads hread
  exact ⟨front, token, rest, hreads, append_of_readToken hread ▸ hc, hbehind⟩

theorem endsChain_of_readChain (wanted text : Text) :
    ∀ rest ∈ (seen (readChain wanted text)).2, endsChain wanted rest := by
  have hterm := leavesEnd_readTerm wanted text
  rw [seen_readChain]
  rcases hread : seen (readTerm wanted text) with ⟨term, _ | rest⟩
  · simp
  · rw [hread] at hterm
    dsimp only
    split
    next hends => simpa using hends
    next =>
      split
      next => simp
      next op behind hop =>
        have hlength : behind.length < text.length :=
          (length_leadingOperator? hop).trans_le (hterm rest rfl).length_le
        exact endsChain_of_readChain wanted behind
termination_by text.length

-- By induction on the length of the text, along the places that are visited from it.
mutual

/-- A chain that is read without a break covers the text in front of the rest. -/
theorem Visits.covers_chain {wanted text : Text} (h : Visits whole wanted text) :
    ∀ left ∈ (seen (readChain wanted text)).2, Covers whole text left := by
  have hterm := h.covers_term
  have hsuffix := leavesEnd_readTerm wanted text
  rw [seen_readChain]
  rcases hread : seen (readTerm wanted text) with ⟨term, _ | rest⟩
  · simp
  · rw [hread] at hterm hsuffix
    have hrest := hsuffix rest rfl
    dsimp only
    split
    next => exact hterm
    next hends =>
      split
      next => simp
      next op behind hop =>
        have hlength : behind.length < text.length :=
          (length_leadingOperator? hop).trans_le hrest.length_le
        have hbehind := h.operator (by rw [hread]) (eq_false_of_ne_true hends) hop
        have hsign : Covers whole rest behind :=
          eq_of_leadingOperator? hop ▸ covers_of_not_plain (isPlain_sign op) behind
        intro left hleft
        refine (hterm rest rfl).trans hrest (hsign.trans ?_ (hbehind.covers_chain left hleft))
        exact ⟨op.sign, (eq_of_leadingOperator? hop).symm⟩
termination_by (text.length, 1)

theorem Visits.covers_term {wanted text : Text} (h : Visits whole wanted text) :
    ∀ left ∈ (seen (readTerm wanted text)).2, Covers whole text left := by
  rcases hread : readToken wanted [] text with ⟨token, rest⟩
  have htext := append_of_readToken hread
  have htoken := h.covers_token hread
  by_cases hopen : ∃ inner, rest = '(' :: inner
  · obtain ⟨inner, rfl⟩ := hopen
    have hlength : inner.length < text.length := by
      rw [htext, List.length_append, List.length_cons]
      omega
    have hinner : Covers whole text inner :=
      htoken.trans ⟨token, htext.symm⟩ (covers_cons rfl inner)
    have hsuffix : inner <:+ text := ⟨token ++ ['('], by simp [htext]⟩
    rw [seen_readTerm_open hread]
    rcases hsigned : signedName token with ⟨negated, name⟩
    dsimp only
    split
    next hname =>
      have hbody := h.group hread (by rw [hsigned]; exact List.isEmpty_iff.mp hname)
      intro left hleft
      obtain ⟨closed, hclosed, rfl⟩ := Option.map_eq_some_iff.mp hleft
      obtain ⟨c, behind, rfl, hc⟩ :=
        exists_of_endsChain (endsChain_of_readChain _ _ closed hclosed) (by decide)
      refine hinner.trans hsuffix ((hbody.covers_chain _ hclosed).trans
        (leavesEnd_readChain _ _ _ hclosed) ?_)
      exact covers_cons (by rw [List.mem_singleton.mp hc]; rfl) behind
    next hname =>
      split
      next hclose =>
        obtain ⟨behind, rfl⟩ := List.head?_eq_some_iff.mp (eq_of_beq hclose)
        intro left hleft
        cases hleft
        exact hinner.trans hsuffix (covers_cons rfl behind)
      next hclose =>
        have harguments : Visits whole [',', ')'] inner := by
          refine h.argument hread ?_ fun hhead => hclose (by rw [hhead]; rfl)
          rw [hsigned]
          exact fun hnil => hname (List.isEmpty_iff.mpr hnil)
        intro left hleft
        exact hinner.trans hsuffix (harguments.covers_arguments left hleft)
  · rw [seen_readTerm_token hread (not_exists.mp hopen)]
    split
    next => simp
    next => simpa using htoken
termination_by (text.length, 0)

theorem Visits.covers_arguments {text : Text} (h : Visits whole [',', ')'] text) :
    ∀ left ∈ (seen (readArguments text)).2, Covers whole text left := by
  have hchain := h.covers_chain
  have hsuffix := leavesEnd_readChain [',', ')'] text
  have hends := endsChain_of_readChain [',', ')'] text
  rw [seen_readArguments]
  rcases hread : seen (readChain [',', ')'] text) with ⟨first, _ | rest⟩
  · simp
  · rw [hread] at hchain hsuffix hends
    obtain ⟨c, behind, rfl, hc⟩ := exists_of_endsChain (hends _ rfl) (by simp)
    have hbehind : Covers whole text behind :=
      (hchain _ rfl).trans (hsuffix _ rfl) (covers_cons (closes_argument.not_plain c hc) behind)
    dsimp only
    split
    next hcomma =>
      obtain rfl : c = ',' := by simpa using hcomma
      have hlength : behind.length < text.length := (hsuffix _ rfl).length_le
      have hnext := h.next (by rw [hread])
      intro left hleft
      exact hbehind.trans ((List.suffix_cons _ _).trans (hsuffix _ rfl))
        (hnext.covers_arguments left hleft)
    next => simpa using hbehind
termination_by (text.length, 2)

end

end Covers

end MapAlgebra.Expression
