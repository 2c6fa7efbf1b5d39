import MapAlgebra.Proofs.Bindings
import MapAlgebra.Proofs.HeadParts
import MapAlgebra.Proofs.Unrolling
import MapAlgebra.Script.Interpreter

/-!
# Plain lines

Values put into the lines of a loop may make heads and ends of loops of them. Still, whatever lines
unrolling begins with, only plain lines are left of them, and it finds nothing to do the second
time.
-/

namespace MapAlgebra.Script

section Plain

variable {text front behind : Text}

theorem isPlain_iff : IsPlain text ↔ isHead text = false ∧ loopEnd? text = none :=
  and_congr_left' isHead_eq_false_iff.symm

/-- The name behind the word that ends a loop, if there is one. -/
def endName? (rest : Text) : Option (Option Text) := do
  if (Text.trimLeft rest).isEmpty then
    return none
  let (name, behind) := Text.span Text.isWord (← dropBlanks? rest)
  if name.isEmpty || !(Text.trimLeft behind).isEmpty then none else some (some name)

theorem loopEnd?_eq (text : Text) : loopEnd? text =
    (dropWord? ['N', 'E', 'X', 'T'] (Text.trimLeft text)).bind endName? := rfl

/-- Blanks, and perhaps a name between them. -/
def IsEndName (rest : Text) : Prop :=
  (∀ c ∈ rest, Text.isBlank c) ∨ ∃ gap name behind : Text, rest = gap ++ (name ++ behind) ∧
    (gap ≠ [] ∧ ∀ c ∈ gap, Text.isBlank c) ∧ (name ≠ [] ∧ ∀ c ∈ name, Text.isWord c) ∧
    ∀ c ∈ behind, Text.isBlank c

theorem isEndName_of_isSome {rest : Text} (h : (endName? rest).isSome) : IsEndName rest := by
  obtain ⟨found, h⟩ := Option.isSome_iff_exists.mp h
  unfold endName? at h
  split at h
  next hblank => exact .inl (List.dropWhile_eq_nil_iff.mp (List.isEmpty_iff.mp hblank))
  next =>
    obtain ⟨named, hnamed, hname⟩ := Option.bind_eq_some_iff.mp h
    obtain ⟨gap, rfl, hne, hgap, -⟩ := dropBlanks?_eq_some_iff.mp hnamed
    generalize hspan : Text.span Text.isWord named = parts at hname
    obtain ⟨name, behind⟩ := parts
    dsimp only at hname
    obtain ⟨rfl, hword, -⟩ := span_eq_iff.mp hspan
    split at hname
    next => cases hname
    next hnonempty =>
      obtain ⟨hnameNonempty, hbehind⟩ : name ≠ [] ∧ Text.trimLeft behind = [] := by
        simpa [not_or] using hnonempty
      exact .inr ⟨gap, name, behind, rfl, ⟨hne, hgap⟩, ⟨hnameNonempty, hword⟩,
        List.dropWhile_eq_nil_iff.mp hbehind⟩

theorem IsEndName.isSome {rest : Text} (h : IsEndName rest) : (endName? rest).isSome := by
  unfold endName?
  split
  next => rfl
  next hnonempty =>
    rcases h with hblank | ⟨gap, name, behind, rfl, ⟨hne, hgap⟩, ⟨hnameNonempty, hname⟩, hbehind⟩
    · exact absurd (List.isEmpty_iff.mpr (List.dropWhile_eq_nil_iff.mpr hblank)) hnonempty
    · have hnamed : dropBlanks? (gap ++ (name ++ behind)) = some (name ++ behind) := by
        refine dropBlanks?_eq_some_iff.mpr ⟨gap, rfl, hne, hgap, fun c hc => ?_⟩
        obtain ⟨d, name, rfl⟩ := List.exists_cons_of_ne_nil hnameNonempty
        cases hc
        exact isBlank_of_isWord (hname c List.mem_cons_self)
      have hspan : Text.span Text.isWord (name ++ behind) = (name, behind) :=
        span_eq_iff.mpr ⟨rfl, hname, fun c hc =>
          isWord_of_isBlank (hbehind c (List.mem_of_head? hc))⟩
      have hnone : (name.isEmpty || !(Text.trimLeft behind).isEmpty) = false := by
        have hempty : Text.trimLeft behind = [] := List.dropWhile_eq_nil_iff.mpr hbehind
        rw [hempty, List.isEmpty_eq_false_iff.mpr hnameNonempty]
        rfl
      rw [hnamed, Option.bind_eq_bind, Option.bind_some, hspan]
      dsimp only
      rw [hnone]
      rfl

/-- A line ends a loop if it has the word `NEXT` and perhaps a name, with blanks around them. -/
theorem isSome_loopEnd?_iff : (loopEnd? text).isSome ↔
    ∃ front word rest : Text, text = front ++ (word ++ rest) ∧ (∀ c ∈ front, Text.isBlank c) ∧
      Text.upperAscii word = ['N', 'E', 'X', 'T'] ∧ IsEndName rest := by
  have hletter : Text.isBlank 'N' = false := by decide
  rw [loopEnd?_eq]
  constructor
  · intro h
    obtain ⟨found, h⟩ := Option.isSome_iff_exists.mp h
    obtain ⟨rest, hword, hname⟩ := Option.bind_eq_some_iff.mp h
    obtain ⟨front, word, htext, hfront, hupper⟩ :=
      (dropWord?_trimLeft_eq_some_iff hletter).mp hword
    exact ⟨front, word, rest, htext, hfront, hupper,
      isEndName_of_isSome (Option.isSome_of_mem hname)⟩
  · rintro ⟨front, word, rest, htext, hfront, hupper, hname⟩
    rw [(dropWord?_trimLeft_eq_some_iff hletter).mpr ⟨front, word, htext, hfront, hupper⟩]
    exact hname.isSome

section Surrounded

variable (hfront : ∀ c ∈ front, Text.isBlank c)
include hfront

theorem isSome_loopParts?_surrounded (hbehind : ∀ c ∈ behind, Text.isBlank c)
    (h : (loopParts? text).isSome) : (loopParts? (front ++ (text ++ behind))).isSome := by
  obtain ⟨front', word, gap, head, last, rfl, hfront', hupper, hne, hgap, hlast⟩ :=
    isSome_loopParts?_iff.mp h
  exact isSome_loopParts?_iff.mpr ⟨front ++ front', word, gap, head, last ++ behind, by simp,
    List.forall_mem_append.mpr ⟨hfront, hfront'⟩, hupper, hne, hgap, hlast.append_blank hbehind⟩

theorem isLoopHead_surrounded (behind : Text) (h : isLoopHead text) :
    isLoopHead (front ++ (text ++ behind)) := by
  obtain ⟨front', word, rest, rfl, hfront', hupper, c, hc, hblank⟩ := isLoopHead_iff.mp h
  exact isLoopHead_iff.mpr ⟨front ++ front', word, rest ++ behind, by simp,
    List.forall_mem_append.mpr ⟨hfront, hfront'⟩, hupper, c, List.mem_append_left _ hc, hblank⟩

theorem isHead_surrounded (hbehind : ∀ c ∈ behind, Text.isBlank c) (h : isHead text) :
    isHead (front ++ (text ++ behind)) := by
  refine Bool.or_eq_true_iff.mpr ((Bool.or_eq_true_iff.mp h).imp ?_ ?_)
  · exact isSome_loopParts?_surrounded hfront hbehind
  · exact isLoopHead_surrounded hfront behind

theorem isSome_loopEnd?_surrounded (hbehind : ∀ c ∈ behind, Text.isBlank c)
    (h : (loopEnd? text).isSome) : (loopEnd? (front ++ (text ++ behind))).isSome := by
  obtain ⟨front', word, rest, rfl, hfront', hupper, hrest⟩ := isSome_loopEnd?_iff.mp h
  refine isSome_loopEnd?_iff.mpr ⟨front ++ front', word, rest ++ behind, by simp,
    List.forall_mem_append.mpr ⟨hfront, hfront'⟩, hupper, ?_⟩
  rcases hrest with hblank | ⟨gap, name, last, rfl, hgap, hname, hlast⟩
  · exact .inl (List.forall_mem_append.mpr ⟨hblank, hbehind⟩)
  · exact .inr ⟨gap, name, last ++ behind, by simp, hgap, hname,
      List.forall_mem_append.mpr ⟨hlast, hbehind⟩⟩

end Surrounded

/-- A plain line is plain without the blanks at its ends. -/
theorem IsPlain.trim (h : IsPlain text) : IsPlain (Text.trim text) := by
  obtain ⟨front, behind, htext, hfront, hbehind⟩ := exists_trim text
  obtain ⟨hhead, hend⟩ := isPlain_iff.mp h
  rw [htext] at hhead hend
  refine isPlain_iff.mpr ⟨?_, ?_⟩
  · by_contra hne
    have htrue := isHead_surrounded hfront hbehind (by simpa using hne)
    rw [hhead] at htrue
    cases htrue
  · by_contra hne
    have hsome := isSome_loopEnd?_surrounded hfront hbehind (Option.isSome_iff_ne_none.mpr hne)
    rw [hend] at hsome
    cases hsome

/-- The statements that are gone once loops are unrolled. -/
def Statement.OfLoop : Statement → Prop
  | .loop _ | .next _ => True
  | _ => False

/-- No plain line is read as the head or the end of a loop. -/
theorem IsPlain.not_ofLoop (h : IsPlain text) {statement : Statement}
    (hread : Statement.ofText text = .ok statement) : ¬ statement.OfLoop := by
  have htrim := h.trim
  unfold Statement.ofText at hread
  dsimp only at hread
  rw [htrim.1, htrim.2] at hread
  split at hread
  next =>
    cases hread
    exact id
  next =>
    split at hread
    next =>
      cases hread
      exact id
    next =>
      dsimp only [bind, Except.bind] at hread
      split at hread
      next =>
        split at hread
        next =>
          cases hread
          exact id
        next => cases hread
      next => cases hread

end Plain

section Unrolling

variable {files : FileTree} {base : Path} {line : Line} {lines rest unrolled : List Line}

theorem bind_eq_ok_iff {α β : Type} {outcome : Except Fault α} {next : α → Except Fault β} {b : β} :
    outcome >>= next = .ok b ↔ ∃ a, outcome = .ok a ∧ next a = .ok b := by
  cases outcome with
  | error fault => exact iff_of_false nofun nofun
  | ok a => exact ⟨fun h => ⟨a, rfl, h⟩, fun ⟨_, ha, h⟩ => by cases ha; exact h⟩

theorem forall₂_of_mapM_eq_ok {α β : Type} {step : α → Except Fault β} {list : List α}
    {results : List β} (h : list.mapM step = .ok results) :
    List.Forall₂ (fun a b => step a = .ok b) list results := by
  induction list generalizing results with
  | nil =>
      cases h
      exact .nil
  | cons a list ih =>
      rw [List.mapM_cons] at h
      obtain ⟨b, hb, h⟩ := bind_eq_ok_iff.mp h
      obtain ⟨more, hmore, h⟩ := bind_eq_ok_iff.mp h
      cases h
      exact .cons hb (ih hmore)

theorem ofText_of_loopHead? {found : Option LoopHead} (h : loopHead? line = .ok found) :
    LoopHead.ofText line.text = .ok found := by
  unfold loopHead? at h
  split at h
  next => cases h
  next => exact h

/-- Lines are unrolled from the first one on. -/
theorem unroll_cons (files : FileTree) (base : Path) (line : Line) (rest : List Line) :
    unroll files base (line :: rest) = do
      match ← loopHead? line with
      | none =>
          if (loopEnd? line.text).isSome then
            throw (line.fault (.script .nextWithoutFor))
          return line :: (← unroll files base rest)
      | some head =>
          let found ← loopBody line head 0 rest
          let repeated ← (head.values files base).mapM fun value =>
            unroll files base (found.1.map (Line.substitute head.name value))
          return repeated.flatten ++ (← unroll files base found.2) := by
  rw [unroll]
  congr 1
  funext found
  cases found with
  | none => rfl
  | some head =>
      dsimp only
      split
      next hbody =>
        rw [hbody]
        rfl
      next hbody =>
        rw [hbody]
        rfl

/-- A line stays if it is plain, and otherwise its loop comes to what the lines in it come to for
each value. -/
theorem unroll_cons_eq_ok (h : unroll files base (line :: rest) = .ok unrolled) :
    (∃ more, IsPlain line.text ∧ unroll files base rest = .ok more ∧ unrolled = line :: more) ∨
      ∃ head body behind repeated more, loopHead? line = .ok (some head) ∧
        loopBody line head 0 rest = .ok (body, behind) ∧
        List.Forall₂ (fun value lines =>
          unroll files base (body.map (Line.substitute head.name value)) = .ok lines)
          (head.values files base) repeated ∧
        unroll files base behind = .ok more ∧ unrolled = repeated.flatten ++ more := by
  rw [unroll_cons] at h
  obtain ⟨found, hhead, h⟩ := bind_eq_ok_iff.mp h
  cases found with
  | none =>
      dsimp only at h
      split at h
      next => cases h
      next hend =>
        obtain ⟨more, hmore, h⟩ := bind_eq_ok_iff.mp h
        cases h
        exact .inl ⟨more, ⟨ofText_of_loopHead? hhead, by simpa using hend⟩, hmore, rfl⟩
  | some head =>
      obtain ⟨⟨body, behind⟩, hbody, h⟩ := bind_eq_ok_iff.mp h
      obtain ⟨repeated, hrepeated, h⟩ := bind_eq_ok_iff.mp h
      obtain ⟨more, hmore, h⟩ := bind_eq_ok_iff.mp h
      cases h
      exact .inr ⟨head, body, behind, repeated, more, hhead, hbody,
        forall₂_of_mapM_eq_ok hrepeated, hmore, rfl⟩

/-- What is left of lines once their loops are unrolled is plain. -/
theorem isPlain_of_unroll (h : unroll files base lines = .ok unrolled) :
    ∀ line ∈ unrolled, IsPlain line.text := by
  induction lines using unroll.induct generalizing unrolled with
  | case1 =>
      rw [unroll] at h
      cases h
      exact List.forall_mem_nil _
  | case2 line rest ihRest ihBody ihBehind =>
      rcases unroll_cons_eq_ok h with ⟨more, hplain, hrest, rfl⟩ |
        ⟨head, body, behind, repeated, more, -, hbody, hrepeated, hbehind, rfl⟩
      · exact List.forall_mem_cons.mpr ⟨hplain, ihRest hrest⟩
      · intro other hother
        rcases List.mem_append.mp hother with hother | hother
        · obtain ⟨list, hlist, hother⟩ := List.mem_flatten.mp hother
          obtain ⟨value, -, hvalue⟩ := exists_of_forall₂ hrepeated hlist
          exact ihBody head body behind hbody value hvalue other hother
        · exact ihBehind head body behind hbody hbehind other hother

/-- Plain lines stay as they are. -/
theorem unroll_of_isPlain (h : ∀ line ∈ lines, IsPlain line.text) :
    unroll files base lines = .ok lines := by
  induction lines with
  | nil => rw [unroll]
  | cons line lines ih =>
      obtain ⟨hline, hlines⟩ := List.forall_mem_cons.mp h
      exact Forest.unroll_plain files base hline (ih hlines)

end Unrolling

/-- A line that is carried out comes from a plain line, and it is a statement of a loop only if
names of the environment have been replaced in it. -/
structure Line.ComesFrom (environment : Environment) (prepared line : Line) : Prop where
  number_eq : prepared.number = line.number
  text_eq : prepared.text = environment.expand line.text
  isPlain : IsPlain line.text
  text_ne : ∀ statement, Statement.ofText prepared.text = .ok statement → statement.OfLoop →
    prepared.text ≠ line.text

theorem IsPlain.comesFrom {line : Line} (h : IsPlain line.text) (environment : Environment) :
    Line.ComesFrom environment { line with text := environment.expand line.text } line where
  number_eq := rfl
  text_eq := rfl
  isPlain := h
  text_ne statement hread hloop heq := by
    dsimp only at hread heq
    rw [heq] at hread
    exact h.not_ofLoop hread hloop

/-- The lines of a script come from plain lines, which are left of it once its loops are
unrolled. -/
theorem comesFrom_of_prepareLines {K V : Type} {plan : Plan K V} {files : FileTree} {source : Text}
    {prepared : List Line} (h : plan.prepareLines files source = .ok prepared) :
    ∃ unrolled, unroll files (plan.settings.base.getD files.currentPath) (readLines source) =
        .ok unrolled ∧ List.Forall₂ (Line.ComesFrom plan.environment) prepared unrolled := by
  unfold Plan.prepareLines at h
  dsimp only at h
  cases hunroll : unroll files (plan.settings.base.getD files.currentPath) (readLines source) with
  | error fault =>
      rw [hunroll] at h
      cases h
  | ok unrolled =>
      rw [hunroll] at h
      cases h
      refine ⟨unrolled, rfl, List.forall₂_map_left_iff.mpr (List.forall₂_same.mpr ?_)⟩
      exact fun line hline => (isPlain_of_unroll hunroll line hline).comesFrom plan.environment

/-- Unrolling fails, or comes to an end with plain lines, which are no statements of loops and which
stay as they are when they are unrolled once more. So it is names of the environment that have made
a statement of a loop of a line that is carried out. -/
theorem unroll_eq_error_or_isPlain {K V : Type} (plan : Plan K V) (files : FileTree) (base : Path)
    (lines : List Line) (source : Text) :
    ((∃ fault, unroll files base lines = .error fault) ∨
      ∃ unrolled, unroll files base lines = .ok unrolled ∧
        (∀ line ∈ unrolled, IsPlain line.text ∧
          ∀ statement, Statement.ofText line.text = .ok statement → ¬ statement.OfLoop) ∧
        unroll files base unrolled = .ok unrolled) ∧
    ((∃ fault, plan.prepareLines files source = .error fault) ∨
      ∃ prepared unrolled, plan.prepareLines files source = .ok prepared ∧
        unroll files (plan.settings.base.getD files.currentPath) (readLines source) = .ok unrolled ∧
        List.Forall₂ (Line.ComesFrom plan.environment) prepared unrolled) := by
  constructor
  · cases hunroll : unroll files base lines with
    | error fault => exact .inl ⟨fault, rfl⟩
    | ok unrolled =>
        have hplain := isPlain_of_unroll hunroll
        exact .inr ⟨unrolled, rfl,
          fun line hline => ⟨hplain line hline, fun _ => (hplain line hline).not_ofLoop⟩,
          unroll_of_isPlain hplain⟩
  · cases hprepared : plan.prepareLines files source with
    | error fault => exact .inl ⟨fault, rfl⟩
    | ok prepared =>
        obtain ⟨unrolled, hunroll, hlines⟩ := comesFrom_of_prepareLines hprepared
        exact .inr ⟨prepared, unrolled, rfl, hunroll, hlines⟩

example : Statement.ofText (Environment.expand [("END".toList, "NEXT".toList)] "%END%".toList) =
    .ok (.next none) := by
  decide +kernel

end MapAlgebra.Script
