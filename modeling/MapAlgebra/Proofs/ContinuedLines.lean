import MapAlgebra.Proofs.Blanks
import MapAlgebra.Script.Line
import Mathlib.Data.List.Forall2
import Mathlib.Data.List.Nodup

/-!
# Continued lines

The physical lines of a script are divided into blocks. In a block all lines but the last one are
continued, and the last one is not, unless the script ends there. Each block makes one line, with
the number of its first physical line and the text of all of them.
-/

namespace MapAlgebra

namespace Text

/-- What ends a line in front of a text. -/
def IsBoundary (boundary rest : Text) : Prop :=
  boundary = ['\r', '\n'] ∨
    ∃ c, boundary = [c] ∧ isLineBreak c ∧ ¬ (c = '\r' ∧ rest.head? = some '\n')

/-- A text with none of the characters that end a line. -/
def IsUnbroken (text : Text) : Prop :=
  ∀ c ∈ text, isLineBreak c = false

/-- The lines of a text. Each ends at a boundary, but perhaps the last one, which then is not
empty. -/
inductive HasLines : Text → List Text → Prop
  | none : HasLines [] []
  | last {line : Text} (hne : line ≠ []) (hline : IsUnbroken line) : HasLines line [line]
  | more {line boundary rest : Text} {lines : List Text} (hline : IsUnbroken line)
      (hboundary : IsBoundary boundary rest) (hrest : HasLines rest lines) :
      HasLines (line ++ (boundary ++ rest)) (line :: lines)

section Lines

variable {text line boundary rest : Text} {physical : List Text}

theorem IsBoundary.exists_cons (h : IsBoundary boundary rest) :
    ∃ c more, boundary = c :: more ∧ isLineBreak c := by
  rcases h with rfl | ⟨c, rfl, hc, -⟩
  · exact ⟨'\r', ['\n'], rfl, by decide⟩
  · exact ⟨c, [], rfl, hc⟩

theorem IsBoundary.skipLineBreak_append (h : IsBoundary boundary rest) :
    skipLineBreak (boundary ++ rest) = rest := by
  rcases h with rfl | ⟨c, rfl, -, hsingle⟩
  · rfl
  · rw [List.singleton_append]
    unfold skipLineBreak
    split
    next heq =>
      cases heq
      exact absurd ⟨rfl, rfl⟩ hsingle
    next heq => cases heq; rfl
    next heq => cases heq

theorem exists_boundary {c : Char} (hc : isLineBreak c) (tail : Text) :
    ∃ boundary rest, c :: tail = boundary ++ rest ∧ IsBoundary boundary rest := by
  by_cases hpair : c = '\r' ∧ tail.head? = some '\n'
  · obtain ⟨rfl, htail⟩ := hpair
    obtain ⟨rest, rfl⟩ := List.head?_eq_some_iff.mp htail
    exact ⟨['\r', '\n'], rest, rfl, .inl rfl⟩
  · exact ⟨[c], tail, rfl, .inr ⟨c, rfl, hc, hpair⟩⟩

theorem lines_of_span (htext : text ≠ [])
    (hspan : span (fun d => !isLineBreak d) text = (line, rest)) :
    lines text = line :: lines (skipLineBreak rest) := by
  obtain ⟨c, tail, rfl⟩ := List.exists_cons_of_ne_nil htext
  obtain ⟨rfl, rfl⟩ := Prod.ext_iff.mp hspan
  rw [lines]
  rfl

theorem lines_of_isUnbroken (hne : text ≠ []) (htext : IsUnbroken text) : lines text = [text] := by
  have hspan : span (fun d => !isLineBreak d) text = (text, []) :=
    Script.span_eq_iff.mpr ⟨(List.append_nil text).symm, fun c hc => by simp [htext c hc], by simp⟩
  rw [lines_of_span hne hspan, skipLineBreak, lines]

theorem lines_append (hline : IsUnbroken line) (hboundary : IsBoundary boundary rest) :
    lines (line ++ (boundary ++ rest)) = line :: lines rest := by
  obtain ⟨c, more, rfl, hc⟩ := hboundary.exists_cons
  have hspan : span (fun d => !isLineBreak d) (line ++ (c :: more ++ rest)) =
      (line, c :: more ++ rest) :=
    Script.span_eq_iff.mpr ⟨rfl, fun d hd => by simp [hline d hd], fun d hd => by
      cases hd
      simp [hc]⟩
  rw [lines_of_span (by simp) hspan, hboundary.skipLineBreak_append]

theorem HasLines.lines_eq (h : HasLines text physical) : lines text = physical := by
  induction h with
  | none => rw [lines]
  | last hne hline => exact lines_of_isUnbroken hne hline
  | more hline hboundary _ ih => rw [lines_append hline hboundary, ih]

/-- Every text has lines. -/
theorem exists_hasLines (text : Text) : ∃ physical, HasLines text physical := by
  obtain ⟨line, behind, hspan⟩ : ∃ line behind,
    span (fun d => !isLineBreak d) text = (line, behind) := ⟨_, _, rfl⟩
  obtain ⟨htext, hline, hbehind⟩ := Script.span_eq_iff.mp hspan
  have hline : IsUnbroken line := fun c hc => by simpa using hline c hc
  cases behind with
  | nil =>
      rw [htext, List.append_nil]
      by_cases hne : line = []
      · exact ⟨[], hne ▸ .none⟩
      · exact ⟨[line], .last hne hline⟩
  | cons c tail =>
      obtain ⟨boundary, rest, hcut, hboundary⟩ :=
        exists_boundary (by simpa using hbehind c rfl) tail
      have hlength : rest.length < text.length := by
        obtain ⟨d, more, rfl, -⟩ := hboundary.exists_cons
        rw [htext, hcut]
        simp only [List.length_append, List.length_cons]
        omega
      obtain ⟨physical, hphysical⟩ := exists_hasLines rest
      rw [htext, hcut]
      exact ⟨line :: physical, .more hline hboundary hphysical⟩
termination_by text.length

theorem lines_eq_iff : lines text = physical ↔ HasLines text physical := by
  constructor
  · rintro rfl
    obtain ⟨physical, h⟩ := exists_hasLines text
    exact h.lines_eq ▸ h
  · exact HasLines.lines_eq

end Lines

end Text

namespace Script

theorem forall₂_iff_map_eq {α β : Type} {R : α → β → Prop} {f : α → β}
    (h : ∀ a b, R a b ↔ f a = b) {xs : List α} {ys : List β} :
    List.Forall₂ R xs ys ↔ xs.map f = ys := by
  obtain rfl : R = fun a b => f a = b := funext₂ fun a b => propext (h a b)
  rw [← List.forall₂_map_left_iff (R := Eq), List.forall₂_eq_eq_eq]

namespace Line

variable {line : Line} {kept : Text}

/-- An underscore ends a physical line behind `kept`, and only blanks may follow it. -/
def Keeps (line : Line) (kept : Text) : Prop :=
  ∃ blanks, line.text = kept ++ '_' :: blanks ∧ ∀ c ∈ blanks, Text.isBlank c

def IsContinued (line : Line) : Prop := ∃ kept, line.Keeps kept

/-- What a physical line gives to the line that it is a part of. -/
inductive Gives (line : Line) : Text → Prop
  | continued {kept : Text} (h : line.Keeps kept) : Gives line kept
  | whole (h : ¬ line.IsContinued) : Gives line line.text

theorem keeps_iff : line.Keeps kept ↔ continued? line.text = some kept := by
  unfold continued?
  constructor
  · rintro ⟨blanks, htext, hblanks⟩
    have htrim : Text.trimRight line.text = kept ++ ['_'] := by
      rw [htext, List.append_cons, trimRight_append_of_blank hblanks,
        trimRight_concat kept (by decide)]
    simp [htrim]
  · intro h
    dsimp only at h
    split at h
    next hlast =>
      obtain ⟨front, hfront⟩ := List.getLast?_eq_some_iff.mp (eq_of_beq hlast)
      rw [hfront, List.dropLast_concat] at h
      cases h
      obtain ⟨blanks, htext, hblanks⟩ := exists_trimRight line.text
      refine ⟨blanks, ?_, hblanks⟩
      rw [List.append_cons, ← hfront]
      exact htext
    next => cases h

theorem continued?_eq_none_iff : continued? line.text = none ↔ ¬ line.IsContinued := by
  unfold IsContinued
  rw [exists_congr fun _ => keeps_iff, ← Option.isSome_iff_exists, Option.not_isSome_iff_eq_none]

def part (line : Line) : Text := (continued? line.text).getD line.text

theorem part_of_keeps (h : line.Keeps kept) : line.part = kept := by
  rw [part, keeps_iff.mp h, Option.getD_some]

theorem part_of_not_isContinued (h : ¬ line.IsContinued) : line.part = line.text := by
  rw [part, continued?_eq_none_iff.mpr h, Option.getD_none]

theorem gives_iff (line : Line) (part : Text) : line.Gives part ↔ line.part = part := by
  constructor
  · intro h
    cases h with
    | continued h => exact part_of_keeps h
    | whole h => exact part_of_not_isContinued h
  · rintro rfl
    by_cases h : line.IsContinued
    · obtain ⟨kept, hkept⟩ := h
      rw [part_of_keeps hkept]
      exact .continued hkept
    · rw [part_of_not_isContinued h]
      exact .whole h

end Line

/-- Consecutive physical lines of a script. -/
structure Block where
  front : List Line
  last : Line

namespace Block

def lines (block : Block) : List Line := block.front ++ [block.last]

def first (block : Block) : Line := block.front.headD block.last

/-- The line that a block makes has the number of its first physical line, and what each of them
gives for its text. -/
structure Makes (block : Block) (line : Line) : Prop where
  number_eq : line.number = block.first.number
  text_eq : ∃ parts, List.Forall₂ Line.Gives block.lines parts ∧ line.text = parts.flatten

def join (block : Block) : Line where
  number := block.first.number
  text := block.lines.flatMap Line.part

theorem makes_iff (block : Block) (line : Line) : block.Makes line ↔ block.join = line := by
  constructor
  · rintro ⟨hnumber, parts, hparts, htext⟩
    obtain rfl := (forall₂_iff_map_eq Line.gives_iff).mp hparts
    unfold join
    rw [List.flatMap_def, ← hnumber, ← htext]
  · rintro rfl
    exact ⟨rfl, _, (forall₂_iff_map_eq Line.gives_iff).mpr rfl, rfl⟩

theorem last_mem_lines (block : Block) : block.last ∈ block.lines :=
  List.mem_append_right _ (List.mem_singleton_self _)

end Block

/-- A division of physical lines into blocks, of which only the last line of all may be continued
at the end of a block. -/
structure Divides (blocks : List Block) (physical : List Line) : Prop where
  flatMap_lines : blocks.flatMap Block.lines = physical
  isContinued_front : ∀ block ∈ blocks, ∀ line ∈ block.front, line.IsContinued
  getLast?_eq : ∀ block ∈ blocks, block.last.IsContinued → physical.getLast? = some block.last

section Blocks

variable {blocks : List Block} {block : Block} {physical front rest : List Line}

/-- Joins physical lines that have their numbers. -/
def joinNumbered (opened : Option Line) : List Line → List Line
  | [] => opened.toList
  | raw :: rest =>
      let line := opened.getD ⟨raw.number, []⟩
      match continued? raw.text with
      | some text => joinNumbered (some { line with text := line.text ++ text }) rest
      | none => { line with text := line.text ++ raw.text } :: joinNumbered none rest

/-- Lines with their numbers, of which the first has the given one. -/
def numbered (number : Nat) : List Text → List Line
  | [] => []
  | raw :: rest => ⟨number, raw⟩ :: numbered (number + 1) rest

theorem joinLines_eq (opened : Option Line) (number : Nat) (raws : List Text) :
    joinLines opened number raws = joinNumbered opened (numbered number raws) := by
  induction raws generalizing opened number with
  | nil => rfl
  | cons raw rest ih =>
      simp only [joinLines, numbered, joinNumbered]
      cases continued? raw with
      | none => exact congrArg _ (ih none (number + 1))
      | some text => exact ih _ (number + 1)

theorem map_number_numbered (number : Nat) (raws : List Text) :
    (numbered number raws).map Line.number = List.range' number raws.length := by
  induction raws generalizing number with
  | nil => rfl
  | cons raw rest ih => rw [numbered, List.map_cons, ih, List.length_cons, List.range'_succ]

theorem nodup_numbered (number : Nat) (raws : List Text) : (numbered number raws).Nodup := by
  apply List.Nodup.of_map Line.number
  rw [map_number_numbered]
  exact List.nodup_range'

/-- Continued lines add their parts to the line that is open, which keeps its number. -/
theorem joinNumbered_front (hfront : ∀ line ∈ front, line.IsContinued) (line : Line) :
    joinNumbered (some line) (front ++ rest) =
      joinNumbered (some { line with text := line.text ++ front.flatMap Line.part }) rest := by
  induction front generalizing line with
  | nil => simp
  | cons raw front ih =>
      obtain ⟨⟨kept, hkept⟩, hfront⟩ := List.forall_mem_cons.mp hfront
      rw [List.cons_append, joinNumbered, Line.keeps_iff.mp hkept]
      dsimp only [Option.getD_some]
      rw [ih hfront, List.flatMap_cons, Line.part_of_keeps hkept, List.append_assoc]

theorem joinNumbered_block (hfront : ∀ line ∈ block.front, line.IsContinued)
    (hlast : block.last.IsContinued → rest = []) :
    joinNumbered none (block.lines ++ rest) = block.join :: joinNumbered none rest := by
  -- The first physical line opens a line with its number, whether it is continued or not.
  have hopen : joinNumbered none (block.lines ++ rest) =
      joinNumbered (some ⟨block.first.number, []⟩) (block.lines ++ rest) := by
    unfold Block.lines Block.first
    cases block.front <;> rfl
  have hjoin : block.join =
      ⟨block.first.number, block.front.flatMap Line.part ++ block.last.part⟩ := by
    unfold Block.join Block.lines
    rw [List.flatMap_append, List.flatMap_singleton]
  rw [hopen, hjoin]
  unfold Block.lines
  rw [List.append_assoc, joinNumbered_front hfront, List.singleton_append, joinNumbered]
  by_cases hcontinued : block.last.IsContinued
  · obtain rfl := hlast hcontinued
    obtain ⟨kept, hkept⟩ := hcontinued
    rw [Line.keeps_iff.mp hkept, Line.part_of_keeps hkept]
    rfl
  · rw [Line.continued?_eq_none_iff.mpr hcontinued, Line.part_of_not_isContinued hcontinued]
    rfl

theorem Divides.of_cons (hnodup : physical.Nodup) (h : Divides (block :: blocks) physical) :
    ∃ rest, physical = block.lines ++ rest ∧ Divides blocks rest ∧
      (block.last.IsContinued → rest = []) := by
  obtain ⟨rfl, hfront, hlast⟩ := h
  obtain ⟨hblock, hblocks⟩ := List.forall_mem_cons.mp hlast
  rw [List.flatMap_cons] at hnodup hblock hblocks
  refine ⟨blocks.flatMap Block.lines, rfl, ⟨rfl, (List.forall_mem_cons.mp hfront).2, ?_⟩, ?_⟩
  · intro other hother hcontinued
    have hmem : other.last ∈ blocks.flatMap Block.lines :=
      List.mem_flatMap.mpr ⟨other, hother, other.last_mem_lines⟩
    rw [← hblocks other hother hcontinued,
      List.getLast?_append_of_ne_nil _ (List.ne_nil_of_mem hmem)]
  · intro hcontinued
    by_contra hne
    -- The last line of all would stand in the first block and behind it.
    have hmem : block.last ∈ blocks.flatMap Block.lines := by
      apply List.mem_of_getLast?
      rw [← hblock hcontinued, List.getLast?_append_of_ne_nil _ hne]
    exact (List.nodup_append.mp hnodup).2.2 _ block.last_mem_lines _ hmem rfl

/-- Joining goes from block to block: behind each of them no line is open. -/
theorem Divides.joinNumbered_eq (hnodup : physical.Nodup) (h : Divides blocks physical) :
    joinNumbered none physical = blocks.map Block.join := by
  induction blocks generalizing physical with
  | nil =>
      obtain rfl : [] = physical := h.flatMap_lines
      rfl
  | cons block blocks ih =>
      obtain ⟨rest, rfl, hrest, hlast⟩ := h.of_cons hnodup
      rw [joinNumbered_block (h.isContinued_front block List.mem_cons_self) hlast,
        ih (List.nodup_append.mp hnodup).2.1 hrest, List.map_cons]

theorem getLast?_cons_eq_some {raw line : Line} (h : rest.getLast? = some line) :
    (raw :: rest).getLast? = some line := by
  rw [List.getLast?_cons, h, Option.getD_some]

theorem Divides.cons (h : Divides blocks rest) {raw : Line} (hraw : raw.IsContinued → rest = []) :
    Divides (⟨[], raw⟩ :: blocks) (raw :: rest) where
  flatMap_lines := by rw [List.flatMap_cons, h.flatMap_lines]; rfl
  isContinued_front := List.forall_mem_cons.mpr ⟨List.forall_mem_nil _, h.isContinued_front⟩
  getLast?_eq := List.forall_mem_cons.mpr ⟨fun hcontinued => by rw [hraw hcontinued]; rfl,
    fun other hother hcontinued => getLast?_cons_eq_some (h.getLast?_eq other hother hcontinued)⟩

theorem Divides.extend (h : Divides (block :: blocks) rest) {raw : Line} (hraw : raw.IsContinued) :
    Divides (⟨raw :: block.front, block.last⟩ :: blocks) (raw :: rest) where
  flatMap_lines := congrArg (raw :: ·) h.flatMap_lines
  isContinued_front := by
    obtain ⟨hblock, hblocks⟩ := List.forall_mem_cons.mp h.isContinued_front
    exact List.forall_mem_cons.mpr ⟨List.forall_mem_cons.mpr ⟨hraw, hblock⟩, hblocks⟩
  getLast?_eq := by
    obtain ⟨hblock, hblocks⟩ := List.forall_mem_cons.mp h.getLast?_eq
    exact List.forall_mem_cons.mpr ⟨fun hcontinued => getLast?_cons_eq_some (hblock hcontinued),
      fun other hother hcontinued => getLast?_cons_eq_some (hblocks other hother hcontinued)⟩

/-- All physical lines can be divided into blocks. -/
theorem exists_divides (physical : List Line) : ∃ blocks, Divides blocks physical := by
  -- A line in front of divided ones goes into their first block if it is continued.
  induction physical with
  | nil => exact ⟨[], rfl, List.forall_mem_nil _, List.forall_mem_nil _⟩
  | cons raw rest ih =>
      obtain ⟨blocks, h⟩ := ih
      by_cases hraw : raw.IsContinued
      · cases blocks with
        | nil => exact ⟨_, h.cons fun _ => h.flatMap_lines.symm⟩
        | cons block blocks => exact ⟨_, h.extend hraw⟩
      · exact ⟨_, h.cons fun hcontinued => absurd hcontinued hraw⟩

theorem Divides.readLines_eq {source : Text} {raws : List Text} (hraws : source.HasLines raws)
    (h : Divides blocks (numbered 1 raws)) : readLines source = blocks.map Block.join := by
  rw [readLines, hraws.lines_eq, joinLines_eq, h.joinNumbered_eq (nodup_numbered 1 raws)]

/-- The lines of a script are what the blocks of its physical lines make, one each and in order. The
blocks follow one another and leave no physical line out. -/
theorem readLines_eq_iff (source : Text) (lines : List Line) :
    readLines source = lines ↔ ∃ raws blocks, source.HasLines raws ∧
      Divides blocks (numbered 1 raws) ∧ List.Forall₂ Block.Makes blocks lines := by
  constructor
  · rintro rfl
    have hraws : source.HasLines (Text.lines source) := Text.lines_eq_iff.mp rfl
    obtain ⟨blocks, hblocks⟩ := exists_divides (numbered 1 (Text.lines source))
    exact ⟨_, blocks, hraws, hblocks,
      (forall₂_iff_map_eq Block.makes_iff).mpr (hblocks.readLines_eq hraws).symm⟩
  · rintro ⟨raws, blocks, hraws, hblocks, hmakes⟩
    rw [hblocks.readLines_eq hraws]
    exact (forall₂_iff_map_eq Block.makes_iff).mp hmakes

/-- A continued line may give nothing, and the end of a script ends a line that is continued. -/
example : readLines "A = 1 + __ \n_\r\n 2\nB = A _\n".toList =
    [⟨1, "A = 1 + _ 2".toList⟩, ⟨4, "B = A ".toList⟩] := by
  decide +kernel

end Blocks

end Script

end MapAlgebra
