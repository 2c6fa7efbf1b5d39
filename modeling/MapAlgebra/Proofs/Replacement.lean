import Mathlib.Data.List.SplitBy
import MapAlgebra.Proofs.Mentions

/-!
# Names replaced all at once

The names of a table are looked for one after the other, each in a text with the placeholders of
those before it. The outcome is that of one pass over the text: it is cut into the longest runs of
characters of tokens and the single characters between them, and every run that spells a bound name
gives way to the placeholder of the name, unless a parenthesis opens behind it. The placeholders
that were put in are recorded, each for the binding whose name it replaced.
-/

namespace MapAlgebra

open Script (IsVariable)
open VariableTable (key)

variable {K V S : Type}

/-- The placeholder of the bound name that a run of characters spells. -/
def VariableTable.placeholder? (table : VariableTable K V S) (run : Text) : Option Text :=
  (table.namesLongestFirst.findIdx? fun name => key name == key run).map Expression.placeholder

namespace Expression

/-- The longest runs of characters of tokens and the single characters between them. -/
def runs (text : Text) : List Text :=
  text.splitBy fun c d => isTokenChar c && isTokenChar d

/-- The runs put together again, with tokens in the place of those that have one and stand in front
of no parenthesis. -/
def replaceRuns (token? : Text → Option Text) : List Text → Text
  | [] => []
  | run :: rest =>
      (if rest.head? = some ['('] then run else (token? run).getD run) ++ replaceRuns token? rest

/-- The runs that stand in front of no parenthesis. -/
def freeRuns : List Text → List Text
  | [] => []
  | run :: rest => if rest.head? = some ['('] then freeRuns rest else run :: freeRuns rest

section Runs

variable {items : List Item}

theorem IsWhole.runs_eq {token : Text} (h : IsWhole token) : runs token = [token] := by
  apply List.splitBy_of_isChain h.nonempty
  apply List.Pairwise.isChain
  apply List.pairwise_of_forall_mem_list
  intro c hc d hd
  simp [h.chars c hc, h.chars d hd]

/-- The runs of a text are the texts of its items. -/
theorem Proper.runs_eq (h : Proper items) : runs (flat items) = items.map Item.text := by
  have happend {front back : Text}
      (hbetween : ∀ c ∈ front.getLast?, ∀ d ∈ back.head?,
        (isTokenChar c && isTokenChar d) = false) :
      runs (front ++ back) = runs front ++ runs back := List.splitBy_append hbetween
  induction h with
  | nil => rfl
  | @mark c rest hc _ ih =>
      show runs ([c] ++ flat rest) = [[c]] ++ rest.map Item.text
      rw [happend (by simp [hc]), ih]
      rfl
  | @last spelled hspelled =>
      show runs (spelled ++ []) = [spelled]
      rw [List.append_nil, hspelled.runs_eq]
  | @word spelled c rest hspelled h ih =>
      have hc : isTokenChar c = false := by
        cases h
        assumption
      show runs (spelled ++ flat (.mark c :: rest)) = [spelled] ++ (Item.mark c :: rest).map Item.text
      have hhead : (flat (.mark c :: rest)).head? = some c := rfl
      rw [happend (by simp [hhead, hc]), ih, hspelled.runs_eq]

variable {token? : Text → Option Text}

/-- Filling the free tokens of a text replaces its runs, when nothing is put in the place of a
character between tokens. -/
theorem Proper.flat_fill_eq (h : Proper items)
    (hmark : ∀ c, isTokenChar c = false → .mark c ∈ items → token? [c] = none) :
    flat (items.map (Item.fill fun run => (token? run).getD run)) =
      replaceRuns token? (items.map Item.text) := by
  induction h with
  | nil => rfl
  | @mark c rest hc _ ih =>
      have hrest := ih fun d hd hmem => hmark d hd (List.mem_cons_of_mem _ hmem)
      have hnone := hmark c hc List.mem_cons_self
      simp only [List.map_cons, replaceRuns, ← hrest]
      simp [Item.fill, Item.text, flat, hnone]
  | last => simp [Item.fill, Item.text, flat, replaceRuns]
  | @word spelled c rest hspelled h ih =>
      have hrest := ih fun d hd hmem => hmark d hd (List.mem_cons_of_mem _ hmem)
      simp only [List.map_cons, replaceRuns] at hrest ⊢
      rw [← hrest]
      by_cases hopen : c = '('
      · simp [Item.fill, Item.text, flat, hopen]
      · have hfree : (c != '(') = true := by simpa using hopen
        simp [Item.fill, Item.text, flat, hopen, hfree]

/-- A run that has a token is free where it is a free token of the text. -/
theorem Proper.mem_freeRuns_iff (h : Proper items)
    (hmark : ∀ c, isTokenChar c = false → .mark c ∈ items → token? [c] = none) {run token : Text}
    (htoken : token? run = some token) :
    run ∈ freeRuns (items.map Item.text) ↔ .word run true ∈ items := by
  induction h with
  | nil => simp [freeRuns]
  | @mark c rest hc _ ih =>
      have hrest := ih fun d hd hmem => hmark d hd (List.mem_cons_of_mem _ hmem)
      have hne : run ≠ [c] := by
        rintro rfl
        simp [hmark c hc List.mem_cons_self] at htoken
      rw [List.map_cons, freeRuns]
      split <;> simp [Item.text, hne, hrest]
  | last => simp [freeRuns, Item.text]
  | @word spelled c rest hspelled h ih =>
      have hrest := ih fun d hd hmem => hmark d hd (List.mem_cons_of_mem _ hmem)
      rw [List.map_cons, freeRuns]
      by_cases hopen : c = '('
      · simp [Item.text, hopen] at hrest ⊢
        exact hrest
      · simp [Item.text, hopen] at hrest ⊢
        rw [hrest]

end Runs

section Table

variable {table : VariableTable K V S} {run : Text}

theorem placeholder?_eq_some_iff {token : Text} : table.placeholder? run = some token ↔
    ∃ found, (table.namesLongestFirst.zipIdx.find? fun entry => key entry.1 == key run) =
      some found ∧ token = placeholder found.2 := by
  unfold VariableTable.placeholder?
  rw [List.findIdx?_eq_fst_find?_zipIdx]
  simp [eq_comm]

theorem standIn_eq (table : VariableTable K V S) (run : Text) :
    standIn table.namesLongestFirst.zipIdx run = (table.placeholder? run).getD run := by
  unfold standIn VariableTable.placeholder?
  rw [List.findIdx?_eq_fst_find?_zipIdx]
  cases table.namesLongestFirst.zipIdx.find? fun entry => key entry.1 == key run <;> rfl

theorem key_eq_of_find? {names : List Text} {found : Text × Nat}
    (h : (names.zipIdx.find? fun entry => key entry.1 == key run) = some found) :
    key found.1 = key run := by
  simpa using List.find?_some h

/-- No name is spelled by a character between tokens. -/
theorem placeholder?_eq_none (hnames : ∀ binding ∈ table.bindings, IsVariable binding.name)
    {c : Char} (hascii : c.toNat < 128) (hc : isTokenChar c = false) :
    table.placeholder? [c] = none := by
  rw [Option.eq_none_iff_forall_ne_some]
  intro token htoken
  obtain ⟨found, hfind, -⟩ := placeholder?_eq_some_iff.mp htoken
  obtain ⟨binding, hbinding, hname⟩ :=
    mem_namesLongestFirst.mp (List.fst_mem_of_mem_zipIdx (List.mem_of_find?_eq_some hfind))
  have hvariable := hname ▸ hnames binding hbinding
  have hkey := key_eq_of_find? hfind
  unfold key at hkey
  rw [Text.upper_of_ascii fun d hd => (hvariable.word d hd).1,
    Text.upper_of_ascii (by simpa using hascii)] at hkey
  have hchars := isTokenChar_of_upperAscii_eq hvariable (by simpa using hascii) hkey.symm
  simp [hc] at hchars

theorem isSome_placeholder?_iff :
    (table.placeholder? run).isSome ↔ (table.get? run).isSome := by
  rw [← exists_mem_namesLongestFirst]
  simp [VariableTable.placeholder?]

theorem get?_congr {name : Text} (h : key name = key run) : table.get? name = table.get? run := by
  unfold VariableTable.get?
  rw [h]

/-- Names that are spelled differently have different placeholders. -/
theorem key_eq_of_placeholder? {other token : Text} (hrun : table.placeholder? run = some token)
    (hother : table.placeholder? other = some token) : key run = key other := by
  obtain ⟨found, hfind, rfl⟩ := placeholder?_eq_some_iff.mp hrun
  obtain ⟨found', hfind', heq⟩ := placeholder?_eq_some_iff.mp hother
  have hname := List.mem_zipIdx_iff_getElem?.mp (List.mem_of_find?_eq_some hfind)
  have hname' := List.mem_zipIdx_iff_getElem?.mp (List.mem_of_find?_eq_some hfind')
  rw [← placeholder_injective heq, hname, Option.some.injEq] at hname'
  rw [← key_eq_of_find? hfind, hname', key_eq_of_find? hfind']

section Records

variable {items : List Item} {prepared : Prepared}

/-- No placeholder is recorded twice. -/
theorem Filled.nodup {names : List Text} (h : Filled items names.zipIdx prepared) :
    (prepared.names.map Prod.fst).Nodup := by
  have hnumbers : (names.zipIdx.map Prod.snd).Nodup := by
    simpa using List.nodup_range'
  have hplaceholders := hnumbers.map fun i j => placeholder_injective
  rw [List.map_map] at hplaceholders
  have hordered := h.ordered.map Prod.fst
  rw [List.map_map] at hordered
  exact hordered.nodup hplaceholders

/-- The placeholders of the free tokens that spell a bound name are recorded. -/
theorem Filled.mem_placeholders_iff (h : Filled items table.namesLongestFirst.zipIdx prepared)
    (token : Text) : token ∈ prepared.names.map Prod.fst ↔
      ∃ run, .word run true ∈ items ∧ table.placeholder? run = some token := by
  constructor
  · intro htoken
    obtain ⟨entry, hentry, rfl⟩ := List.mem_map.mp htoken
    obtain ⟨run, found, hmem, hfind, rfl⟩ := h.used entry hentry
    exact ⟨run, hmem, placeholder?_eq_some_iff.mpr ⟨found, hfind, rfl⟩⟩
  · rintro ⟨run, hmem, hplaceholder⟩
    obtain ⟨found, hfind, rfl⟩ := placeholder?_eq_some_iff.mp hplaceholder
    exact List.mem_map_of_mem (h.entry run found hmem hfind)

/-- A recorded placeholder stands for the binding of the name that it replaced. -/
theorem Filled.bind_name?_iff (h : Filled items table.namesLongestFirst.zipIdx prepared)
    (token : Text) (binding : Binding K V S) :
    (prepared.name? token).bind table.get? = some binding ↔
      ∃ run, .word run true ∈ items ∧ table.placeholder? run = some token ∧
        table.get? run = some binding := by
  rw [Option.bind_eq_some_iff]
  constructor
  · rintro ⟨name, hname, hbinding⟩
    obtain ⟨run, found, hmem, hfind, rfl, rfl⟩ := h.name?_eq_some_iff.mp hname
    refine ⟨run, hmem, placeholder?_eq_some_iff.mpr ⟨found, hfind, rfl⟩, ?_⟩
    rw [← get?_congr (key_eq_of_find? hfind), hbinding]
  · rintro ⟨run, hmem, hplaceholder, hbinding⟩
    obtain ⟨found, hfind, rfl⟩ := placeholder?_eq_some_iff.mp hplaceholder
    refine ⟨found.1, h.name?_eq hmem hfind, ?_⟩
    rw [get?_congr (key_eq_of_find? hfind), hbinding]

end Records

/-- Looking for the names of a table one after the other replaces all at once the runs that spell a
bound name and stand in front of no parenthesis. The placeholders that were put in are recorded
once, each for the binding whose name it replaced; exactly the bound names have one, and no two names
share one. -/
theorem substituteAll_eq_replaceRuns (table : VariableTable K V S)
    (hnames : ∀ binding ∈ table.bindings, IsVariable binding.name) (source : Text) {text : Text}
    (hascii : ∀ c ∈ text, c.toNat < 128) {prepared : Prepared}
    (hprepared : prepared = Prepared.substituteAll { source, text } table.namesLongestFirst) :
    prepared.text = replaceRuns table.placeholder? (runs text) ∧
    (prepared.names.map Prod.fst).Nodup ∧
    (∀ token, token ∈ prepared.names.map Prod.fst ↔
      ∃ run ∈ freeRuns (runs text), table.placeholder? run = some token) ∧
    (∀ token binding, (prepared.name? token).bind table.get? = some binding ↔
      ∃ run ∈ freeRuns (runs text),
        table.placeholder? run = some token ∧ table.get? run = some binding) ∧
    (∀ run, (table.placeholder? run).isSome ↔ (table.get? run).isSome) ∧
    ∀ run other token, table.placeholder? run = some token →
      table.placeholder? other = some token → key run = key other := by
  obtain ⟨items, hitems, rfl⟩ := exists_proper text
  have hfilled : Filled items table.namesLongestFirst.zipIdx prepared := by
    rw [hprepared]
    apply filled_substituteAll _ hitems hascii
    intro name hname
    obtain ⟨binding, hbinding, rfl⟩ := mem_namesLongestFirst.mp hname
    exact hnames binding hbinding
  have hmark : ∀ c, isTokenChar c = false → .mark c ∈ items → table.placeholder? [c] = none := by
    intro c hc hmem
    apply placeholder?_eq_none hnames _ hc
    exact hascii c (List.mem_flatMap.mpr ⟨_, hmem, List.mem_singleton_self c⟩)
  have hfree {run token : Text} (htoken : table.placeholder? run = some token) :=
    hitems.mem_freeRuns_iff hmark htoken
  rw [hitems.runs_eq]
  refine ⟨?_, hfilled.nodup, ?_, ?_, fun run => isSome_placeholder?_iff,
    fun run other token => key_eq_of_placeholder?⟩
  · rw [hfilled.text, ← hitems.flat_fill_eq hmark]
    congr 3
    funext run
    exact standIn_eq table run
  · intro token
    rw [hfilled.mem_placeholders_iff]
    refine exists_congr fun run => and_congr_left fun hplaceholder => ?_
    exact (hfree hplaceholder).symm
  · intro token binding
    rw [hfilled.bind_name?_iff]
    refine exists_congr fun run => and_congr_left fun ⟨hplaceholder, _⟩ => ?_
    exact (hfree hplaceholder).symm

/-- Two names of which one begins the other. -/
def nested : VariableTable Float Float Float32 where
  bindings := [{ name := "AB".toList, value := .constant (.of 1) },
    { name := "A".toList, value := .constant (.of 2) }]

/-- A text with the names in both cases, in a file name and in front of a parenthesis. -/
def nestedText : Text := "ab*A+A.idf-AB(a)".toList

theorem substituteAll_nested :
    (∀ binding ∈ nested.bindings, IsVariable binding.name) ∧ (∀ c ∈ nestedText, c.toNat < 128) ∧
    ∃ prepared, prepared = Prepared.substituteAll { source := [], text := nestedText }
        nested.namesLongestFirst ∧
      prepared.text = replaceRuns nested.placeholder? (runs nestedText) ∧
      prepared.text = "#0#*#1#+A.idf-AB(#1#)".toList ∧
      runs nestedText = ["ab", "*", "A", "+", "A.idf", "-", "AB", "(", "a", ")"].map String.toList ∧
      prepared.names.map Prod.fst = ["#0#".toList, "#1#".toList] := by
  have hnames : ∀ binding ∈ nested.bindings, IsVariable binding.name := by decide
  have hascii : ∀ c ∈ nestedText, c.toNat < 128 := by
    have hall : (nestedText.all fun c => c.toNat < 128) = true := by rfl
    simpa using hall
  have horder : nested.namesLongestFirst = ["AB".toList, "A".toList] :=
    List.mergeSort_of_pairwise (by simp [nested])
  refine ⟨hnames, hascii, _, rfl, ?_, ?_, ?_, ?_⟩
  · exact (substituteAll_eq_replaceRuns nested hnames [] hascii rfl).1
  · rw [horder]
    decide +kernel
  · decide
  · rw [horder]
    decide +kernel

end Table

end Expression

end MapAlgebra
