import MapAlgebra.Proofs.Marks
import MapAlgebra.Proofs.Spots

/-!
# Names back in place of placeholders

Showing a prepared expression puts the names back that placeholders were put for. Names may hold
operators, and then placeholders may come to stand side by side, but none is broken up by the names
that follow: no name is found in a part of a placeholder, or across the edge of one.
-/

namespace MapAlgebra.Expression

theorem leadingPlaceholder?_of_span {digits rest behind : Text} (hne : digits ≠ [])
    (h : Text.span Text.isDigit rest = (digits, '#' :: behind)) :
    Prepared.leadingPlaceholder? ('#' :: rest) = some ('#' :: digits ++ ['#'], behind) := by
  obtain ⟨digit, digits, rfl⟩ := List.exists_cons_of_ne_nil hne
  unfold Prepared.leadingPlaceholder?
  simp only [h]

/-- A placeholder is shown as what it stands for. -/
theorem expand_placeholder (prepared : Prepared) (index : Nat) (text : Text) :
    prepared.expand (placeholder index ++ text) =
      (prepared.name? (placeholder index)).getD (placeholder index) ++ prepared.expand text := by
  have hdigits : ∀ c ∈ Nat.toDigits 10 index, Text.isDigit c := fun c hc =>
    isDigit_of_isDigit (Nat.isDigit_of_mem_toDigits (by decide) (by decide) hc)
  have hne : Nat.toDigits 10 index ≠ [] := List.ne_nil_of_length_pos Nat.length_toDigits_pos
  have hleading := leadingPlaceholder?_of_span hne
    (Script.span_append_cons hdigits isDigit_mark text)
  have htext : placeholder index ++ text = '#' :: (Nat.toDigits 10 index ++ '#' :: text) := by
    simp [placeholder]
  rw [htext, Prepared.expand]
  split
  next token rest heq =>
    cases heq.symm.trans hleading
    rfl
  next heq => cases heq.symm.trans hleading

/-- A name in ASCII letters without the mark of placeholders. -/
structure IsUnmarkedAscii (name : Text) : Prop where
  nonempty : name ≠ []
  ascii : ∀ c ∈ name, c.toNat < 128
  unmarked : '#' ∉ name

theorem IsUnmarkedAscii.isUnmarked {name : Text} (h : IsUnmarkedAscii name) : IsUnmarked name where
  nonempty := h.nonempty
  letters wanted hwanted := by
    have hascii := h.ascii wanted hwanted
    have hmark : wanted.toUpper = '#' → wanted = '#' :=
      Text.forall_ascii (p := fun c => c.toUpper = '#' → c = '#') (by decide +kernel) hascii
    refine eq_false_of_ne_true fun hsame => h.unmarked ?_
    have hupper : wanted.toUpper = '#' := (Text.sameLetter_iff hascii (by decide)).mp hsame
    exact hmark hupper ▸ hwanted

section Spellings

variable {source name : Text} {names : List Text} {prepared : Prepared} {index : Nat}
variable {spots : List Spot}

/-- The expression with placeholders for the first so many of the names. -/
def preparedUpTo (source : Text) (names : List Text) (count : Nat) : Prepared :=
  Prepared.substituteAll { source, text := Text.squeeze source } (names.take count)

theorem preparedUpTo_succ (source : Text) (h : names[index]? = some name) :
    preparedUpTo source names (index + 1) =
      (preparedUpTo source names index).substitute (placeholder index) name := by
  have hlength : (names.take index).length = index :=
    List.length_take_of_le (List.getElem?_eq_some_iff.mp h).1.le
  unfold preparedUpTo Prepared.substituteAll
  rw [List.take_add_one, h, Option.toList_some, List.zipIdx_append, List.foldl_append, hlength,
    Nat.zero_add]
  rfl

theorem preparedUpTo_length (h : prepare source names = .ok prepared) :
    preparedUpTo source names names.length = prepared := by
  unfold preparedUpTo
  rw [List.take_length, prepare_eq_ok h]

/-- What stands in an expression where a name is found, once the names before it have given way to
placeholders. -/
def Stands (source : Text) (names : List Text) (name spelled : Text) : Prop :=
  ∃ index, names[index]? = some name ∧
    .name spelled ∈ cut name none (preparedUpTo source names index).text

/-- An expression is a text with placeholders in spots of it, each recorded with the name that was
found there. -/
structure Records (source : Text) (names : List Text) (prepared : Prepared) (spots : List Spot) :
    Prop where
  source_eq : sourceOf spots = Text.squeeze source
  shown_eq : shownOf spots = prepared.text
  numbered : ∀ entry ∈ prepared.names, ∃ index, entry.1 = placeholder index ∧
    names[index]? = some entry.2
  recorded : ∀ index spelled, .name index spelled ∈ spots →
    placeholder index ∈ prepared.names.map Prod.fst ∧ ∃ name, names[index]? = some name ∧
      Text.dropCaseless? name spelled = some [] ∧ Stands source names name spelled

namespace Records

/-- Looking for one more name. -/
theorem exists_substitute (h : Records source names (preparedUpTo source names index) spots)
    (hname : IsUnmarked name) (hindex : names[index]? = some name) :
    ∃ after, Records source names (preparedUpTo source names (index + 1)) after := by
  obtain ⟨after, hafter⟩ := exists_recut hname index none spots
  rw [preparedUpTo_succ source hindex]
  unfold Prepared.substitute
  dsimp only
  split
  next =>
    refine ⟨after, hafter.source.trans h.source_eq, h.shown_eq ▸ hafter.shown, ?_, ?_⟩
    · intro entry hentry
      rcases List.mem_append.mp hentry with hentry | hentry
      · exact h.numbered entry hentry
      · rw [List.mem_singleton.mp hentry]
        exact ⟨index, rfl, hindex⟩
    · intro other spelled hspot
      rw [List.map_append]
      rcases hafter.mem _ hspot with hspot | ⟨found, heq, hfound, hmem⟩
      · obtain ⟨hrecorded, hspelled⟩ := h.recorded other spelled hspot
        exact ⟨List.mem_append_left _ hrecorded, hspelled⟩
      · cases heq
        rw [h.shown_eq] at hmem
        exact ⟨List.mem_append_right _ (List.mem_singleton_self _), name, hindex, hfound, index,
          hindex, hmem⟩
  next => exact ⟨spots, h⟩

/-- A placeholder in the text stands for the name that it is numbered by. -/
theorem name?_eq (h : Records source names prepared spots) {spelled : Text}
    (hspot : .name index spelled ∈ spots) :
    prepared.name? (placeholder index) = names[index]? := by
  obtain ⟨hmem, -⟩ := h.recorded index spelled hspot
  obtain ⟨entry, hentry, htoken⟩ := List.mem_map.mp hmem
  obtain ⟨found, hfound⟩ : ∃ found, (prepared.names.find? fun entry =>
      entry.1 == placeholder index) = some found := by
    rw [← Option.isSome_iff_exists, List.find?_isSome]
    exact ⟨entry, hentry, beq_iff_eq.mpr htoken⟩
  obtain ⟨other, hother, hname⟩ := h.numbered found (List.mem_of_find?_eq_some hfound)
  have hsame : found.1 = placeholder index := by simpa using List.find?_some hfound
  rw [← placeholder_injective (hother.symm.trans hsame), hname]
  unfold Prepared.name?
  rw [placeholder_injective (hother.symm.trans hsame), hfound]
  rfl

/-- Where a change of characters makes each name what is spelled there, it makes what is shown the
text as it was. -/
theorem map_expand (h : Records source names prepared spots) (hmark : '#' ∉ source)
    {f : Char → Char} (hsame : ∀ index name spelled, .name index spelled ∈ spots →
      names[index]? = some name → name.map f = spelled.map f) :
    (prepared.expand prepared.text).map f = (Text.squeeze source).map f := by
  have hspots (some : List Spot) (hsub : ∀ spot ∈ some, spot ∈ spots) :
      (prepared.expand (shownOf some)).map f = (sourceOf some).map f := by
    induction some with
    | nil =>
        rw [shownOf_nil, Prepared.expand]
        rfl
    | cons spot rest ih =>
        have hrest := ih fun other hother => hsub other (List.mem_cons_of_mem _ hother)
        have hspot := hsub spot List.mem_cons_self
        rw [shownOf_cons, sourceOf_cons, List.map_append]
        cases spot with
        | char c =>
            have hc : c ≠ '#' := by
              rintro rfl
              have hsource : '#' ∈ sourceOf spots :=
                List.mem_flatMap.mpr ⟨_, hspot, List.mem_singleton_self _⟩
              rw [h.source_eq] at hsource
              exact hmark (List.mem_of_mem_filter hsource)
            rw [Spot.shown, Spot.source, List.singleton_append, expand_cons prepared hc,
              List.map_cons, hrest]
            rfl
        | name index spelled =>
            obtain ⟨-, name, hindex, -⟩ := h.recorded index spelled hspot
            rw [Spot.shown, Spot.source, expand_placeholder, h.name?_eq hspot, hindex,
              List.map_append, hrest, ← hsame index name spelled hspot hindex]
            rfl
  rw [← h.shown_eq, ← h.source_eq]
  exact hspots spots fun _ hspot => hspot

end Records

/-- Every prepared expression is a text with placeholders in spots of it. -/
theorem exists_records (hnames : ∀ name ∈ names, IsUnmarked name)
    (h : prepare source names = .ok prepared) :
    ∃ spots, Records source names prepared spots := by
  have hcount (count : Nat) (hle : count ≤ names.length) :
      ∃ spots, Records source names (preparedUpTo source names count) spots := by
    induction count with
    | zero => exact ⟨(Text.squeeze source).map .char, by simp, by simp; rfl, nofun, by simp⟩
    | succ count ih =>
        obtain ⟨spots, hspots⟩ := ih (Nat.le_of_succ_le hle)
        have hindex : names[count]? = some names[count] := List.getElem?_eq_getElem hle
        exact hspots.exists_substitute (hnames _ (List.getElem_mem hle)) hindex
  rw [← preparedUpTo_length h]
  exact hcount names.length (Nat.le_refl _)

/-- Showing a prepared expression undoes its preparation. The names may be any in ASCII without the
mark of placeholders: they may hold operators, points and blanks, or each other. What is shown is
the expression without its blanks, but that names are spelled as they are bound; and where they are
spelled so in the expression too, it is the same. -/
theorem expand_prepare (hsource : ∀ c ∈ source, c.toNat < 128) (hmark : '#' ∉ source)
    (hnames : ∀ name ∈ names, IsUnmarkedAscii name) (h : prepare source names = .ok prepared) :
    Text.upperAscii (prepared.expand prepared.text) = Text.upperAscii (Text.squeeze source) ∧
      ((∀ name spelled, Stands source names name spelled → spelled = name) →
        prepared.expand prepared.text = Text.squeeze source) := by
  obtain ⟨spots, hspots⟩ := exists_records (fun name hname => (hnames name hname).isUnmarked) h
  constructor
  · refine hspots.map_expand hmark fun index name spelled hspot hindex => ?_
    obtain ⟨-, other, hother, hspelled, -⟩ := hspots.recorded index spelled hspot
    cases hindex.symm.trans hother
    have hascii : ∀ c ∈ spelled, c.toNat < 128 := by
      intro c hc
      have hmem : c ∈ sourceOf spots := List.mem_flatMap.mpr ⟨_, hspot, hc⟩
      rw [hspots.source_eq] at hmem
      exact hsource c (List.mem_of_mem_filter hmem)
    have hname := (hnames name (List.mem_of_getElem? hindex)).ascii
    obtain ⟨front, rfl, hfront⟩ := (Text.dropCaseless?_eq_some_iff hname hascii).mp hspelled
    rw [List.append_nil]
    exact hfront.symm
  · intro hbound
    have hsame := hspots.map_expand hmark (f := id) fun index name spelled hspot hindex => by
      obtain ⟨-, other, hother, -, hstands⟩ := hspots.recorded index spelled hspot
      cases hindex.symm.trans hother
      rw [hbound name spelled hstands]
    rwa [List.map_id, List.map_id] at hsame

/-- A sum as a name, one of its operands, and its sign. -/
def nestedNames : List Text :=
  ["A+B".toList, "A".toList, "+".toList]

/-- The names of the source are bound as they are spelled, and the third one stands between
parentheses. -/
theorem expand_prepare_nested : ∃ prepared,
    prepare "A+B * (+) - A".toList nestedNames = .ok prepared ∧
      prepared.text = "#0#*(#2#)-#1#".toList ∧
      prepared.expand prepared.text = "A+B*(+)-A".toList := by
  have hsource : ∀ c ∈ "A+B * (+) - A".toList, c.toNat < 128 := by simp
  have hnames : ∀ name ∈ nestedNames, IsUnmarkedAscii name := by
    intro name hname
    simp only [nestedNames, List.mem_cons, List.not_mem_nil, or_false] at hname
    rcases hname with rfl | rfl | rfl <;> exact ⟨by decide, by simp, by decide⟩
  obtain ⟨prepared, hprepare, htext⟩ : ∃ prepared,
      prepare "A+B * (+) - A".toList nestedNames = .ok prepared ∧
        prepared.text = "#0#*(#2#)-#1#".toList :=
    ⟨⟨"A+B * (+) - A".toList, "#0#*(#2#)-#1#".toList, [("#0#".toList, "A+B".toList),
      ("#1#".toList, "A".toList), ("#2#".toList, "+".toList)]⟩, by decide +kernel, rfl⟩
  obtain ⟨-, hsame⟩ := expand_prepare hsource (by decide) hnames hprepare
  refine ⟨prepared, hprepare, htext, hsame ?_⟩
  rintro name spelled ⟨index, hindex, hmem⟩
  -- each name is found once, and the spelling there is its own
  have hcuts : ∀ index < 3, ∀ piece ∈ cut (nestedNames.getD index []) none
      (preparedUpTo "A+B * (+) - A".toList nestedNames index).text,
        piece.isName → piece.source = nestedNames.getD index [] := by
    decide +kernel
  have hlt : index < 3 := (List.getElem?_eq_some_iff.mp hindex).1
  have hname : nestedNames.getD index [] = name := by
    rw [List.getD_eq_getElem?_getD, hindex]
    rfl
  have hfound := hcuts index hlt (.name spelled)
  rw [hname] at hfound
  exact hfound hmem rfl

end Spellings

end MapAlgebra.Expression
