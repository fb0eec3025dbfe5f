import Sexpr.Source.Path

/-! Paths and their texts: the text of a normal path names that path, and what any text names is normal. -/

namespace Sexpr

/-- A name that leads on from a directory, and that stands between two slashes. -/
structure IsStep (name : String) : Prop where
  filled : name ≠ ""
  moves : name ≠ "."
  whole : '/' ∉ name.toList

namespace Path

/-- A path all of whose names lead on. -/
def Normal (path : Path) : Prop := ∀ name ∈ path.names, IsStep name

/-- The path some names below. -/
def descend (path : Path) (names : List String) : Path := { path with names := path.names ++ names }

theorem child_descend (path : Path) (name : String) (names : List String) :
    (path.child name).descend names = path.descend (name :: names) := by
  -- Both append to the same names, one step or several at a time.
  simp [descend, child]

/-- The suffix of a path some names below is that of the last of them. -/
theorem suffix_descend (path : Path) {names : List String} (filled : names ≠ []) :
    (path.descend names).suffix = nameSuffix (names.getLastD "") := by
  -- A list with an entry splits at its last one, and the last name alone gives a path its suffix.
  obtain ⟨others, last, rfl⟩ := List.eq_nil_or_concat names |>.resolve_left filled
  simp [suffix, name, descend]

/-- Below a normal path a name that leads on makes a normal path again. -/
theorem Normal.descend {path : Path} {names : List String} (normal : path.Normal)
    (steps : ∀ name ∈ names, IsStep name) : (path.descend names).Normal := by
  -- A name of the longer path was there before or is one of the steps.
  intro name member
  rcases List.mem_append.mp member with before | behind
  · exact normal name before
  · exact steps name behind

end Path

/-- The pieces between slashes are those of a split at the slashes. -/
theorem slashPieces_eq_splitOn (text : List Char) : slashPieces text = text.splitOn '/' := by
  -- The induction is on the text, and both splits open a new piece at a slash alone.
  rw [List.splitOn_eq_splitOnP]
  induction text with
  | nil => rfl
  | cons char text ih =>
    rw [List.splitOnP_cons_eq_if_modifyHead]
    by_cases slash : char = '/'
    · subst slash
      simp [slashPieces, ih]
    · -- The character goes to the first piece, and a split has at least one.
      rw [slashPieces]
      · rw [ih, if_neg (by simpa using slash)]
        cases split : List.splitOnP (· == '/') text with
        | nil => exact absurd split (List.splitOnP_ne_nil _ text)
        | cons piece pieces => rfl
      · exact slash

/-- No slash is left in a piece. -/
theorem slash_not_mem_of_mem_slashPieces {text piece : List Char} (member : piece ∈ slashPieces text) :
    '/' ∉ piece := by
  -- The induction follows the split, which puts a slash into no piece and ends one at each.
  fun_induction slashPieces text generalizing piece with
  | case1 => simp_all
  | case2 rest ih =>
    rcases List.mem_cons.mp member with rfl | later
    · simp
    · exact ih later
  | case3 char rest notSlash first pieces split ih =>
    rcases List.mem_cons.mp member with rfl | later
    · have others := ih (split ▸ List.mem_cons_self)
      exact fun among => (List.mem_cons.mp among).elim (fun same => notSlash same.symm) others
    · exact ih (split ▸ List.mem_cons_of_mem _ later)
  | case4 char rest notSlash split ih =>
    obtain rfl := List.mem_singleton.mp member
    exact fun among => notSlash (List.mem_singleton.mp among).symm

/-- Every character of a text but the slashes is in one of the pieces between them. -/
theorem mem_slashPieces_of_mem {text : List Char} {char : Char} (member : char ∈ text)
    (noSlash : char ≠ '/') : ∃ piece ∈ slashPieces text, char ∈ piece := by
  -- The induction follows the split, which drops no character but the slashes.
  fun_induction slashPieces text with
  | case1 => cases member
  | case2 rest ih =>
    obtain ⟨piece, among, inside⟩ := ih ((List.mem_cons.mp member).resolve_left noSlash)
    exact ⟨piece, List.mem_cons_of_mem _ among, inside⟩
  | case3 first rest notSlash piece pieces split ih =>
    rcases List.mem_cons.mp member with rfl | later
    · exact ⟨_, List.mem_cons_self, List.mem_cons_self⟩
    · obtain ⟨other, among, inside⟩ := ih later
      -- The piece that opens the rest has the first character in front of it now.
      rcases List.mem_cons.mp (split ▸ among) with rfl | behind
      · exact ⟨_, List.mem_cons_self, List.mem_cons_of_mem _ inside⟩
      · exact ⟨other, List.mem_cons_of_mem _ behind, inside⟩
  | case4 first rest notSlash split ih =>
    rcases List.mem_cons.mp member with rfl | later
    · exact ⟨_, List.mem_cons_self, List.mem_cons_self⟩
    · obtain ⟨other, among, -⟩ := ih later
      rw [split] at among
      cases among

namespace Path

/-- What a text names is a normal path. -/
theorem normal_ofText (text : String) : (ofText text).Normal := by
  -- The names are the pieces that pass the filter, so each is a step for what the filter asks and for having no
  -- slash.
  intro name member
  obtain ⟨among, kept⟩ := List.mem_filter.mp member
  obtain ⟨piece, inside, rfl⟩ := List.mem_map.mp among
  simp only [Bool.and_eq_true, bne_iff_ne] at kept
  exact ⟨kept.1, kept.2, by simpa using slash_not_mem_of_mem_slashPieces inside⟩

/-- The names that a text leads along: those between its slashes that lead on. -/
theorem names_ofText (text : String) : (ofText text).names =
    ((slashPieces text.toList).map String.ofList).filter fun name => name != "" && name != "." := rfl

/-- An anchor in front of a text adds no name. -/
theorem names_ofText_anchored (anchor : Anchor) (chars : List Char) :
    (ofText (String.ofList (anchor.text.toList ++ chars))).names =
      (ofText (String.ofList chars)).names := by
  -- Every slash of the anchor only adds an empty piece.
  cases anchor <;> simp [names_ofText, Anchor.text, slashPieces]

/-- An anchor is found again in front of a text that does not open with a slash. -/
theorem ofChars_anchored (anchor : Anchor) {chars : List Char} (noSlash : chars.head? ≠ some '/') :
    Anchor.ofChars (anchor.text.toList ++ chars) = anchor := by
  -- Only the slashes in front tell the anchor, and the first character behind them is none.
  cases chars with
  | nil => cases anchor <;> rfl
  | cons char chars =>
    have other : char ≠ '/' := by simpa using noSlash
    cases anchor <;> simp [Anchor.ofChars, Anchor.text, other]

/-- Names that lead on, with slashes between, are the names of that text. -/
theorem names_ofText_intercalate {names : List String} (steps : ∀ name ∈ names, IsStep name) :
    (ofText (String.ofList (['/'].intercalate (names.map String.toList)))).names = names := by
  -- No name holds a slash, so splitting the joined names at the slashes finds them again.
  cases names with
  | nil => rfl
  | cons first names =>
    have whole : ∀ piece ∈ (first :: names).map String.toList, '/' ∉ piece := by
      intro piece member
      obtain ⟨name, among, rfl⟩ := List.mem_map.mp member
      exact (steps name among).whole
    rw [names_ofText, String.toList_ofList, slashPieces_eq_splitOn,
      List.splitOn_intercalate '/' whole (by simp), List.map_map]
    -- Each piece is the name that it was, and all names lead on.
    have same : String.ofList ∘ String.toList = id := funext fun _ => String.ofList_toList
    rw [same, List.map_id, List.filter_eq_self]
    intro name member
    simp [(steps name member).filled, (steps name member).moves]

/-- Names that lead on, with slashes between, do not open with a slash. -/
theorem head?_intercalate_ne {names : List String} (steps : ∀ name ∈ names, IsStep name) :
    (['/'].intercalate (names.map String.toList)).head? ≠ some '/' := by
  -- The joined text opens as the first name does, and that one neither is empty nor holds a slash.
  cases names with
  | nil => simp [List.intercalate]
  | cons first names =>
    have step := steps first List.mem_cons_self
    -- The first name is not empty, and its first character is no slash.
    obtain ⟨char, more, same⟩ : ∃ char more, first.toList = char :: more :=
      List.exists_cons_of_ne_nil fun empty => step.filled (String.toList_eq_nil_iff.mp empty)
    have other : char ≠ '/' := fun slash => step.whole (by simp [same, slash])
    cases names with
    | nil => simpa [List.intercalate_singleton, same] using other
    | cons second names => simpa [List.intercalate_cons_cons, same] using other

/-- The text of a path is its anchor and then its names with slashes between, unless it leads nowhere. -/
theorem text_eq {path : Path} (away : path ≠ ⟨.relative, []⟩) : path.text =
    String.ofList (path.anchor.text.toList ++ ['/'].intercalate (path.names.map String.toList)) := by
  -- Every anchor writes its own slashes, and a relative path that has names writes none.
  obtain ⟨anchor, names⟩ := path
  have separator : "/".toList = ['/'] := rfl
  rw [← separator, ← String.toList_intercalate, ← String.toList_append, String.ofList_toList]
  cases anchor with
  | relative =>
    cases names with
    | nil => exact absurd rfl away
    | cons first names => rfl
  | root => rfl
  | doubleRoot => rfl

/-- A normal path is what its text names. -/
theorem ofText_text {path : Path} (normal : path.Normal) : ofText path.text = path := by
  -- A single dot is the text of the path to here alone. Any other text has the anchor and the names in it as
  -- they are.
  by_cases here : path = ⟨.relative, []⟩
  · subst here
    decide
  · have noSlash := head?_intercalate_ne normal
    have anchor : (ofText path.text).anchor = path.anchor := by
      rw [text_eq here]
      exact (congrArg Anchor.ofChars String.toList_ofList).trans (ofChars_anchored _ noSlash)
    have names : (ofText path.text).names = path.names := by
      rw [text_eq here, names_ofText_anchored, names_ofText_intercalate normal]
    calc ofText path.text = ⟨(ofText path.text).anchor, (ofText path.text).names⟩ := rfl
      _ = path := by rw [anchor, names]

/-- The text of a normal path is not empty, as an empty text stands for a path that is written as a dot. -/
theorem text_ne_empty {path : Path} (normal : path.Normal) : path.text ≠ "" := by
  -- The empty text would read back as the path to here, whose text is a dot.
  intro empty
  have same := ofText_text normal
  rw [empty] at same
  rw [← same] at empty
  exact absurd empty (by decide)

end Path

/-- Leaving out some rows leaves out characters of the joined text. -/
theorem intercalate_sublist {separator : List Char} {kept rows : List (List Char)}
    (sub : kept.Sublist rows) : (separator.intercalate kept).Sublist (separator.intercalate rows) := by
  -- The induction is on the sublist. A row that is left out takes one separator with it, so the cases tell
  -- whether another row is there to be separated from.
  induction sub with
  | slnil => exact List.Sublist.refl _
  | @cons kept rows row sub ih =>
    cases rows with
    | nil =>
      obtain rfl := List.sublist_nil.mp sub
      simp [List.intercalate]
    | cons second rows =>
      rw [List.intercalate_cons_cons]
      exact ih.trans (List.sublist_append_right _ _)
  | @cons_cons kept rows row sub ih =>
    cases kept with
    | nil =>
      rw [List.intercalate_singleton]
      cases rows with
      | nil => simp
      | cons second rows => simp [List.intercalate_cons_cons]
    | cons second kept =>
      cases rows with
      | nil => cases sub
      | cons other rows =>
        rw [List.intercalate_cons_cons, List.intercalate_cons_cons]
        exact List.Sublist.append (List.Sublist.refl _) ih

/-- Fewer characters take up no more bytes. -/
theorem utf8ByteSize_le_of_sublist {fewer more : List Char} (sub : fewer.Sublist more) :
    (String.ofList fewer).utf8ByteSize ≤ (String.ofList more).utf8ByteSize := by
  -- The induction is on the sublist, as the size of a text is the sum over its characters.
  induction sub with
  | slnil => exact Nat.le_refl _
  | cons char _ ih =>
    rw [String.ofList_cons, String.utf8ByteSize_append]
    omega
  | cons_cons char _ ih =>
    rw [String.ofList_cons, String.ofList_cons, String.utf8ByteSize_append, String.utf8ByteSize_append]
    omega

namespace Path

/-- The anchor of a text and some of its pieces leave out characters of the text, if none of these pieces
is empty. -/
theorem anchored_sublist (chars : List Char) (keep : List Char → Bool) (filled : keep [] = false) :
    ((Anchor.ofChars chars).text.toList ++
      ['/'].intercalate ((slashPieces chars).filter keep)).Sublist chars := by
  -- All pieces joined are the text itself, and the pieces that are kept are some of them.
  have whole (rest : List Char) : (['/'].intercalate ((slashPieces rest).filter keep)).Sublist rest := by
    have joined : ['/'].intercalate (rest.splitOn '/') = rest := List.intercalate_splitOn '/'
    have fewer : (['/'].intercalate ((slashPieces rest).filter keep)).Sublist
        (['/'].intercalate (slashPieces rest)) := intercalate_sublist List.filter_sublist
    rwa [slashPieces_eq_splitOn, joined, ← slashPieces_eq_splitOn] at fewer
  -- Each slash of the anchor closes an empty piece, which is left out.
  unfold Anchor.ofChars
  split
  · rename_i rest
    have inner := whole ('/' :: '/' :: rest)
    simpa [Anchor.text, slashPieces, filled] using inner.cons_cons '/'
  · rename_i rest notThree
    simpa [Anchor.text, slashPieces, filled] using ((whole rest).cons_cons '/').cons_cons '/'
  · rename_i rest notThree notTwo
    simpa [Anchor.text, slashPieces, filled] using (whole rest).cons_cons '/'
  · simpa [Anchor.text] using whole chars

/-- A path takes up no more bytes than a text that names it, unless that is empty. -/
theorem utf8ByteSize_text_le {text : String} (filled : text ≠ "") :
    (ofText text).text.utf8ByteSize ≤ text.utf8ByteSize := by
  -- What the path writes is a sublist of the text it was read from, except for a dot in place of nothing.
  by_cases here : (ofText text) = ⟨.relative, []⟩
  · -- A single dot is the shortest text that is not empty.
    have positive : text.utf8ByteSize ≠ 0 := fun zero => filled (String.utf8ByteSize_eq_zero_iff.mp zero)
    rw [here]
    change 1 ≤ _
    omega
  · rw [text_eq here]
    have sub := anchored_sublist text.toList
      (fun piece => String.ofList piece != "" && String.ofList piece != ".") rfl
    have pieces : (ofText text).names.map String.toList = (slashPieces text.toList).filter
        fun piece => String.ofList piece != "" && String.ofList piece != "." := by
      rw [names_ofText, List.filter_map, List.map_map,
        show String.toList ∘ String.ofList = id from funext fun _ => String.toList_ofList, List.map_id]
      rfl
    rw [pieces]
    have fewer := utf8ByteSize_le_of_sublist sub
    rwa [String.ofList_toList] at fewer

end Path

end Sexpr
