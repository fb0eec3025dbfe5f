import Mathlib.Data.List.Perm.Basic
import Sexpr.Files.Tree
import Sexpr.Proofs.Source.Path

/-! File systems: what a path leads to does not depend on how the path is written, nor on the order in
which directories list their entries. -/

namespace Sexpr

/-- A name that an entry of a directory can have. -/
structure IsEntryName (name : String) : Prop extends IsStep name where
  notAbove : name ≠ ".."
  noNull : Char.ofNat 0 ∉ name.toList

namespace FileTree

/-- A tree whose directories have entries with names that differ from each other. -/
inductive Proper : FileTree → Prop
  | file (contents : Except SystemFault ByteArray) : Proper (.file contents)
  | closed (fault : SystemFault) : Proper (.closed fault)
  | directory {entries : List (String × FileTree)}
      (names : ∀ name ∈ entries.map Prod.fst, IsEntryName name)
      (distinct : (entries.map Prod.fst).Nodup) (inner : ∀ entry ∈ entries, entry.2.Proper) :
      Proper (.directory entries)

/-- A tree with the same files under the same names, though directories may list them in another order. -/
inductive Relisted : FileTree → FileTree → Prop
  | same (tree : FileTree) : Relisted tree tree
  | listed {entries others : List (String × FileTree)} (order : entries.Perm others) :
      Relisted (.directory entries) (.directory others)
  | inside {name : String} {tree other : FileTree} (before after : List (String × FileTree))
      (inner : Relisted tree other) :
      Relisted (.directory (before ++ (name, tree) :: after))
        (.directory (before ++ (name, other) :: after))
  | trans {tree between other : FileTree} (first : Relisted tree between)
      (second : Relisted between other) : Relisted tree other

/-- The tree under a name in a directory. -/
def child? (name : String) : FileTree → Option FileTree
  | .directory entries => entries.lookup name
  | _ => none

/-- Where no name occurs twice the tree under a name is that of the entry with this name. -/
theorem lookup_eq_some_iff {entries : List (String × FileTree)} {name : String} {tree : FileTree}
    (distinct : (entries.map Prod.fst).Nodup) :
    entries.lookup name = some tree ↔ (name, tree) ∈ entries := by
  -- A lookup stops at the first entry with the name, and there is only one.
  induction entries with
  | nil => simp
  | cons entry entries ih =>
    obtain ⟨notAmong, others⟩ := List.nodup_cons.mp distinct
    obtain ⟨first, inner⟩ := entry
    by_cases same : name = first
    · -- No other entry has the name of the first one.
      subst same
      have unlisted : (name, tree) ∉ entries := fun member =>
        notAmong (List.mem_map.mpr ⟨_, member, rfl⟩)
      simp [unlisted, eq_comm]
    · rw [List.lookup_cons, beq_false_of_ne same, ih others]
      simp [same]

/-- A tree under a name in a proper directory is proper, and the name is one that an entry can have. -/
theorem Proper.child? {tree inner : FileTree} {name : String} (proper : tree.Proper)
    (found : tree.child? name = some inner) : inner.Proper ∧ IsEntryName name := by
  -- The names are distinct, so looking one up finds its own entry.
  cases proper with
  | file => cases found
  | closed => cases found
  | directory names distinct all =>
    have member := (lookup_eq_some_iff distinct).mp found
    exact ⟨all _ member, names name (List.mem_map.mpr ⟨_, member, rfl⟩)⟩

namespace Relisted

variable {tree other : FileTree}

/-- A tree that has been listed anew is proper if it was. -/
theorem proper (relisted : tree.Relisted other) (proper : tree.Proper) : other.Proper := by
  -- The induction is on the relisting, which changes no name.
  induction relisted with
  | same tree => exact proper
  | listed order =>
    cases proper with
    | directory names distinct inner =>
      exact .directory (fun name member => names name ((order.map Prod.fst).mem_iff.mpr member))
        ((order.map Prod.fst).nodup_iff.mp distinct)
        (fun entry member => inner entry (order.mem_iff.mpr member))
  | @inside name tree other before after _ ih =>
    cases proper with
    | directory names distinct inner =>
      -- The entry that holds the other tree has the same name.
      refine .directory (by simpa using names) (by simpa using distinct) ?_
      simp only [List.forall_mem_append, List.forall_mem_cons] at inner ⊢
      exact ⟨inner.1, ih inner.2.1, inner.2.2⟩
  | trans _ _ ih more => exact more (ih proper)

/-- What is no directory that can be listed cannot be listed anew. -/
theorem of_unlisted (relisted : tree.Relisted other) :
    (∀ entries, tree ≠ .directory entries) → other = tree := by
  -- Only a directory has entries that could come in another order.
  induction relisted with
  | same tree => exact fun _ => rfl
  | listed order => exact fun unlisted => absurd rfl (unlisted _)
  | inside before after _ _ => exact fun unlisted => absurd rfl (unlisted _)
  | trans _ _ ih more =>
    intro unlisted
    obtain rfl := ih unlisted
    exact more unlisted

/-- Listing anew makes a directory of a directory. -/
theorem of_directory (relisted : tree.Relisted other) : (∃ entries, tree = .directory entries) →
    ∃ others, other = .directory others := by
  -- The induction is on the relisting, none of whose steps makes a directory into anything else.
  induction relisted with
  | same tree => exact id
  | listed order => exact fun _ => ⟨_, rfl⟩
  | inside before after _ _ => exact fun _ => ⟨_, rfl⟩
  | trans _ _ ih more => exact fun directory => more (ih directory)

/-- What has been listed anew can be listed as it was. -/
theorem symm (relisted : tree.Relisted other) : other.Relisted tree := by
  -- The induction is on the relisting, each of whose steps goes back as well.
  induction relisted with
  | same tree => exact .same tree
  | listed order => exact .listed order.symm
  | inside before after _ ih => exact .inside before after ih
  | trans _ _ ih more => exact .trans more ih

/-- Under each name the tree of a directory has been listed anew. -/
theorem child? (relisted : tree.Relisted other) (proper : tree.Proper) {name : String}
    {inner : FileTree} (found : tree.child? name = some inner) :
    ∃ again, other.child? name = some again ∧ inner.Relisted again := by
  -- The induction is on the relisting, with the entry left open.
  induction relisted generalizing inner with
  | same tree => exact ⟨inner, found, .same inner⟩
  | @listed entries others order =>
    have properAgain := (listed order).proper proper
    cases proper with
    | directory names distinct all =>
      cases properAgain with
      | directory namesAgain distinctAgain allAgain =>
        -- The same entries are there in either order.
        have member := (lookup_eq_some_iff distinct).mp found
        exact ⟨inner, (lookup_eq_some_iff distinctAgain).mpr (order.mem_iff.mp member), .same inner⟩
  | @inside first tree other before after relisted _ =>
    have properAgain := (inside before after relisted).proper proper
    cases proper with
    | directory names distinct all =>
      cases properAgain with
      | directory namesAgain distinctAgain allAgain =>
        -- Only the tree under one name is another one.
        have member := (lookup_eq_some_iff distinct).mp found
        rcases List.mem_append.mp member with earlier | later
        · exact ⟨inner, (lookup_eq_some_iff distinctAgain).mpr (by simp [earlier]), .same inner⟩
        · rcases List.mem_cons.mp later with here | later
          · cases here
            exact ⟨other, (lookup_eq_some_iff distinctAgain).mpr (by simp), relisted⟩
          · exact ⟨inner, (lookup_eq_some_iff distinctAgain).mpr (by simp [later]), .same inner⟩
  | trans first _ ih more =>
    obtain ⟨between, foundBetween, relistedFirst⟩ := ih proper found
    obtain ⟨again, foundAgain, relistedSecond⟩ := more (first.proper proper) foundBetween
    exact ⟨again, foundAgain, .trans relistedFirst relistedSecond⟩

end Relisted

end FileTree

namespace FileSystem

/-- A file system whose directories are proper. -/
def Proper (system : FileSystem) : Prop := (FileTree.directory system.root).Proper

/-- A file system with the same files, though directories may list their entries in another order. -/
structure Relisted (system other : FileSystem) : Prop where
  root : (FileTree.directory system.root).Relisted (.directory other.root)
  working : other.working = system.working

/-- The same tree, but for the order of entries, or the same fault. -/
inductive SameFound : Except SystemFault FileTree → Except SystemFault FileTree → Prop
  | fault (fault : SystemFault) : SameFound (.error fault) (.error fault)
  | tree {tree other : FileTree} (relisted : tree.Relisted other) (proper : tree.Proper) :
      SameFound (.ok tree) (.ok other)

/-- All that a name can lead to from a directory. -/
theorem follow_directory (above : List FileTree) (entries : List (String × FileTree)) (name : String)
    (names : List String) : follow above (.directory entries) (name :: names) =
      if name == "" || name == "." then follow above (.directory entries) names
      else if name == ".." then follow above.tail (above.headD (.directory entries)) names
      else if longestName < name.utf8ByteSize then .error .nameTooLong
      else ((FileTree.directory entries).child? name).elim (.error .notFound) fun tree =>
        follow (.directory entries :: above) tree names := by
  -- Only above the root there is no parent, and the root stands for it.
  cases above <;> simp only [follow, FileTree.child?] <;> cases entries.lookup name <;> rfl

/-- Names lead to the same tree in whatever order entries are listed on the way. -/
theorem follow_relisted {above aboveAgain : List FileTree} {tree other : FileTree}
    (relisted : tree.Relisted other) (proper : tree.Proper)
    (relistedAbove : List.Forall₂ FileTree.Relisted above aboveAgain)
    (properAbove : ∀ parent ∈ above, parent.Proper) (names : List String) :
    SameFound (follow above tree names) (follow aboveAgain other names) := by
  -- The two walks stay side by side, each with its own directories above it.
  induction names generalizing above aboveAgain tree other with
  | nil =>
    rw [follow, follow]
    exact .tree relisted proper
  | cons name names ih =>
    cases tree with
    | file contents =>
      obtain rfl := relisted.of_unlisted (by simp)
      exact .fault .notDirectory
    | closed fault =>
      obtain rfl := relisted.of_unlisted (by simp)
      exact .fault fault
    | directory entries =>
      obtain ⟨others, rfl⟩ := relisted.of_directory ⟨entries, rfl⟩
      rw [follow_directory, follow_directory]
      split
      · exact ih relisted proper relistedAbove properAbove
      split
      · -- The parent directory may have been listed anew as well.
        cases relistedAbove with
        | nil => exact ih relisted proper .nil (by simp)
        | cons parent more =>
          obtain ⟨properParent, properMore⟩ := List.forall_mem_cons.mp properAbove
          exact ih parent properParent more properMore
      split
      · exact .fault .nameTooLong
      cases looked : (FileTree.directory entries).child? name with
      | none =>
        -- What the other directory has under the name this one would have, too.
        cases lookedAgain : (FileTree.directory others).child? name with
        | none => exact .fault .notFound
        | some inner =>
          obtain ⟨again, here, -⟩ := relisted.symm.child? (relisted.proper proper) lookedAgain
          rw [looked] at here
          cases here
      | some inner =>
        obtain ⟨again, lookedAgain, relistedInner⟩ := relisted.child? proper looked
        rw [lookedAgain]
        exact ih relistedInner (proper.child? looked).1 (.cons relisted relistedAbove)
          (List.forall_mem_cons.mpr ⟨proper, properAbove⟩)

/-- A path text leads to the same tree in whatever order entries are listed. -/
theorem find_relisted {system other : FileSystem} (relisted : system.Relisted other)
    (proper : system.Proper) (text : String) : SameFound (system.find text) (other.find text) := by
  -- The two guards look at the text only, and beyond them the names are followed.
  unfold find
  split
  · exact .fault .notFound
  split
  · exact .fault .nameTooLong
  rw [relisted.working]
  exact follow_relisted relisted.root proper .nil (by simp) _

/-- A text that leads to a directory leads to one in whatever order entries are listed. -/
theorem find_directory_relisted {system other : FileSystem} (relisted : system.Relisted other)
    (proper : system.Proper) {text : String} {entries : List (String × FileTree)}
    (found : system.find text = .ok (.directory entries)) : ∃ others,
      other.find text = .ok (.directory others) ∧
        (FileTree.directory entries).Relisted (.directory others) := by
  -- The same is found in both, and what a directory is relisted as is a directory.
  have same := find_relisted relisted proper text
  rw [found] at same
  generalize other.find text = again at same ⊢
  cases same with
  | tree relistedHere _ =>
    obtain ⟨others, rfl⟩ := relistedHere.of_directory ⟨entries, rfl⟩
    exact ⟨others, rfl, relistedHere⟩

/-- A text leads to a proper tree of a proper file system. -/
theorem proper_of_find {system : FileSystem} (proper : system.Proper) {text : String}
    {tree : FileTree} (found : system.find text = .ok tree) : tree.Proper := by
  -- Following a path in one system is the case of no relisting.
  have same := find_relisted ⟨.same _, rfl⟩ proper text
  rw [found] at same
  cases same with
  | tree _ proper => exact proper

/-- No directory is found from a tree on that is none, or that cannot be entered. -/
theorem follow_unlisted {tree : FileTree} (unlisted : ∀ entries, tree ≠ .directory entries)
    (above : List FileTree) (names : List String) (entries : List (String × FileTree)) :
    follow above tree names ≠ .ok (.directory entries) := by
  -- Without names it stays there, and with any name it fails.
  cases names with
  | nil => simpa [follow] using unlisted entries
  | cons name names =>
    cases tree with
    | directory inner => exact absurd rfl (unlisted inner)
    | file contents => simp [follow]
    | closed fault => simp [follow]

/-- Names that stay where they are make no difference to which directory is found. -/
theorem follow_steps {above : List FileTree} {tree : FileTree} {names : List String}
    {entries : List (String × FileTree)} :
    follow above tree (names.filter fun name => name != "" && name != ".") =
        .ok (.directory entries) ↔
      follow above tree names = .ok (.directory entries) := by
  -- Such names only matter where they fail, as on a file, but behind it there is no directory anyway.
  induction names generalizing above tree with
  | nil => rfl
  | cons name names ih =>
    cases tree with
    | file contents => exact iff_of_false (follow_unlisted (by simp) _ _ _) (follow_unlisted (by simp) _ _ _)
    | closed fault => exact iff_of_false (follow_unlisted (by simp) _ _ _) (follow_unlisted (by simp) _ _ _)
    | directory inner =>
      by_cases stays : (name == "" || name == ".") = true
      · rw [follow_directory, if_pos stays,
          List.filter_cons_of_neg (by simpa [or_iff_not_imp_left] using stays), ih]
      · rw [List.filter_cons_of_pos (by simpa using stays), follow_directory, follow_directory,
          if_neg stays, if_neg stays]
        split
        · exact ih
        split
        · rfl
        cases (FileTree.directory inner).child? name with
        | none => rfl
        | some inner => exact ih

/-- A text that opens with a slash has an anchor, and one with an anchor opens with a slash. -/
theorem opens_iff (chars : List Char) : chars.head? = some '/' ↔ Anchor.ofChars chars ≠ .relative := by
  -- However many slashes open the text, they make some anchor.
  unfold Anchor.ofChars
  split
  · simp
  · simp
  · simp
  · rename_i noSlash
    cases chars with
    | nil => simp
    | cons char rest => simpa using fun same => noSlash rest (by rw [same])

/-- A text leads to a directory just if the names of its path do, from where the path starts. -/
theorem find_directory_iff {system : FileSystem} {text : String} {entries : List (String × FileTree)} :
    system.find text = .ok (.directory entries) ↔
      text ≠ "" ∧ text.utf8ByteSize ≤ longestPath ∧
        follow [] (.directory system.root)
          ((if (Path.ofText text).anchor = .relative
              then system.working.filter fun name => name != "" && name != "." else []) ++
            (Path.ofText text).names) = .ok (.directory entries) := by
  -- The two guards are the first two conditions.
  have opens := opens_iff text.toList
  change _ ↔ (Path.ofText text).anchor ≠ .relative at opens
  unfold find
  by_cases filled : text = ""
  · simp [filled]
  rw [if_neg (by simpa using filled)]
  by_cases long : longestPath < text.utf8ByteSize
  · simp [long, Nat.not_le.mpr long]
  rw [if_neg long, ← follow_steps, List.filter_append]
  simp only [filled, not_false_eq_true, Nat.not_lt.mp long, true_and, ne_eq, slashNames,
    Path.names_ofText]
  -- The names of the path are those that lead on, and its anchor tells where they start.
  by_cases rooted : text.toList.head? = some '/'
  · rw [if_pos rooted, if_neg (opens.mp rooted)]
    rfl
  · rw [if_neg rooted, if_pos (by simpa using mt opens.mpr rooted)]

/-- The directory that a text leads to is found by the text of the path as well. -/
theorem find_ofText {system : FileSystem} {text : String} {entries : List (String × FileTree)}
    (found : system.find text = .ok (.directory entries)) :
    system.find (Path.ofText text).text = .ok (.directory entries) := by
  -- The text of the path is no longer, and names the same path.
  obtain ⟨filled, short, led⟩ := find_directory_iff.mp found
  have same := Path.ofText_text (Path.normal_ofText text)
  refine find_directory_iff.mpr ⟨Path.text_ne_empty (Path.normal_ofText text), ?_, ?_⟩
  · exact Nat.le_trans (Path.utf8ByteSize_text_le filled) short
  · rw [same]
    exact led

/-- No null character is in a name that leads to a tree of a proper file system. -/
theorem noNull_of_follow {above : List FileTree} {tree result : FileTree} {names : List String}
    (proper : tree.Proper) (properAbove : ∀ parent ∈ above, parent.Proper)
    (found : follow above tree names = .ok result) :
    ∀ name ∈ names, Char.ofNat 0 ∉ name.toList := by
  -- A name that leads on is that of an entry, and the others are known.
  induction names generalizing above tree with
  | nil => simp
  | cons name names ih =>
    cases tree with
    | file contents => cases found
    | closed fault => cases found
    | directory entries =>
      rw [follow_directory] at found
      rw [List.forall_mem_cons]
      split at found
      · rename_i stays
        refine ⟨?_, ih proper properAbove found⟩
        rcases (by simpa using stays : name = "" ∨ name = ".") with rfl | rfl <;> decide
      split at found
      · rename_i upwards
        obtain rfl : name = ".." := by simpa using upwards
        refine ⟨by decide, ?_⟩
        -- The directory above is one of the proper ones, or the root itself.
        cases above with
        | nil => exact ih proper properAbove found
        | cons parent more =>
          obtain ⟨properParent, properMore⟩ := List.forall_mem_cons.mp properAbove
          exact ih properParent properMore found
      split at found
      · cases found
      cases looked : (FileTree.directory entries).child? name with
      | none =>
        rw [looked] at found
        cases found
      | some inner =>
        rw [looked] at found
        obtain ⟨properInner, isName⟩ := proper.child? looked
        exact ⟨isName.noNull, ih properInner (List.forall_mem_cons.mpr ⟨proper, properAbove⟩) found⟩

/-- No null character is in a text that leads to a tree of a proper file system. -/
theorem holdsNull_of_find {system : FileSystem} {text : String} {tree : FileTree}
    (proper : system.Proper) (found : system.find text = .ok tree) : holdsNull text = false := by
  -- No entry has the character in its name, and the path was followed to its end.
  unfold find at found
  split at found
  · cases found
  split at found
  · cases found
  have noNull := noNull_of_follow proper (by simp) found
  rw [holdsNull, Bool.eq_false_iff, ne_eq, List.contains_iff_mem]
  intro member
  -- The character would be in one of the names that the text leads along.
  obtain ⟨piece, among, inside⟩ := mem_slashPieces_of_mem member (by decide)
  refine noNull (String.ofList piece) ?_ (by simpa using inside)
  exact List.mem_append_right _ (List.mem_map.mpr ⟨piece, among, rfl⟩)

end FileSystem

end Sexpr
