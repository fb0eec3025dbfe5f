import Mathlib.Data.List.Perm.Basic
import Mathlib.Tactic.Choose
import Sexpr.Files.Sources
import Sexpr.Proofs.Files.Tree

/-! Source files below a directory: all of them, each of them once, and in an order that does not depend on
how directories list their entries. -/

namespace Sexpr

/-- The order of files below a directory, given by the names that lead to them: its own files come first,
by name, and then its subdirectories, by name, in each of which the files come in the same order. -/
inductive ComesBefore : (names others : List String) → Prop
  | files {name other : String} (less : name < other) : ComesBefore [name] [other]
  | fileFirst (name directory next : String) (rest : List String) :
      ComesBefore [name] (directory :: next :: rest)
  | directories {name other : String} (less : name < other) (next second : String)
      (rest behind : List String) : ComesBefore (name :: next :: rest) (other :: second :: behind)
  | inside (directory : String) {names others : List String} (before : ComesBefore names others) :
      ComesBefore (directory :: names) (directory :: others)

/-- No name comes before nothing. -/
theorem ComesBefore.ne_nil {names others : List String} (before : ComesBefore names others) :
    names ≠ [] ∧ others ≠ [] := by
  -- Every clause of the order speaks of paths with a name.
  cases before <;> simp

/-- Of two files only one comes before the other. -/
theorem ComesBefore.asymm {names others : List String} (before : ComesBefore names others) :
    ¬ ComesBefore others names := by
  -- Each clause of the order is told apart from its reverse by the names that come first.
  induction before with
  | files less =>
    intro after
    cases after with
    | files more => exact String.lt_asymm less more
    | inside _ nothing => exact nothing.ne_nil.1 rfl
  | fileFirst name directory next rest =>
    intro after
    cases after with
    | inside _ nothing => exact nothing.ne_nil.2 rfl
  | directories less next second rest behind =>
    intro after
    cases after with
    | directories more => exact String.lt_asymm less more
    | inside => exact String.lt_irrefl _ less
  | inside directory before ih =>
    intro after
    cases after with
    | files more => exact String.lt_irrefl _ more
    | fileFirst => exact before.ne_nil.2 rfl
    | directories more => exact String.lt_irrefl _ more
    | inside _ after => exact ih after

namespace FileTree

/-- The files below a tree, with the names that lead to them and what is in them. -/
inductive Holds : FileTree → List String → Except SystemFault ByteArray → Prop
  | own {entries : List (String × FileTree)} {name : String}
      {contents : Except SystemFault ByteArray}
      (member : (name, .file contents) ∈ entries) : Holds (.directory entries) [name] contents
  | inside {entries : List (String × FileTree)} {name : String} {tree : FileTree}
      {names : List String} {contents : Except SystemFault ByteArray} (member : (name, tree) ∈ entries)
      (held : tree.Holds names contents) : Holds (.directory entries) (name :: names) contents

/-- At least one name leads to a file below a tree. -/
theorem Holds.ne_nil {tree : FileTree} {names : List String} {contents : Except SystemFault ByteArray}
    (held : tree.Holds names contents) : names ≠ [] := by
  -- A file has a name where it is.
  cases held <;> simp

/-- The names that lead to a file below a proper tree are those of entries. -/
theorem Holds.isEntryName {tree : FileTree} {names : List String} {contents : Except SystemFault ByteArray}
    (held : tree.Holds names contents) (proper : tree.Proper) : ∀ name ∈ names, IsEntryName name := by
  -- The induction is on where the file is held, one directory after the other.
  induction held with
  | own member =>
    cases proper with
    | directory isEntryName _ _ => simpa using isEntryName _ (List.mem_map_of_mem member)
  | inside member _ ih =>
    cases proper with
    | directory isEntryName _ inner =>
      exact List.forall_mem_cons.mpr
        ⟨isEntryName _ (List.mem_map_of_mem member), ih (inner _ member)⟩

/-- The same files are below a tree in whatever order its directories list their entries. -/
theorem Relisted.holds {tree other : FileTree} (relisted : tree.Relisted other) {names : List String}
    {contents : Except SystemFault ByteArray} : tree.Holds names contents → other.Holds names contents := by
  -- The induction is on the relisting, with the names left open.
  induction relisted generalizing names with
  | same tree => exact id
  | listed order =>
    intro held
    cases held with
    | own member => exact .own (order.mem_iff.mp member)
    | inside member held => exact .inside (order.mem_iff.mp member) held
  | @inside name tree other before after relisted ih =>
    intro held
    -- All entries are those that there were, but for the one that has been listed anew.
    cases held with
    | own member =>
      rcases List.mem_append.mp member with earlier | later
      · exact .own (by simp [earlier])
      · rcases List.mem_cons.mp later with same | later
        · cases same
          cases relisted.of_unlisted (by simp)
          exact .own (by simp)
        · exact .own (by simp [later])
    | inside member held =>
      rcases List.mem_append.mp member with earlier | later
      · exact .inside (by simp [earlier]) held
      · rcases List.mem_cons.mp later with same | later
        · cases same
          exact .inside (by simp) (ih held)
        · exact .inside (by simp [later]) held
  | trans _ _ ih more => exact fun held => more (ih held)

/-- Whether an entry is a file. -/
def isFile : String × FileTree → Bool
  | (_, .file _) => true
  | _ => false

end FileTree

section

variable {α β : Type}

/-- Sorting keeps the entries. -/
theorem sortByName_perm (entries : List (String × α)) : (sortByName entries).Perm entries :=
  -- Sorting changes the order alone.
  List.mergeSort_perm entries _

/-- Entries that differ in their names are sorted into ascending order. -/
theorem sortByName_pairwise {entries : List (String × α)} (distinct : (entries.map Prod.fst).Nodup) :
    (sortByName entries).Pairwise fun entry other => entry.1 < other.1 := by
  -- Sorting puts the names into ascending order, and no two of them are the same.
  have ascending : (sortByName entries).Pairwise fun entry other =>
      decide (entry.1 ≤ other.1) = true := by
    apply List.pairwise_mergeSort
    · intro first second third less more
      simp only [decide_eq_true_eq] at less more ⊢
      exact String.le_trans less more
    · intro first second
      simpa using String.le_total first.1 second.1
  have differ : (sortByName entries).Pairwise fun entry other => entry.1 ≠ other.1 :=
    List.pairwise_map.mp (((sortByName_perm entries).map Prod.fst).nodup_iff.mpr distinct)
  refine (ascending.and differ).imp fun {entry other} both => ?_
  by_contra notLess
  exact both.2 (String.le_antisymm (by simpa using both.1) notLess)

/-- Sorting looks at names alone, so what stands beside them can be changed before or afterwards. -/
theorem sortByName_map (change : String × α → β) (entries : List (String × α)) :
    sortByName (entries.map fun entry => (entry.1, change entry)) =
      (sortByName entries).map fun entry => (entry.1, change entry) := by
  -- The names stay as they are, so the order does.
  unfold sortByName
  rw [List.map_mergeSort]
  exact fun _ _ _ _ => rfl

end

namespace FileTree

/-- The files among entries, with their paths. -/
theorem files_eq (path : Path) (entries : List (String × FileTree)) :
    files path entries =
      (entries.filter isFile).map fun entry => (entry.1, path.child entry.1) := by
  -- What is left out of the row is just what is no file.
  rw [files, ← List.filterMap_eq_map, List.filterMap_filter]
  apply List.filterMap_congr
  intro entry _
  obtain ⟨name, tree⟩ := entry
  cases tree <;> rfl

/-- The subdirectories among entries, with the files in them. -/
theorem subSources_eq (suffix : String) (path : Path) (entries : List (String × FileTree)) :
    subSources suffix path entries = (entries.filter (!isFile ·)).map fun entry =>
      (entry.1, entry.2.sources suffix (path.child entry.1)) := by
  -- The induction is on the entries, of which files are passed over.
  induction entries with
  | nil => rw [subSources, List.filter_nil, List.map_nil]
  | cons entry entries ih =>
    obtain ⟨name, tree⟩ := entry
    cases tree with
    | file contents => rw [subSources, ih, List.filter_cons_of_neg (by simp [isFile])]
    | closed fault =>
      rw [subSources, ih, List.filter_cons_of_pos (by simp [isFile]), List.map_cons, sources]
    | directory inner => rw [subSources, ih, List.filter_cons_of_pos (by simp [isFile]), List.map_cons]

/-- The files with a suffix among entries, by name. -/
def ownFiles (suffix : String) (entries : List (String × FileTree)) : List (String × FileTree) :=
  (sortByName (entries.filter isFile)).filter fun entry => nameSuffix entry.1 == suffix

/-- The subdirectories among entries, by name. -/
def subdirectories (entries : List (String × FileTree)) : List (String × FileTree) :=
  sortByName (entries.filter (!isFile ·))

theorem mem_ownFiles {suffix : String} {entries : List (String × FileTree)}
    {entry : String × FileTree} : entry ∈ ownFiles suffix entries ↔
      (entry ∈ entries ∧ isFile entry = true) ∧ nameSuffix entry.1 = suffix := by
  -- Sorting does not change the members.
  rw [ownFiles, List.mem_filter, (sortByName_perm _).mem_iff, List.mem_filter, beq_iff_eq]

theorem mem_subdirectories {entries : List (String × FileTree)} {entry : String × FileTree} :
    entry ∈ subdirectories entries ↔ entry ∈ entries ∧ isFile entry = false := by
  rw [subdirectories, (sortByName_perm _).mem_iff, List.mem_filter, Bool.not_eq_true']

/-- The files below a directory: its own with a suffix, by name, and then those of its subdirectories. -/
theorem sources_directory (suffix : String) (path : Path) (entries : List (String × FileTree)) :
    (directory entries).sources suffix path =
      (ownFiles suffix entries).map (fun entry => path.child entry.1) ++
        (subdirectories entries).flatMap fun entry =>
          entry.2.sources suffix (path.child entry.1) := by
  -- The files of the directory are told by their names, as the paths of all begin alike.
  have own (entry : String × FileTree) : (path.child entry.1).suffix = nameSuffix entry.1 := by
    simp [Path.suffix, Path.name, Path.child]
  rw [sources, files_eq, subSources_eq, sortByName_map, sortByName_map, List.map_map, List.map_map,
    List.filter_map, List.flatMap_def]
  simp only [Function.comp_def, own]
  rfl

/-- The names that lead to the files below a directory, given those below each of its subdirectories. -/
def directoryRows (suffix : String) (entries : List (String × FileTree))
    (rowsOf : String × FileTree → List (List String)) : List (List String) :=
  (ownFiles suffix entries).map (fun entry => [entry.1]) ++
    (subdirectories entries).flatMap fun entry => (rowsOf entry).map (entry.1 :: ·)

/-- The files of a directory come in order if those of its subdirectories do. -/
theorem pairwise_directoryRows {suffix : String} {entries : List (String × FileTree)}
    {rowsOf : String × FileTree → List (List String)} (distinct : (entries.map Prod.fst).Nodup)
    (ordered : ∀ entry ∈ subdirectories entries, (rowsOf entry).Pairwise ComesBefore)
    (filled : ∀ entry ∈ subdirectories entries, ∀ names ∈ rowsOf entry, names ≠ []) :
    (directoryRows suffix entries rowsOf).Pairwise ComesBefore := by
  -- The rows are the files of the directory and, entry by entry, those of the subdirectories.
  have kept (keep : String × FileTree → Bool) : ((entries.filter keep).map Prod.fst).Nodup :=
    distinct.sublist (List.filter_sublist.map Prod.fst)
  rw [directoryRows, List.pairwise_append, List.pairwise_map, List.pairwise_flatMap]
  refine ⟨?_, ⟨?_, ?_⟩, ?_⟩
  · exact ((sortByName_pairwise (kept _)).filter _).imp .files
  · intro entry member
    exact List.pairwise_map.mpr ((ordered entry member).imp (.inside entry.1))
  · -- What is in one subdirectory comes before all that is in a later one.
    refine (sortByName_pairwise (kept _)).imp_of_mem fun {entry other} member behind less => ?_
    intro names among namesOther amongOther
    obtain ⟨inner, within, rfl⟩ := List.mem_map.mp among
    obtain ⟨innerOther, withinOther, rfl⟩ := List.mem_map.mp amongOther
    obtain ⟨next, rest, rfl⟩ := List.exists_cons_of_ne_nil (filled entry member inner within)
    obtain ⟨second, more, rfl⟩ :=
      List.exists_cons_of_ne_nil (filled other behind innerOther withinOther)
    exact .directories less next second rest more
  · -- At least two names lead to a file in a subdirectory.
    intro names among namesOther amongOther
    obtain ⟨entry, -, rfl⟩ := List.mem_map.mp among
    obtain ⟨other, member, inside⟩ := List.mem_flatMap.mp amongOther
    obtain ⟨inner, within, rfl⟩ := List.mem_map.mp inside
    obtain ⟨next, rest, rfl⟩ := List.exists_cons_of_ne_nil (filled other member inner within)
    exact .fileFirst entry.1 other.1 next rest

/-- Rows of names lead to the files below a directory if they do so below each of its subdirectories. -/
theorem mem_directoryRows {suffix : String} {entries : List (String × FileTree)}
    {rowsOf : String × FileTree → List (List String)}
    (complete : ∀ entry ∈ subdirectories entries, ∀ names, names ∈ rowsOf entry ↔
      ∃ contents, entry.2.Holds names contents ∧ nameSuffix (names.getLastD "") = suffix)
    (names : List String) : names ∈ directoryRows suffix entries rowsOf ↔
      ∃ contents, (directory entries).Holds names contents ∧
        nameSuffix (names.getLastD "") = suffix := by
  -- A file is held by the directory itself or inside one of its entries.
  rw [directoryRows, List.mem_append, List.mem_map, List.mem_flatMap]
  constructor
  · rintro (⟨⟨name, tree⟩, member, rfl⟩ | ⟨⟨name, tree⟩, member, within⟩)
    · obtain ⟨⟨among, isFile⟩, suffixed⟩ := mem_ownFiles.mp member
      cases tree with
      | file contents => exact ⟨contents, .own among, suffixed⟩
      | closed fault => cases isFile
      | directory inner => cases isFile
    · obtain ⟨inner, inside, rfl⟩ := List.mem_map.mp within
      obtain ⟨contents, held, suffixed⟩ := (complete _ member inner).mp inside
      obtain ⟨next, rest, rfl⟩ := List.exists_cons_of_ne_nil held.ne_nil
      exact ⟨contents, .inside (mem_subdirectories.mp member).1 held, suffixed⟩
  · rintro ⟨contents, held, suffixed⟩
    cases held with
    | own among => exact Or.inl ⟨_, mem_ownFiles.mpr ⟨⟨among, rfl⟩, suffixed⟩, rfl⟩
    | @inside _ name tree inner _ among held =>
      obtain ⟨next, rest, rfl⟩ := List.exists_cons_of_ne_nil held.ne_nil
      -- Below anything else there is nothing, so the entry is a directory.
      cases tree with
      | file contents => cases held
      | closed fault => cases held
      | directory below =>
        have member := mem_subdirectories.mpr ⟨among, rfl⟩
        have within := (complete _ member (next :: rest)).mpr ⟨contents, held, suffixed⟩
        exact Or.inr ⟨_, member, List.mem_map.mpr ⟨_, within, rfl⟩⟩

/-- Rows of names that lead to all files below a tree with a suffix, in order. -/
structure Rows (suffix : String) (tree : FileTree) (rows : List (List String)) : Prop where
  sources : ∀ path : Path, tree.sources suffix path = rows.map path.descend
  ordered : rows.Pairwise ComesBefore
  complete : ∀ names, names ∈ rows ↔
    ∃ contents, tree.Holds names contents ∧ nameSuffix (names.getLastD "") = suffix

/-- There are no rows for a tree that lists no files and holds none. -/
theorem Rows.none {suffix : String} {tree : FileTree} (unlisted : ∀ path, tree.sources suffix path = [])
    (empty : ∀ names contents, ¬ tree.Holds names contents) : tree.Rows suffix [] where
  -- There are no files to list and none that are held.
  sources path := (unlisted path).trans List.map_nil.symm
  ordered := .nil
  complete names :=
    iff_of_false List.not_mem_nil fun ⟨contents, among⟩ => empty names contents among.1

/-- Below a normal path the rows of names that are listed lead to normal paths. -/
theorem Rows.normal {suffix : String} {tree : FileTree} {rows : List (List String)}
    (listed : tree.Rows suffix rows) (proper : tree.Proper) {path : Path} (normal : path.Normal) :
    ∀ file ∈ rows.map path.descend, file.Normal := by
  -- Every name on the way to a file is that of an entry.
  intro file member
  obtain ⟨names, among, rfl⟩ := List.mem_map.mp member
  obtain ⟨contents, held, -⟩ := (listed.complete names).mp among
  exact normal.descend fun name inside => (held.isEntryName proper name inside).toIsStep

/-- Only one row of names at a time is listed. -/
theorem Rows.nodup {suffix : String} {tree : FileTree} {rows : List (List String)}
    (listed : tree.Rows suffix rows) : rows.Nodup :=
  -- No path comes before itself.
  listed.ordered.imp fun before same => by
    subst same
    exact before.asymm before

/-- The rows of names that are listed do not depend on how directories list their entries. -/
theorem Rows.eq_of_relisted {suffix : String} {tree other : FileTree} {rows others : List (List String)}
    (listed : tree.Rows suffix rows) (relisted : tree.Relisted other)
    (listedAgain : other.Rows suffix others) : others = rows := by
  -- The same files are listed, each of them once, and there is only one order for them.
  have order : others.Perm rows := by
    rw [List.perm_ext_iff_of_nodup listedAgain.nodup listed.nodup]
    intro names
    rw [listed.complete, listedAgain.complete]
    constructor
    · rintro ⟨contents, held, suffixed⟩
      exact ⟨contents, relisted.symm.holds held, suffixed⟩
    · rintro ⟨contents, held, suffixed⟩
      exact ⟨contents, relisted.holds held, suffixed⟩
  exact order.eq_of_pairwise (fun _ _ _ _ before after => absurd after before.asymm)
    listedAgain.ordered listed.ordered

/-- Some rows of names lead to all files below a proper tree with a suffix, in order. -/
theorem Proper.rows {tree : FileTree} (proper : tree.Proper) (suffix : String) :
    ∃ rows, tree.Rows suffix rows := by
  -- The rows of a directory are made of those of its subdirectories.
  induction proper with
  | file contents => exact ⟨[], .none (fun _ => by rw [FileTree.sources]) (by rintro _ _ ⟨⟩)⟩
  | closed fault => exact ⟨[], .none (fun _ => by rw [FileTree.sources]) (by rintro _ _ ⟨⟩)⟩
  | @directory entries _ distinct _ ih =>
    choose! rowsOf listed using ih
    have below (entry : String × FileTree) (member : entry ∈ subdirectories entries) :
        entry.2.Rows suffix (rowsOf entry) := listed entry (mem_subdirectories.mp member).1
    have complete entry member := (below entry member).complete
    refine ⟨directoryRows suffix entries rowsOf, ?_, ?_, mem_directoryRows complete⟩
    · -- From each subdirectory on the names go on below its path.
      intro path
      rw [sources_directory, directoryRows, List.map_append, List.map_map, List.map_flatMap]
      refine congrArg₂ _ rfl (List.flatMap_congr fun entry member => ?_)
      rw [(below entry member).sources, List.map_map]
      exact List.map_congr_left fun names _ => Path.child_descend path entry.1 names
    · refine pairwise_directoryRows distinct (fun entry member => (below entry member).ordered) ?_
      intro entry member names among
      obtain ⟨contents, held, -⟩ := (complete entry member names).mp among
      exact held.ne_nil

end FileTree

end Sexpr
