import Sexpr.Files.Loading
import Sexpr.Proofs.Files.Sources
import Sexpr.Proofs.Node.InFile

/-! Loading a directory: which files are loaded, in which order and with which result does not depend on
how directories list their entries. -/

namespace Sexpr

namespace Logged

variable {ε δ α : Type}

@[simp] theorem result_silently (result : Except ε α) : (silently result).result = result := rfl

/-- What follows on a success goes on with its value. -/
theorem result_bind_ok {β : Type} {first : Logged ε α} {next : α → Logged ε β} {value : α}
    (succeeded : first.result = .ok value) : (first >>= next).result = (next value).result := by
  rw [result_bind, succeeded]
  rfl

/-- An error that is passed on, whatever is put on record before, is the error that there was. -/
theorem result_handle_error {computation : Logged ε α} {next : ε → Logged ε α}
    (passed : ∀ error, (next error).result = .error error) :
    (computation.handle next).result = computation.result := by
  -- The handler passes every error on, so it makes no difference.
  obtain ⟨result, records⟩ := computation
  cases result with
  | ok value => rfl
  | error error => exact passed error

end Logged

/-- An extension stands for the suffix that is a dot and a name if it is written so, or as the name alone. -/
theorem extensionSuffix_of_spelled {name extension : String}
    (spelled : extension = "." ++ name ∨ extension = name ∧ name.toList.head? ≠ some '.') :
    extensionSuffix extension = "." ++ name := by
  -- The dot is written already or is put in front.
  rcases spelled with rfl | ⟨rfl, plain⟩
  · simp [extensionSuffix]
  · rw [extensionSuffix, if_neg plain]

namespace FileSystem

variable {system : FileSystem} {text extension : String}

/-- What comes of loading files in turn: the lists of all files, each at positions in its own file, or
the fault of the first file that cannot be loaded. -/
inductive LoadedInTurn (system : FileSystem) (files : List Path) :
    Except LoadFault (List Cursor) → Prop
  | all {lists : List (List Cursor)}
      (each : List.Forall₂ (fun path cursors => (system.parseFile path.text).result = .ok cursors ∧
        ∀ cursor ∈ cursors, cursor.InFile (some path)) files lists) :
      LoadedInTurn system files (.ok lists.flatten)
  | failed {before after : List Path} {path : Path} {fault : LoadFault}
      (parts : files = before ++ path :: after)
      (earlier : ∀ other ∈ before, ∃ cursors, (system.parseFile other.text).result = .ok cursors)
      (fails : (system.parseFile path.text).result = .error fault) :
      LoadedInTurn system files (.error fault)

/-- The text of a file does not depend on how directories list their entries. -/
theorem readSource_relisted {other : FileSystem} (relisted : system.Relisted other)
    (proper : system.Proper) (text : String) : other.readSource text = system.readSource text := by
  -- The same file is found, and a directory or a closed one is refused as before.
  unfold readSource
  split
  · rfl
  have same := find_relisted relisted proper text
  generalize system.find text = found at same ⊢
  generalize other.find text = again at same ⊢
  cases same with
  | fault fault => rfl
  | @tree tree again relisted _ =>
    -- A file is the file that it was, and a directory is still one.
    cases tree with
    | file contents =>
      cases relisted.of_unlisted (by simp)
      rfl
    | closed fault =>
      cases relisted.of_unlisted (by simp)
      rfl
    | directory entries =>
      obtain ⟨others, rfl⟩ := relisted.of_directory ⟨entries, rfl⟩
      rfl

/-- The lists of a file are those of its text, at positions in it. -/
theorem result_parseFile (system : FileSystem) (text : String) :
    (system.parseFile text).result = (system.readSource text).bind fun source =>
      (parseLists source (some (Path.ofText text))).mapError .malformed := by
  -- The path of the text goes to the reader as a text of its own, and that names the same path.
  have same := Path.ofText_text (Path.normal_ofText text)
  simp only [parseFile, reading, Logged.result_bind, Logged.result_silently, Logged.result_mapError,
    Logged.result_parseLists, Option.map_some, same]
  rfl

/-- The lists of a file are at positions in it. -/
theorem inFile_of_parseFile {path : Path} {cursors : List Cursor} (normal : path.Normal)
    (loaded : (system.parseFile path.text).result = .ok cursors) :
    ∀ cursor ∈ cursors, cursor.InFile (some path) := by
  -- The file was read and parsed, and its lists are located in it.
  rw [result_parseFile, Path.ofText_text normal] at loaded
  cases contents : system.readSource path.text with
  | error fault => simp [contents, Except.bind] at loaded
  | ok source =>
    rw [contents, Except.bind] at loaded
    cases read : parseLists source (some path) with
    | error error => simp [read, Except.mapError] at loaded
    | ok lists =>
      rw [read] at loaded
      cases loaded
      exact inFile_of_parseLists read

/-- The lists of a file do not depend on how directories list their entries. -/
theorem parseFile_relisted {other : FileSystem} (relisted : system.Relisted other)
    (proper : system.Proper) (text : String) :
    (other.parseFile text).result = (system.parseFile text).result := by
  -- All that a file is parsed from is its source.
  rw [result_parseFile, result_parseFile, readSource_relisted relisted proper]

/-- Files in turn are loaded with the result that a row of loads has. -/
theorem loadedInTurn_mapM {files : List Path} (normal : ∀ path ∈ files, path.Normal) :
    LoadedInTurn system files
      ((files.mapM fun path => (system.parseFile path.text).result).map List.flatten) := by
  -- Either all files are loaded, or one of them is the first that cannot be.
  cases loaded : files.mapM fun path => (system.parseFile path.text).result with
  | error fault =>
    obtain ⟨before, path, after, parts, earlier, fails⟩ := mapM_eq_error_iff.mp loaded
    exact .failed parts earlier fails
  | ok lists =>
    refine .all ?_
    have each := mapM_eq_ok_iff.mp loaded
    clear loaded
    induction each with
    | nil => exact .nil
    | cons first _ ih =>
      obtain ⟨normalFirst, normalOthers⟩ := List.forall_mem_cons.mp normal
      exact .cons ⟨first, inFile_of_parseFile normalFirst first⟩ (ih normalOthers)

section

variable {entries : List (String × FileTree)} {rows : List (List String)}

/-- The files below a directory are listed row by row. -/
theorem sourceFiles_directory (found : system.find text = .ok (.directory entries))
    (listed : (FileTree.directory entries).Rows (extensionSuffix extension) rows) :
    system.sourceFiles text extension = rows.map (Path.ofText text).descend := by
  simp only [sourceFiles, found]
  exact listed.sources _

/-- A path whose text leads to a directory is one. -/
theorem isDirectory_of_find {path : Path} (proper : system.Proper)
    (found : system.find path.text = .ok (.directory entries)) : system.isDirectory path = .ok true := by
  -- What is found has no null character in its path, so it is looked at.
  rw [isDirectory, holdsNull_of_find proper found, found]
  rfl

/-- A directory is loaded by loading the files below it in turn. -/
theorem result_parseDirectory (proper : system.Proper)
    (found : system.find text = .ok (.directory entries))
    (listed : (FileTree.directory entries).Rows (extensionSuffix extension) rows) :
    (system.parseDirectory text extension).result =
      ((rows.map (Path.ofText text).descend).mapM fun path =>
        (system.parseFile path.text).result).map List.flatten := by
  -- The text of the path leads to the same directory, and so to the same files.
  have again := find_ofText found
  have same := Path.ofText_text (Path.normal_ofText text)
  have files := sourceFiles_directory again listed
  rw [same] at files
  have member (path : Path) :
      (system.parseMember path).result = (system.parseFile path.text).result :=
    Logged.result_handle_error fun fault => by cases fault <;> rfl
  have directory : (Logged.silently ((system.isDirectory (Path.ofText text)).mapError
      LoadFault.unreadable)).result = .ok true := by
    rw [Logged.result_silently, isDirectory_of_find proper again]
    rfl
  rw [parseDirectory, Logged.result_bind_ok directory]
  simp only [reduceIte, files]
  rw [Logged.result_bind_ok (Logged.result_record _ _ _), Logged.result_bind, Logged.result_mapM]
  simp only [member, Logged.result_pure]
  rfl

/-- Loading a directory does not depend on how directories list their entries. All files below it whose
suffix is the extension, given with or without its dot, are listed once and in order; and loading it gives
the lists of all of them, or the fault of the first one that cannot be loaded. A closed directory holds no
files here, as a walk finds none in it. -/
theorem loading_relisted {name : String} (proper : system.Proper)
    (found : system.find text = .ok (.directory entries))
    (spelled : extension = "." ++ name ∨ extension = name ∧ name.toList.head? ≠ some '.') :
    ∃ rows : List (List String), rows.Nodup ∧ rows.Pairwise ComesBefore ∧
      (∀ names, names ∈ rows ↔ ∃ contents, (FileTree.directory entries).Holds names contents ∧
        ((Path.ofText text).descend names).suffix = "." ++ name) ∧
      ∀ other, system.Relisted other →
        other.listSources text extension = .ok (rows.map (Path.ofText text).descend) ∧
        system.LoadedInTurn (rows.map (Path.ofText text).descend)
          (other.parseDirectory text extension).result := by
  -- There are rows for the tree as it is listed here, and they serve for every other listing.
  have properHere := proper_of_find proper found
  obtain ⟨rows, listed⟩ := properHere.rows ("." ++ name)
  refine ⟨rows, listed.nodup, listed.ordered, fun names => ?_, fun other relisted => ?_⟩
  · rw [listed.complete]
    constructor
    · rintro ⟨contents, held, suffixed⟩
      exact ⟨contents, held, (Path.suffix_descend _ held.ne_nil).trans suffixed⟩
    · rintro ⟨contents, held, suffixed⟩
      exact ⟨contents, held, (Path.suffix_descend _ held.ne_nil).symm.trans suffixed⟩
  -- The other file system has the same directory there, and the same rows of names lead on from it.
  obtain ⟨others, foundAgain, relistedHere⟩ := find_directory_relisted relisted proper found
  have properOther := relisted.root.proper proper
  obtain ⟨rowsAgain, listedAgain⟩ := (relistedHere.proper properHere).rows ("." ++ name)
  obtain rfl := listed.eq_of_relisted relistedHere listedAgain
  rw [← extensionSuffix_of_spelled spelled] at listedAgain
  constructor
  · rw [listSources, holdsNull_of_find properOther foundAgain,
      sourceFiles_directory foundAgain listedAgain]
    rfl
  · have normal := listed.normal properHere (Path.normal_ofText text)
    have loaded := @loadedInTurn_mapM system _ normal
    rw [result_parseDirectory properOther foundAgain listedAgain]
    simpa only [parseFile_relisted relisted proper] using loaded

/-- A directory that is named like a file is searched, behind the file that is listed after it. -/
theorem loading_relisted_nested : ∃ system : FileSystem,
    system.find "." = .ok (.directory [("b.sexp", .directory [("c.sexp", .file (.ok ⟨#[40, 41]⟩))]),
      ("a.sexp", .file (.ok ⟨#[40, 41]⟩))]) ∧
    ∀ other, system.Relisted other → other.listSources "." ".sexp" =
      .ok [⟨.relative, ["a.sexp"]⟩, ⟨.relative, ["b.sexp", "c.sexp"]⟩] := by
  -- A file stands beside a directory whose own name comes after it and ends like a file's.
  let entries : List (String × FileTree) :=
    [("b.sexp", .directory [("c.sexp", .file (.ok ⟨#[40, 41]⟩))]), ("a.sexp", .file (.ok ⟨#[40, 41]⟩))]
  let system : FileSystem := { root := entries }
  have isName : ∀ name ∈ ["a.sexp", "b.sexp", "c.sexp"], IsEntryName name := by
    intro name member
    simp only [List.mem_cons, List.not_mem_nil, or_false] at member
    rcases member with rfl | rfl | rfl <;>
      exact ⟨⟨by decide, by decide, by decide⟩, by decide, by decide⟩
  have inner : (FileTree.directory [("c.sexp", .file (.ok ⟨#[40, 41]⟩))]).Proper :=
    .directory (by simpa using isName "c.sexp" (by simp)) (by simp) (by simpa using .file _)
  have proper : system.Proper :=
    .directory (by simpa [system, entries] using ⟨isName "b.sexp" (by simp), isName "a.sexp" (by simp)⟩)
      (by decide) (by simpa [system, entries] using ⟨inner, .file _⟩)
  have found : system.find "." = .ok (.directory entries) := rfl
  obtain ⟨rows, nodup, ordered, complete, loads⟩ :=
    loading_relisted proper found (Or.inl (show ".sexp" = "." ++ "sexp" from rfl))
  -- There are two files, and only one order for them.
  have same : rows = [["a.sexp"], ["b.sexp", "c.sexp"]] := by
    have expected : List.Pairwise ComesBefore [["a.sexp"], ["b.sexp", "c.sexp"]] := by
      simpa using .fileFirst "a.sexp" "b.sexp" "c.sexp" []
    refine List.Perm.eq_of_pairwise (fun _ _ _ _ before after => absurd after before.asymm)
      ordered expected ((List.perm_ext_iff_of_nodup nodup (by decide)).mpr fun names => ?_)
    rw [complete]
    constructor
    · rintro ⟨contents, held, -⟩
      cases held with
      | own member =>
        rcases List.mem_cons.mp member with same | later
        · cases same
        · cases List.mem_singleton.mp later
          simp
      | inside member held =>
        rcases List.mem_cons.mp member with same | later
        · cases same
          cases held with
          | own member =>
            cases List.mem_singleton.mp member
            simp
          | inside member held =>
            cases List.mem_singleton.mp member
            cases held
        · cases List.mem_singleton.mp later
          cases held
    · intro member
      rcases List.mem_cons.mp member with rfl | later
      · exact ⟨_, .own (by simp [entries]; rfl), by decide⟩
      · obtain rfl := List.mem_singleton.mp later
        exact ⟨_, .inside List.mem_cons_self (.own List.mem_cons_self), by decide⟩
  subst same
  exact ⟨system, found, fun other relisted => (loads other relisted).1⟩

end

end FileSystem

end Sexpr
