import Sexpr.Proofs.CommandLine.Check

/-! Printing: what a run prints is read as the forests of its files again, and each file that fails has an
entry of its own. -/

namespace Sexpr

/-- Line feeds are only dropped at the end of a text. -/
theorem dropFinalFeeds_eq_self {text : String} (last : text.toList.getLast? ≠ some '\n') :
    dropFinalFeeds text = text := by
  -- Read backwards, the text opens with something else, at which dropping stops.
  have stays : text.toList.reverse.dropWhile (· == '\n') = text.toList.reverse := by
    rw [← List.head?_reverse] at last
    cases reversed : text.toList.reverse with
    | nil => rfl
    | cons char rest =>
      rw [reversed] at last
      exact List.dropWhile_cons_of_neg (by simpa using last)
  rw [dropFinalFeeds, stays, List.reverse_reverse, String.ofList_toList]

namespace Node

/-- The text of a node does not end with a line feed, unless it holds a comment. -/
theorem Written.getLast?_text_ne {node : Node} (written : node.Written) (bare : node.Bare) :
    node.text.toList.getLast? ≠ some '\n' := by
  -- A list ends with its parenthesis, and an atom with a character of its source text.
  cases written with
  | atom written =>
    cases bare with
    | atom notComment =>
      refine (written.spells notComment).getLast?_ne_lineFeed ?_
      exact fun comment => notComment ((Atom.tokenKind_readBack _).symm.trans comment)
  | list all =>
    rw [text, String.toList_append, show ")".toList = [')'] from rfl, List.getLast?_concat]
    decide

/-- The lines of a forest read as another forest if the text of each node reads as one of its nodes. -/
theorem readsAs_printed {nodes others : List Node} (each : List.Forall₂ ReadsAs nodes others)
    (bare : ∀ node ∈ nodes, dropFinalFeeds node.text = node.text) (place : Location) :
    ∃ (again : List Node) (final : Location), List.Forall₂ Echoes again others ∧
      Reads place (printed nodes).toList (flattenAll again) final [] := by
  -- The induction is on the nodes, wherever the first of them stands.
  induction each generalizing place with
  | nil => exact ⟨[], place, .nil, .done⟩
  | @cons node other nodes others readsFirst _ ih =>
    obtain ⟨whole, more⟩ := List.forall_mem_cons.mp bare
    -- Each text ends at its line feed, and the others are read behind that.
    obtain ⟨again, middle, echoes, read⟩ := readsFirst place ('\n' :: (printed nodes).toList) rfl
    obtain ⟨behind, final, echoesAll, readAll⟩ := ih more (middle.advance '\n')
    have all := read.append (.blank rfl readAll)
    refine ⟨again :: behind, final, .cons echoes echoesAll, ?_⟩
    simpa [flattenAll, printed, whole] using all

end Node

/-- The lines of two forests, one behind the other, are those of one forest. -/
theorem printed_append (nodes others : List Node) :
    printed (nodes ++ others) = printed nodes ++ printed others := by
  -- Each node has lines of its own, and these are joined in order.
  simp [printed]

/-- What is printed of written nodes is read as nodes that agree with them. -/
theorem parseText_printed {nodes : List Node} (written : ∀ node ∈ nodes, node.Written ∧ node.Bare)
    (path : Option Path) : ∃ again, parseText (printed nodes) path = .ok again ∧
      Node.allAgree again nodes = true := by
  -- Written nodes read as themselves, and no line feed at the end of their texts is lost.
  have each : List.Forall₂ Node.ReadsAs nodes nodes := by
    rw [List.forall₂_same]
    intro node member
    have legible := (written node member).1.legible.readsAs
    rwa [(written node member).1.trimmed] at legible
  have whole : ∀ node ∈ nodes, dropFinalFeeds node.text = node.text := fun node member =>
    dropFinalFeeds_eq_self ((written node member).1.getLast?_text_ne (written node member).2)
  obtain ⟨again, final, echoes, reads⟩ := Node.readsAs_printed each whole { path }
  -- The nodes hold no comment, and so there is none in what is read.
  have bare := Node.bare_of_echoes echoes fun node member => (written node member).2
  refine ⟨again, parseText_eq_ok_iff.mpr ⟨again, final, Node.owns_of_echoes echoes, reads, ?_⟩,
    Node.allAgree_of_echoes echoes⟩
  exact (stripComments_of_bare bare).symm

namespace Request

/-- A request all of whose paths are normal. -/
def Normal (request : Request) : Prop := ∀ path ∈ request.options.paths, path.Normal

variable {request : Request}

/-- The paths that are taken from arguments are normal. -/
theorem Normal.takeRun (normal : request.Normal) (run : List Argument) :
    (request.takeRun run).Normal := by
  -- New paths come from texts, and a request that takes none keeps those it has.
  simp only [Request.takeRun]
  split
  · intro path member
    obtain ⟨text, -, rfl⟩ := List.mem_map.mp member
    exact Path.normal_ofText text
  · exact normal

/-- An option that takes no value leaves the paths alone. -/
theorem Normal.setFlag (normal : request.Normal) (option : OptionName) :
    (request.setFlag option).Normal := by
  -- A flag is no path.
  cases option <;> exact normal

/-- The options of a check are those of its request. -/
theorem Normal.finish (normal : request.Normal) {options : Options}
    (finished : request.finish = .ok (.check options)) : ∀ path ∈ options.paths, path.Normal := by
  -- Only a request with paths and without extras becomes a check, and its paths are kept.
  unfold Request.finish at finished
  split at finished
  · cases finished
  split at finished
  · cases finished
    exact normal
  · cases finished

end Request

/-- The paths of the check that arguments ask for are normal. -/
theorem normal_of_readArguments {request : Request} {run arguments : List Argument}
    {options : Options} (normal : request.Normal)
    (asked : readArguments request run arguments = .ok (.check options)) :
    ∀ path ∈ options.paths, path.Normal := by
  -- Whatever is read next, the paths so far stay or are taken from texts.
  fun_induction readArguments request run arguments with
  | case1 => exact (normal.takeRun _).finish asked
  | case2 _ _ _ _ ih | case3 _ _ _ ih => exact ih normal asked
  | case4 _ _ _ _ _ ih | case6 _ _ _ _ ih | case7 _ _ _ _ ih => exact ih (normal.takeRun _) asked
  | case10 _ _ _ _ _ _ _ ih => exact ih ((normal.takeRun _).setFlag _) asked
  | case5 | case8 | case9 => cases asked

/-- The paths of the check that a command line asks for are normal. -/
theorem Command.normal_of_ofArguments {arguments : List String} {options : Options}
    (asked : Command.ofArguments arguments = .ok (.check options)) :
    ∀ path ∈ options.paths, path.Normal := by
  -- The reading of arguments begins with no paths at all.
  cases read : Argument.ofTexts arguments with
  | error fault => simp [ofArguments, read, Bind.bind, Except.bind] at asked
  | ok given =>
    simp only [ofArguments, read, Bind.bind, Except.bind] at asked
    exact normal_of_readArguments (fun path member => absurd member List.not_mem_nil) asked

namespace FileSystem

variable {system : FileSystem} {options : Options}

/-- The files below a normal path are normal. -/
theorem normal_sourceFiles (proper : system.Proper) {path : Path} (normal : path.Normal)
    (extension : String) : ∀ file ∈ system.sourceFiles path.text extension, file.Normal := by
  -- Without a tree there are no files, and with one they are listed below the path.
  unfold sourceFiles
  cases found : system.find path.text with
  | error fault => simp
  | ok tree =>
    -- Below the tree only names of entries lead on.
    have properHere := proper_of_find proper found
    obtain ⟨rows, listed⟩ := properHere.rows (extensionSuffix extension)
    simp only [Path.ofText_text normal, listed.sources]
    exact listed.normal properHere normal

/-- The files that a normal path stands for are normal. -/
theorem normal_filesAt (proper : system.Proper) {extension : Option String} {path : Path}
    {files : List Path} (normal : path.Normal) (found : system.filesAt extension path = .ok files) :
    ∀ file ∈ files, file.Normal := by
  -- A path stands for itself or for files below it.
  unfold filesAt at found
  split at found
  · cases found
  · cases found
    simpa using normal
  · cases found
    exact normal_sourceFiles proper normal _
  · cases found

/-- The files that normal paths stand for are normal. -/
theorem normal_collectFiles (proper : system.Proper) {extension : Option String} {paths : List Path}
    {files : List Path} (normal : ∀ path ∈ paths, path.Normal)
    (collected : system.collectFiles paths extension = .ok files) : ∀ file ∈ files, file.Normal := by
  -- Each file that is collected is among those of one of the paths.
  rw [collectFiles_eq] at collected
  cases each : paths.mapM (system.filesAt extension) with
  | error fault =>
    rw [each] at collected
    cases collected
  | ok rows =>
    rw [each] at collected
    cases collected
    intro file member
    obtain ⟨row, among, inside⟩ := List.mem_flatten.mp member
    obtain ⟨path, given, found⟩ := exists_of_mem_mapM each row among
    exact normal_filesAt proper (normal path given) found file inside

/-- A path whose files can be collected: it can be told whether it is a directory, and if it is one there is an
extension to search for. -/
def Collects (system : FileSystem) (extension : Option String) (path : Path) : Prop :=
  ∃ directory, system.isDirectory path = .ok directory ∧ (directory = true → extension ≠ none)

/-- Files are collected just if those of each path can be. -/
theorem collectFiles_ok_iff {extension : Option String} {paths : List Path} :
    (∃ files, system.collectFiles paths extension = .ok files) ↔
      ∀ path ∈ paths, system.Collects extension path := by
  -- A row of paths has files just if each of them has, so one path is looked at by itself.
  have one (path : Path) :
      (∃ files, system.filesAt extension path = .ok files) ↔ system.Collects extension path := by
    unfold filesAt Collects
    cases system.isDirectory path with
    | error fault => simp
    | ok directory => cases directory <;> cases extension <;> simp
  simp only [← one, ← exists_mapM_eq_ok_iff, collectFiles_eq]
  cases paths.mapM (system.filesAt extension) <;> simp [Except.map]

end FileSystem

/-- What a file comes to in a run that prints: its forest, or an entry that says why it has none. -/
inductive Account where
  | forest (nodes : List Node)
  | entry (text : String)

namespace Account

/-- The nodes that a file adds to what is printed. -/
def nodes : Account → List Node
  | forest nodes => nodes
  | entry _ => []

/-- The line that a file adds to the errors, if it has failed. -/
def line : Account → String
  | forest _ => ""
  | entry text => text ++ "\n"

/-- Whether a file has failed. -/
def failed : Account → Bool
  | forest _ => false
  | entry _ => true

end Account

/-- The account of a file: the forest that its text is read as, the words of an error in the text behind
its position in the file, or those for a file that cannot be read behind its path. -/
inductive FileSystem.Accounts (system : FileSystem) (path : Path) : Account → Prop
  | forest {source : String} {nodes : List Node}
      (contents : system.readSource path.text = .ok source) (read : parseText source = .ok nodes) :
      Accounts system path (.forest nodes)
  | malformed {source : String} {error : Error}
      (contents : system.readSource path.text = .ok source)
      (failed : parseText source (some path) = .error error)
      (inFile : error.location.path = some path) : Accounts system path (.entry error.text)
  | unreadable {fault : SystemFault}
      (closed : system.readSource path.text = .error (.unreadable fault)) :
      Accounts system path (.entry (path.text ++ ": " ++ fault.text))

/-- What is printed of a forest does not depend on where it stands. -/
theorem printed_relocate (move : Location → Location) (nodes : List Node) :
    printed (nodes.map (Node.relocate move)) = printed nodes := by
  -- Only the texts of nodes are printed, and these say nothing of positions.
  rw [printed, printed, List.map_map, Node.relocate_eq_mapTokens]
  simp only [Function.comp_def, Node.text_mapTokens]

namespace FileSystem

variable {system : FileSystem} {options : Options}

/-- A run over one file prints what its account says. -/
theorem checkOne_accounts {path : Path} (normal : path.Normal) (answers : system.Answers path)
    (prints : options.print = true) (plain : options.keepComments = false)
    (quiet : options.debug = false) : ∃ account, system.Accounts path account ∧
      (system.checkOne options path).ending = .status (if account.failed then 1 else 0) ∧
      (system.checkOne options path).stdout = printed account.nodes ∧
      (system.checkOne options path).stderr = account.line := by
  -- The account follows from how reading the file ends, and then from how its text parses.
  have checked := system.result_checkFile path options.keepComments
  rw [Path.ofText_text normal, plain] at checked
  simp only [checkOne, plain, quiet]
  rcases answers with ⟨source, contents⟩ | ⟨fault, closed⟩
  · rw [contents] at checked
    have moved := parseText_withPath source none (some path) true
    cases read : parseText source (some path) with
    | ok nodes =>
      -- Read as no file's the text has the same forest elsewhere, which has the same text.
      rw [read] at moved
      cases readAnywhere : parseText source none true with
      | error error => simp [readAnywhere, Except.map, Except.mapError] at moved
      | ok others =>
        obtain rfl : nodes = others.map (Node.relocate (Location.withPath · (some path))) := by
          simpa [readAnywhere, Except.map, Except.mapError] using moved
        simp only [Except.bind, Bool.not_false, read, Except.mapError] at checked
        refine ⟨_, .forest contents readAnywhere, ?_⟩
        simp [checked, verdict, prints, printed_relocate, Account.failed, Account.nodes, Account.line]
    | error error =>
      simp only [Except.bind, Bool.not_false, read, Except.mapError] at checked
      refine ⟨_, .malformed contents read (path_of_parseText_error read), ?_⟩
      simp [checked, verdict, Account.failed, Account.nodes, Account.line, printed]
  · rw [closed] at checked
    refine ⟨_, .unreadable closed, ?_⟩
    simp only [checked, Except.bind, verdict]
    simp [Account.failed, Account.nodes, Account.line, printed]

/-- A run over files prints what the accounts of the files say. -/
theorem inTurn_accounts {files : List Path} (normal : ∀ file ∈ files, file.Normal)
    (answers : ∀ file ∈ files, system.Answers file) (prints : options.print = true)
    (plain : options.keepComments = false) (quiet : options.debug = false) :
    ∃ accounts, List.Forall₂ system.Accounts files accounts ∧
      (Report.inTurn (files.map (system.checkOne options))).ending =
        .status (if accounts.any Account.failed then 1 else 0) ∧
      (Report.inTurn (files.map (system.checkOne options))).stdout =
        printed (accounts.flatMap Account.nodes) ∧
      (Report.inTurn (files.map (system.checkOne options))).stderr =
        String.join (accounts.map Account.line) := by
  -- Each file adds its own account in front of those of the files behind it.
  induction files with
  | nil => exact ⟨[], .nil, rfl, rfl, rfl⟩
  | cons file files ih =>
    obtain ⟨normalFirst, normalOthers⟩ := List.forall_mem_cons.mp normal
    obtain ⟨answersFirst, answersOthers⟩ := List.forall_mem_cons.mp answers
    obtain ⟨account, accountFor, ended, stdout, stderr⟩ :=
      checkOne_accounts normalFirst answersFirst prints plain quiet
    obtain ⟨accounts, accountsFor, endedAll, stdoutAll, stderrAll⟩ := ih normalOthers answersOthers
    refine ⟨account :: accounts, .cons accountFor accountsFor, ?_⟩
    change (Report.andThen _ (Report.inTurn _)).ending = _ ∧
      (Report.andThen _ (Report.inTurn _)).stdout = _ ∧ (Report.andThen _ (Report.inTurn _)).stderr = _
    rw [Report.andThen_of_status ended, endedAll, stdout, stdoutAll, stderr, stderrAll]
    refine ⟨?_, ?_, ?_⟩
    · rw [Ending.andThen, List.any_cons]
      cases account.failed <;> cases accounts.any Account.failed <;> rfl
    · rw [List.flatMap_cons, printed_append]
    · rw [List.map_cons, String.join_cons]

end FileSystem

/-- The forests of accounts are written and hold no comment. -/
theorem FileSystem.Accounts.written {system : FileSystem} {path : Path} {account : Account}
    (accounts : system.Accounts path account) : ∀ node ∈ account.nodes, node.Written ∧ node.Bare := by
  -- Only the account of a file that parses has nodes, and what is parsed without comments is written and bare.
  cases accounts with
  | forest contents read => exact written_of_parseText read
  | malformed => simp [Account.nodes]
  | unreadable => simp [Account.nodes]

/-- All that accounts have as forests is written and holds no comment. -/
theorem FileSystem.written_of_accounts {system : FileSystem} {files : List Path}
    {accounts : List Account} (each : List.Forall₂ system.Accounts files accounts) :
    ∀ node ∈ accounts.flatMap Account.nodes, node.Written ∧ node.Bare := by
  -- By induction on the files, each of which adds the nodes of its own account.
  induction each with
  | nil => simp
  | cons first _ ih =>
    rw [List.flatMap_cons, List.forall_mem_append]
    exact ⟨first.written, ih⟩

/-- A run that prints, where each file that is collected can be read as text or the system says why not. It
returns just if the files of every path can be collected, and otherwise nothing is printed. If it returns,
what it has printed is read as the forests of the files again, in order; its errors are the entries of the
files that failed, in order; and its status is one if there is any of them, and zero if not. -/
theorem runCommand_printing {system : FileSystem} {arguments : List String} {options : Options}
    (proper : system.Proper) (asked : Command.ofArguments arguments = .ok (.check options))
    (prints : options.print = true) (plain : options.keepComments = false)
    (quiet : options.debug = false)
    (answers : ∀ files, system.collectFiles options.paths options.extension = .ok files →
      ∀ file ∈ files, system.Answers file) :
    ((runCommand system arguments).Returns ↔
      ∀ path ∈ options.paths, system.Collects options.extension path) ∧
    (¬ (runCommand system arguments).Returns →
      (runCommand system arguments).stdout = "" ∧ (runCommand system arguments).stderr = "") ∧
    ((runCommand system arguments).Returns → ∃ files accounts again,
      system.collectFiles options.paths options.extension = .ok files ∧
      List.Forall₂ system.Accounts files accounts ∧
      parseText (runCommand system arguments).stdout = .ok again ∧
      Node.allAgree again (accounts.flatMap Account.nodes) = true ∧
      (runCommand system arguments).stderr = String.join (accounts.map Account.line) ∧
      (runCommand system arguments).ending =
        .status (if accounts.any Account.failed then 1 else 0)) := by
  -- In this setting there is a verdict on every file, so a run can only stop while its files are collected.
  simp only [runCommand, asked]
  have returns : (check system options).Returns ↔
      ∃ files, system.collectFiles options.paths options.extension = .ok files := by
    rw [FileSystem.returns_check]
    exact exists_congr fun files => and_iff_left_of_imp (answers files)
  refine ⟨returns.trans FileSystem.collectFiles_ok_iff, fun stops => ?_, fun ends => ?_⟩
  · cases collected : system.collectFiles options.paths options.extension with
    | ok files => exact absurd (returns.mpr ⟨files, collected⟩) stops
    | error fault => simp [check, collected]
  · obtain ⟨files, collected⟩ := returns.mp ends
    have normal := FileSystem.normal_collectFiles proper (Command.normal_of_ofArguments asked) collected
    obtain ⟨accounts, each, ended, stdout, stderr⟩ :=
      FileSystem.inTurn_accounts normal (answers files collected) prints plain quiet
    rw [← FileSystem.check_eq_inTurn collected] at ended stdout stderr
    obtain ⟨again, read, agree⟩ := parseText_printed (FileSystem.written_of_accounts each) none
    exact ⟨files, accounts, again, collected, each, stdout ▸ read, agree, stderr, ended⟩

/-- A list is printed and can be read again, though a file behind it is missing. -/
theorem runCommand_printing_missing : ∃ (system : FileSystem) (nodes again : List Node),
    parseText "(a)\n" = .ok nodes ∧
    parseText (runCommand system ["--print", "a", "b"]).stdout = .ok again ∧
    Node.allAgree again nodes = true ∧
    (runCommand system ["--print", "a", "b"]).stderr = "b: No such file or directory\n" ∧
    (runCommand system ["--print", "a", "b"]).ending = .status 1 := by
  -- The file system holds one file, which is a list, and the other path leads nowhere.
  let system : FileSystem := { root := [("a", .file (.ok ⟨#[40, 97, 41, 10]⟩))] }
  have isName : IsEntryName "a" := ⟨⟨by decide, by decide, by decide⟩, by decide, by decide⟩
  have proper : system.Proper :=
    .directory (by simpa [system] using isName) (by simp [system]) (by simpa [system] using .file _)
  have collected : system.collectFiles [⟨.relative, ["a"]⟩, ⟨.relative, ["b"]⟩] (some "sexp") =
      .ok [⟨.relative, ["a"]⟩, ⟨.relative, ["b"]⟩] := rfl
  have contents : system.readSource (Path.text ⟨.relative, ["a"]⟩) = .ok "(a)\n" := rfl
  have missing : system.readSource (Path.text ⟨.relative, ["b"]⟩) = .error (.unreadable .notFound) :=
    rfl
  have answers : ∀ files, system.collectFiles [⟨.relative, ["a"]⟩, ⟨.relative, ["b"]⟩] (some "sexp") =
      .ok files → ∀ file ∈ files, system.Answers file := by
    intro files found
    obtain rfl := Except.ok.inj (collected.symm.trans found)
    simp only [List.forall_mem_cons, List.not_mem_nil, false_implies, implies_true, and_true]
    exact ⟨Or.inl ⟨_, contents⟩, Or.inr ⟨_, missing⟩⟩
  obtain ⟨returns, -, outputs⟩ := @runCommand_printing system ["--print", "a", "b"] _ proper rfl rfl
    rfl rfl answers
  obtain ⟨files, accounts, again, found, each, read, agree, stderr, ended⟩ :=
    outputs (returns.mpr (FileSystem.collectFiles_ok_iff.mp ⟨_, collected⟩))
  obtain rfl := Except.ok.inj (collected.symm.trans found)
  -- The first file has a forest, as its text is no error, and the second one has an entry.
  obtain ⟨first, others, firstFor, othersFor, rfl⟩ := List.forall₂_cons_left_iff.mp each
  obtain ⟨second, none, secondFor, noneFor, rfl⟩ := List.forall₂_cons_left_iff.mp othersFor
  obtain rfl := List.forall₂_nil_left_iff.mp noneFor
  have name : IsName "a".toList :=
    ⟨by decide, List.forall_mem_singleton.mpr rfl, rfl, by decide, by decide⟩
  have written : Node.Written (.list [.atom (.identifier "a")]) :=
    .list (by simpa using .atom (.identifier name))
  have bare : Node.Bare (.list [.atom (.identifier "a")]) :=
    .list (by simpa using .atom (by decide))
  obtain ⟨_, isList, -⟩ : ∃ nodes, parseText "(a)\n" (some ⟨.relative, ["a"]⟩) = .ok nodes ∧ _ :=
    parseText_printed (List.forall_mem_singleton.mpr ⟨written, bare⟩) _
  cases secondFor with
  | forest contents => cases missing.symm.trans contents
  | malformed contents => cases missing.symm.trans contents
  | unreadable closed =>
    cases missing.symm.trans closed
    cases firstFor with
    | forest contentsToo readFirst =>
      cases contents.symm.trans contentsToo
      exact ⟨system, _, again, readFirst, read, by simpa [Account.nodes] using agree, stderr, ended⟩
    | malformed contentsToo failed =>
      cases contents.symm.trans contentsToo
      cases isList.symm.trans failed
    | unreadable closed => cases contents.symm.trans closed

/-- Where a directory is to be searched, but for no extension, nothing is printed, not even of the file in
front of it. -/
example : runCommand { root := [("a", .file (.ok ⟨#[40, 97, 41]⟩))] } ["--print", "--ext=--", "a", "."] =
    { ending := .stopped .noExtension } := rfl

end Sexpr
