import Sexpr.CommandLine.Check
import Sexpr.Proofs.Files.Loading

/-! Runs of the command line: the files of a run are checked one behind the other, each as if it were alone,
up to the first file without a verdict. -/

namespace Sexpr

/-- How two runs end, one behind the other: at the first fault, or with the last status that is not zero. -/
def Ending.andThen : (first second : Ending) → Ending
  | .stopped fault, _ => .stopped fault
  | .status _, .stopped fault => .stopped fault
  | .status code, .status other => .status (if other = 0 then code else other)

/-- What two runs come to, one behind the other. Nothing follows on a run that has stopped. -/
def Report.andThen (first second : Report) : Report :=
  match first.ending with
  | .stopped _ => first
  | .status _ =>
    { ending := first.ending.andThen second.ending
      stdout := first.stdout ++ second.stdout
      stderr := first.stderr ++ second.stderr
      records := first.records ++ second.records }

namespace Report

/-- A run that goes through to its end and returns a status. -/
def Returns (report : Report) : Prop := ∃ code, report.ending = .status code

/-- The run that has checked nothing. -/
def start : Report := { ending := .status 0 }

/-- Nothing follows on a run that has stopped. -/
theorem andThen_of_stopped {first : Report} {fault : LoadFault} (stopped : first.ending = .stopped fault)
    (second : Report) : first.andThen second = first := by
  -- The ending of the first run alone decides which branch is taken.
  rw [andThen, stopped]

/-- What follows on a run with a status adds its outputs. -/
theorem andThen_of_status {first : Report} {code : Nat} (ended : first.ending = .status code)
    (second : Report) : first.andThen second =
      { ending := (Ending.status code).andThen second.ending
        stdout := first.stdout ++ second.stdout
        stderr := first.stderr ++ second.stderr
        records := first.records ++ second.records } := by
  -- The ending of the first run alone decides which branch is taken.
  rw [andThen, ended]

/-- Nothing checked before makes no difference. -/
@[simp] theorem start_andThen (report : Report) : start.andThen report = report := by
  -- A status of zero is replaced by whatever status follows, and empty outputs add nothing.
  obtain ⟨ending, stdout, stderr, records⟩ := report
  cases ending with
  | stopped fault => simp [andThen, start, Ending.andThen]
  | status code =>
    simp only [andThen, start, Ending.andThen, String.empty_append, List.nil_append]
    split
    · simp_all
    · rfl

/-- Nothing checked afterwards makes no difference. -/
@[simp] theorem andThen_start (report : Report) : report.andThen start = report := by
  -- A status of zero that follows changes no status, and empty outputs add nothing.
  obtain ⟨ending, stdout, stderr, records⟩ := report
  cases ending <;> simp [andThen, start, Ending.andThen]

/-- Of three runs, one behind the other, it does not matter which two are taken together. -/
theorem andThen_assoc (first second third : Report) :
    (first.andThen second).andThen third = first.andThen (second.andThen third) := by
  -- The first of the runs that stops is the last one that counts, however they are taken together.
  cases ended : first.ending with
  | stopped fault => rw [andThen_of_stopped ended, andThen_of_stopped ended, andThen_of_stopped ended]
  | status code =>
    cases ended' : second.ending with
    | stopped fault =>
      rw [andThen_of_stopped ended']
      exact andThen_of_stopped (by rw [andThen_of_status ended, ended']; rfl) third
    | status other =>
      rw [andThen_of_status ended, andThen_of_status ended, andThen_of_status ended', ended']
      rw [@andThen_of_status _ (if other = 0 then code else other) rfl]
      simp only [String.append_assoc, List.append_assoc, Report.mk.injEq, and_true]
      cases third.ending with
      | stopped fault => rfl
      | status last =>
        -- The last status that is not zero is the same on both sides.
        simp only [Ending.andThen, Ending.status.injEq]
        split_ifs <;> rfl

/-- What a row of runs comes to, one behind the other. -/
def inTurn (reports : List Report) : Report := reports.foldr andThen start

/-- Two rows of runs, one behind the other. -/
theorem inTurn_append (reports others : List Report) :
    inTurn (reports ++ others) = (inTurn reports).andThen (inTurn others) := by
  -- By induction on the first row, whose runs are then taken together the other way round.
  induction reports with
  | nil => exact (start_andThen _).symm
  | cons report reports ih =>
    rw [inTurn, List.cons_append, List.foldr_cons]
    exact (congrArg report.andThen ih).trans (andThen_assoc report _ _).symm

/-- Two runs, one behind the other, return just if each of them does. -/
theorem returns_andThen {first second : Report} :
    (first.andThen second).Returns ↔ first.Returns ∧ second.Returns := by
  -- Of a run that has stopped both sides are false, and behind any other the second run decides.
  unfold Returns
  cases ended : first.ending with
  | stopped fault => simp [andThen_of_stopped ended, ended]
  | status code =>
    rw [andThen_of_status ended]
    cases second.ending <;> simp [Ending.andThen]

/-- A row of runs returns just if each of them does. -/
theorem returns_inTurn {reports : List Report} :
    (inTurn reports).Returns ↔ ∀ report ∈ reports, report.Returns := by
  -- One run more returns just if it does so itself and the row behind it does.
  induction reports with
  | nil => simp [inTurn, start, Returns]
  | cons report reports ih =>
    rw [List.forall_mem_cons, ← ih]
    exact returns_andThen

/-- A row of runs has a status of zero or one if each of them has, and it is one if any of these is. -/
theorem status_inTurn {reports : List Report}
    (each : ∀ report ∈ reports, report.ending = .status 0 ∨ report.ending = .status 1) :
    (inTurn reports).ending =
      .status (if .status 1 ∈ reports.map Report.ending then 1 else 0) := by
  -- The induction keeps the status of the runs behind, to which the one in front is compared.
  induction reports with
  | nil => rfl
  | cons report reports ih =>
    obtain ⟨first, others⟩ := List.forall_mem_cons.mp each
    change (report.andThen (inTurn reports)).ending = _
    rw [List.map_cons]
    -- A status of one among those behind stays, and otherwise that of the first run does.
    rcases first with zero | one
    · rw [andThen_of_status zero, ih others]
      by_cases failed : Ending.status 1 ∈ reports.map ending <;> simp [Ending.andThen, zero, failed]
    · rw [andThen_of_status one, ih others]
      by_cases failed : Ending.status 1 ∈ reports.map ending <;> simp [Ending.andThen, one, failed]

end Report

namespace FileSystem

variable {system : FileSystem} {options : Options}

/-- The run over one file. -/
def checkOne (system : FileSystem) (options : Options) (path : Path) : Report :=
  let checked := system.checkFile path options.keepComments
  let lines := if options.debug then String.join (checked.records.map Record.line) else ""
  match verdict options path checked.result with
  | .error fault => { ending := .stopped fault, stderr := lines, records := checked.records }
  | .ok added =>
    { ending := .status (if added.failed then 1 else 0)
      stdout := added.stdout
      stderr := lines ++ added.stderr
      records := checked.records }

/-- A file on which there is a verdict: its text can be read, or the system says why not. -/
def Answers (system : FileSystem) (path : Path) : Prop :=
  (∃ source, system.readSource path.text = .ok source) ∨
    ∃ fault, system.readSource path.text = .error (.unreadable fault)

/-- A file is checked behind a run with a status as if it were alone, and then the others are, unless there
is no verdict on it. -/
theorem checkFiles_cons {report : Report} {code : Nat} (ended : report.ending = .status code)
    (path : Path) (files : List Path) : checkFiles system options report (path :: files) =
      match (system.checkOne options path).ending with
      | .stopped _ => report.andThen (system.checkOne options path)
      | .status _ => checkFiles system options (report.andThen (system.checkOne options path)) files := by
  -- Both sides hang on the verdict on the first file, and agree on each that there can be.
  simp only [checkFiles, checkOne]
  cases verdict options path (system.checkFile path options.keepComments).result with
  | error fault => simp [Report.andThen_of_status ended, Ending.andThen]
  | ok added =>
    obtain ⟨stdout, stderr, failed⟩ := added
    cases failed <;> simp [Report.andThen_of_status ended, Ending.andThen, ended, String.append_assoc]

/-- Files are checked behind a run with a status in turn, each as if it were alone. -/
theorem checkFiles_eq_inTurn (files : List Path) {report : Report} {code : Nat}
    (ended : report.ending = .status code) : checkFiles system options report files =
      report.andThen (Report.inTurn (files.map (system.checkOne options))) := by
  -- What has been checked so far goes along, and it has a status as long as no file stops the run.
  induction files generalizing report code with
  | nil => exact report.andThen_start.symm
  | cons path files ih =>
    rw [checkFiles_cons ended, List.map_cons, Report.inTurn, List.foldr_cons]
    cases one : (system.checkOne options path).ending with
    | stopped fault => rw [Report.andThen_of_stopped one]
    | status other =>
      have ended : (report.andThen (system.checkOne options path)).ending =
          .status (if other = 0 then code else other) := by
        rw [Report.andThen_of_status ended, one, Ending.andThen]
      exact (ih ended).trans (Report.andThen_assoc report _ _)

/-- A check comes to what its files come to in turn, if they can be collected. -/
theorem check_eq_inTurn {files : List Path}
    (collected : system.collectFiles options.paths options.extension = .ok files) :
    check system options = Report.inTurn (files.map (system.checkOne options)) := by
  -- The run begins with nothing checked, which adds nothing.
  rw [check, collected]
  exact (checkFiles_eq_inTurn files rfl).trans (Report.start_andThen _)

/-- What is read of a file is what its text is read as, at positions in the file. -/
theorem result_checkFile (system : FileSystem) (path : Path) (keepComments : Bool) :
    (system.checkFile path keepComments).result =
      (system.readSource path.text).bind fun source =>
        (parseText source (some (Path.ofText path.text)) (!keepComments)).mapError .malformed := by
  -- The journal is left out of each step, and what remains is reading and then parsing.
  simp only [checkFile, reading, Logged.result_bind, Logged.result_silently, Logged.result_mapError,
    Logged.result_parseText, Option.map_some]
  rfl

/-- The text of a file is never malformed before it has been read. -/
theorem readSource_ne_malformed (system : FileSystem) (text : String) (error : Error) :
    system.readSource text ≠ .error (.malformed error) := by
  -- Reading ends before the text is looked at, so each way for it to fail has another name.
  unfold readSource
  split
  · simp
  cases system.find text with
  | error fault => simp
  | ok tree =>
    cases tree with
    | directory entries => simp
    | closed fault => simp
    | file contents =>
      cases contents with
      | error fault => simp
      | ok bytes => cases decoded : String.fromUTF8? bytes <;> simp [decoded]

/-- The run over one file returns just if there is a verdict on the file. -/
theorem returns_checkOne {path : Path} :
    (system.checkOne options path).Returns ↔ system.Answers path := by
  -- A file whose text can be read always has a verdict, and of the others only the unreadable ones have.
  rw [Report.Returns, Answers, checkOne, result_checkFile]
  have noError := system.readSource_ne_malformed path.text
  cases contents : system.readSource path.text with
  | ok source =>
    -- Whatever the text is read as, there is a verdict on it.
    simp only [Except.bind]
    cases parseText source (some (Path.ofText path.text)) (!options.keepComments) <;>
      simp [Except.mapError, verdict]
  | error fault =>
    cases fault with
    | malformed error => exact absurd contents (noError error)
    | _ => simp [Except.bind, verdict]

/-- The status of a run over one file is zero or one. -/
theorem status_checkOne {path : Path} (returns : (system.checkOne options path).Returns) :
    (system.checkOne options path).ending = .status 0 ∨
      (system.checkOne options path).ending = .status 1 := by
  -- There is a verdict, and the status says whether that is a failure.
  obtain ⟨code, ended⟩ := returns
  rw [checkOne] at ended ⊢
  cases judged : verdict options path (system.checkFile path options.keepComments).result with
  | error fault =>
    rw [judged] at ended
    cases ended
  | ok added =>
    obtain ⟨stdout, stderr, failed⟩ := added
    cases failed <;> simp

/-- Files are collected path by path. -/
theorem collectFiles_eq (system : FileSystem) (paths : List Path) (extension : Option String) :
    system.collectFiles paths extension =
      (paths.mapM (system.filesAt extension)).map List.flatten := by
  -- The row of files is joined only where each of its parts is there.
  rw [collectFiles]
  cases paths.mapM (system.filesAt extension) <;> rfl

/-- Of two rows of paths the files are collected one after the other. -/
theorem collectFiles_append (system : FileSystem) (paths others : List Path)
    (extension : Option String) : system.collectFiles (paths ++ others) extension =
      (system.collectFiles paths extension).bind fun files =>
        (system.collectFiles others extension).map (files ++ ·) := by
  -- The first path whose files cannot be collected is the same on both sides.
  simp only [collectFiles_eq, List.mapM_append]
  cases paths.mapM (system.filesAt extension) with
  | error fault => rfl
  | ok first =>
    cases others.mapM (system.filesAt extension) with
    | error fault => rfl
    | ok second => simp [Bind.bind, Except.bind, Pure.pure, Except.pure, Except.map]

/-- A check returns just if its files can be collected and there is a verdict on each of them. -/
theorem returns_check : (check system options).Returns ↔
    ∃ files, system.collectFiles options.paths options.extension = .ok files ∧
      ∀ file ∈ files, system.Answers file := by
  -- Where files cannot be collected nothing is checked, and otherwise each file has to return.
  cases collected : system.collectFiles options.paths options.extension with
  | error fault => simp [Report.Returns, check, collected]
  | ok files =>
    rw [check_eq_inTurn collected, Report.returns_inTurn]
    simp [returns_checkOne]

/-- A check that returns has a status of zero or one. -/
theorem status_check_le {code : Nat} (ended : (check system options).ending = .status code) :
    code ≤ 1 := by
  -- There is a verdict on each of the files, and so each of them has a status of zero or one.
  obtain ⟨files, collected, answers⟩ := returns_check.mp ⟨code, ended⟩
  have each : ∀ report ∈ files.map (system.checkOne options),
      report.ending = .status 0 ∨ report.ending = .status 1 := by
    intro report member
    obtain ⟨file, among, rfl⟩ := List.mem_map.mp member
    exact status_checkOne (returns_checkOne.mpr (answers file among))
  rw [check_eq_inTurn collected, Report.status_inTurn each] at ended
  obtain rfl := Ending.status.inj ended
  split <;> omega

/-- A check of two rows of paths is that of the first and then that of the second, provided that the files
of the second can be collected. -/
theorem check_append {paths others : List Path} {behind : List Path}
    (second : system.collectFiles others options.extension = .ok behind) :
    check system { options with paths := paths ++ others } =
      (check system { options with paths }).andThen (check system { options with paths := others }) := by
  -- Everything hangs on whether the files of the first row can be collected as well.
  have parts := system.collectFiles_append paths others options.extension
  rw [second] at parts
  cases first : system.collectFiles paths options.extension with
  | error fault =>
    -- Neither run goes further than to the collecting of files.
    rw [first] at parts
    have stops : check system { options with paths := paths ++ others } = { ending := .stopped fault } := by
      simp [check, parts, Except.bind]
    have stopsToo : check system { options with paths } = { ending := .stopped fault } := by
      simp [check, first]
    rw [stops, stopsToo]
    rfl
  | ok before =>
    rw [first] at parts
    rw [check_eq_inTurn parts, check_eq_inTurn first, check_eq_inTurn second, List.map_append,
      Report.inTurn_append]
    rfl

/-- A check of two rows of paths returns just if the checks of either row do. -/
theorem returns_check_append {paths others : List Path} :
    (check system { options with paths := paths ++ others }).Returns ↔
      (check system { options with paths }).Returns ∧
        (check system { options with paths := others }).Returns := by
  -- Everything hangs on whether the files of the second row can be collected.
  have parts := system.collectFiles_append paths others options.extension
  cases second : system.collectFiles others options.extension with
  | ok behind => rw [check_append second, Report.returns_andThen]
  | error fault =>
    -- The files of both rows are collected before the first of them is read.
    rw [second] at parts
    have stops : ¬ (check system { options with paths := others }).Returns := by
      simp [Report.Returns, check, second]
    refine iff_of_false (fun returns => ?_) fun both => stops both.2
    obtain ⟨files, collected, -⟩ := returns_check.mp returns
    rw [parts] at collected
    cases first : system.collectFiles paths options.extension <;>
      simp [first, Except.bind, Except.map] at collected

end FileSystem

/-- A run over two rows of paths. It returns just if the files of both can be collected and each of them
can be read as text, or the system says why not, and so just if the runs over either row return. Then it
prints what these two print, one after the other, and its status is one just if that of either is. -/
theorem runCommand_append {system : FileSystem} {arguments first second : List String}
    {options : Options} {paths others : List Path}
    (both : Command.ofArguments arguments = .ok (.check { options with paths := paths ++ others }))
    (alone : Command.ofArguments first = .ok (.check { options with paths }))
    (behind : Command.ofArguments second = .ok (.check { options with paths := others })) :
    ((runCommand system arguments).Returns ↔
      ∃ files, system.collectFiles (paths ++ others) options.extension = .ok files ∧
        ∀ file ∈ files, system.Answers file) ∧
    ((runCommand system arguments).Returns ↔
      (runCommand system first).Returns ∧ (runCommand system second).Returns) ∧
    ((runCommand system arguments).Returns →
      (runCommand system arguments).stdout =
        (runCommand system first).stdout ++ (runCommand system second).stdout ∧
      (runCommand system arguments).stderr =
        (runCommand system first).stderr ++ (runCommand system second).stderr ∧
      ((runCommand system arguments).ending = .status 1 ↔
        (runCommand system first).ending = .status 1 ∨
          (runCommand system second).ending = .status 1)) := by
  -- Once the arguments are read all three runs are checks, and the lemmas about checks apply.
  simp only [runCommand, both, alone, behind]
  refine ⟨FileSystem.returns_check, FileSystem.returns_check_append, fun returns => ?_⟩
  obtain ⟨⟨code, ended⟩, ⟨other, endedToo⟩⟩ := FileSystem.returns_check_append.mp returns
  obtain ⟨files, collected, -⟩ := FileSystem.returns_check.mp ⟨other, endedToo⟩
  rw [FileSystem.check_append collected, Report.andThen_of_status ended, endedToo, ended]
  refine ⟨rfl, rfl, ?_⟩
  -- With a status of zero or one on either side, the one that is not zero is one.
  have small := FileSystem.status_check_le ended
  have smallToo := FileSystem.status_check_le endedToo
  simp only [Ending.andThen, Ending.status.injEq]
  split <;> omega

/-- A missing file does not keep a run from the path behind it, which leads through a file. -/
theorem runCommand_append_missing : ∃ system : FileSystem,
    (runCommand system ["a"]).stderr = "a: No such file or directory\n" ∧
    (runCommand system ["b/c"]).stderr = "b/c: Not a directory\n" ∧
    (runCommand system ["a", "b/c"]).stderr =
      "a: No such file or directory\n" ++ "b/c: Not a directory\n" ∧
    (runCommand system ["a", "b/c"]).ending = .status 1 := by
  -- Neither path is a directory, so both are collected, and the system says why neither can be opened.
  let system : FileSystem := { root := [("b", .file (.ok ⟨#[40]⟩))] }
  obtain ⟨returns, -, outputs⟩ := @runCommand_append system ["a", "b/c"] ["a"] ["b/c"] {}
    [⟨.relative, ["a"]⟩] [⟨.relative, ["b", "c"]⟩] rfl rfl rfl
  have answers : ∀ file ∈ [(⟨.relative, ["a"]⟩ : Path), ⟨.relative, ["b", "c"]⟩],
      system.Answers file := by
    simp only [List.forall_mem_cons, List.not_mem_nil, false_implies, implies_true, and_true]
    exact ⟨Or.inr ⟨.notFound, rfl⟩, Or.inr ⟨.notDirectory, rfl⟩⟩
  obtain ⟨-, stderr, status⟩ := outputs (returns.mpr ⟨_, rfl, answers⟩)
  exact ⟨system, rfl, rfl, stderr, status.mpr (Or.inl rfl)⟩

/-- Where the first file is not UTF-8 the run stops there, and the second file is not looked at. -/
example : runCommand { root := [("a", .file (.ok ⟨#[255]⟩)), ("b", .file (.ok ⟨#[40]⟩))] } ["a", "b"] =
    { ending := .stopped .undecodable } := rfl

end Sexpr
