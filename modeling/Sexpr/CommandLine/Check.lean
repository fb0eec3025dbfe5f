import Sexpr.CommandLine.Options
import Sexpr.Files.Loading
import Sexpr.Node.Text

/-! The command line: each file is read in turn, and the first error in each is reported. -/

namespace Sexpr

/-- How a run ended: with a status, or at a fault that no run goes on from. -/
inductive Ending where
  | status (code : Nat)
  | stopped (fault : LoadFault)
deriving DecidableEq

/-- What a run printed, how it ended, and the journal it kept. -/
structure Report where
  ending : Ending
  stdout : String := ""
  stderr : String := ""
  records : List Record := []

/-- The summary of the command line. -/
def usage : String :=
  "usage: sexpkit [-h] [--ext EXT] [--keep-comments] [--print] [--debug]\n" ++
  "               paths [paths ...]\n"

/-- What the options do. -/
def helpText : String :=
  usage ++ "\nCheck files for well-formed s-expressions.\n\n" ++
  "positional arguments:\n" ++
  "  paths            Files to check or directories to search\n\n" ++
  "options:\n" ++
  "  -h, --help       show this help message and exit\n" ++
  "  --ext EXT        Extension of files to check within directories\n" ++
  "  --keep-comments  Retain comments when printing\n" ++
  "  --print          Print the parsed top-level forms\n" ++
  "  --debug          Enable debug logging\n"

/-- A text without the line feeds at its end. -/
def dropFinalFeeds (text : String) : String :=
  String.ofList (text.toList.reverse.dropWhile (· == '\n')).reverse

/-- The lines that print a forest, one node after another. -/
def printed (nodes : List Node) : String :=
  String.join (nodes.map fun node => dropFinalFeeds node.text ++ "\n")

/-- What one file adds to a run: both outputs, and whether it failed. -/
structure Verdict where
  stdout : String := ""
  stderr : String := ""
  failed : Bool := false

/-- The verdict on a file. A file that is not UTF-8 has none, nor has a path that names no file. -/
def verdict (options : Options) (path : Path) :
    Except LoadFault (List Node) → Except LoadFault Verdict
  | .ok nodes => .ok { stdout := if options.print then printed nodes else "" }
  -- An error in one file is reported, and the run goes on to the next.
  | .error (.malformed error) => .ok { stderr := error.text ++ "\n", failed := true }
  | .error (.unreadable fault) =>
    .ok { stderr := path.text ++ ": " ++ fault.text ++ "\n", failed := true }
  | .error fault => .error fault

/-- Checks files in order, adding to what was printed before. -/
def checkFiles (system : FileSystem) (options : Options) (report : Report) : List Path → Report
  | [] => report
  | path :: paths =>
    -- The journal of a file is printed before what the file itself adds.
    let checked := system.checkFile path options.keepComments
    let lines := if options.debug then String.join (checked.records.map Record.line) else ""
    let report := { report with
      stderr := report.stderr ++ lines, records := report.records ++ checked.records }
    -- Only a file without a verdict ends the run early.
    match verdict options path checked.result with
    | .error fault => { report with ending := .stopped fault }
    | .ok added =>
      checkFiles system options
        { report with
          ending := if added.failed then .status 1 else report.ending
          stdout := report.stdout ++ added.stdout
          stderr := report.stderr ++ added.stderr }
        paths

/-- Checks all files that the paths of the options stand for. -/
def check (system : FileSystem) (options : Options) : Report :=
  match system.collectFiles options.paths options.extension with
  | .error fault => { ending := .stopped fault }
  | .ok files => checkFiles system options { ending := .status 0 } files

/-- Runs the command line. Arguments that are refused end the run with status two. -/
def runCommand (system : FileSystem) (arguments : List String) : Report :=
  match Command.ofArguments arguments with
  -- The summary stands in front of what is wrong with the arguments.
  | .error fault =>
    { ending := .status 2, stderr := usage ++ "sexpkit: error: " ++ fault.message ++ "\n" }
  | .ok .help => { ending := .status 0, stdout := helpText }
  | .ok (.check options) => check system options

end Sexpr
