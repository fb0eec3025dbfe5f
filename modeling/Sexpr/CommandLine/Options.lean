import Sexpr.Source.Path
import Sexpr.Text.Digits
import Sexpr.Text.Quoted

/-! Command-line options: long ones may be cut short, and a value may follow an equals sign. -/

namespace Sexpr

/-- What a check is asked to do. -/
structure Options where
  paths : List Path := []
  /-- Of files below directories; without one, directories cannot be searched. -/
  extension : Option String := some "sexp"
  keepComments : Bool := false
  print : Bool := false
  debug : Bool := false
deriving DecidableEq, Repr

/-- The options by name. -/
inductive OptionName where
  | help
  | extension
  | keepComments
  | print
  | debug
deriving DecidableEq, Repr

namespace OptionName

/-- Every option. -/
def all : List OptionName := [help, extension, keepComments, print, debug]

/-- The long spelling of an option. -/
def long : OptionName → String
  | help => "--help"
  | extension => "--ext"
  | keepComments => "--keep-comments"
  | print => "--print"
  | debug => "--debug"

/-- An option in messages: all its spellings. -/
def title : OptionName → String
  | help => "-h/--help"
  | option => option.long

end OptionName

/-- Why arguments were refused. -/
inductive UsageFault where
  | ambiguous (argument : String) (options : List OptionName)
  | valueMissing (option : OptionName)
  | valueIgnored (option : OptionName) (value : String)
  | pathsMissing
  | unrecognized (arguments : List String)
deriving DecidableEq, Repr

/-- The words for refused arguments. -/
def UsageFault.message : UsageFault → String
  | ambiguous argument options =>
    let spellings := ", ".intercalate (options.map OptionName.long)
    s!"ambiguous option: {argument} could match {spellings}"
  | valueMissing option => s!"argument {option.title}: expected one argument"
  | valueIgnored option value =>
    s!"argument {option.title}: ignored explicit argument {quoted value}"
  | pathsMissing => "the following arguments are required: paths"
  | unrecognized arguments => "unrecognized arguments: " ++ " ".intercalate arguments

/-- What an argument is, seen on its own. -/
inductive Argument where
  /-- Two dashes, behind which all is plain. -/
  | separator
  | plain (text : String)
  /-- An option, and a value written onto it. -/
  | named (option : OptionName) (value : Option String := none)
  | unknown (text : String)
deriving DecidableEq, Repr

/-- Whether a text behind a dash is a decimal number, in the digits of any script. One line feed at its
end has no meaning. -/
def isUnsigned (text : List Char) : Bool :=
  let line := if text.getLast? = some '\n' then text.dropLast else text
  let whole := line.takeWhile isDecimalDigit
  match line.dropWhile isDecimalDigit with
  -- Without a point there has to be a digit, and behind a point one as well.
  | [] => whole != []
  | '.' :: fraction => fraction != [] && fraction.all isDecimalDigit
  | _ => false

/-- The text before and behind the first equals sign, if there is one. -/
def splitEquals (text : List Char) : List Char × Option String :=
  let spelling := text.takeWhile (· != '=')
  (spelling, (text.dropWhile (· != '=')).tail?.map String.ofList)

/-- The value written onto a short help option by the letters behind it.

Each letter is an option of its own, and help is the only one, so from the first other letter on they
are a value. Right behind the option an equals sign opens a value as well, which may be empty. -/
def helpValue (letters : List Char) : Option String :=
  if letters = ['='] then some ""
  else
    let behind := if letters.head? = some '=' then letters.tail else letters
    match behind.dropWhile (· == 'h') with
    | [] => none
    | value => some (String.ofList value)

/-- What an argument before the separator is.

A lone dash, a negative number and an argument with a blank are plain, unless an option fits. -/
def Argument.ofText (text : String) : Except UsageFault Argument :=
  match text.toList with
  | '-' :: '-' :: [] => .ok .separator
  | '-' :: '-' :: name =>
    let (spelling, value) := splitEquals ('-' :: '-' :: name)
    -- A long option may be cut short as long as only one begins that way.
    let fits := OptionName.all.filter fun option => spelling.isPrefixOf option.long.toList
    match fits with
    | [option] => .ok (.named option value)
    | [] => .ok (if name.contains ' ' then .plain text else .unknown text)
    | options => .error (.ambiguous text options)
  | '-' :: 'h' :: letters => .ok (.named .help (helpValue letters))
  | '-' :: char :: rest =>
    .ok <| if isUnsigned (char :: rest) || (char :: rest).contains ' ' then .plain text
      else .unknown text
  | _ => .ok (.plain text)

/-- What arguments are, in order. -/
def Argument.ofTexts : List String → Except UsageFault (List Argument)
  | [] => .ok []
  | text :: texts => do
    match ← Argument.ofText text with
    | .separator => return .separator :: texts.map .plain
    | argument => return argument :: (← Argument.ofTexts texts)

/-- What the arguments read so far add up to. -/
structure Request where
  options : Options := {}
  /-- Arguments with no meaning. -/
  extras : List String := []

/-- What arguments ask for. -/
inductive Command where
  | help
  | check (options : Options)
deriving DecidableEq, Repr

/-- The texts of the arguments that stand before the next option. -/
def plainRun : List Argument → List String
  | .plain text :: arguments => text :: plainRun arguments
  | .separator :: arguments => "--" :: plainRun arguments
  | _ => []

namespace Request

/-- Takes the arguments before an option: as the paths, if there are none yet, or as extras.

The paths take all arguments of the first run that holds a plain one; a separator is not among them. -/
def takeRun (request : Request) (run : List Argument) : Request :=
  let plain := run.filterMap fun | .plain text => some text | _ => none
  -- A run without plain arguments does not use up the place of the paths.
  if request.options.paths.isEmpty && !plain.isEmpty then
    { request with options.paths := plain.map Path.ofText }
  else { request with extras := request.extras ++ plainRun run }

/-- Sets the extension. A value of two dashes counts for nothing, like a separator. -/
def setExtension (request : Request) (value : String) : Request :=
  { request with options.extension := if value == "--" then none else some value }

/-- Sets an option that needs no value. -/
def setFlag (request : Request) : OptionName → Request
  | .keepComments => { request with options.keepComments := true }
  | .print => { request with options.print := true }
  | .debug => { request with options.debug := true }
  | _ => request

/-- The command that a request amounts to at the end of the arguments. -/
def finish (request : Request) : Except UsageFault Command :=
  if request.options.paths.isEmpty then .error .pathsMissing
  else if request.extras.isEmpty then .ok (.check request.options)
  else .error (.unrecognized request.extras)

end Request

/-- Reads arguments in order. `run` holds the latest ones that are not options, newest first. -/
def readArguments (request : Request) (run : List Argument) :
    List Argument → Except UsageFault Command
  | [] => (request.takeRun run.reverse).finish
  | .plain text :: arguments => readArguments request (.plain text :: run) arguments
  | .separator :: arguments => readArguments request (.separator :: run) arguments
  -- Every option ends the run of plain arguments before it.
  | .unknown text :: arguments =>
    let request := request.takeRun run.reverse
    readArguments { request with extras := request.extras ++ [text] } [] arguments
  -- Help ends the reading at once, whatever else is wrong.
  | .named .help none :: _ => .ok .help
  | .named .extension (some value) :: arguments =>
    readArguments ((request.takeRun run.reverse).setExtension value) [] arguments
  | .named .extension none :: .plain value :: arguments =>
    readArguments ((request.takeRun run.reverse).setExtension value) [] arguments
  | .named .extension none :: _ => .error (.valueMissing .extension)
  -- The remaining options take no value.
  | .named option (some value) :: _ => .error (.valueIgnored option value)
  | .named option none :: arguments =>
    readArguments ((request.takeRun run.reverse).setFlag option) [] arguments

/-- The command that arguments spell. -/
def Command.ofArguments (arguments : List String) : Except UsageFault Command := do
  readArguments {} [] (← Argument.ofTexts arguments)

end Sexpr
