import Sexpr.Number.Literal
import Sexpr.Token.Basic

/-! Where one token ends: the character classes, and the longest piece of text of each kind. -/

namespace Sexpr

/-- The characters between tokens: space, tab, carriage return and line feed. -/
def isBlank (char : Char) : Bool := char == ' ' || char == '\t' || char == '\r' || char == '\n'

/-- The characters that cannot stand within an atom. -/
def isDelimiter (char : Char) : Bool :=
  isBlank char || char == '(' || char == ')' || char == ';' || char == '"'

/-- Whether an atom must end before the next character, which the end of the text lacks. -/
def endsAtom : Option Char → Bool
  | none => true
  | some char => isDelimiter char

/-- Splits off the longest run without a delimiter. -/
def splitAtom (text : List Char) : List Char × List Char :=
  splitWhile (fun char => !isDelimiter char) text

/-- A run is not empty where no delimiter stands. -/
theorem splitAtom_pos {text : List Char} (inside : endsAtom text.head? = false) :
    0 < (splitAtom text).1.length := by
  -- The first character belongs to the run.
  match text with
  | [] => simp [endsAtom] at inside
  | char :: rest =>
    have kept : isDelimiter char = false := by simpa [endsAtom] using inside
    simp [splitAtom, splitWhile, kept]

/-- Splits off what is left of a line, without its line feed. -/
def splitLine (text : List Char) : List Char × List Char :=
  splitWhile (fun char => char != '\n') text

/-- Splits behind the first quote that no backslash escapes, giving the contents before that quote. -/
def splitString : List Char → Option (List Char × List Char)
  | [] => none
  | '"' :: rest => some ([], rest)
  | '\\' :: char :: rest => (splitString rest).map fun (contents, rest) =>
    ('\\' :: char :: contents, rest)
  | char :: rest => (splitString rest).map fun (contents, rest) => (char :: contents, rest)

/-- A line without a carriage return at its end. -/
def dropReturn (line : List Char) : List Char :=
  if line.getLast? = some '\r' then line.dropLast else line

/-- The atom that a word spells: a truth value or an identifier. -/
def wordAtom (word : List Char) : Atom :=
  if word = "true".toList then .bool true
  else if word = "false".toList then .bool false
  else .identifier (String.ofList word)

/-- The lexical class that the first character of a text suggests.

A truth value looks like an identifier, and so do blanks and the end of the text. -/
def classify (text : List Char) : TokenKind :=
  match text with
  | '(' :: _ => .listOpen
  | ')' :: _ => .listClose
  | ';' :: _ => .comment
  | '"' :: _ => .string
  | _ => if startsNumber text then .number else .identifier

end Sexpr
