import Sexpr.Number.Text
import Sexpr.Source.Location

/-! Tokens: what a piece of source text means, how it was written, and where. -/

namespace Sexpr

/-- A value that stands alone. Strings and comments keep their text as written, without delimiters. -/
inductive Atom where
  | bool (value : Bool)
  | number (value : Binary64)
  | string (contents : String)
  | identifier (name : String)
  | comment (contents : String)
deriving DecidableEq, Inhabited

/-- What a token means: one end of a list, or an atom. -/
inductive Lexeme where
  | listOpen
  | listClose
  | atom (value : Atom)
deriving DecidableEq, Inhabited

/-- The lexical classes. -/
inductive TokenKind where
  | bool
  | number
  | string
  | identifier
  | comment
  | listOpen
  | listClose
deriving DecidableEq, Repr

namespace TokenKind

/-- The lexical classes in the order of their declaration. -/
def all : List TokenKind := [bool, number, string, identifier, comment, listOpen, listClose]

/-- The word for a class; a list end is its own word. -/
def text : TokenKind → String
  | bool => "bool"
  | number => "number"
  | string => "string"
  | identifier => "identifier"
  | comment => "comment"
  | listOpen => "("
  | listClose => ")"

/-- The name that a class is declared by. -/
def label : TokenKind → String
  | bool => "BOOL"
  | number => "NUMBER"
  | string => "STRING"
  | identifier => "IDENTIFIER"
  | comment => "COMMENT"
  | listOpen => "LIST_OPEN"
  | listClose => "LIST_CLOSE"

/-- Whether tokens of a class delimit lists. -/
def isSymbol : TokenKind → Bool
  | listOpen | listClose => true
  | _ => false

/-- Whether tokens of a class stand alone. -/
def isAtom (kind : TokenKind) : Bool := !kind.isSymbol

end TokenKind

/-- The lexical class of an atom. -/
def Atom.tokenKind : Atom → TokenKind
  | .bool _ => .bool
  | .number _ => .number
  | .string _ => .string
  | .identifier _ => .identifier
  | .comment _ => .comment

/-- The lexical class of a lexeme. -/
def Lexeme.kind : Lexeme → TokenKind
  | .listOpen => .listOpen
  | .listClose => .listClose
  | .atom value => value.tokenKind

/-- A lexeme with its exact source text and the position of its first character. -/
structure Token where
  lexeme : Lexeme
  raw : String
  location : Location := {}
deriving DecidableEq, Inhabited

/-- The lexical class of a token. -/
def Token.kind (token : Token) : TokenKind := token.lexeme.kind

end Sexpr
