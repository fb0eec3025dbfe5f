import Sexpr.Journal.Basic
import Sexpr.Reading

/-! Reading with a journal: counts of what was read, and every error on its way out. -/

namespace Sexpr

/-- The channels that reading writes to. -/
inductive Channel where
  | tokens
  | nodes
  | cursors
  | files
deriving DecidableEq, Repr

/-- The name of a channel. -/
def Channel.name : Channel → String
  | tokens => "sexpkit.language.sexp.tokenizer"
  | nodes => "sexpkit.language.sexp.parser"
  | cursors => "sexpkit.language.sexp.cursor"
  | files => "sexpkit.language.sexp.loader"

namespace Logged

/-- The tokens of a text from a file known by a given name, or from none. -/
def tokenize (text : String) (given : Option String := none) : Logged Error (List Token) := do
  let tokens ← ofExcept Channel.tokens.name (Sexpr.tokenize text (given.map Path.ofText))
  let origin := given.getD "<string>"
  record Channel.tokens.name s!"Read {tokens.length} tokens from {origin}"
  return tokens

/-- The forest that tokens spell. -/
def parse (tokens : List Token) : Logged Error (List Node) := do
  let nodes ← ofExcept Channel.nodes.name (Sexpr.parse tokens)
  record Channel.nodes.name s!"Parsed {nodes.length} top-level nodes"
  return nodes

/-- The forest of a text, with or without its comments. -/
def parseText (text : String) (given : Option String := none) (ignoreComments : Bool := true) :
    Logged Error (List Node) := do
  let nodes ← parse (← tokenize text given)
  return if ignoreComments then stripComments nodes else nodes

/-- Cursors over the lists that make up a text; any other node at the top is an error. -/
def parseLists (text : String) (given : Option String := none) : Logged Error (List Cursor) := do
  (← parseText text given).mapM fun node => ofExcept Channel.nodes.name (topList node)

/-- Keeping a journal does not change the tokens that are read. -/
@[simp] theorem result_tokenize (text : String) (given : Option String) :
    (tokenize text given).result = Sexpr.tokenize text (given.map Path.ofText) := by
  simp only [tokenize, result_bind, result_ofExcept, result_record, result_pure]
  cases Sexpr.tokenize text (given.map Path.ofText) <;> rfl

/-- Keeping a journal does not change the forest that tokens spell. -/
@[simp] theorem result_parse (tokens : List Token) : (parse tokens).result = Sexpr.parse tokens := by
  simp only [parse, result_bind, result_ofExcept, result_record, result_pure]
  cases Sexpr.parse tokens <;> rfl

/-- Keeping a journal does not change the forest of a text. -/
@[simp] theorem result_parseText (text : String) (given : Option String) (ignoreComments : Bool) :
    (parseText text given ignoreComments).result =
      Sexpr.parseText text (given.map Path.ofText) ignoreComments := by
  simp only [parseText, Sexpr.parseText, result_bind, result_tokenize, result_parse, result_pure]
  cases Sexpr.tokenize text (given.map Path.ofText) with
  | error error => rfl
  | ok tokens =>
    -- Leaving out comments comes last on both sides.
    cases parsed : Sexpr.parse tokens with
    | error error => simp [parsed, Bind.bind, Except.bind]
    | ok nodes => simp [parsed, Bind.bind, Except.bind, Pure.pure, Except.pure]

/-- Keeping a journal does not change the lists of a text. -/
@[simp] theorem result_parseLists (text : String) (given : Option String) :
    (parseLists text given).result = Sexpr.parseLists text (given.map Path.ofText) := by
  simp only [parseLists, Sexpr.parseLists, result_bind, result_parseText, result_mapM,
    result_ofExcept]

end Logged

end Sexpr
