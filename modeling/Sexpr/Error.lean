import Sexpr.Detail

/-! Errors: what went wrong, where, and the words for it. -/

namespace Sexpr

/-- How reading a token can fail. -/
inductive LexicalFault where
  | commentNotStarted
  | stringNotStarted
  | stringUnclosed
  | identifierNotStarted
  | identifierBeginsWithNumber
  | wrongType
  | numberOutOfRange
  | stackUnderflow
deriving DecidableEq, Repr

/-- What a lexical error remembers of the text. -/
structure Evidence where
  partialContents : Option Detail := none
  expected : Option Detail := none
  got : Option Detail := none
deriving DecidableEq

/-- How nesting tokens into lists can fail. The third is for checks above the nesting. -/
inductive StructuralFault where
  | unclosedList
  | unstartedList
  | invalid
  | stackUnderflow
deriving DecidableEq, Repr

/-- How looking into a node can fail. -/
inductive AccessFault where
  | invalidType
  | lengthMismatch
deriving DecidableEq, Repr

/-- Why an error arose. Where a message is given it replaces the usual words. -/
inductive Cause where
  | general (message : String)
  | lexical (fault : LexicalFault) (evidence : Evidence := {})
  | structural (fault : StructuralFault) (message : Option String := none)
  | access (fault : AccessFault) (expected got : Option Detail := none)
      (message : Option String := none)
  | cursor (message : String)
deriving DecidableEq

/-- A cause at a position. -/
structure Error where
  cause : Cause
  location : Location := {}
deriving DecidableEq

/-- The words for a lexical error. -/
def LexicalFault.message (evidence : Evidence) : LexicalFault → String
  | .commentNotStarted => "Comment not started"
  | .stringNotStarted => "String not started"
  | .stringUnclosed => "Unclosed string \"" ++ (evidence.partialContents.map Detail.words).getD ""
  | .identifierNotStarted => "Identifier not started"
  | .identifierBeginsWithNumber =>
    "Identifier begins with a number: " ++ wordsOrNone evidence.got
  | .wrongType =>
    "Expected " ++ wordsOrNone evidence.expected ++ " token, got " ++ wordsOrNone evidence.got
  | .numberOutOfRange => "Number out of range: " ++ wordsOrNone evidence.got
  | .stackUnderflow => "Tokenizer stack underflow"

/-- The usual words for a structural error. -/
def StructuralFault.message : StructuralFault → String
  | .unclosedList => "Unclosed list"
  | .unstartedList => "Unstarted list"
  | .invalid => "Invalid s-expression"
  | .stackUnderflow => "Parser stack underflow"

/-- The usual words for an access error. -/
def AccessFault.message (expected got : Option Detail) : AccessFault → String
  | .invalidType => "Expected " ++ wordsOrNone expected ++ ", got " ++ wordsOrNone got
  | .lengthMismatch => "Expected " ++ wordsOrNone expected ++ " values, got " ++ wordsOrNone got

/-- The words for a cause. -/
def Cause.message : Cause → String
  -- A message that is given stands for the usual words.
  | .general message | .cursor message => message
  | .lexical fault evidence => fault.message evidence
  | .structural fault message => message.getD fault.message
  | .access fault expected got message => message.getD (fault.message expected got)

namespace Error

/-- The words for an error, without its position. -/
def message (error : Error) : String := error.cause.message

/-- The words for an error behind its position. -/
def text (error : Error) : String := error.location.text ++ ": " ++ error.message

/-- Errors agree if their words do; the position is for the reader only. -/
def agrees (error other : Error) : Bool := error.message == other.message

end Error

end Sexpr
