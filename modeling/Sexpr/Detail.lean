import Sexpr.Node.Kind
import Sexpr.Number.General
import Sexpr.Text.Quoted
import Sexpr.Token.Basic

/-! Details: the values that an error gives as evidence, and the words for them. -/

namespace Sexpr

/-- A single value. -/
inductive Scalar where
  | nothing
  | bool (value : Bool)
  | integer (value : Int)
  | number (value : Binary64)
  | text (contents : String)
  | tokenKind (kind : TokenKind)
  | nodeKind (kind : NodeKind)
deriving DecidableEq

/-- A piece of evidence in an error. -/
inductive Detail where
  | scalar (value : Scalar)
  | items (values : List Detail)
deriving Inhabited

mutual

/-- Whether two pieces of evidence are the same. -/
def Detail.decideEq : (detail other : Detail) → Decidable (detail = other)
  | .scalar value, .scalar other =>
    if same : value = other then isTrue (congrArg Detail.scalar same)
    else isFalse fun equal => same (Detail.scalar.inj equal)
  | .items values, .items others =>
    match Detail.decideEqItems values others with
    | isTrue same => isTrue (congrArg Detail.items same)
    | isFalse differ => isFalse fun equal => differ (Detail.items.inj equal)
  | .scalar _, .items _ => isFalse nofun
  | .items _, .scalar _ => isFalse nofun

/-- Whether two rows of evidence are the same. -/
def Detail.decideEqItems : (details others : List Detail) → Decidable (details = others)
  | [], [] => isTrue rfl
  | [], _ :: _ => isFalse nofun
  | _ :: _, [] => isFalse nofun
  | detail :: details, other :: others =>
    match Detail.decideEq detail other, Detail.decideEqItems details others with
    | isTrue same, isTrue sameRest => isTrue (by rw [same, sameRest])
    | isFalse differ, _ => isFalse fun equal => differ (List.cons.inj equal).1
    | _, isFalse differ => isFalse fun equal => differ (List.cons.inj equal).2

end

instance : DecidableEq Detail := Detail.decideEq

/-- A single value as it stands within other values: a text in quotes, a class or variant with its name. -/
def Scalar.describe : Scalar → String
  | nothing => "None"
  | bool value => if value then "True" else "False"
  | integer value => toString value
  | number value => value.general
  | text contents => quoted contents
  | tokenKind kind => "<TokenKind." ++ kind.label ++ ": " ++ quoted kind.text ++ ">"
  | nodeKind kind => "<AstType." ++ kind.label ++ ": " ++ quoted kind.text ++ ">"

/-- The words for a single value, which stand without quotes. -/
def Scalar.words : Scalar → String
  | text contents => contents
  | tokenKind kind => kind.text
  | nodeKind kind => kind.text
  | value => value.describe

mutual

/-- A piece of evidence as it stands within another. -/
def Detail.describe : Detail → String
  | .scalar value => value.describe
  | .items values => "[" ++ ", ".intercalate (Detail.describeItems values) ++ "]"

/-- A row of evidence, piece by piece. -/
def Detail.describeItems : List Detail → List String
  | [] => []
  | detail :: details => detail.describe :: Detail.describeItems details

end

/-- The words for a piece of evidence. -/
def Detail.words : Detail → String
  | .scalar value => value.words
  | .items values => (Detail.items values).describe

/-- The words for evidence that may be missing. -/
def wordsOrNone (detail : Option Detail) : String := (detail.map Detail.words).getD "None"

/-- A text as evidence. -/
def Detail.text (contents : String) : Detail := .scalar (.text contents)

/-- A number of things as evidence. -/
def Detail.count (value : Int) : Detail := .scalar (.integer value)

/-- A lexical class as evidence. -/
def Detail.tokenKind (kind : TokenKind) : Detail := .scalar (.tokenKind kind)

/-- A variant of nodes as evidence. -/
def Detail.nodeKind (kind : NodeKind) : Detail := .scalar (.nodeKind kind)

end Sexpr
