import Sexpr.Node.Basic
import Sexpr.Number.Numeral

/-! Plain data: nodes without their tokens, and the way back. -/

namespace Sexpr

/-- What kind of row holds items. Rows of different kinds are never the same key. -/
inductive Row where
  | list
  | tuple
  | bytes
  | range
  | mapping
deriving DecidableEq, Repr

/-- A plain value. All that can be gone through item by item counts as its items. -/
inductive Datum where
  | nothing
  | bool (value : Bool)
  | integer (value : Int)
  | number (value : Binary64)
  | text (contents : String)
  | items (row : Row) (values : List Datum)
  /-- A value that has no node, known by the name of its type; it may still equal a number. -/
  | foreign (typeName : String) (equal : Option Binary64 := none)
deriving Inhabited

/-- Why a plain value has no node, or is no number. -/
inductive DatumFault where
  | notFinite (value : Binary64)
  | tooLarge (value : Int)
  | unsupported (typeName : String)
  | notNumeral (contents : String)
  | notReal
deriving DecidableEq

/-- The words for a value that has no node, or is no number. -/
def DatumFault.message : DatumFault → String
  | notFinite value => "Cannot convert non-finite number " ++ value.text
  | tooLarge _ => "int too large to convert to float"
  | unsupported typeName => "Cannot convert " ++ typeName ++ " to an s-expression"
  | notNumeral contents => "could not convert string to float: " ++ quoted contents
  | notReal => "not a real number"

namespace Datum

/-- Whether a value is a truth value or number that equals an integer. -/
def isInteger (value : Int) : Datum → Bool
  | bool truth => value == if truth then 1 else 0
  | integer whole => value == whole
  | number real | foreign _ (some real) => real.toInt? == some value
  | _ => false

/-- Whether a value is a truth value or number that equals a number. -/
def isNumber (value : Binary64) : Datum → Bool
  | number real | foreign _ (some real) => value.agrees real
  | key => value.toInt?.any fun whole => key.isInteger whole

mutual

/-- Whether two values are the same key. Truth values count as zero and one, numbers by their value. -/
def sameKey : Datum → Datum → Bool
  | nothing, nothing => true
  -- Zero and false are one key, and so are one and true.
  | bool value, key => key.isInteger (if value then 1 else 0)
  | integer value, key => key.isInteger value
  | number value, key | foreign _ (some value), key => key.isNumber value
  | text contents, text key => contents == key
  | items row values, items other keys => row == other && sameKeys values keys
  | _, _ => false

/-- Whether two rows of values are the same keys one by one. -/
def sameKeys : List Datum → List Datum → Bool
  | [], [] => true
  | value :: values, key :: keys => value.sameKey key && sameKeys values keys
  | _, _ => false

end

mutual

/-- Whether a value can be a key: a row that may grow cannot, nor can one that holds such a row. -/
def isKey : Datum → Bool
  -- What can still grow has no settled value to be found by.
  | items .list _ | items .mapping _ => false
  | items _ values => areKeys values
  | _ => true

/-- Whether all values in a row can be keys. -/
def areKeys : List Datum → Bool
  | [] => true
  | value :: values => value.isKey && areKeys values

end

/-- A mapping is gone through by its keys, each in the place where it came first. -/
def ofMapping (entries : List (Datum × Datum)) : Datum :=
  -- A key that comes again keeps its first place.
  .items .mapping <| entries.foldl (fun keys (key, _) =>
    if keys.any key.sameKey then keys else keys ++ [key]) []

/-- Bytes are gone through as integers. -/
def ofBytes (bytes : List UInt8) : Datum :=
  .items .bytes (bytes.map fun byte => .integer byte.toNat)

/-- The integers from zero up to a bound. -/
def ofRange (bound : Nat) : Datum :=
  .items .range ((List.range bound).map fun value => .integer (value : Nat))

/-- The truth of a value: what is zero, empty or nothing is false. -/
def truth : Datum → Bool
  | nothing => false
  | bool value => value
  | integer value => value != 0
  | number value => !value.agrees .zero
  | text contents => contents != ""
  | items _ values => !values.isEmpty
  | foreign _ equal => !equal.any (·.agrees .zero)

/-- The number nearest to an integer, which has to be finite. -/
def roundInteger (value : Int) : Except DatumFault Binary64 :=
  (Binary64.ofInt? value).elim (.error (.tooLarge value)) .ok

/-- The number of a value: texts are read as numerals, and truth values are zero and one. -/
def toNumber : Datum → Except DatumFault Binary64
  | bool value => .ok (if value then .ofRank false (1023 * Nat.pow 2 52) else .zero)
  | integer value => roundInteger value
  | number value => .ok value
  | text contents =>
    match readNumeral contents.toList with
    | some value => .ok value
    | none => .error (.notNumeral contents)
  | _ => .error .notReal

end Datum

mutual

/-- The node of a plain value. Texts become identifiers, and integers the nearest numbers. -/
def Node.ofDatum : Datum → Except DatumFault Node
  | .nothing => .error (.unsupported "NoneType")
  | .bool value => .ok (.atom (.bool value))
  | .integer value => (Datum.roundInteger value).map fun rounded => .atom (.number rounded)
  | .number value => if value.isFinite then .ok (.atom (.number value)) else .error (.notFinite value)
  | .text contents => .ok (.atom (.identifier contents))
  | .items _ values => (Node.ofData values).map fun nodes => .list nodes
  | .foreign typeName _ => .error (.unsupported typeName)

/-- The nodes of plain values, up to the first value that has none. -/
def Node.ofData : List Datum → Except DatumFault (List Node)
  | [] => .ok []
  | value :: values =>
    -- The first value without a node decides the fault.
    match Node.ofDatum value with
    | .error fault => .error fault
    | .ok node => (Node.ofData values).map (node :: ·)

end

mutual

/-- The plain value of a node. Strings, identifiers and comments all become texts. -/
def Node.toDatum : Node → Datum
  | .atom (.bool value) _ => .bool value
  | .atom (.number value) _ => .number value
  | .atom (.string contents) _ | .atom (.identifier contents) _ | .atom (.comment contents) _ =>
    .text contents
  | .list children _ => .items .list (Node.toData children)

/-- The plain values of nodes. -/
def Node.toData : List Node → List Datum
  | [] => []
  | node :: nodes => node.toDatum :: Node.toData nodes

end

end Sexpr
