import LineSpec.Assoc
import LineSpec.Decimal.Binary64
/-!
# JSON data

The data of a JSON text. Whole numbers are exact, all others are rounded to the 64-bit binary
format. An object keeps the order of its members, with distinct names.
-/

namespace LineSpec

/-- The data of a JSON text. -/
inductive Json where
  | null
  | bool (b : Bool)
  | int (n : Int)
  | float (x : Binary64)
  | text (t : Text)
  | array (items : List Json)
  | object (members : List (Text × Json))
  deriving Repr, Inhabited

namespace Json

/-- The text that the data is, if it is one. -/
def text? : Json → Option Text
  | text t => some t
  | _ => none

/-- Whether the data counts as true: all but `null`, `false`, zero, and what is empty. -/
def truthy : Json → Bool
  | null => false
  | bool b => b
  | int n => n != 0
  | float x => !x.isZero
  | text t => !t.isEmpty
  | array items => !items.isEmpty
  | object members => !members.isEmpty

end Json

end LineSpec
