import LineSpec.Json.Basic
import LineSpec.Scalar.Basic
/-!
# JSON data on one line

The text that a JSON value has as a variable: a text stands for itself, all else is written as
scalars and collections are.
-/

namespace LineSpec.Json

mutual

/-- The text of a value inside a collection. -/
def nested : Json → Text
  | null => Scalar.null.nested
  | bool b => (Scalar.bool b).nested
  | int n => (Scalar.int n).nested
  | float x => (Scalar.float x).nested
  | text t => (Scalar.text t).nested
  | array items => Scalar.listText (nestedItems items)
  | object members => Scalar.mappingText (nestedMembers members)

/-- The texts of the items of an array. -/
def nestedItems : List Json → List Text
  | [] => []
  | item :: items => nested item :: nestedItems items

/-- The texts of the members of an object. -/
def nestedMembers : List (Text × Json) → List (Text × Text)
  | [] => []
  | (name, value) :: members => (Text.quoted name, nested value) :: nestedMembers members

end

/-- The text of a value that stands alone. -/
def alone : Json → Text
  | text t => t
  | other => nested other

end LineSpec.Json
