import LineSpec.Assoc
import LineSpec.Text.Quoted
/-!
# Specification documents

A document is a list of items. An item has parameters, of which one names the file that it is about,
and a body: the lines that the file should have, where a skip stands for lines that do not matter.
Each entry of a body carries the number of its line in the specification.
-/

namespace LineSpec

/-- One line of a body. -/
inductive Entry where
  /-- A line that reads `text`, once its placeholders are resolved. -/
  | literal (text : Text) (line : Int)
  /-- Any number of lines. -/
  | skip (line : Int)
  deriving DecidableEq, Repr

namespace Entry

/-- The number of the line in the specification. -/
def line : Entry → Int
  | .literal _ line => line
  | .skip line => line

/-- Whether the entry is a skip. -/
def isSkip : Entry → Bool
  | .literal .. => false
  | .skip _ => true

/-- The text of the entry; a skip has none. -/
def text : Entry → Text
  | .literal text _ => text
  | .skip _ => []

/-- Why there is no such entry. -/
inductive FormError where
  | unknownKind (kind : Text)
  | skipWithText
  deriving DecidableEq, Repr

/-- The error in words. -/
def FormError.message : FormError → Text
  | unknownKind kind => Text.quoted kind ++ " is not a valid LineKind"
  | skipWithText => "Skip lines carry no text"

/-- The entry of a kind that is given by its name. A skip has no text. -/
def ofKind (kind text : Text) (line : Int) : Except FormError Entry :=
  if kind = "literal" then .ok (literal text line)
  else if kind = "skip" then
    if text = [] then .ok (skip line) else .error .skipWithText
  else .error (.unknownKind kind)

/-- The name of the kind of an entry. -/
def kind : Entry → String
  | literal .. => "literal"
  | skip _ => "skip"

end Entry

/-- The lines that a file should have. -/
abbrev Body := List Entry

/-- Whether the last entry of a body is a skip. -/
def Body.endsWithSkip (body : Body) : Bool :=
  body.getLast?.any Entry.isSkip

/-- A unit of a specification: parameters and a body. -/
structure Item where
  params : Bindings Text := []
  body : Body := []
  /-- The number of its first line. -/
  line : Int := 0
  deriving DecidableEq, Repr

/-- The value of a parameter. -/
def Item.param? (item : Item) (key : Text) : Option Text :=
  item.params.get? key

/-- A parsed specification, and the file that it was read from. -/
structure Document where
  items : List Item := []
  source : Option Text := none
  deriving DecidableEq, Repr

/-- The items that declare the parameter `key`, with its value, in document order. -/
def Document.declaring (d : Document) (key : Text) : List (Item × Text) :=
  d.items.filterMap fun item => (item.param? key).map (item, ·)

end LineSpec
