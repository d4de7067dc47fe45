import LineSpec.Spec.Conventions
import LineSpec.Spec.Document
import LineSpec.Text.Lines
/-!
# Writing specifications

The text of items: a line for each parameter, with the marker before the key and a colon after it,
and a line for each entry of the body. An item that is written so stands where its first line
stands, and its entries have the numbers of their lines (`Item.placedAt`).
-/

namespace LineSpec

namespace Entry

/-- The line of an entry. -/
def print (c : Conventions) : Entry → Text
  | literal text _ => text
  | skip _ => c.skip

/-- The entry, on the line `n`. -/
def placedAt (n : Nat) : Entry → Entry
  | literal text _ => .literal text n
  | skip _ => .skip n

end Entry

namespace Item

/-- The line of a parameter. -/
def printParam (c : Conventions) (p : Text × Text) : Text :=
  c.item ++ " " ++ p.1 ++ ": " ++ p.2

/-- The lines of an item. -/
def print (c : Conventions) (item : Item) : List Text :=
  item.params.map (printParam c) ++ item.body.map (Entry.print c)

/-- The number of lines that an item is written in. -/
def size (item : Item) : Nat := item.params.length + item.body.length

/-- The item, with its lines numbered from `n`. -/
def placedAt (n : Nat) (item : Item) : Item where
  params := item.params
  body := (item.body.zipIdx (n + item.params.length)).map fun e => e.1.placedAt e.2
  line := n

end Item

namespace Document

/-- The text of items, where each line ends with `e`. -/
def print (c : Conventions) (e : Text.LineEnd) (items : List Item) : Text :=
  Text.written ((items.flatMap (Item.print c)).map (·, e))

/-- Items one after the other, with their lines numbered from `n`. -/
def placedFrom : (n : Nat) → List Item → List Item
  | _, [] => []
  | n, item :: items => item.placedAt n :: placedFrom (n + item.size) items

end Document

end LineSpec
