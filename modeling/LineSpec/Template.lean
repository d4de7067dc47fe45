import LineSpec.Spec.Conventions
import LineSpec.Text.Blank
import LineSpec.Text.Quoted
import LineSpec.Text.Search
/-!
# Placeholders

A line of a specification may hold placeholders: a variable's name between the two texts that the
conventions give. A line is scanned from the left. The first closing text after an opening one ends
the placeholder, so placeholders do not nest, and the scan goes on after it. `Template.scan` cuts a
line into the slots of its placeholders and the text after them, or stops at a placeholder that is
not closed or names nothing. Listing the names and filling the slots are both functions of this one
scan.
-/

namespace LineSpec

/-- Why the placeholders of a line cannot be resolved. -/
inductive PlaceholderError where
  /-- A name that no variable has. -/
  | undefined (name : Text)
  /-- The placeholder at `offset` of `text` is not closed or names nothing. -/
  | malformed (text : Text) (offset : Int)
  deriving DecidableEq, Repr

/-- The error in words. -/
def PlaceholderError.message : PlaceholderError → Text
  | .undefined name => "Undefined variable: " ++ name
  | .malformed text offset =>
    s!"Malformed placeholder at column {offset + 1}: " ++ Text.quoted text

namespace Template

/-- A placeholder: the text between it and the one before, and its name. -/
structure Slot where
  before : Text
  name : Text
  deriving DecidableEq, Repr

/-- What follows the slots of a line. -/
inductive Tail where
  /-- Text without a placeholder. -/
  | text (t : Text)
  /-- A placeholder, at `offset`, that is not closed or names nothing. -/
  | malformed (offset : Nat)
  deriving DecidableEq, Repr

/-- The slots of a line from left to right, and what follows them. -/
structure Scan where
  slots : List Slot
  tail : Tail
  deriving DecidableEq, Repr

/-- `scanFrom c offset t` scans `t`, which begins at `offset` of its line. -/
def scanFrom (c : Conventions) (offset : Nat) (t : Text) : Scan :=
  match _h : Text.splitFirst? c.opening t with
  | none => ⟨[], .text t⟩
  | some (before, afterOpening) =>
    match _h' : Text.splitFirst? c.closing afterOpening with
    | none => ⟨[], .malformed (offset + before.length)⟩
    | some (raw, rest) =>
      let name := Text.trim raw
      if name.isEmpty then ⟨[], .malformed (offset + before.length)⟩
      else
        let next := scanFrom c (offset + (t.length - rest.length)) rest
        ⟨⟨before, name⟩ :: next.slots, next.tail⟩
termination_by t.length
decreasing_by
  have := Text.length_lt_of_splitFirst? c.opening_ne _h
  have := Text.length_le_of_splitFirst? _h'
  omega

/-- The slots of a line and what follows them. -/
def scan (c : Conventions) (text : Text) : Scan :=
  scanFrom c 0 text

/-- The names in a line, in order of appearance. -/
def placeholders (c : Conventions) (text : Text) : Except PlaceholderError (List Text) :=
  let s := scan c text
  match s.tail with
  | .text _ => .ok (s.slots.map Slot.name)
  | .malformed offset => .error (.malformed text offset)

/-- The text of slots with the values of their names. -/
def fill (lookup : Text → Option Text) : List Slot → Except PlaceholderError Text
  | [] => .ok []
  | slot :: slots =>
    match lookup slot.name with
    | none => .error (.undefined slot.name)
    | some value => (fill lookup slots).map fun t => slot.before ++ value ++ t

/-- `substitute c lookup text` is `text` with the value of each name in the place of its
placeholder. Values are not scanned again. -/
def substitute (c : Conventions) (lookup : Text → Option Text) (text : Text) :
    Except PlaceholderError Text :=
  let s := scan c text
  match fill lookup s.slots with
  -- a name without a value counts before a placeholder further right that is malformed
  | .error e => .error e
  | .ok filled =>
    match s.tail with
    | .text rest => .ok (filled ++ rest)
    | .malformed offset => .error (.malformed text offset)

end Template

end LineSpec
