import LineSpec.Text.Basic
/-!
# Conventions

The texts that stand out in a specification: the line that skips lines, the beginning of a parameter
line, and the two ends of a placeholder. None of the four is empty; that is part of the type, and
`Conventions.of?` is the way to conventions from four texts. One more setting says whether a match
has to reach the end of its input.
-/

namespace LineSpec

/-- Texts that conventions give a meaning. -/
inductive Marker where
  | skip
  | item
  | opening
  | closing
  deriving DecidableEq, Repr

/-- The name of a marker in settings. -/
def Marker.label : Marker → String
  | .skip => "skip_marker"
  | .item => "item_marker"
  | .opening => "var_start"
  | .closing => "var_end"

/-- The wording for a marker that is empty. -/
def Marker.emptyMessage (m : Marker) : String := s!"Option {m.label} must not be empty"

/-- The conventions of a specification. -/
structure Conventions where
  /-- A line that is this text stands for any number of lines. -/
  skip : Text := ".."
  /-- A line that begins with this text, before white space or its end, holds a parameter. -/
  item : Text := "##"
  /-- The beginning of a placeholder. -/
  opening : Text := "$\x7b"
  /-- The end of a placeholder. -/
  closing : Text := "\x7d"
  /-- Whether nothing may follow the lines of a body that does not end with a skip. -/
  strictEnd : Bool := false
  skip_ne : skip ≠ [] := by decide
  item_ne : item ≠ [] := by decide
  opening_ne : opening ≠ [] := by decide
  closing_ne : closing ≠ [] := by decide
  deriving DecidableEq, Repr

namespace Conventions

/-- Conventions from four texts, or the first of them that is empty. -/
def of? (skip item opening closing : Text) (strictEnd : Bool) : Except Marker Conventions :=
  if h₁ : skip = [] then .error .skip
  else if h₂ : item = [] then .error .item
  else if h₃ : opening = [] then .error .opening
  else if h₄ : closing = [] then .error .closing
  else .ok ⟨skip, item, opening, closing, strictEnd, h₁, h₂, h₃, h₄⟩

end Conventions

end LineSpec
