import LineSpec.Settings.Reading
import LineSpec.Tree.Path
/-!
# Settings of the right types

Settings each of which has a value of the type that it should have: texts, one truth value, and
variables. Their conventions are those of the four markers, if none of them is empty.
-/

namespace LineSpec.Settings

/-- Settings with values of the right types. -/
structure Typed where
  version : Text := "0.1.0"
  specDir : Text := "spec"
  extension : Text := "txt"
  root : Text := ""
  skip : Text := ".."
  item : Text := "##"
  opening : Text := "$\x7b"
  closing : Text := "\x7d"
  strictEnd : Bool := false
  vars : Bindings Text := []
  deriving DecidableEq, Repr

namespace Typed

/-- The settings as they are kept. -/
def toSettings (s : Typed) : Settings where
  version := .text s.version
  specDir := .text s.specDir
  extension := .text s.extension
  root := .text s.root
  skip := .text s.skip
  item := .text s.item
  opening := .text s.opening
  closing := .text s.closing
  strictEnd := .bool s.strictEnd
  vars := s.vars

/-- The conventions of settings, or the first marker that is empty. `strictEnd` goes before the
setting. -/
def conventions (s : Typed) (strictEnd : Option Bool) : Except Marker Conventions :=
  Conventions.of? s.skip s.item s.opening s.closing (strictEnd.getD s.strictEnd)

/-- Settings without values of their own are the default ones. -/
example : ({} : Typed).toSettings = {} := rfl

end Typed

end LineSpec.Settings
