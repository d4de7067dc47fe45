import LineSpec.Json.Inline
import LineSpec.Spec.Conventions
/-!
# Settings

The settings of a project: where its specifications lie, what files they are about, their
conventions, and variables. They are kept as JSON, one member of an object for each of them; a
member that is absent has its default, and others are ignored. A setting may hold a value of the
wrong type, which matters only where it is used.
-/

namespace LineSpec

/-- The settings of a project. -/
structure Settings where
  version : Json := .text "0.1.0"
  specDir : Json := .text "spec"
  extension : Json := .text "txt"
  root : Json := .text ""
  skip : Json := .text ".."
  item : Json := .text "##"
  opening : Json := .text "$\x7b"
  closing : Json := .text "\x7d"
  strictEnd : Json := .bool false
  vars : Bindings Text := []
  deriving Repr

namespace Settings

/-- The settings as JSON. -/
def toJson (s : Settings) : Json :=
  .object [
    ("version", s.version),
    ("spec_dir", s.specDir),
    ("extension", s.extension),
    ("root", s.root),
    (Marker.skip.label, s.skip),
    (Marker.item.label, s.item),
    (Marker.opening.label, s.opening),
    (Marker.closing.label, s.closing),
    ("strict_eof", s.strictEnd),
    ("variables", .object (s.vars.map fun p => (p.1, .text p.2)))]

/-- The variables that a JSON value holds, each as a text. -/
def variablesOf? : Json → Option (Bindings Text)
  | .object members => some (members.map fun p => (p.1, p.2.alone))
  | _ => none

/-- The settings that a JSON value holds; it has to be an object, and its variables too. -/
def ofJson? (j : Json) : Option Settings :=
  match j with
  | .object members =>
    let get (name : Text) (default : Json) : Json :=
      (Assoc.get? members name).getD default
    let d : Settings := {}
    (variablesOf? (get "variables" (.object []))).map fun vars => {
      version := get "version" d.version
      specDir := get "spec_dir" d.specDir
      extension := get "extension" d.extension
      root := get "root" d.root
      skip := get Marker.skip.label d.skip
      item := get Marker.item.label d.item
      opening := get Marker.opening.label d.opening
      closing := get Marker.closing.label d.closing
      strictEnd := get "strict_eof" d.strictEnd
      vars }
  | _ => none

end Settings

end LineSpec
