import LineSpec.Check.Survey
import LineSpec.Yaml.Data
/-!
# Variables

Variables come from settings, from a YAML file and from assignments, and a later source goes before
an earlier one. In an assignment the first equals sign ends the name; the name is trimmed, the value
is taken as it is.
-/

namespace LineSpec.Variables

/-- Why there are no variables. -/
inductive SourceError where
  | access (e : AccessError)
  | encoding (fault : Text.Utf8.Fault)
  | yaml (file : Path) (fault : Yaml.Fault)
  /-- The file holds data that is no mapping. -/
  | noMapping (file : Path)
  /-- An assignment without an equals sign or without a name. -/
  | badAssignment (text : Text)
  deriving DecidableEq, Repr

/-- The error in words, if it has any. -/
def SourceError.message? : SourceError → Option Text
  | .access e => some e.message
  | .encoding fault => some fault.message
  | .yaml file .invalid => some ("Invalid YAML in " ++ file.text)
  | .yaml _ fault => fault.message?
  | .noMapping file =>
    some ("Invalid variables format in " ++ file.text ++ ": expected mapping")
  | .badAssignment text => some ("Expected KEY=VALUE, got " ++ Text.quoted text)

/-! ## Assignments -/

/-- The name and the value of an assignment. -/
def ofAssignment (text : Text) : Except SourceError (Text × Text) :=
  match Text.splitAt? text '=' with
  | none => .error (.badAssignment text)
  | some (name, value) =>
    let name := Text.trim name
    if name = [] then .error (.badAssignment text) else .ok (name, value)

/-- The variables that assignments give, one after the other. -/
def ofAssignments (texts : List Text) : Except SourceError (Bindings Text) := do
  .ok (Assoc.bindAll [] (← texts.mapM ofAssignment))

/-! ## Files -/

/-- The text of a variable's value; nothing is the empty text. -/
def valueText (d : Yaml.Data) : Yaml.Datum → Except Yaml.Fault Text
  | .scalar ⟨.null, _⟩ => .ok []
  | value => d.text value

/-- The variables that the members of a mapping give. -/
def ofMembers (d : Yaml.Data) (members : List (Yaml.Leaf × Yaml.Datum)) :
    Except Yaml.Fault (Bindings Text) :=
  members.foldlM (fun b p => do
    let name ← d.text (.scalar p.1)
    let value ← valueText d p.2
    .ok (b.bind name value)) []

/-- The variables in the characters of a file. -/
def ofChars (file : Path) (cs : List Char) : Except SourceError (Bindings Text) :=
  match Yaml.data? cs with
  | .error fault => .error (.yaml file fault)
  | .ok none => .ok []
  | .ok (some d) =>
    match d.root with
    | .scalar ⟨.null, _⟩ => .ok []
    | .scalar _ => .error (.noMapping file)
    | .collection n =>
      match d.collection? n with
      | some (.mapping members) => (ofMembers d members).mapError (.yaml file)
      | _ => .error (.noMapping file)

/-- The variables in a file. -/
def load (w : Workspace) (file : Path) : Except SourceError (Bindings Text) :=
  match w.readChars file with
  | .error (.inl e) => .error (.access e)
  | .error (.inr fault) => .error (.encoding fault)
  | .ok cs => ofChars file cs

/-! ## All sources -/

/-- The variables of settings, of a file and of assignments together. -/
def collect (w : Workspace) (settings : Bindings Text) (file : Option Path)
    (assignments : List Text) : Except SourceError (Bindings Text) := do
  let fromFile ← match file with
    | none => .ok []
    | some file => load w file
  let assigned ← ofAssignments assignments
  .ok ((settings.bindAll fromFile).bindAll assigned)

end LineSpec.Variables
