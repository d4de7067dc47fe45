import LineSpec.Check.Survey
import LineSpec.Json.Reader
import LineSpec.Json.Writer
import LineSpec.Settings.Basic
/-!
# The settings file

Settings are kept in a file of their own directory below the root of a project.
-/

namespace LineSpec.Settings

/-- The directory of the settings below the root of a project. -/
def dirName : String := ".specker"

/-- The name of the settings file. -/
def fileName : String := "config.json"

/-- The directory of the settings of a project. -/
def dir (root : Path) : Path := root.child dirName

/-- The settings file of a project. -/
def file (root : Path) : Path := (dir root).child fileName

/-- Why settings cannot be loaded. -/
inductive LoadError where
  | absent (file : Path)
  | access (e : AccessError)
  | encoding (fault : Text.Utf8.Fault)
  | invalid (file : Path) (e : Json.ReadError)
  | hugeNumber (digits : Nat)
  | tooDeep (nesting : Json.Nesting)
  /-- The file, or the variables in it, are not an object. -/
  | noObject
  deriving DecidableEq, Repr

/-- The error in words, if it has any. -/
def LoadError.message? : LoadError → Option Text
  | .absent file => some ("No config found at " ++ file.text)
  | .access e => some e.message
  | .encoding fault => some fault.message
  | .invalid file e => some ("Invalid JSON in " ++ file.text ++ ": " ++ e.message)
  | .hugeNumber digits => some (Decimal.NumeralError.tooLong digits).message
  | .tooDeep nesting => some nesting.message
  | .noObject => none

/-- Whether a project has settings. -/
def isPresent (w : Workspace) (root : Path) : Except AccessError Bool :=
  w.exists (file root)

/-- The settings that the characters of a file write. -/
def ofChars (file : Path) (cs : List Char) : Except LoadError Settings :=
  match Json.read cs with
  | .error (.invalid e) => .error (.invalid file e)
  | .error (.hugeNumber digits) => .error (.hugeNumber digits)
  | .error (.tooDeep nesting) => .error (.tooDeep nesting)
  | .ok j =>
    match ofJson? j with
    | none => .error .noObject
    | some s => .ok s

/-- The settings of a project. -/
def load (w : Workspace) (root : Path) : Except LoadError Settings :=
  match isPresent w root with
  | .error e => .error (.access e)
  | .ok false => .error (.absent (file root))
  | .ok true =>
    match w.readChars (file root) with
    | .error (.inl e) => .error (.access e)
    | .error (.inr fault) => .error (.encoding fault)
    | .ok cs => ofChars (file root) cs

/-- The characters of a settings file. -/
def toChars (s : Settings) : List Char := s.toJson.toChars ++ ['\n']

/-- Writes the settings of a project, and makes the directory for them. -/
def save (s : Settings) (w : Workspace) (root : Path) : Workspace × Except AccessError Path :=
  match w.ensureDirs (dir root) with
  | (w, .error e) => (w, .error e)
  | (w, .ok ()) =>
    match w.write (file root) (Text.Utf8.encode s.toChars) with
    | (w, .error e) => (w, .error e)
    | (w, .ok ()) => (w, .ok (file root))

end LineSpec.Settings
