import LineSpec.Check.Reading
import LineSpec.Event
import LineSpec.Text.Utf8
import LineSpec.Text.Newline
import LineSpec.Tree.Select
/-!
# Surveying a directory

The specifications below a directory: the files with a given extension, at any depth, none of whose
names below the directory begins with a dot, in the order of their paths. A walk loads them one
after the other. A file that is no text, cannot be read or cannot be parsed either ends the walk or
is put on a list of errors, and the walk goes on.
-/

namespace LineSpec

namespace Workspace

/-- The characters of a file, with one line feed for each line terminator. -/
def readChars (w : Workspace) (p : Path) : Except (AccessError ⊕ Text.Utf8.Fault) (List Char) :=
  match w.read p with
  | .error e => .error (.inl e)
  | .ok content =>
    match Text.Utf8.decode content with
    | .error fault => .error (.inr fault)
    | .ok cs => .ok (Text.unifyNewlines cs)

/-- The lines of a file, with a replacement character for what is no text. -/
def readLines (w : Workspace) (p : Path) : Except AccessError (List Text) :=
  (w.read p).map fun content =>
    Text.lines (Text.ofChars (Text.unifyNewlines (Text.Utf8.decodeLossy content)))

end Workspace

namespace Survey

/-- Why a specification file cannot be loaded. -/
inductive LoadError (ε : Type) where
  | parse (e : ParseError)
  | access (e : AccessError)
  | encoding (fault : Text.Utf8.Fault)
  | refused (e : ε)
  deriving DecidableEq, Repr

/-- Why the files below a directory cannot be listed. -/
inductive FindError where
  | access (e : AccessError)
  | pattern (e : Glob.BadPart)
  deriving DecidableEq, Repr

/-- The pattern for the files with an extension, of which leading dots are dropped. -/
def patternOf (extension : Text) : Except Glob.BadPart (List Glob.Part) :=
  (Glob.ofText ("*." ++ extension.dropWhile fun (c : CodePoint) => c == '.')).map (.deep :: ·)

/-- The path of a file below a directory, as seen from there. -/
def relative (dir file : Path) : Path :=
  ⟨.relative, file.parts.drop dir.parts.length⟩

/-- Whether a name begins with a dot. -/
def isHidden (name : Text) : Bool :=
  name.head? = some ('.' : CodePoint)

/-- Whether a path below a directory leads to a file, and no name on the way there is hidden. -/
def isSpec (w : Workspace) (dir path : Path) : Except AccessError Bool :=
  (w.node? path).map fun node =>
    (match node with
      | some (.file _) => true
      | _ => false) && !(relative dir path).parts.any isHidden

/-- The specification files below a directory, in the order of their paths. -/
def find (w : Workspace) (dir : Path) (extension : Text) : Except FindError (List Path) := do
  let pattern ← (patternOf extension).mapError .pattern
  if ← (w.isDir dir).mapError .access then
    let selected ← (w.select dir pattern).mapError .access
    let found ← (selected.eraseDups.filterM (isSpec w dir)).mapError .access
    return found.mergeSort Path.le
  else return []

variable {ε : Type}

/-- Parses a text, and notes down how many items it has. -/
def parse (r : Reading ε) (source : Option Text) (text : Text) :
    Noted (Except (ParseError ⊕ ε) Document) :=
  match r.parse source text with
  | .error e => ⟨.error e, []⟩
  | .ok d => ⟨.ok d, [.parsed d.items.length source]⟩

/-- The document in a file. -/
def loadFile (r : Reading ε) (w : Workspace) (file : Path) :
    Noted (Except (LoadError ε) Document) :=
  match w.readChars file with
  | .error (.inl e) => ⟨.error (.access e), []⟩
  | .error (.inr fault) => ⟨.error (.encoding fault), []⟩
  | .ok cs =>
    match parse r (some file.text) (Text.ofChars cs) with
    | ⟨.ok d, es⟩ => ⟨.ok d, es⟩
    | ⟨.error (.inl e), es⟩ => ⟨.error (.parse e), es⟩
    | ⟨.error (.inr e), es⟩ => ⟨.error (.refused e), es⟩

/-- The document in a file that a walk comes to. -/
def visit (r : Reading ε) (w : Workspace) (file : Path) : Noted (Except (LoadError ε) Document) :=
  match loadFile r w file with
  | ⟨result, es⟩ => ⟨result, .loading file.text :: es⟩

/-- A specification that a walk found. -/
structure Found where
  path : Path
  relative : Path
  document : Document
  deriving DecidableEq, Repr

/-- Why a directory cannot be walked. -/
inductive WalkError (ε : Type) where
  | noDirectory (dir : Path)
  | find (e : FindError)
  | load (e : LoadError ε)
  deriving DecidableEq, Repr

namespace WalkError

/-- The wording for a directory that does not exist. -/
def noDirectoryMessage (dir : Path) : Text :=
  "Spec directory not found: " ++ dir.text

end WalkError

/-- What a walk brought: the specifications, the files that were put on the list of errors, and the
error that ended it. -/
structure Walk (ε : Type) where
  specs : List Found := []
  errors : List (Path × LoadError ε) := []
  ended : Option (WalkError ε) := none

/-- Whether a walk that collects errors goes on after this one. -/
def LoadError.isCollected : LoadError ε → Bool
  | .refused _ => false
  | _ => true

/-- Walks the given files below a directory. With `collect`, errors are put on a list. -/
def walkFiles (r : Reading ε) (w : Workspace) (dir : Path) (collect : Bool) :
    List Path → Noted (Walk ε)
  | [] => ⟨{}, []⟩
  | file :: files =>
    match visit r w file with
    | ⟨.ok d, es⟩ =>
      let ⟨next, es'⟩ := walkFiles r w dir collect files
      ⟨{ next with specs := ⟨file, relative dir file, d⟩ :: next.specs }, es ++ es'⟩
    | ⟨.error e, es⟩ =>
      if collect && e.isCollected then
        let ⟨next, es'⟩ := walkFiles r w dir collect files
        ⟨{ next with errors := (file, e) :: next.errors }, es ++ es'⟩
      else ⟨{ ended := some (.load e) }, es⟩

/-- The specification files below a directory that has to exist. -/
def files (w : Workspace) (dir : Path) (extension : Text) :
    Except (WalkError ε) (List Path) :=
  match w.isDir dir with
  | .error e => .error (.find (.access e))
  | .ok false => .error (.noDirectory dir)
  | .ok true => (find w dir extension).mapError .find

/-- Walks the specification files below a directory. -/
def walk (r : Reading ε) (w : Workspace) (dir : Path) (extension : Text) (collect : Bool) :
    Noted (Walk ε) :=
  match files w dir extension with
  | .error e => ⟨{ ended := some e }, []⟩
  | .ok fs => walkFiles r w dir collect fs

end Survey

end LineSpec
