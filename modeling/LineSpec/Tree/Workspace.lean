import LineSpec.Text.Quoted
import LineSpec.Text.Surrogate
import LineSpec.Tree.Basic
import LineSpec.Tree.Path
/-!
# Access to files

A workspace is a tree of files with a current directory. A path is followed name by name, from the
root or from the current directory; `..` leads to the directory above. Each access either succeeds
or is refused for one cause. What changes the tree gives back the workspace also when it is refused,
because directories made on the way stay.
-/

namespace LineSpec

/-- Why the operating system refuses an access. -/
inductive OsError where
  | missing
  | denied
  | exists
  | notDirectory
  | isDirectory
  | nameTooLong
  deriving DecidableEq, Repr

namespace OsError

/-- The number of the error. -/
def number : OsError → Nat
  | missing => 2
  | denied => 13
  | «exists» => 17
  | notDirectory => 20
  | isDirectory => 21
  | nameTooLong => 36

/-- The error in words. -/
def reason : OsError → String
  | missing => "No such file or directory"
  | denied => "Permission denied"
  | «exists» => "File exists"
  | notDirectory => "Not a directory"
  | isDirectory => "Is a directory"
  | nameTooLong => "File name too long"

end OsError

/-- Why an access is refused. -/
inductive AccessError where
  /-- No path can hold the character U+0000. -/
  | nulInPath
  /-- No path can hold certain surrogates. -/
  | unencodable (e : Text.Unencodable)
  | os (e : OsError) (path : Text)
  deriving DecidableEq, Repr

namespace AccessError

/-- The error in words. -/
def message : AccessError → Text
  | nulInPath => "embedded null byte"
  | unencodable e => e.message
  | os e path => s!"[Errno {e.number}] {e.reason}: " ++ Text.quoted path

end AccessError

/-- A tree of files with a current directory. -/
structure Workspace where
  tree : Tree := {}
  /-- The location of the current directory. -/
  home : Location := []

namespace Workspace

/-! ## Following a path -/

/-- Where a path leads: to something, or to a place where nothing stands yet in a directory. -/
inductive Place where
  | taken (loc : Location) (node : Node)
  | free (loc : Location)
  deriving DecidableEq, Repr

/-- The most octets that a name may have. -/
def maxName : Nat := 255

/-- The most octets that a path may have. -/
def maxPath : Nat := 4095

/-- `follow t loc names` follows `names` from the directory at `loc`. -/
def follow (t : Tree) (loc : Location) : List Text → Except OsError Place
  | [] => .ok (.taken loc .dir)
  | name :: names =>
    if name = "." then follow t loc names
    else if name = ".." then follow t loc.dropLast names
    else if maxName < Text.nameSize name then .error .nameTooLong
    else
      match t.get? (loc ++ [name]) with
      | none => if names.isEmpty then .ok (.free (loc ++ [name])) else .error .missing
      | some .dir => follow t (loc ++ [name]) names
      | some node =>
        if names.isEmpty then .ok (.taken (loc ++ [name]) node) else .error .notDirectory

/-- Where the path that is written `text`, with the given beginning and names, leads. -/
def find (w : Workspace) (text : Text) (root : Path.Root) (names : List Text) :
    Except AccessError Place :=
  match Text.Unencodable.inName? text with
  | some e => .error (.unencodable e)
  | none =>
    if text.contains '\x00' then .error .nulInPath
    else if maxPath < Text.nameSize text then .error (.os .nameTooLong text)
    else
      (follow w.tree (if root = .relative then w.home else []) names).mapError (.os · text)

/-- Where a path leads. -/
def locate (w : Workspace) (p : Path) : Except AccessError Place :=
  w.find p.text p.root p.parts

/-- What stands where the text of a path leads, with its location. Nothing is dropped from the text:
a slash at its end asks for a directory, and the empty text leads nowhere. -/
def stat (w : Workspace) (t : Text) : Except AccessError (Location × Node) :=
  if t = [] then .error (.os .missing t)
  else
    let ending : List Text := if t.getLast? = some ('/' : CodePoint) then ["."] else []
    let names := Path.partsOfText t ++ ending
    match w.find t (Path.Root.ofText t) names with
    | .error e => .error e
    | .ok (.taken loc node) => .ok (loc, node)
    | .ok (.free _) => .error (.os .missing t)

/-! ## Asking -/

/-- What stands at a path. A path that leads nowhere, or that no file can have, leads to nothing; a
name that is too long is refused. -/
def node? (w : Workspace) (p : Path) : Except AccessError (Option Node) :=
  match w.locate p with
  | .ok (.taken _ node) => .ok (some node)
  | .error e@(.os .nameTooLong _) => .error e
  | _ => .ok none

/-- Whether something stands at a path. -/
def «exists» (w : Workspace) (p : Path) : Except AccessError Bool :=
  (w.node? p).map Option.isSome

/-- Whether a directory stands at a path. -/
def isDir (w : Workspace) (p : Path) : Except AccessError Bool :=
  (w.node? p).map (· == some .dir)

/-! ## Reading -/

/-- The octets of the file at a path; a device has none. -/
def read (w : Workspace) (p : Path) : Except AccessError (List UInt8) :=
  match w.locate p with
  | .error e => .error e
  | .ok (.free _) => .error (.os .missing p.text)
  | .ok (.taken loc node) =>
    if w.tree.CanRead loc then
      match node with
      | .dir => .error (.os .isDirectory p.text)
      | .file content => .ok content
      | .device => .ok []
    else .error (.os .denied p.text)

/-- The things below the directory at a path, each with the names that lead to it from there. What
is in a directory that may not be listed is left out. -/
def below (w : Workspace) (p : Path) : List (List Text × Node) :=
  match w.locate p with
  | .ok (.taken loc .dir) => (w.tree.below loc).filter fun e => w.tree.Shows loc e.1
  | _ => []

/-! ## Changing -/

/-- The workspace with another node at a location. -/
def put (w : Workspace) (loc : Location) (node : Node) : Workspace :=
  { w with tree := w.tree.put loc node }

/-- Writes the octets of a file; its directory has to exist. A device does not keep them. -/
def write (w : Workspace) (p : Path) (content : List UInt8) : Workspace × Except AccessError Unit :=
  match w.locate p with
  | .error e => (w, .error e)
  | .ok (.taken _ .dir) => (w, .error (.os .isDirectory p.text))
  | .ok (.taken loc (.file _)) => (w.put loc (.file content), .ok ())
  | .ok (.taken _ .device) => (w, .ok ())
  | .ok (.free loc) => (w.put loc (.file content), .ok ())

/-- Makes one directory, where nothing may stand. -/
def makeDir (w : Workspace) (p : Path) : Workspace × Except AccessError Unit :=
  match w.locate p with
  | .error e => (w, .error e)
  | .ok (.taken ..) => (w, .error (.os .exists p.text))
  | .ok (.free loc) => (w.put loc .dir, .ok ())

/-- A refusal to make a directory is forgiven when a directory stands there already. -/
def forgive (w : Workspace) (p : Path) (e : AccessError) : Except AccessError Unit :=
  match e with
  | .nulInPath | .unencodable _ => .error e
  | .os .. =>
    match w.isDir p with
    | .ok true => .ok ()
    | .ok false => .error e
    | .error e' => .error e'

/-- Makes one directory, unless it exists. -/
def ensureDir (w : Workspace) (p : Path) : Workspace × Except AccessError Unit :=
  match w.makeDir p with
  | (w, .ok ()) => (w, .ok ())
  | (w, .error (.os .missing path)) => (w, .error (.os .missing path))
  | (w, .error e) => (w, w.forgive p e)

/-- Makes the directory at `root` and `parts`, the innermost part first, and the directories above
it, unless they exist. -/
def ensureDirsFrom (w : Workspace) (root : Path.Root) :
    List Text → Workspace × Except AccessError Unit
  | [] => w.ensureDir ⟨root, []⟩
  | part :: parts =>
    let p : Path := ⟨root, (part :: parts).reverse⟩
    match w.makeDir p with
    | (w, .ok ()) => (w, .ok ())
    | (w, .error (.os .missing _)) =>
      match w.ensureDirsFrom root parts with
      | (w, .ok ()) => w.ensureDir p
      | (w, .error e) => (w, .error e)
    | (w, .error e) => (w, w.forgive p e)

/-- Makes the directory at a path and the directories above it, unless they exist. -/
def ensureDirs (w : Workspace) (p : Path) : Workspace × Except AccessError Unit :=
  w.ensureDirsFrom p.root p.parts.reverse

/-! ## The current directory as a path -/

/-- The path of the current directory, from the root. -/
def cwd (w : Workspace) : Path := ⟨.single, w.home⟩

end Workspace

end LineSpec
