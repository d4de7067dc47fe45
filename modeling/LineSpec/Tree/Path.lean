import LineSpec.Text.Basic
import LineSpec.Text.Search
/-!
# Paths

A path is a sequence of parts, from the root or from the current directory. Empty parts and parts
`.` are dropped when a path is read from its text, while `..` stays, because what it leads to
depends on the directories. Two slashes at the beginning are a root of their own. Paths are ordered
part by part.
-/

namespace LineSpec

/-- Where a path begins. -/
inductive Path.Root where
  | relative
  | single
  | double
  deriving DecidableEq, Repr

/-- A path: where it begins, and its parts. -/
structure Path where
  root : Path.Root := .relative
  parts : List Text := []
  deriving DecidableEq, Repr

namespace Path

/-- The text of a root. -/
def Root.text : Root → Text
  | .relative => []
  | .single => "/"
  | .double => "//"

/-- The root that a text begins with. -/
def Root.ofText (t : Text) : Root :=
  match (t.takeWhile (· == ('/' : CodePoint))).length with
  | 0 => .relative
  | 2 => .double
  | _ => .single

/-- The texts between the slashes of a path that is given as text. -/
def partsOfText (t : Text) : List Text :=
  (Text.pieces t '/').filter (· ≠ [])

/-- The path that a text gives. -/
def ofText (t : Text) : Path :=
  ⟨Root.ofText t, (partsOfText t).filter (· ≠ ".")⟩

/-- The text of a path; the path without parts is the current directory. -/
def text (p : Path) : Text :=
  match p.root, p.parts with
  | .relative, [] => "."
  | root, parts => root.text ++ Text.join "/" parts

/-- `p.join q` is `q` as seen from `p`; a path from the root stays as it is. -/
def join (p q : Path) : Path :=
  match q.root with
  | .relative => ⟨p.root, p.parts ++ q.parts⟩
  | _ => q

/-- `p.child t` is the path with the text `t`, as seen from `p`. -/
def child (p : Path) (t : Text) : Path :=
  p.join (ofText t)

/-- `p.below names` is where `names` lead from `p`. -/
def below (p : Path) (names : List Text) : Path :=
  ⟨p.root, p.parts ++ names⟩

/-- The path without its last part. -/
def parent (p : Path) : Path :=
  ⟨p.root, p.parts.dropLast⟩

/-- The order of paths: part by part, each part by its code points. -/
def le (p q : Path) : Bool :=
  !q.parts.lex p.parts fun t u => t.lex u fun c d => c.val < d.val

end Path

end LineSpec
