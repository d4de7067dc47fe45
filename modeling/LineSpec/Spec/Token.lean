import LineSpec.Spec.Conventions
import LineSpec.Text.Blank
import LineSpec.Text.Lines
/-!
# Lines of a specification, classified

Each line of a specification is a parameter line, a skip or a line of text, with its number. A line
that begins with the item marker is a parameter line only if white space or the end of the line
follows; being a parameter line comes before being a skip.
-/

namespace LineSpec

/-- What a line of a specification is. -/
inductive TokenKind where
  | marker
  | skip
  | text
  /-- The end of the specification, after its last line. -/
  | finish
  deriving DecidableEq, Repr

/-- The name of a kind. -/
def TokenKind.label : TokenKind → String
  | .marker => "MARKER"
  | .skip => "SKIP"
  | .text => "TEXT"
  | .finish => "EOF"

/-- A classified line. -/
structure Token where
  kind : TokenKind
  text : Text
  line : Int
  deriving DecidableEq, Repr

namespace Token

/-- Whether `line` holds a parameter. -/
def isMarkerLine (c : Conventions) (line : Text) : Bool :=
  c.item.isPrefixOf line &&
    match line.drop c.item.length with
    | [] => true
    | ch :: _ => Text.isBlank ch

/-- What `line` is. -/
def classify (c : Conventions) (line : Text) : TokenKind :=
  if isMarkerLine c line then .marker
  else if line = c.skip then .skip
  else .text

/-- The lines `ls`, classified and numbered from one. -/
def ofLines (c : Conventions) (ls : List Text) : List Token :=
  (ls.zipIdx 1).map fun p => ⟨classify c p.1, p.1, (p.2 : Int)⟩

/-- The tokens of a specification: its lines, and its end. -/
def ofText (c : Conventions) (t : Text) : List Token :=
  let ls := Text.lines t
  ofLines c ls ++ [⟨.finish, [], (ls.length : Int) + 1⟩]

end Token

end LineSpec
