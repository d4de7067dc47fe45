import LineSpec.Yaml.Graph
import LineSpec.Yaml.Merge
import LineSpec.Yaml.Value
/-!
# Data of a YAML text

The data that the nodes of a text stand for. The values of scalars and of the members of collections
are found level by level from the outermost node inwards, and the first fault on that way counts.
The value of a node is found once, when it is first met. A mapping may merge others into itself;
their members come first and its own ones go before them. Keys are scalars, and equal keys are one
key.

A collection may hold itself, so data is kept by node numbers as the nodes are; written on one line,
a collection inside itself is shown as dots.
-/

namespace LineSpec.Yaml

/-- The value of a scalar node. -/
structure Leaf where
  value : Scalar
  /-- What tells apart values that are no numbers: the node of one, or nothing where it is given by
  the word for it. -/
  origin : Option Nat := none
  deriving DecidableEq, Repr

/-- Whether two scalar nodes have the same value. What is no number only equals itself. -/
def Leaf.same (a b : Leaf) : Bool :=
  a.value.same b.value || (a.value.isNan && b.value.isNan && a.origin == b.origin)

/-- A value: a scalar, or the number of a collection. -/
inductive Datum where
  | scalar (leaf : Leaf)
  | collection (n : Nat)
  deriving Repr, Inhabited

/-- A collection of data. -/
inductive Collection where
  | list (items : List Datum)
  | mapping (members : List (Leaf × Datum))
  | set (members : List Leaf)
  | pairs (members : List (Datum × Datum))
  deriving Repr

/-- The data of a text: its collections by their numbers, and the value of the outermost node. -/
structure Data where
  collections : Array (Option Collection) := #[]
  root : Datum
  deriving Repr

/-! ## Scalars -/

/-- The text of a node: a scalar's own, or that of the member of a mapping that stands for it. -/
def Graph.text (g : Graph) : (fuel : Nat) → Nat → Except Fault Text
  | 0, _ => .error .endless
  | fuel + 1, n =>
    match g.content n with
    | .scalar t => .ok t
    | .sequence _ => .error .invalid
    | .mapping members =>
      match members.find? fun p => g.tag p.1 == .value with
      | none => .error .invalid
      | some p => g.text fuel p.2

/-- The value of a date, which only a scalar has. -/
def Graph.date (g : Graph) (n : Nat) (t : Text) : Except Fault Scalar :=
  match g.content n with
  | .scalar _ => Value.date t
  | _ => .error .dateOfMapping

/-- The value of a scalar node. -/
def Graph.leaf (g : Graph) (n : Nat) : Except Fault Leaf := do
  let tag := g.tag n
  if tag == .other || tag == .merge || tag == .value then throw .invalid
  let t ← g.text (g.size + 1) n
  let value ← match tag with
    | .null => .ok .null
    | .bool => Value.bool t
    | .int => Value.int t
    | .float => Value.float t
    | .octets => Value.octets t
    | .date => g.date n t
    | _ => .ok (.text t)
  .ok ⟨value, if Value.isNanWord t then none else some n⟩

/-- The value of a node. That of a collection is its number. -/
def Graph.datum (g : Graph) (n : Nat) : Except Fault Datum :=
  if (g.tag n).isCollection then .ok (.collection n) else (g.leaf n).map .scalar

/-! ## Collections -/

/-- Data on its way: the nodes, the values that are found, the collections that are made, and those
that wait, the last one first. -/
structure Builder where
  graph : Graph
  found : Array (Option Datum)
  made : Array (Option Collection)
  waiting : List Nat := []

namespace Builder

/-- A computation that makes collections. -/
abbrev Step := StateT Builder (Except Fault)

/-- The beginning, with nothing found. -/
def ofGraph (g : Graph) : Builder :=
  ⟨g, .replicate g.size none, .replicate g.size none, []⟩

/-- The value of a node; a collection that is met for the first time has to wait. -/
def visit (n : Nat) : Step Datum := do
  let s ← get
  match s.found[n]?.join with
  | some d => return d
  | none =>
    let d ← s.graph.datum n
    modify fun s =>
      { s with
        found := s.found.setIfInBounds n (some d)
        waiting := match d with
          | .collection m => m :: s.waiting
          | .scalar _ => s.waiting }
    return d

/-- The value of a key, which is a scalar. -/
def visitKey (n : Nat) : Step Leaf := do
  match ← visit n with
  | .scalar leaf => return leaf
  | .collection _ => throw .invalid

/-- The members `b` with one more; an equal key keeps its place and its text. -/
def bindKey (key : Leaf) (value : Datum) : List (Leaf × Datum) → List (Leaf × Datum)
  | [] => [(key, value)]
  | (k, v) :: b => if k.same key then (k, value) :: b else (k, v) :: bindKey key value b

/-- The members of a mapping. -/
def mapping (n : Nat) : Step (List (Leaf × Datum)) := do
  let g := (← get).graph
  match g.content n with
  | .mapping _ =>
    let g ← g.merged n
    modify fun s => { s with graph := g }
    (g.members n).foldlM (fun b p => do
      let key ← visitKey p.1
      let value ← visit p.2
      return bindKey key value b) []
  | _ => throw .invalid

/-- The one member of a mapping. -/
def pair (n : Nat) : Step (Datum × Datum) := do
  match (← get).graph.content n with
  | .mapping [(key, value)] => return (← visit key, ← visit value)
  | _ => throw .invalid

/-- The items of a sequence. -/
def items (n : Nat) : Step (List Nat) := do
  match (← get).graph.content n with
  | .sequence items => return items
  | _ => throw .invalid

/-- The collection with a number. -/
def collection (n : Nat) : Step Collection := do
  match (← get).graph.tag n with
  | .sequence => return .list (← (← items n).mapM visit)
  | .set => return .set ((← mapping n).map Prod.fst)
  | .pairs => return .pairs (← (← items n).mapM pair)
  | _ => return .mapping (← mapping n)

/-- Makes a collection that waited. -/
def make (n : Nat) : Step Unit := do
  let c ← collection n
  modify fun s => { s with made := s.made.setIfInBounds n (some c) }

/-- Makes the collections that wait, and those that they hold, in the order in which they were
met. -/
def finish : (fuel : Nat) → Step Unit
  | 0 => throw .invalid
  | fuel + 1 => do
    match (← get).waiting with
    | [] => return
    | waiting =>
      modify fun s => { s with waiting := [] }
      waiting.reverse.forM make
      finish fuel

end Builder

/-- The data of nodes, seen from one of them. -/
def Data.ofGraph (g : Graph) (root : Nat) : Except Fault Data := do
  let (datum, s) ← (do
    let datum ← Builder.visit root
    Builder.finish (g.size + 1)
    return datum : Builder.Step Datum).run (.ofGraph g)
  .ok ⟨s.made, datum⟩

/-- The data of a text, unless the text is empty. -/
def data? (cs : List Char) : Except Fault (Option Data) := do
  let (g, root) ← graph cs
  root.mapM (Data.ofGraph g)

/-! ## Texts -/

/-- The text of a scalar, if it can be written. -/
def writable (s : Scalar) (t : Text) : Except Fault Text :=
  if s.isWritable then .ok t else .error .unwritable

namespace Data

/-- The collection with a number. -/
def collection? (d : Data) (n : Nat) : Option Collection := d.collections[n]?.join

/-- The text of a scalar inside a collection. -/
def nestedLeaf (leaf : Leaf) : Except Fault Text := writable leaf.value leaf.value.nested

/-- The text of a value inside the collections `around`. -/
def nested (d : Data) : (fuel : Nat) → (around : List Nat) → Datum → Except Fault Text
  | 0, _, _ => .error .invalid
  | _ + 1, _, .scalar leaf => nestedLeaf leaf
  | fuel + 1, around, .collection n => do
    let inside := d.nested fuel (n :: around)
    let isOpen := around.contains n
    match d.collection? n with
    | none => .error .invalid
    | some (.list items) =>
      if isOpen then .ok "[...]" else .ok (Scalar.listText (← items.mapM inside))
    | some (.mapping members) =>
      if isOpen then .ok "\x7b...\x7d"
      else
        let texts ← members.mapM fun p => return (← nestedLeaf p.1, ← inside p.2)
        .ok (Scalar.mappingText texts)
    | some (.set members) => .ok (Scalar.setText (← members.mapM nestedLeaf))
    | some (.pairs members) =>
      if isOpen then .ok "[...]"
      else
        let texts ← members.mapM fun p => return Scalar.pairText (← inside p.1) (← inside p.2)
        .ok (Scalar.listText texts)

/-- The text of a value that stands alone. -/
def text (d : Data) : Datum → Except Fault Text
  | .scalar leaf => writable leaf.value leaf.value.alone
  | other => d.nested (d.collections.size + 2) [] other

end Data

end LineSpec.Yaml
