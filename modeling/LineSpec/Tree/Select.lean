import LineSpec.Tree.Glob
import LineSpec.Tree.Workspace
/-!
# Selecting paths by a pattern

The paths below a directory that a pattern names. A pattern is followed part by part: a name is
looked up, a pattern for a name is compared with the names in a directory, and `**` goes on from a
directory and from every one below it. Looking up a name may be refused, and so may listing a
directory, by a path that is too long; then nothing is selected. What is in a directory that may not
be listed is passed over.
-/

namespace LineSpec.Workspace

/-- The things in a directory, by their names. -/
def children (w : Workspace) (p : Path) : List (Text × Node) :=
  (w.below p).filterMap fun e =>
    match e.1 with
    | [name] => some (name, e.2)
    | _ => none

/-- A directory and the directories below it. -/
def dirsFrom (w : Workspace) (p : Path) : List Path :=
  p :: (w.below p).filterMap fun e => if e.2 = .dir then some (p.below e.1) else none

/-- The paths that a pattern names as seen from the directory `p`. -/
def select (w : Workspace) (p : Path) : List Glob.Part → Except AccessError (List Path)
  | [] => .ok [p]
  | .directory :: _ => .ok []
  | .up :: parts => w.select (p.below [".."]) parts
  | .exact name :: parts => do
    let q := p.below [name]
    match ← w.node? q with
    | none => .ok []
    | some .dir => w.select q parts
    | some _ => .ok (if parts.isEmpty then [q] else [])
  | .name pattern :: parts => do
    let _ ← w.node? p
    let found := (w.children p).filter fun e => Glob.matchesName pattern e.1
    let selected ← found.mapM fun e =>
      match e.2 with
      | .dir => w.select (p.below [e.1]) parts
      | _ => .ok (if parts.isEmpty then [p.below [e.1]] else [])
    .ok selected.flatten
  | .deep :: parts => do
    let selected ← (w.dirsFrom p).mapM fun q => do
      let _ ← w.node? q
      w.select q parts
    .ok selected.flatten

end LineSpec.Workspace
