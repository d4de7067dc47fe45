import LineSpec.Yaml.Cursor
/-!
# Block scalars

A scalar of whole lines, indented more than what holds it. The header tells the style, how many
spaces the lines are indented, and what becomes of the line breaks at the end. The literal style
keeps the line breaks; in the folded style one between two lines that do not begin with white space
becomes a space.
-/

namespace LineSpec.Yaml.Block

/-- What becomes of the line breaks that end a scalar. -/
inductive Chomping where
  /-- One of them stays. -/
  | clip
  /-- All of them go. -/
  | strip
  /-- All of them stay. -/
  | keep
  deriving DecidableEq, Repr

/-- The header of a block scalar. -/
structure Header where
  folded : Bool
  chomping : Chomping
  /-- The indentation of the lines, counted from what holds them, if it is given. -/
  indentation : Option Nat

/-- The chomping that a character asks for. -/
def chomping? : Option Char → Option Chomping
  | some '+' => some .keep
  | some '-' => some .strip
  | _ => none

/-- The digit at a cursor. -/
def digit? (c : Cursor) : Option Nat :=
  c.next.bind fun ch => if ch.isDigit then some (ch.toNat - 48) else none

/-- The header at a cursor that stands behind the mark of the style. -/
def header (folded : Bool) (c : Cursor) : Except Fault (Header × Cursor) := do
  let (found, c) : (Option Chomping × Option Nat) × Cursor :=
    match chomping? c.next, digit? c with
    | some ch, _ =>
      let c := c.advance
      match digit? c with
      | some d => ((some ch, some d), c.advance)
      | none => ((some ch, none), c)
    | none, some d =>
      let c := c.advance
      match chomping? c.next with
      | some ch => ((some ch, some d), c.advance)
      | none => ((none, some d), c)
    | none, none => ((none, none), c)
  if found.2 == some 0 || !endsField c.next then .error .invalid
  else
    let c ← c.restOfLine
    .ok (⟨folded, found.1.getD .clip, found.2⟩, c)

/-- The line breaks before the first line that is not empty, and the greatest column on the way. -/
def leadingBreaks : (fuel : Nat) → (deepest : Nat) → Cursor → List Char × Nat × Cursor
  | 0, deepest, c => ([], deepest, c)
  | fuel + 1, deepest, c =>
    if c.next == some ' ' then
      let c := c.advance
      leadingBreaks fuel (max deepest c.column) c
    else
      match c.lineBreak? with
      | none => ([], deepest, c)
      | some (b, c) =>
        let (bs, deepest, c) := leadingBreaks fuel deepest c
        (b :: bs, deepest, c)

/-- The cursor behind the spaces of an indentation. -/
def indentTo (indent : Nat) (c : Cursor) : Cursor :=
  c.advanceBy (min (indent - c.column) (c.run (· == ' ')).length)

/-- The line breaks before the next line that is not empty. -/
def breaks (indent : Nat) : (fuel : Nat) → Cursor → List Char × Cursor
  | 0, c => ([], c)
  | fuel + 1, c =>
    let c := indentTo indent c
    match c.lineBreak? with
    | none => ([], c)
    | some (b, c) =>
      let (bs, c) := breaks indent fuel c
      (b :: bs, c)

/-- What stands between two lines, of which the first ends with the break `b` and empty lines
follow. -/
def joint (folded : Bool) (b : Option Char) (bs : List Char) (bothFlush : Bool) : List Char :=
  if folded && b == some '\n' && bothFlush then (if bs.isEmpty then [' '] else [])
  else b.toList

/-- The lines from a cursor on that are indented, after the line breaks `bs`: their text, the break
that ends the last of them, the breaks after that, and the cursor behind. -/
def linesFrom (folded : Bool) (indent : Nat) :
    (fuel : Nat) → (bs : List Char) → Cursor → List Char × Option Char × List Char × Cursor
  | 0, bs, c => ([], none, bs, c)
  | fuel + 1, bs, c =>
    let flush := !c.next.any isBlank
    let line := c.run fun ch => !isBreak ch
    let c := c.toLineEnd
    let (b, c) := match c.lineBreak? with
      | some (b, c) => (some b, c)
      | none => (none, c)
    let (after, c) := breaks indent c.fuel c
    if c.column == indent && c.next.isSome then
      let bothFlush := flush && !c.next.any isBlank
      let (text, last, bs', c) := linesFrom folded indent fuel after c
      (bs ++ line ++ joint folded b after bothFlush ++ text, last, bs', c)
    else (bs ++ line, b, after, c)

/-- The scalar at a cursor that stands before the mark of its style, inside what is indented by
`parent`: its text, and the cursor behind it. -/
def scan (parent : Int) (c : Cursor) : Except Fault (List Char × Cursor) := do
  let (h, c) ← header (c.next == some '>') c.advance
  let least := (max (parent + 1) 1).toNat
  let (indent, bs, c) := match h.indentation with
    | some n =>
      let indent := least + n - 1
      let (bs, c) := breaks indent c.fuel c
      (indent, bs, c)
    | none =>
      let (bs, deepest, c) := leadingBreaks c.fuel 0 c
      (max least deepest, bs, c)
  let (text, last, bs, c) :=
    if c.column == indent && c.next.isSome then linesFrom h.folded indent c.fuel bs c
    else ([], none, bs, c)
  let ending := match h.chomping with
    | .strip => []
    | .clip => last.toList
    | .keep => last.toList ++ bs
  .ok (text ++ ending, c)

end LineSpec.Yaml.Block
