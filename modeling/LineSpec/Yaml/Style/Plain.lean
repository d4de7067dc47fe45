import LineSpec.Yaml.Cursor
/-!
# Plain scalars

A scalar without quotes ends at a colon or a comment that white space sets off, at a line that is
not indented more than what holds it, and inside brackets at the characters that have a meaning
there. Lines of it are joined by a space, and an empty line between them is a line feed.
-/

namespace LineSpec.Yaml.Plain

/-- The characters that have a meaning inside brackets. -/
def isFlowMark (c : Char) : Bool :=
  c == ',' || c == '[' || c == ']' || c == '\x7b' || c == '\x7d'

/-- Whether a plain scalar goes on with `c` before `next`. -/
def goesOn (inFlow : Bool) (c : Char) (next : Option Char) : Bool :=
  !(isBlank c || isBreak c) &&
    !(c == ':' && (endsWord next || (inFlow && next.any isFlowMark))) &&
    !(inFlow && (isFlowMark c || c == '?'))

/-- The characters of a plain scalar up to white space or its end. -/
def piece (inFlow : Bool) : List Char → List Char
  | [] => []
  | c :: cs => if goesOn inFlow c cs.head? then c :: piece inFlow cs else []

/-- The breaks and spaces after a line break. Nothing comes of them before a document mark. -/
def breaks : (fuel : Nat) → Cursor → Option (List Char) × Cursor
  | 0, c => (some [], c)
  | fuel + 1, c =>
    if c.next == some ' ' then breaks fuel c.advance
    else
      match c.lineBreak? with
      | none => (some [], c)
      | some (b, c) =>
        if c.isAtSeparator then (none, c)
        else
          let (rest, c) := breaks fuel c
          (rest.map (b :: ·), c)

/-- What stands between two pieces of a plain scalar. -/
structure Gap where
  text : List Char
  /-- Whether a line ended. -/
  broken : Bool
  after : Cursor

/-- The gap at a cursor. -/
def gap (c : Cursor) : Gap :=
  let spaces := c.run (· == ' ')
  let c := c.skip (· == ' ')
  match c.lineBreak? with
  | none => ⟨spaces, false, c⟩
  | some (b, c) =>
    if c.isAtSeparator then ⟨[], true, c⟩
    else
      match breaks c.fuel c with
      | (none, c) => ⟨[], true, c⟩
      | (some bs, c) => ⟨fold b bs, true, c⟩

/-- The scalar from a cursor on, after the gap `before`: its text, whether a line ended behind it,
and the cursor behind it. -/
def scanFrom (inFlow : Bool) (indent : Int) : (fuel : Nat) → Gap → List Char × Bool × Cursor
  | 0, before => ([], before.broken, before.after)
  | fuel + 1, before =>
    let c := before.after
    let chars := if c.next == some '#' then [] else piece inFlow c.rest
    if chars.isEmpty then ([], before.broken, c)
    else
      let g := gap (c.advanceBy chars.length)
      if g.text.isEmpty || (!inFlow && (g.after.column : Int) < indent) then
        (before.text ++ chars, g.broken, g.after)
      else
        let (text, broken, c) := scanFrom inFlow indent fuel g
        (before.text ++ chars ++ text, broken, c)

/-- The plain scalar at a cursor, of which each further line has a column of at least `indent`: its
text, whether a line ended behind it, and the cursor behind it. -/
def scan (inFlow : Bool) (indent : Int) (c : Cursor) : List Char × Bool × Cursor :=
  scanFrom inFlow indent c.fuel ⟨[], false, c⟩

end LineSpec.Yaml.Plain
