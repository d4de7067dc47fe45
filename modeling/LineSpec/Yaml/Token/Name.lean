import LineSpec.Text.Hex
import LineSpec.Text.Utf8
import LineSpec.Yaml.Cursor
import LineSpec.Yaml.Token.Basic
/-!
# Names in a YAML text

The pieces of a YAML text that are names: anchors and aliases, tags, and directives.
-/

namespace LineSpec.Yaml.Token

/-! ## Anchors -/

/-- Whether an anchor may be followed by this. -/
def endsAnchor : Option Char → Bool
  | none => true
  | some c =>
    isBlank c || isBreak c || ['?', ':', ',', ']', '\x7d', '%', '@', '\x60'].contains c

/-- The name of an anchor or an alias at a cursor that stands behind its mark. -/
def anchorName (c : Cursor) : Except Fault (String × Cursor) :=
  let name := c.run isNameChar
  let c := c.advanceBy name.length
  if name.isEmpty || !endsAnchor c.next then .error .invalid
  else .ok (String.ofList name, c)

/-! ## Tags -/

/-- A character that may stand in a tag. -/
def isUriChar (c : Char) : Bool :=
  c.isAlphanum || "-;/?:@&=+$,_.!~*'()[]%".toList.contains c

/-- The octets that percent signs and pairs of digits write at the front of a text, and the rest. -/
def escapedOctets : List Char → Except Fault (List UInt8 × List Char)
  | '%' :: a :: b :: cs =>
    match Text.hexNumber? [a, b] with
    | none => .error .invalid
    | some n => (escapedOctets cs).map fun p => (UInt8.ofNat n :: p.1, p.2)
  | '%' :: _ => .error .invalid
  | cs => .ok ([], cs)

/-- The characters of a tag at a cursor, with escaped octets decoded. -/
def uriFrom : (fuel : Nat) → Cursor → Except Fault (List Char × Cursor)
  | 0, c => .ok ([], c)
  | fuel + 1, c => do
    let chars := c.run fun ch => isUriChar ch && ch != '%'
    let c := c.advanceBy chars.length
    if c.next == some '%' then
      let (octets, rest) ← escapedOctets c.rest
      match Text.Utf8.decode octets with
      | .error _ => .error .invalid
      | .ok decoded =>
        let (more, c) ← uriFrom fuel (c.advanceBy (c.rest.length - rest.length))
        .ok (chars ++ decoded ++ more, c)
    else .ok (chars, c)

/-- The characters of a tag at a cursor, at least one. -/
def uri (c : Cursor) : Except Fault (String × Cursor) := do
  let (chars, c') ← uriFrom c.fuel c
  if c'.index == c.index then .error .invalid else .ok (String.ofList chars, c')

/-- The handle at a cursor: a mark alone before a space, or a name between two marks. -/
def handle (c : Cursor) : Except Fault (String × Cursor) :=
  if c.next != some '!' then .error .invalid
  else
    let c' := c.advance
    if c'.next == some ' ' then .ok ("!", c')
    else
      let name := c'.run isNameChar
      let c' := c'.advanceBy name.length
      if c'.next == some '!' then .ok (String.ofList ('!' :: (name ++ ['!'])), c'.advance)
      else .error .invalid

/-- The token of a tag at a cursor. -/
def scanTag (c : Cursor) : Except Fault (Token × Cursor) := do
  let ((handle, suffix), c) : (Option String × String) × Cursor ←
    if c.ahead 1 == some '<' then
      let (suffix, c) ← uri (c.advanceBy 2)
      if c.next == some '>' then pure ((none, suffix), c.advance) else .error .invalid
    else if endsWord (c.ahead 1) then pure ((none, "!"), c.advance)
    else
      let word := c.advance.run fun ch => !endsField (some ch)
      let (h, c) ← if word.contains '!' then handle c else pure ("!", c.advance)
      let (suffix, c) ← uri c
      pure ((some h, suffix), c)
  if endsField c.next then .ok (.tag handle suffix, c) else .error .invalid

/-! ## Directives -/

/-- The number at a cursor. -/
def number (c : Cursor) : Except Fault (Int × Cursor) :=
  let digits := c.run Char.isDigit
  if digits.isEmpty then .error .invalid
  else
    match Decimal.Numeral.int? 10 (String.ofList digits) with
    | .error e => .error (.numeral e)
    | .ok n => .ok (n, c.advanceBy digits.length)

/-- The version at a cursor: two numbers with a point between them. -/
def version (c : Cursor) : Except Fault (Directive × Cursor) := do
  let (major, c) ← number (c.skip (· == ' '))
  if c.next != some '.' then .error .invalid
  else
    let (_, c) ← number c.advance
    if endsField c.next then .ok (.version major, c) else .error .invalid

/-- A handle and what it stands for, at a cursor. -/
def handleDirective (c : Cursor) : Except Fault (Directive × Cursor) := do
  let (name, c) ← handle (c.skip (· == ' '))
  if c.next != some ' ' then .error .invalid
  else
    let (meaning, c) ← uri (c.skip (· == ' '))
    if endsField c.next then .ok (.handle name meaning, c) else .error .invalid

/-- The token of a directive at a cursor that stands before its mark. -/
def scanDirective (c : Cursor) : Except Fault (Token × Cursor) := do
  let c := c.advance
  let name := c.run isNameChar
  let c := c.advanceBy name.length
  if name.isEmpty || !endsField c.next then .error .invalid
  else
    let (d, c) ←
      if name == ['Y', 'A', 'M', 'L'] then version c
      else if name == ['T', 'A', 'G'] then handleDirective c
      else pure (Directive.other, c.toLineEnd)
    let c ← c.restOfLine
    .ok (.directive d, c)

end LineSpec.Yaml.Token
