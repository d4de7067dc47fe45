import LineSpec.Text.Basic
import LineSpec.Text.Hex
import LineSpec.Yaml.Cursor
/-!
# Quoted scalars

A scalar between quotes may go on over several lines, which are joined by a space, with an empty
line as a line feed; white space around a line break does not count. Between single quotes a quote
is written twice. Between double quotes a backslash begins an escape, which may write a surrogate,
and a backslash at the end of a line joins it to the next without a space.
-/

namespace LineSpec.Yaml.Quoted

/-- The character of an escape of one letter. -/
def shortEscape? (c : Char) : Option Char :=
  match c with
  | '0' => some (Char.ofNat 0)
  | 'a' => some (Char.ofNat 7)
  | 'b' => some (Char.ofNat 8)
  | 't' => some '\t'
  | '\t' => some '\t'
  | 'n' => some '\n'
  | 'v' => some (Char.ofNat 11)
  | 'f' => some (Char.ofNat 12)
  | 'r' => some '\r'
  | 'e' => some (Char.ofNat 27)
  | ' ' => some ' '
  | '"' => some '"'
  | '\\' => some '\\'
  | '/' => some '/'
  | 'N' => some (Char.ofNat 0x85)
  | '_' => some (Char.ofNat 0xA0)
  | 'L' => some (Char.ofNat 0x2028)
  | 'P' => some (Char.ofNat 0x2029)
  | _ => none

/-- The number of hexadecimal digits after the letter of an escape. -/
def escapeWidth? (c : Char) : Option Nat :=
  match c with
  | 'x' => some 2
  | 'u' => some 4
  | 'U' => some 8
  | _ => none

/-- The code point with a number. -/
def pointOfNumber (n : Nat) : Except Fault CodePoint :=
  if 0x80000000 ≤ n then .error .wideCharacter
  else if h : n < 0x110000 then .ok ⟨n, h⟩
  else .error .noCharacter

/-- The line breaks after a line, with the white space around them; no document mark may begin a
line. -/
def breaks : (fuel : Nat) → Cursor → Except Fault (List Char × Cursor)
  | 0, c => .ok ([], c)
  | fuel + 1, c =>
    if c.isAtSeparator then .error .invalid
    else
      let c := c.skip isBlank
      match c.lineBreak? with
      | none => .ok ([], c)
      | some (b, c) => (breaks fuel c).map fun p => (b :: p.1, p.2)

/-- The escape at a cursor, which stands behind the backslash. -/
def escape (c : Cursor) : Except Fault (Text × Cursor) :=
  match c.lineBreak?, c.next with
  | some (_, c), _ => (breaks c.fuel c).map fun p => (Text.ofChars p.1, p.2)
  | none, none => .error .invalid
  | none, some e =>
    let c := c.advance
    match shortEscape? e, escapeWidth? e with
    | some ch, _ => .ok ([ch], c)
    | none, none => .error .invalid
    | none, some width =>
      let digits := c.rest.take width
      match Text.hexNumber? digits with
      | none => .error .invalid
      | some n =>
        if digits.length < width then .error .invalid
        else (pointOfNumber n).map fun point => ([point], c.advanceBy width)

/-- A character that stands for itself in a quoted scalar. -/
def isOrdinary (c : Char) : Bool :=
  !(c == '\'' || c == '"' || c == '\\' || isBlank c || isBreak c)

/-- White space inside a quoted scalar, which does not end the text. -/
def whiteSpace (c : Cursor) : Except Fault (List Char × Cursor) :=
  let spaces := c.run isBlank
  let c := c.skip isBlank
  match c.lineBreak? with
  | some (b, c) => (breaks c.fuel c).map fun p => (fold b p.1, p.2)
  | none => if c.next.isNone then .error .invalid else .ok (spaces, c)

/-- The scalar from a cursor on, up to its closing quote. -/
def scanFrom (quote : Char) : (fuel : Nat) → Cursor → Except Fault (Text × Cursor)
  | 0, _ => .error .invalid
  | fuel + 1, c => do
    let before (text : Text) (c : Cursor) : Except Fault (Text × Cursor) :=
      (scanFrom quote fuel c).map fun p => (text ++ p.1, p.2)
    let chars := c.run isOrdinary
    if !chars.isEmpty then before chars (c.advanceBy chars.length)
    else
      match c.next with
      | some '\'' =>
        if quote == '"' then before "'" c.advance
        else if c.ahead 1 == some '\'' then before "'" (c.advanceBy 2)
        else .ok ([], c.advance)
      | some '"' => if quote == '"' then .ok ([], c.advance) else before "\"" c.advance
      | some '\\' =>
        if quote == '"' then
          let (text, c) ← escape c.advance
          before text c
        else before "\\" c.advance
      | _ =>
        let (chars, c) ← whiteSpace c
        before chars c

/-- The scalar at a cursor that stands before its opening quote, and the cursor behind it. -/
def scan (quote : Char) (c : Cursor) : Except Fault (Text × Cursor) :=
  scanFrom quote c.fuel c.advance

end LineSpec.Yaml.Quoted
