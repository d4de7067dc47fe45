import LineSpec.Yaml.Fault
/-!
# Positions in a YAML text

A cursor is what is left of a text, with the number of characters before it and the line and column
it stands at. Carriage returns do not occur: the line terminators of a file are line feeds by the
time its text is scanned. Scanning a part of a text takes a cursor to the one behind that part, or
finds a fault.
-/

namespace LineSpec.Yaml

/-! ## Characters -/

/-- A character that ends a line. -/
def isBreak (c : Char) : Bool :=
  c == '\n' || c.toNat == 0x85 || c.toNat == 0x2028 || c.toNat == 0x2029

/-- A space or a tab. -/
def isBlank (c : Char) : Bool := c == ' ' || c == '\t'

/-- The mark that may begin a text and takes no column. -/
def byteOrderMark : Char := Char.ofNat 0xFEFF

/-- A character that may occur in a text. -/
def isAllowed (c : Char) : Bool :=
  let n := c.toNat
  n == 9 || n == 10 || (32 ≤ n && n ≤ 126) || n == 0x85 || (0xA0 ≤ n && n != 0xFFFE && n != 0xFFFF)

/-- A letter, a digit, a hyphen or an underscore of ASCII. -/
def isNameChar (c : Char) : Bool :=
  c.isAlphanum || c == '-' || c == '_'

/-- The end of a text or of a line, or a space. -/
def endsField : Option Char → Bool
  | none => true
  | some c => c == ' ' || isBreak c

/-- The end of a text or of a line, a space or a tab. -/
def endsWord : Option Char → Bool
  | none => true
  | some c => isBlank c || isBreak c

/-! ## Cursors -/

/-- What is left of a text, and where it stands. -/
structure Cursor where
  rest : List Char
  index : Nat := 0
  line : Nat := 0
  column : Nat := 0
  /-- The number of characters of the whole text. -/
  size : Nat
  deriving Repr

namespace Cursor

/-- The cursor at the beginning of a text. A byte order mark there is skipped. -/
def ofChars (cs : List Char) : Cursor :=
  match cs with
  | c :: rest =>
    if c == byteOrderMark then { rest, index := 1, size := cs.length }
    else { rest := cs, size := cs.length }
  | [] => { rest := [], size := 0 }

/-- The character `k` places ahead. -/
def ahead (c : Cursor) (k : Nat) : Option Char := c.rest[k]?

/-- The next character. -/
def next (c : Cursor) : Option Char := c.rest.head?

/-- The cursor behind the next character. -/
def advance (c : Cursor) : Cursor :=
  match c.rest with
  | [] => c
  | ch :: rest =>
    if isBreak ch then { c with rest, index := c.index + 1, line := c.line + 1, column := 0 }
    else
      let column := if ch == byteOrderMark then c.column else c.column + 1
      { c with rest, index := c.index + 1, column }

/-- The cursor behind the next `n` characters. -/
def advanceBy (c : Cursor) : Nat → Cursor
  | 0 => c
  | n + 1 => c.advance.advanceBy n

/-- The characters in a row that are of a class. -/
def run (c : Cursor) (p : Char → Bool) : List Char := c.rest.takeWhile p

/-- The cursor behind the characters in a row that are of a class. -/
def skip (c : Cursor) (p : Char → Bool) : Cursor := c.advanceBy (c.run p).length

/-- Whether the cursor stands before three given characters that end a word. -/
def isAtMark (c : Cursor) (mark : Char) : Bool :=
  c.rest.take 3 == List.replicate 3 mark && endsWord (c.ahead 3)

/-- Whether the cursor stands before the mark that begins or ends a document. -/
def isAtSeparator (c : Cursor) : Bool := c.isAtMark '-' || c.isAtMark '.'

/-- The cursor behind a line break, which counts as a line feed unless it is one of the separators
beyond ASCII. -/
def lineBreak? (c : Cursor) : Option (Char × Cursor) :=
  c.next.bind fun ch =>
    if isBreak ch then some (if ch.toNat == 0x85 then '\n' else ch, c.advance) else none

/-- The cursor at the end of the line. -/
def toLineEnd (c : Cursor) : Cursor := c.skip fun ch => !isBreak ch

/-- The cursor behind spaces, a comment and the end of the line; nothing else may stand there. -/
def restOfLine (c : Cursor) : Except Fault Cursor :=
  let c := c.skip (· == ' ')
  let c := if c.next == some '#' then c.toLineEnd else c
  match c.lineBreak? with
  | some (_, c) => .ok c
  | none => if c.next.isNone then .ok c else .error .invalid

/-- The fuel that a computation needs which moves the cursor with each step. -/
def fuel (c : Cursor) : Nat := c.size + 1

end Cursor

/-- A line break and the breaks after it, as they count inside a text: a single one is a space. -/
def fold (first : Char) (others : List Char) : List Char :=
  if first != '\n' then first :: others
  else if others.isEmpty then [' ']
  else others

end LineSpec.Yaml
