import LineSpec.Assoc
import LineSpec.Yaml.Style.Block
import LineSpec.Yaml.Style.Plain
import LineSpec.Yaml.Style.Quoted
import LineSpec.Yaml.Token.Name
/-!
# Scanning a YAML text into tokens

The text is scanned from the left. Columns open and close blocks: a block ends where a line stands
further left. A key of a mapping need not be marked, so the token before a colon turns out to be a
key only when the colon is met: it may be one if it began where a key is allowed, stands on the same
line and is at most 1024 characters long. The mark of the key, and of the block that it opens, is
then put before it.

Tokens are scanned as they are asked for, and a fault comes to light only then. The next token is
known once it can no longer turn out to be a key.
-/

namespace LineSpec.Yaml

/-- A token that may turn out to be a key. -/
structure PossibleKey where
  /-- The number of tokens before it. -/
  place : Nat
  /-- Whether it has to be a key, because it begins a line of a block. -/
  required : Bool
  index : Nat
  line : Nat
  column : Nat

/-- A scan on its way. -/
structure Scan where
  cursor : Cursor
  /-- The number of brackets that are open. -/
  depth : Nat := 0
  /-- The column of the innermost block. -/
  indent : Int := -1
  /-- The columns of the blocks around it. -/
  outer : List Int := []
  keyAllowed : Bool := true
  /-- For each number of open brackets the token that may be a key. -/
  keys : Assoc Nat PossibleKey := []
  /-- The tokens so far. -/
  tokens : Array Token := #[]
  /-- How many of the tokens are taken. -/
  taken : Nat := 0
  /-- Whether the end of the text is reached. -/
  ended : Bool := false

namespace Scan

/-- The most characters that an unmarked key may have. -/
def maxKey : Nat := 1024

/-- Whether brackets are open. -/
def inFlow (s : Scan) : Bool := s.depth != 0

/-- The scan with one more token. -/
def push (s : Scan) (t : Token) : Scan := { s with tokens := s.tokens.push t }

/-- The scan with a token put before the token number `place`. -/
def insert (s : Scan) (place : Nat) (t : Token) : Scan :=
  { s with tokens := s.tokens.insertIdxIfInBounds place t }

/-! ## Blocks -/

/-- Ends the blocks that lie further right than `column`. -/
def closeTo (s : Scan) (column : Int) : Scan :=
  if s.inFlow then s
  else
    let columns := s.indent :: s.outer
    let closed := columns.takeWhile (column < ·)
    match columns.dropWhile (column < ·) with
    | [] => s
    | indent :: outer =>
      { s with indent, outer, tokens := s.tokens ++ closed.map fun _ => Token.blockEnd }

/-- Opens a block at `column` if it lies further right than the innermost one; `opening` puts the
mark of the block down. -/
def openAt (s : Scan) (column : Nat) (opening : Scan → Scan) : Scan :=
  if s.indent < column then opening { s with indent := column, outer := s.indent :: s.outer } else s

/-! ## Keys -/

/-- Forgets the tokens that can no longer be keys; one that had to be a key is a fault. -/
def dropStale (s : Scan) : Except Fault Scan :=
  let c := s.cursor
  let isStale (k : PossibleKey) : Bool := k.line != c.line || maxKey < c.index - k.index
  if s.keys.any fun p => isStale p.2 && p.2.required then .error .invalid
  else .ok { s with keys := s.keys.filter fun p => !isStale p.2 }

/-- Forgets the token that might be a key inside the innermost brackets. -/
def dropKey (s : Scan) : Except Fault Scan :=
  match s.keys.get? s.depth with
  | none => .ok s
  | some k =>
    if k.required then .error .invalid
    else .ok { s with keys := s.keys.filter fun p => p.1 != s.depth }

/-- Remembers that the next token may be a key, if one is allowed there. -/
def saveKey (s : Scan) : Except Fault Scan :=
  let c := s.cursor
  if !s.keyAllowed then .ok s
  else do
    -- at the column of a block a value can only be a key
    let required := !s.inFlow && s.indent == c.column
    let k : PossibleKey := ⟨s.tokens.size, required, c.index, c.line, c.column⟩
    let s ← s.dropKey
    .ok { s with keys := s.keys.bind s.depth k }

/-! ## Tokens -/

/-- The scan behind white space and comments. After a line break outside of brackets a key is
allowed. -/
def toNextToken (s : Scan) : (fuel : Nat) → Scan
  | 0 => s
  | fuel + 1 =>
    let c := s.cursor.skip (· == ' ')
    let c := if c.next == some '#' then c.toLineEnd else c
    match c.lineBreak? with
    | none => { s with cursor := c }
    | some (_, c) =>
      toNextToken { s with cursor := c, keyAllowed := s.keyAllowed || !s.inFlow } fuel

/-- A token that ends all blocks: a document mark or a directive. -/
def scanOutside (s : Scan) (t : Token) (c : Cursor) : Except Fault Scan := do
  let s ← (s.closeTo (-1)).dropKey
  .ok { s.push t with keyAllowed := false, cursor := c }

/-- A token of one character. -/
def scanMark (s : Scan) (t : Token) (keyAllowed : Bool) : Scan :=
  { s.push t with keyAllowed, cursor := s.cursor.advance }

/-- A token that stands for a value or a part of one. -/
def scanPart (s : Scan) (scan : Cursor → Except Fault (Token × Cursor)) :
    Except Fault Scan := do
  let s ← s.saveKey
  let (t, c) ← scan s.cursor
  .ok { s.push t with keyAllowed := false, cursor := c }

/-- The bracket that begins a collection. -/
def scanOpening (s : Scan) (t : Token) : Except Fault Scan := do
  let s ← s.saveKey
  .ok (scanMark { s with depth := s.depth + 1 } t true)

/-- The bracket that ends a collection. -/
def scanClosing (s : Scan) (t : Token) : Except Fault Scan := do
  let s ← s.dropKey
  .ok (scanMark { s with depth := s.depth - 1 } t false)

/-- The comma between the members of a collection. -/
def scanFlowEntry (s : Scan) : Except Fault Scan := do
  let s ← s.dropKey
  .ok (s.scanMark .flowEntry true)

/-- The hyphen before an item. -/
def scanBlockEntry (s : Scan) : Except Fault Scan :=
  if !s.inFlow && !s.keyAllowed then .error .invalid
  else do
    let s := if s.inFlow then s else s.openAt s.cursor.column (·.push .blockSequence)
    let s ← s.dropKey
    .ok (s.scanMark .blockEntry true)

/-- The question mark before a key. -/
def scanKey (s : Scan) : Except Fault Scan :=
  if !s.inFlow && !s.keyAllowed then .error .invalid
  else do
    let s := if s.inFlow then s else s.openAt s.cursor.column (·.push .blockMapping)
    let s ← s.dropKey
    .ok (s.scanMark .key !s.inFlow)

/-- The colon before a value. -/
def scanValue (s : Scan) : Except Fault Scan :=
  match s.keys.get? s.depth with
  | some k =>
    -- only now it is known that the token was a key, so its marks go before it
    let s := { s with keys := s.keys.filter fun p => p.1 != s.depth }
    let s := s.insert k.place .key
    let s := if s.inFlow then s else s.openAt k.column (·.insert k.place .blockMapping)
    .ok (s.scanMark .value false)
  | none =>
    if !s.inFlow && !s.keyAllowed then .error .invalid
    else do
      let s := if s.inFlow then s else s.openAt s.cursor.column (·.push .blockMapping)
      let s ← s.dropKey
      .ok (s.scanMark .value !s.inFlow)

/-- A block scalar. -/
def scanBlockScalar (s : Scan) : Except Fault Scan := do
  let s ← s.dropKey
  let (chars, c) ← Block.scan s.indent s.cursor
  .ok { s.push (.scalar (Text.ofChars chars) false) with keyAllowed := true, cursor := c }

/-- A plain scalar. -/
def scanPlain (s : Scan) : Except Fault Scan := do
  let s ← s.saveKey
  let (chars, broken, c) := Plain.scan s.inFlow (s.indent + 1) s.cursor
  .ok { s.push (.scalar (Text.ofChars chars) true) with keyAllowed := broken, cursor := c }

/-- An anchor or an alias. -/
def scanAnchor (make : String → Token) (c : Cursor) : Except Fault (Token × Cursor) :=
  (Token.anchorName c.advance).map fun p => (make p.1, p.2)

/-- A quoted scalar. -/
def scanQuoted (quote : Char) (c : Cursor) : Except Fault (Token × Cursor) :=
  (Quoted.scan quote c).map fun p => (.scalar p.1 false, p.2)

/-- The characters that have a meaning at the front of a token. -/
def isIndicator (c : Char) : Bool :=
  "-?:,[]\x7b\x7d#&*!|>'\"%@\x60".toList.contains c

/-- Whether a plain scalar may begin with `c`, before `next`. -/
def beginsPlain (s : Scan) (c : Char) (next : Option Char) : Bool :=
  !(isBlank c || isBreak c || isIndicator c) ||
    (!endsWord next && (c == '-' || (!s.inFlow && (c == '?' || c == ':'))))

/-- Scans the token that begins with `ch`, at the cursor. -/
def scanToken (s : Scan) (ch : Char) : Except Fault Scan :=
  let c := s.cursor
  let next := c.ahead 1
  let standsAlone := s.inFlow || endsWord next
  if ch == '%' && c.column == 0 then do
    let (t, c) ← Token.scanDirective c
    s.scanOutside t c
  else if c.column == 0 && c.isAtMark '-' then s.scanOutside .documentStart (c.advanceBy 3)
  else if c.column == 0 && c.isAtMark '.' then s.scanOutside .documentEnd (c.advanceBy 3)
  else if ch == '[' then s.scanOpening .flowSequence
  else if ch == '\x7b' then s.scanOpening .flowMapping
  else if ch == ']' then s.scanClosing .flowSequenceEnd
  else if ch == '\x7d' then s.scanClosing .flowMappingEnd
  else if ch == ',' then s.scanFlowEntry
  else if ch == '-' && endsWord next then s.scanBlockEntry
  else if ch == '?' && standsAlone then s.scanKey
  else if ch == ':' && standsAlone then s.scanValue
  else if ch == '*' then s.scanPart (scanAnchor .alias)
  else if ch == '&' then s.scanPart (scanAnchor .anchor)
  else if ch == '!' then s.scanPart Token.scanTag
  else if (ch == '|' || ch == '>') && !s.inFlow then s.scanBlockScalar
  else if ch == '\'' || ch == '"' then s.scanPart (scanQuoted ch)
  else if s.beginsPlain ch next then s.scanPlain
  else .error .invalid

/-! ## Asking for tokens -/

/-- The scan of characters, before its first token. -/
def ofChars (cs : List Char) : Scan := { cursor := .ofChars cs }

/-- Scans on by one token, or finds the end of the text. -/
def fetch (s : Scan) : Except Fault Scan := do
  let s ← (s.toNextToken s.cursor.fuel).dropStale
  let s := s.closeTo s.cursor.column
  match s.cursor.next with
  | some ch => s.scanToken ch
  | none =>
    let s ← (s.closeTo (-1)).dropKey
    .ok { s with keys := [], keyAllowed := false, ended := true }

/-- Scans on until the next token is known. -/
def look : (fuel : Nat) → Scan → Except Fault Scan
  | 0, s => .ok s
  | fuel + 1, s =>
    if s.ended then .ok s
    else if s.tokens.size ≤ s.taken then do look fuel (← s.fetch)
    else do
      let s ← s.dropStale
      if s.keys.any fun p => p.2.place == s.taken then look fuel (← s.fetch) else .ok s

/-- The scan in which the next token is known. -/
def ready (s : Scan) : Except Fault Scan := s.look (s.cursor.fuel + 1)

/-- The next token, or nothing at the end of the text. -/
def token? (s : Scan) : Option Token := s.tokens[s.taken]?

/-- The scan whose next token is taken. -/
def drop (s : Scan) : Scan := { s with taken := s.taken + 1 }

end Scan

end LineSpec.Yaml
