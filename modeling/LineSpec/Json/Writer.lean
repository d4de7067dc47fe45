import LineSpec.Decimal.Layout
import LineSpec.Json.Basic
import LineSpec.Text.Hex
/-!
# Writing JSON

A JSON text of printable ASCII and line feeds. Each item and each member stands on a line of its
own, two spaces further in than what holds it. A code point beyond ASCII is written by the number of
each of its UTF-16 units.
-/

namespace LineSpec.Json

/-- The escape of one UTF-16 unit. -/
def unitEscape (n : Nat) : List Char := '\\' :: 'u' :: Text.hex 4 n

/-- How one code point stands in a string. -/
def writePoint (c : CodePoint) : List Char :=
  let n := c.val
  if c == '"' then ['\\', '"']
  else if c == '\\' then ['\\', '\\']
  else if c == '\n' then ['\\', 'n']
  else if c == '\r' then ['\\', 'r']
  else if c == '\t' then ['\\', 't']
  else if n == 8 then ['\\', 'b']
  else if n == 12 then ['\\', 'f']
  else if 32 ≤ n && n ≤ 126 then [Char.ofNat n]
  else if n < 0x10000 then unitEscape n
  else
    unitEscape (0xD800 + (n - 0x10000) / 1024) ++ unitEscape (0xDC00 + (n - 0x10000) % 1024)

/-- A string between its quotes. -/
def writeString (t : Text) : List Char :=
  '"' :: (t.flatMap writePoint ++ ['"'])

/-- How numbers that are not whole are written. -/
def numberLayout : Decimal.Layout :=
  { Decimal.plain with nan := "NaN", infinite := "Infinity" }

/-- A line feed and the indentation of a level. -/
def newLine (level : Nat) : List Char :=
  '\n' :: List.replicate (2 * level) ' '

mutual

/-- The text of a value that stands at a level of indentation. -/
def write (level : Nat) : Json → List Char
  | null => "null".toList
  | bool b => (if b then "true" else "false").toList
  | int n => (toString n).toList
  | float x => (numberLayout.write x).toList
  | text t => writeString t
  | array items =>
    match items with
    | [] => ['[', ']']
    | item :: items =>
      '[' :: (newLine (level + 1) ++ write (level + 1) item ++ writeItems (level + 1) items ++
        newLine level ++ [']'])
  | object members =>
    match members with
    | [] => ['\x7b', '\x7d']
    | (name, value) :: members =>
      '\x7b' :: (newLine (level + 1) ++ writeString name ++ [':', ' '] ++ write (level + 1) value ++
        writeMembers (level + 1) members ++ newLine level ++ ['\x7d'])

/-- The text of the items after the first. -/
def writeItems (level : Nat) : List Json → List Char
  | [] => []
  | item :: items => ',' :: (newLine level ++ write level item ++ writeItems level items)

/-- The text of the members after the first. -/
def writeMembers (level : Nat) : List (Text × Json) → List Char
  | [] => []
  | (name, value) :: members =>
    ',' :: (newLine level ++ writeString name ++ [':', ' '] ++ write level value ++
      writeMembers level members)

end

/-- The JSON text of a value. -/
def toChars (j : Json) : List Char := write 0 j

end LineSpec.Json
