import LineSpec.Decimal.Layout
import LineSpec.Decimal.Numeral
import LineSpec.Scalar.Calendar
import LineSpec.Text.Quoted
/-!
# Scalars

The values that data files hold besides collections, with two texts each: alone, where a text stands
for itself, and inside a collection, where it is quoted so that its ends can be seen. Numbers that
are equal count as one value, whatever their type; the truth values are the numbers 0 and 1.
-/

namespace LineSpec

/-- A value that is no collection. -/
inductive Scalar where
  | null
  | bool (b : Bool)
  | int (n : Int)
  | float (x : Binary64)
  | text (t : Text)
  | octets (bs : List UInt8)
  | date (d : Date)
  | moment (m : Moment)
  deriving DecidableEq, Repr

namespace Scalar

/-! ## Equality of values -/

/-- The integer that a scalar equals, if there is one. -/
def toInt? : Scalar → Option Int
  | bool b => some (if b then 1 else 0)
  | int n => some n
  | float x => x.toInt?
  | _ => none

/-- Whether a scalar is the number that is not even equal to itself. -/
def isNan : Scalar → Bool
  | float .nan => true
  | _ => false

/-- Whether two scalars are the same value. -/
def same (a b : Scalar) : Bool :=
  match a.toInt?, b.toInt? with
  | some m, some n => m == n
  | _, _ =>
    match a, b with
    | moment m, moment n => m.sameInstant n
    | a, b => a == b && !a.isNan

/-! ## Texts -/

/-- Texts in a row, with a comma between any two. -/
def row (parts : List Text) : Text := Text.join ", " parts

/-- Whether a scalar can be written: a whole number has at most 4300 decimal digits. -/
def isWritable : Scalar → Bool
  | int n => n.natAbs < Nat.pow 10 Decimal.maxDigits
  | _ => true

/-- How one octet stands between the quotes `q`. -/
def octetChars (q : Char) (b : UInt8) : List Char :=
  let n := b.toNat
  let c := Char.ofNat n
  if c == q || c == '\\' then ['\\', c]
  else if c == '\t' then ['\\', 't']
  else if c == '\n' then ['\\', 'n']
  else if c == '\r' then ['\\', 'r']
  else if 32 ≤ n && n < 127 then [c]
  else '\\' :: 'x' :: Text.hex 2 n

/-- Octets between quotes. -/
def octetsText (bs : List UInt8) : List Char :=
  let q := Text.enclosingQuote (Text.ofChars (bs.map fun b => Char.ofNat b.toNat))
  'b' :: q :: (bs.flatMap (octetChars q) ++ [q])

/-- The numbers of a time of day that are listed: the second only if it or the microsecond is not
zero, the microsecond only if it is not zero. -/
def timeNumbers (m : Moment) : List Nat :=
  [m.hour, m.minute] ++
    (if m.microsecond != 0 then [m.second, m.microsecond]
    else if m.second != 0 then [m.second]
    else [])

/-- The offset of a moment as part of a list. -/
def offsetPart : Int → String
  | 0 => "tzinfo=datetime.timezone.utc"
  | minutes => s!"tzinfo=datetime.timezone({spanText minutes})"

/-- A date as a list of its numbers. -/
def dateParts (d : Date) : List Text := [d.year, d.month, d.day].map fun n => toString n

/-- The text of a scalar inside a collection. -/
def nested : Scalar → Text
  | null => "None"
  | bool b => if b then "True" else "False"
  | int n => toString n
  | float x => Decimal.plain.write x
  | text t => Text.quoted t
  | octets bs => Text.ofChars (octetsText bs)
  | date d => "datetime.date(" ++ row (dateParts d) ++ ")"
  | moment m =>
    let numbers : List Text := (timeNumbers m).map fun n => toString n
    let offset : List Text := (m.offset.toList).map fun n => offsetPart n
    "datetime.datetime(" ++ row (dateParts m.date ++ numbers ++ offset) ++ ")"

/-- The text of a scalar alone. -/
def alone : Scalar → Text
  | text t => t
  | date d => d.text
  | moment m => m.text
  | other => other.nested

/-! ## Collections on one line -/

/-- A list on one line, from the texts of its items. -/
def listText (items : List Text) : Text := "[" ++ row items ++ "]"

/-- A pair on one line. -/
def pairText (first second : Text) : Text := "(" ++ first ++ ", " ++ second ++ ")"

/-- A set on one line, from the texts of its members. -/
def setText (members : List Text) : Text :=
  if members.isEmpty then "set()" else "\x7b" ++ row members ++ "\x7d"

/-- A key with its value. -/
def entryText (p : Text × Text) : Text := p.1 ++ ": " ++ p.2

/-- A mapping on one line, from the texts of its keys and values. -/
def mappingText (members : List (Text × Text)) : Text :=
  "\x7b" ++ row (members.map entryText) ++ "\x7d"

end Scalar

end LineSpec
