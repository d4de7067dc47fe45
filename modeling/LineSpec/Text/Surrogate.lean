import LineSpec.Text.Basic
import LineSpec.Text.Hex
import LineSpec.Text.Utf8
/-!
# Surrogates among characters

A text with surrogates has no octets in UTF-8, so it can be neither printed nor written to a file.
The name of a file may hold some of them: they stand for the octets of names that are no text. Where
a text cannot be encoded, the first run of surrogates is at fault, from the first that is not
allowed.
-/

namespace LineSpec.Text

/-- A surrogate that stands for one octet in the name of a file. -/
def isOctetMark (c : CodePoint) : Bool := 0xDC80 ≤ c.val && c.val ≤ 0xDCFF

/-- Surrogates in a row that cannot be encoded: where they begin, how many they are, and the first
of them. -/
structure Unencodable where
  start : Nat
  width : Nat
  first : CodePoint
  deriving DecidableEq, Repr

namespace Unencodable

/-- The fault in words. -/
def message (e : Unencodable) : String :=
  let points :=
    if e.width == 1 then
      s!"character '\\u{String.ofList (hex 4 e.first.val)}' in position {e.start}"
    else s!"characters in position {e.start}-{e.start + e.width - 1}"
  s!"'utf-8' codec can't encode {points}: surrogates not allowed"

/-- The first fault of a text in which the code points of a class are allowed. -/
def first? (allowed : CodePoint → Bool) (t : Text) : Option Unencodable :=
  let before := t.takeWhile allowed
  match t.drop before.length with
  | [] => none
  | c :: cs => some ⟨before.length, (cs.takeWhile CodePoint.isSurrogate).length + 1, c⟩

/-- The first surrogates of a text, if there are any. -/
def inText? (t : Text) : Option Unencodable := first? (!CodePoint.isSurrogate ·) t

/-- Why no file can have a name, if that is so. -/
def inName? (t : Text) : Option Unencodable :=
  first? (fun c => !CodePoint.isSurrogate c || isOctetMark c) t

end Unencodable

/-- The octets of a text, if it holds no surrogate. -/
def encode (t : Text) : Except Unencodable (List UInt8) :=
  match Unencodable.inText? t with
  | some e => .error e
  | none => .ok (Utf8.encode (t.filterMap CodePoint.toChar?))

/-- The number of octets of the name of a file. -/
def nameSize (t : Text) : Nat :=
  (t.map fun c => (c.toChar?.map fun ch => (Utf8.encodeChar ch).length).getD 1).foldr (· + ·) 0

/-! ## Showing -/

/-- A text in characters, with each surrogate written by its number. -/
def shown (t : Text) : String :=
  String.ofList (t.flatMap fun c =>
    match c.toChar? with
    | some ch => [ch]
    | none => '\\' :: 'u' :: hex 4 c.val)

end LineSpec.Text
