import LineSpec.Text.Lines
import LineSpec.Text.Newline
import LineSpec.Text.Utf8
/-!
# Reading a file line by line

A file is decoded in blocks while its lines are read, so a fault in its octets comes to light only
when a line is asked for that ends in the faulty block or after it. A `Feed` holds what a reader can
get: the lines before the fault, and the fault itself, which a reader meets who asks for more lines.
Positions in a fault count from the start of the block, after the octets of a character that the
previous block left unfinished.
-/

namespace LineSpec.Text

/-- The lines that can be read from a file, each with its line feed, and the fault that a reader
meets who asks for more, if there is one. -/
structure Feed where
  lines : List Text
  fault : Option Utf8.Fault
  deriving Repr

namespace Feed

/-- The number of octets that are decoded at a time. -/
def blockSize : Nat := 8192

/-- The first two octets of a surrogate, at the end of a block. They are no beginning of a
character, but that is only found out when more is read. -/
def isHalfSurrogate : List UInt8 → Bool
  | [b, s] => b.toNat == 0xED && 0xA0 ≤ s.toNat && s.toNat < 0xC0
  | _ => false

/-- `decodeBlock bs` decodes the octets of one block: the text, and either the octets at the end
that wait for the next block or a fault. -/
def decodeBlock (bs : List UInt8) : List Char × Except Utf8.Fault (List UInt8) :=
  match Utf8.decodeFrom 0 bs with
  | (cs, .complete) => (cs, .ok [])
  | (cs, .unfinished octets) => (cs, .ok octets)
  | (cs, .faulty fault) =>
    let left := bs.drop fault.start
    (cs, if isHalfSurrogate left then .ok left else .error fault)

/-- The fault of octets that still wait when the file ends. -/
def faultAtEnd (carry : List UInt8) : Option Utf8.Fault :=
  match Utf8.decode carry with
  | .ok _ => none
  | .error fault => some fault

/-- `decodeBlocks carry bs` decodes the octets `bs` in blocks, after the octets `carry` that wait:
the text of the blocks without a fault, and the fault that ends it. -/
def decodeBlocks (carry : List UInt8) : List UInt8 → List Char × Option Utf8.Fault
  | [] => ([], faultAtEnd carry)
  | b :: bs =>
    match decodeBlock (carry ++ (b :: bs).take blockSize) with
    -- what the block holds before the fault is lost as well
    | (_, .error fault) => ([], some fault)
    | (cs, .ok octets) =>
      let next := decodeBlocks octets ((b :: bs).drop blockSize)
      (cs ++ next.1, next.2)
termination_by bs => bs.length
decreasing_by
  simp only [List.length_drop, List.length_cons, blockSize]
  omega

/-- The lines of `cs` that a line feed ends. A carriage return at the very end may still become a
terminator together with the next character, so it ends no line yet. -/
def closedLines (cs : List Char) : List Text :=
  (cut (ofChars (unifyNewlines (dropLast? cs '\r')))).filter fun l =>
    l.getLast?.any fun (c : CodePoint) => c == '\n'

/-- `ofBytes bs` is what can be read from a file with the octets `bs`. -/
def ofBytes (bs : List UInt8) : Feed :=
  match decodeBlocks [] bs with
  | (cs, none) => ⟨cut (ofChars (unifyNewlines cs)), none⟩
  | (cs, some fault) => ⟨closedLines cs, some fault⟩

end Feed

end LineSpec.Text
