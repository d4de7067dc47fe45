import LineSpec.Text.Hex
/-!
# UTF-8

Characters as octets and back. Decoding takes one unit off the front of the octets at a time: a
character, or a fault that tells how many octets form the longest beginning of a character there,
and why it does not go on. A beginning that the end of the octets cuts short is a unit of its own,
because more octets may follow when a text is decoded in blocks.
-/

namespace LineSpec.Text.Utf8

/-! ## Encoding -/

/-- The octets of one character. -/
def encodeChar (c : Char) : List UInt8 :=
  let n := c.toNat
  if n < 0x80 then [UInt8.ofNat n]
  else if n < 0x800 then [UInt8.ofNat (0xC0 + n / 64), UInt8.ofNat (0x80 + n % 64)]
  else if n < 0x10000 then
    [UInt8.ofNat (0xE0 + n / 4096), UInt8.ofNat (0x80 + n / 64 % 64), UInt8.ofNat (0x80 + n % 64)]
  else
    [UInt8.ofNat (0xF0 + n / 262144), UInt8.ofNat (0x80 + n / 4096 % 64),
      UInt8.ofNat (0x80 + n / 64 % 64), UInt8.ofNat (0x80 + n % 64)]

/-- The octets of characters. -/
def encode (cs : List Char) : List UInt8 := cs.flatMap encodeChar

/-! ## Decoding -/

/-- Why octets are no text. -/
inductive Reason where
  /-- The octet begins no character. -/
  | start
  /-- The octet after a beginning does not continue it. -/
  | continuation
  /-- The octets end within a character. -/
  | cutShort
  deriving DecidableEq, Repr

/-- What stands at the front of some octets. -/
inductive Unit where
  /-- A character, and the octets after it. -/
  | char (c : Char) (rest : List UInt8)
  /-- `width` octets, at least one, that no character begins with and that cannot be extended. -/
  | invalid (width : Nat) (reason : Reason)
  /-- All octets there are begin a character but do not complete it. -/
  | unfinished
  deriving Repr

/-- An octet that may stand after the first of a character. -/
def isContinuation (b : Nat) : Bool :=
  0x80 ≤ b && b < 0xC0

/-- The second octets that may follow the first octet `b`: all continuations, less those that would
encode a character in more octets than it needs, a surrogate, or a number beyond the last
character. -/
def secondInRange (b s : Nat) : Bool :=
  isContinuation s && (b != 0xE0 || 0xA0 ≤ s) && (b != 0xED || s < 0xA0) &&
    (b != 0xF0 || 0x90 ≤ s) && (b != 0xF4 || s < 0x90)

/-- The unit at the front of `b :: bs`. -/
def unit (b : UInt8) (bs : List UInt8) : Unit :=
  let n := b.toNat
  if n < 0x80 then .char (Char.ofNat n) bs
  else if n < 0xC2 then .invalid 1 .start
  else if n < 0xE0 then
    match bs with
    | [] => .unfinished
    | s :: rest =>
      if isContinuation s.toNat then .char (Char.ofNat ((n - 0xC0) * 64 + (s.toNat - 0x80))) rest
      else .invalid 1 .continuation
  else if n < 0xF0 then
    match bs with
    | [] => .unfinished
    | s :: bs =>
      if secondInRange n s.toNat then
        match bs with
        | [] => .unfinished
        | t :: rest =>
          if isContinuation t.toNat then
            .char (Char.ofNat ((n - 0xE0) * 4096 + (s.toNat - 0x80) * 64 + (t.toNat - 0x80))) rest
          else .invalid 2 .continuation
      else .invalid 1 .continuation
  else if n < 0xF5 then
    match bs with
    | [] => .unfinished
    | s :: bs =>
      if secondInRange n s.toNat then
        match bs with
        | [] => .unfinished
        | t :: bs =>
          if isContinuation t.toNat then
            match bs with
            | [] => .unfinished
            | u :: rest =>
              if isContinuation u.toNat then
                .char (Char.ofNat ((n - 0xF0) * 262144 + (s.toNat - 0x80) * 4096 +
                  (t.toNat - 0x80) * 64 + (u.toNat - 0x80))) rest
              else .invalid 3 .continuation
          else .invalid 2 .continuation
      else .invalid 1 .continuation
  else .invalid 1 .start

/-- A character takes at least its first octet. -/
theorem length_le_of_unit {b : UInt8} {bs rest : List UInt8} {c : Char}
    (h : unit b bs = .char c rest) : rest.length ≤ bs.length := by
  unfold unit at h
  grind

/-- Octets that are no text: where the faulty ones begin, how many they are, the first of them, and
why they are faulty. -/
structure Fault where
  start : Nat
  width : Nat
  first : UInt8
  reason : Reason
  deriving DecidableEq, Repr

/-- How a decoding ends. -/
inductive Ending where
  /-- All octets were characters. -/
  | complete
  /-- The last octets begin a character. -/
  | unfinished (octets : List UInt8)
  | faulty (fault : Fault)
  deriving Repr

/-- `decodeFrom start bs` are the characters at the front of `bs`, whose first octet is at position
`start`, and what ends them. A character that was decoded took the octets that encode it. -/
def decodeFrom (start : Nat) : List UInt8 → List Char × Ending
  | [] => ([], .complete)
  | b :: bs =>
    match _h : unit b bs with
    | .char c rest =>
      let next := decodeFrom (start + (encodeChar c).length) rest
      (c :: next.1, next.2)
    | .invalid width reason => ([], .faulty ⟨start, width, b, reason⟩)
    | .unfinished => ([], .unfinished (b :: bs))
termination_by bs => bs.length
decreasing_by
  have := length_le_of_unit ‹unit b bs = _›
  simp only [List.length_cons]
  omega

/-- The fault of octets that end within a character, when no more follow. -/
def cutShort (start : Nat) : List UInt8 → Fault
  | [] => ⟨start, 0, 0, .cutShort⟩
  | b :: bs => ⟨start, bs.length + 1, b, .cutShort⟩

/-- `decode bs` is the text of `bs`, or the first fault in it. -/
def decode (bs : List UInt8) : Except Fault (List Char) :=
  match decodeFrom 0 bs with
  | (cs, .complete) => .ok cs
  | (_, .unfinished octets) => .error (cutShort (bs.length - octets.length) octets)
  | (_, .faulty fault) => .error fault

/-- The character shown for octets that are no text. -/
def replacement : Char := Char.ofNat 0xFFFD

/-- `decodeLossy bs` is the text of `bs`, with one replacement character for each faulty part. -/
def decodeLossy : List UInt8 → List Char
  | [] => []
  | b :: bs =>
    match h : unit b bs with
    | .char c rest => c :: decodeLossy rest
    | .invalid width _ => replacement :: decodeLossy (bs.drop (width - 1))
    | .unfinished => [replacement]
termination_by bs => bs.length
decreasing_by
  · have := length_le_of_unit h
    simp only [List.length_cons]
    omega
  · simp only [List.length_drop, List.length_cons]
    omega

/-! ## Wording -/

/-- Why octets are no text, in words. -/
def Reason.message : Reason → String
  | .start => "invalid start byte"
  | .continuation => "invalid continuation byte"
  | .cutShort => "unexpected end of data"

/-- A fault in words: the octet or the octets at fault, their position, and why they are faulty. -/
def Fault.message (f : Fault) : String :=
  let octets :=
    if f.width == 1 then s!"byte 0x{String.ofList (hex 2 f.first.toNat)} in position {f.start}"
    else s!"bytes in position {f.start}-{f.start + f.width - 1}"
  s!"'utf-8' codec can't decode {octets}: {f.reason.message}"

end LineSpec.Text.Utf8
