import LineSpec.Assoc
import LineSpec.Scalar.Basic
import LineSpec.Text.Lower
import LineSpec.Text.Search
import LineSpec.Yaml.Fault
/-!
# Scalars of a YAML text

The value of a scalar of a given type, from its text. A type that is given by a tag may not fit the
text; each type then has a fault of its own.
-/

namespace LineSpec.Yaml.Value

/-! ## Truth values -/

/-- The words for truth values, in lower case. -/
def truthWords : Bindings Bool :=
  [("yes", true), ("no", false), ("true", true), ("false", false), ("on", true), ("off", false)]

/-- The truth value of a word, in any case. -/
def bool (t : Text) : Except Fault Scalar :=
  let word := t.lower
  match truthWords.get? word with
  | some b => .ok (.bool b)
  | none => .error (.noTruthValue word)

/-! ## Numbers -/

/-- The numeral without underscores. -/
def withoutGaps (t : Text) : Text := t.filter (· ≠ ('_' : CodePoint))

/-- The sign of a numeral that is not empty, and the numeral without it. -/
def sign? : Text → Except Fault (Bool × Text)
  | [] => .error .emptyNumeral
  | c :: cs => .ok (c = '-', if c = '-' || c = '+' then cs else c :: cs)

/-- The whole number that a text writes in a base. -/
def whole (base : Nat) (t : Text) : Except Fault Int :=
  (Decimal.Numeral.int? base t).mapError .numeral

/-- The number that a text writes. -/
def decimal (t : Text) : Except Fault Binary64 :=
  (Decimal.Numeral.float? t).mapError .numeral

/-- The whole number with a sign. -/
def signed (negative : Bool) (n : Int) : Int := if negative then -n else n

/-- The texts between the colons of a numeral in base sixty. -/
def places (t : Text) : List Text := Text.pieces t ':'

/-- The absolute value of a whole number: the base shows at its front, and colons divide the digits
of base sixty. -/
def unsignedInt (t : Text) : Except Fault Int :=
  match t with
  | [] => .error .emptyNumeral
  | c :: cs =>
    if c = '0' then
      match cs with
      | [] => .ok 0
      | m :: digits =>
        if m = 'b' then whole 2 digits
        else if m = 'x' then whole 16 digits
        else whole 8 t
    else if t.contains ':' then do
      let ds ← (places t).mapM (whole 10)
      .ok (ds.foldl (fun n d => 60 * n + d) 0)
    else whole 10 t

/-- The whole number that a text writes. -/
def int (t : Text) : Except Fault Scalar := do
  let (negative, t) ← sign? (withoutGaps t)
  let n ← unsignedInt t
  .ok (.int (signed negative n))

/-- The most places of a number in base sixty: the value of a further one is beyond all numbers. -/
def maxPlaces : Nat := 174

/-- The sum of the digits of base sixty, the last first, each times its power. -/
def sixtieths (xs : List Binary64) : Except Fault Binary64 :=
  if maxPlaces < xs.length then .error .hugePlace
  else
    .ok (xs.reverse.zipIdx.foldl (fun sum p => sum.add (p.1.mul (.ofNat (Nat.pow 60 p.2))))
      (Binary64.zero false))

/-- The words for a number that is infinite and for one that is none. -/
def infinityWord : Text := ".inf"

@[inherit_doc infinityWord]
def nanWord : Text := ".nan"

/-- The absolute value of a number, whose letters are in lower case. -/
def unsignedFloat (t : Text) : Except Fault Binary64 :=
  if t = infinityWord then .ok (.infinite false)
  else if t = nanWord then .ok .nan
  else if t.contains ':' then do
    let xs ← (places t).mapM decimal
    sixtieths xs
  else decimal t

/-- The sign of a number, and its absolute value as it is written, in lower case. -/
def floatParts (t : Text) : Except Fault (Bool × Text) := sign? (withoutGaps t).lower

/-- The number that a text writes. -/
def float (t : Text) : Except Fault Scalar := do
  let (negative, t) ← floatParts t
  let x ← unsignedFloat t
  .ok (.float (if negative then x.neg else x))

/-- Whether a text is the word for what is no number, and not a numeral that comes out as none. -/
def isNanWord (t : Text) : Bool :=
  match floatParts t with
  | .ok (_, t) => t = nanWord
  | .error _ => false

/-! ## Octets -/

/-- The value of a digit of base sixty-four. -/
def digit64? (c : Char) : Option Nat :=
  let n := c.toNat
  if 65 ≤ n && n ≤ 90 then some (n - 65)
  else if 97 ≤ n && n ≤ 122 then some (n - 71)
  else if 48 ≤ n && n ≤ 57 then some (n + 4)
  else if c == '+' then some 62
  else if c == '/' then some 63
  else none

/-- The octets that digits of base sixty-four write, four digits for three octets. `held` is the
value of the last digits whose octet is not complete, and `count` how many digits of a group are
read. Padding ends the octets when it completes a group; characters that are no digits do not
count. -/
def octetsFrom (held count pads : Nat) : List Char → Option (List UInt8)
  | [] => if count == 0 then some [] else none
  | c :: cs =>
    if c == '=' then
      if 2 ≤ count then
        if 4 ≤ count + (pads + 1) then some [] else octetsFrom held count (pads + 1) cs
      else octetsFrom held count pads cs
    else
      match digit64? c with
      | none => octetsFrom held count pads cs
      | some d =>
        match count with
        | 0 => octetsFrom d 1 0 cs
        | 1 => (octetsFrom (d % 16) 2 0 cs).map (UInt8.ofNat (held * 4 + d / 16) :: ·)
        | 2 => (octetsFrom (d % 4) 3 0 cs).map (UInt8.ofNat (held * 16 + d / 4) :: ·)
        | _ => (octetsFrom 0 0 0 cs).map (UInt8.ofNat (held * 64 + d) :: ·)

/-- The octets that a text writes in base sixty-four. -/
def octets (t : Text) : Except Fault Scalar :=
  if t.any fun c => 128 ≤ c.val then .error .invalid
  else
    match (t.chars?).bind (octetsFrom 0 0 0) with
    | some bs => .ok (.octets bs)
    | none => .error .invalid

/-! ## Dates -/

/-- A reader of a part of a date. -/
abbrev Part := StateT (List Char) Option

/-- Takes one character of a class. -/
def charOf (p : Char → Bool) : Part Char := fun cs =>
  match cs with
  | c :: cs => if p c then some (c, cs) else none
  | [] => none

/-- Takes the characters of a class at the front. -/
def run (p : Char → Bool) : Part (List Char) := fun cs =>
  some (cs.takeWhile p, cs.dropWhile p)

/-- Takes between `least` and `most` decimal digits, as many as there are. -/
def number (least most : Nat) : Part Nat := fun cs =>
  let digits := (cs.takeWhile Char.isDigit).take most
  if digits.length < least then none
  else some (Decimal.Numeral.value 10 (digits.map fun c => c.toNat - 48), cs.drop digits.length)

/-- Whether the next character is of a class; it is not taken. -/
def isNext (p : Char → Bool) : Part Bool := fun cs => some (cs.head?.any p, cs)

/-- The microseconds of a fraction of a second: its first six digits. -/
def microseconds (digits : List Char) : Nat :=
  let first := (digits.take 6).map fun c => c.toNat - 48
  Decimal.Numeral.value 10 (first ++ List.replicate (6 - first.length) 0)

/-- The numbers of a date, from the year on, as a text gives them. -/
structure DateParts where
  year : Nat
  month : Nat
  day : Nat
  time : Option (Nat × Nat × Nat × Nat) := none
  /-- The minutes from universal time. -/
  offset : Option Int := none

/-- Takes an offset, if there is one. White space only stands before an offset. -/
def offset : Part (Option Int) := do
  let gap ← run fun c => c == ' ' || c == '\t'
  if ← isNext (· == 'Z') then
    let _ ← charOf (· == 'Z')
    return some 0
  else if ← isNext fun c => c == '+' || c == '-' then
    let s ← charOf fun _ => true
    let hours ← number 1 2
    let minutes ←
      if ← isNext (· == ':') then
        let _ ← charOf (· == ':')
        number 2 2
      else pure 0
    return some (signed (s == '-') (hours * 60 + minutes : Nat))
  else if gap.isEmpty then return none
  else failure

/-- Takes what separates a date from a time of day. -/
def timeMark : Part Unit := do
  if ← isNext fun c => c == 'T' || c == 't' then
    let _ ← charOf fun _ => true
  else
    let _ ← charOf fun c => c == ' ' || c == '\t'
    let _ ← run fun c => c == ' ' || c == '\t'

/-- Takes a date, with a time of day if more text follows. -/
def dateParts : Part DateParts := do
  let year ← number 4 4
  let _ ← charOf (· == '-')
  let month ← number 1 2
  let _ ← charOf (· == '-')
  let day ← number 1 2
  if (← get).isEmpty then return { year, month, day }
  else
    timeMark
    let hour ← number 1 2
    let _ ← charOf (· == ':')
    let minute ← number 2 2
    let _ ← charOf (· == ':')
    let second ← number 2 2
    let fraction ←
      if ← isNext (· == '.') then
        let _ ← charOf (· == '.')
        run Char.isDigit
      else pure []
    return {
      year, month, day
      time := some (hour, minute, second, microseconds fraction)
      offset := ← offset }

/-- The numbers of a date, if a text has the form of one. A line feed at the end does not matter. -/
def dateParts? (t : Text) : Option DateParts := do
  let cs ← t.chars?
  match dateParts (Text.dropLast? cs '\n') with
  | some (parts, []) => some parts
  | _ => none

/-- The date or the moment that a text writes. -/
def date (t : Text) : Except Fault Scalar :=
  match dateParts? t with
  | none => .error .noDate
  | some p => Except.mapError Fault.calendar do
    match p.time with
    | none => return .date (← Date.of? p.year p.month p.day)
    | some (hour, minute, second, microsecond) =>
      let offset ← p.offset.mapM checkOffset
      let date ← Date.of? p.year p.month p.day
      return .moment (← Moment.of? date hour minute second microsecond offset)

end LineSpec.Yaml.Value
