import LineSpec.Decimal.Binary64
import LineSpec.Text.Blank
import LineSpec.Text.Digit
import LineSpec.Text.Hex
import LineSpec.Text.Quoted
/-!
# Numerals

Reading a number that stands alone in a text, with white space around it: a whole number in a base
up to sixteen, or a number with a fraction and an exponent. Digits of every script count, and so
does white space of every script, so a text is first put into ASCII. A whole number may have
underscores between its digits and, in the bases two, eight and sixteen, the mark of the base before
them; written in base ten it has at most 4300 digits.
-/

namespace LineSpec.Decimal

/-- Why a text is no numeral. -/
inductive NumeralError where
  /-- The text is not a whole number in the base. -/
  | noInteger (base : Nat) (text : Text)
  /-- The text is not a number. -/
  | noNumber (text : Text)
  /-- A whole number has more digits than are read. -/
  | tooLong (digits : Nat)
  deriving DecidableEq, Repr

/-- The most digits of a whole number that are read and written. -/
def maxDigits : Nat := 4300

/-- The number of characters of a text that an error shows. -/
def shownWidth : Nat := 200

/-- The error in words. -/
def NumeralError.message : NumeralError → Text
  | .noInteger base text =>
    s!"invalid literal for int() with base {base}: " ++ (Text.quoted text).take shownWidth
  | .noNumber text => "could not convert string to float: " ++ Text.quoted text
  | .tooLong digits =>
    s!"Exceeds the limit ({maxDigits} digits) for integer string conversion: " ++
      s!"value has {digits} digits; use sys.set_int_max_str_digits() to increase the limit"

namespace Numeral

/-- What a code point is in ASCII: itself, a space for white space beyond, the digit for a digit,
and a question mark, which no numeral holds, for all else. -/
def asciiPoint (c : CodePoint) : Char :=
  let n := c.val
  if n < 127 then Char.ofNat n
  else if Text.isBlank c then ' '
  else
    match Text.digitValue? c with
    | some d => Char.ofNat (48 + d)
    | none => '?'

/-- The text in ASCII. -/
def ascii (t : Text) : List Char := t.map asciiPoint

/-- White space that may stand around a numeral: the information separators are not part of it. -/
def isSpace (c : Char) : Bool :=
  let n := c.toNat
  n == 32 || (9 ≤ n && n ≤ 13)

/-- The text without the white space at its ends. -/
def strip (cs : List Char) : List Char :=
  ((cs.dropWhile isSpace).reverse.dropWhile isSpace).reverse

/-- The sign at the front of a numeral, and what follows it. -/
def sign : List Char → Bool × List Char
  | '-' :: cs => (true, cs)
  | '+' :: cs => (false, cs)
  | cs => (false, cs)

/-- The value of a character as a digit of a base. -/
def digitIn? (base : Nat) (c : Char) : Option Nat :=
  (Text.hexValue? c).filter (· < base)

/-- The letter that marks a base. -/
def baseMark? : Nat → Option Char
  | 2 => some 'b'
  | 8 => some 'o'
  | 16 => some 'x'
  | _ => none

/-- The numeral without the mark of its base; one underscore may follow the mark. -/
def dropMark (base : Nat) (cs : List Char) : List Char :=
  match baseMark? base, cs with
  | some mark, '0' :: m :: rest =>
    if m.toLower == mark then
      match rest with
      | '_' :: rest => rest
      | rest => rest
    else cs
  | _, _ => cs

/-- The digits at the front of a numeral, one underscore between any two of them, and what follows.
An underscore without a digit after it is part of what follows. -/
def digitsOf (base : Nat) : List Char → List Nat × List Char
  | [] => ([], [])
  | '_' :: c :: cs =>
    match digitIn? base c with
    | some d =>
      let next := digitsOf base cs
      (d :: next.1, next.2)
    | none => ([], '_' :: c :: cs)
  | c :: cs =>
    match digitIn? base c with
    | some d =>
      let next := digitsOf base cs
      (d :: next.1, next.2)
    | none => ([], c :: cs)

/-- The number that digits write, the most significant first. -/
def value (base : Nat) (digits : List Nat) : Nat :=
  digits.foldl (fun n d => base * n + d) 0

/-- Whether the digits of a base are bounded in number: those of a power of two are not. -/
def isBounded (base : Nat) : Bool :=
  base != 2 && base != 4 && base != 8 && base != 16

/-- The whole number that a text writes in a base. -/
def int? (base : Nat) (text : Text) : Except NumeralError Int :=
  let (negative, cs) := sign (strip (ascii text))
  let cs := dropMark base cs
  let (digits, rest) := if cs.head? == some '_' then ([], cs) else digitsOf base cs
  if isBounded base && maxDigits < digits.length then .error (.tooLong digits.length)
  else if digits.isEmpty || !rest.isEmpty then .error (.noInteger base text)
  else .ok (Binary64.signed negative (value base digits))

/-- The value of a decimal digit. -/
def decimal? (c : Char) : Option Nat := digitIn? 10 c

/-- The decimal digits at the front of a text, and what follows them. -/
def decimals (cs : List Char) : List Nat × List Char :=
  ((cs.takeWhile fun c => (decimal? c).isSome).filterMap decimal?,
    cs.dropWhile fun c => (decimal? c).isSome)

/-- The exponent at the front of a text, zero when there is none, and what follows it. -/
def exponent? : List Char → Option (Int × List Char)
  | c :: cs =>
    if c == 'e' || c == 'E' then
      let (negative, cs) := sign cs
      match decimals cs with
      | ([], _) => none
      | (digits, rest) => some (Binary64.signed negative (value 10 digits), rest)
    else some (0, c :: cs)
  | [] => some (0, [])

/-- The number that digits, a point and an exponent write, without a sign. -/
def unsigned? (negative : Bool) (cs : List Char) : Option Binary64 :=
  let (whole, rest) := decimals cs
  let (fraction, rest) := match rest with
    | '.' :: rest => decimals rest
    | rest => ([], rest)
  if whole.isEmpty && fraction.isEmpty then none
  else
    match exponent? rest with
    | some (e, []) =>
      some (.ofDecimal negative (value 10 (whole ++ fraction)) (e - (fraction.length : Int)))
    | _ => none

/-- The number that a text writes; `inf`, `infinity` and `nan` are numbers, in either case. -/
def float? (text : Text) : Except NumeralError Binary64 :=
  let (negative, cs) := sign (strip (ascii text))
  let word := String.ofList (cs.map Char.toLower)
  if word == "inf" || word == "infinity" then .ok (.infinite negative)
  else if word == "nan" then .ok .nan
  else
    match unsigned? negative cs with
    | some x => .ok x
    | none => .error (.noNumber text)

end Numeral

end LineSpec.Decimal
