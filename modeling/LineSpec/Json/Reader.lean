import LineSpec.Decimal.Numeral
import LineSpec.Json.Basic
/-!
# Reading JSON

A JSON text is one value with white space around it. Besides the grammar, `NaN`, `Infinity` and
`-Infinity` are values. Of members with one name the last one counts, in the place of the first.

Each reader takes the text from where it starts and gives back the rest. An error carries the rest
of the text at the place it is about; its position is what the whole text has more. Reading is
bounded by fuel, of which twice the length of the text is enough because each level of nesting takes
a character and two readers. Arrays and objects stand inside each other at most `maxDepth` levels
deep.
-/

namespace LineSpec.Json

/-- Why a text is no JSON. -/
inductive ReadError.Cause where
  | byteOrderMark
  | value
  | propertyName
  | colon
  | comma
  | unterminatedString
  | controlCharacter
  | escape
  | unicodeEscape
  | extraData
  deriving DecidableEq, Repr

/-- The cause in words. -/
def ReadError.Cause.message : Cause → String
  | byteOrderMark => "Unexpected UTF-8 BOM (decode using utf-8-sig)"
  | value => "Expecting value"
  | propertyName => "Expecting property name enclosed in double quotes"
  | colon => "Expecting ':' delimiter"
  | comma => "Expecting ',' delimiter"
  | unterminatedString => "Unterminated string starting at"
  | controlCharacter => "Invalid control character at"
  | escape => "Invalid \\escape"
  | unicodeEscape => "Invalid \\uXXXX escape"
  | extraData => "Extra data"

/-- A value that holds others. -/
inductive Nesting where
  | array
  | object
  deriving DecidableEq, Repr

/-- What stops a reader: an error at the place where `rest` begins, a whole number with more digits
than are read, or a value with too many around it. -/
inductive Stop where
  | at (cause : ReadError.Cause) (rest : List Char)
  | hugeNumber (digits : Nat)
  | tooDeep (nesting : Nesting)
  deriving DecidableEq, Repr

/-- The wording for a value with too many around it. -/
def Nesting.message (n : Nesting) : String :=
  let kind := match n with
    | array => "array"
    | object => "object"
  s!"maximum recursion depth exceeded while decoding a JSON {kind} from a unicode string"

/-- What a reader gives: a value and the rest of the text. -/
abbrev Reading (α : Type) := Except Stop (α × List Char)

/-- White space between the elements of a text. -/
def isSpace (c : Char) : Bool :=
  c == ' ' || c == '\t' || c == '\n' || c == '\r'

/-- The text after the white space at its front. -/
def skipSpace (cs : List Char) : List Char := cs.dropWhile isSpace

/-! ## Strings -/

/-- The number that four hexadecimal digits at the front of a text write. They have to be followed
by something, if only by the quote that ends the string. -/
def fourDigits? (cs : List Char) : Option (Nat × List Char) :=
  if 4 < cs.length then (Text.hexNumber? (cs.take 4)).map (·, cs.drop 4) else none

/-- Whether a number is a leading surrogate. -/
def isHigh (n : Nat) : Bool := 0xD800 ≤ n && n < 0xDC00

/-- Whether a number is a trailing surrogate. -/
def isLow (n : Nat) : Bool := 0xDC00 ≤ n && n < 0xE000

/-- The code point that two surrogates write. -/
def pair (high low : Nat) : CodePoint :=
  CodePoint.ofNat (0x10000 + (high - 0xD800) * 1024 + (low - 0xDC00))

/-- The code point that a lone number writes. A surrogate without its partner stays one. -/
def single (n : Nat) : CodePoint := CodePoint.ofNat n

/-- The trailing surrogate written at the front of a text. -/
def lowSurrogate? : List Char → Option (Nat × List Char)
  | '\\' :: 'u' :: cs => (fourDigits? cs).filter fun p => isLow p.1
  | _ => none

theorem length_fourDigits? {cs rest : List Char} {n : Nat} (h : fourDigits? cs = some (n, rest)) :
    rest.length ≤ cs.length := by
  unfold fourDigits? at h
  split at h
  · obtain ⟨a, -, ha⟩ := Option.map_eq_some_iff.1 h
    simp only [Prod.mk.injEq] at ha
    simp [← ha.2]
  · simp at h

theorem length_lowSurrogate? {cs rest : List Char} {n : Nat}
    (h : lowSurrogate? cs = some (n, rest)) : rest.length ≤ cs.length := by
  unfold lowSurrogate? at h
  split at h
  · have := length_fourDigits? (Option.filter_eq_some_iff.1 h).1
    simp only [List.length_cons]
    omega
  · simp at h

/-- The character of a short escape. -/
def shortEscape? (c : Char) : Option Char :=
  match c with
  | '"' => some '"'
  | '\\' => some '\\'
  | '/' => some '/'
  | 'b' => some (Char.ofNat 8)
  | 'f' => some (Char.ofNat 12)
  | 'n' => some '\n'
  | 'r' => some '\r'
  | 't' => some '\t'
  | _ => none

/-- Reads a string from after its opening quote; `start` is the text from the quote on. -/
def readString (start : List Char) : List Char → Reading Text
  | [] => .error (.at .unterminatedString start)
  | '"' :: cs => .ok ([], cs)
  | '\\' :: cs =>
    match cs with
    | [] => .error (.at .unterminatedString start)
    | 'u' :: ds =>
      match _h : fourDigits? ds with
      | none => .error (.at .unicodeEscape cs)
      | some (n, rest) =>
        match _h' : if isHigh n then lowSurrogate? rest else none with
        | some (low, rest') =>
          (readString start rest').map fun p => (pair n low :: p.1, p.2)
        | none => (readString start rest).map fun p => (single n :: p.1, p.2)
    | e :: ds =>
      match shortEscape? e with
      | none => .error (.at .escape ('\\' :: cs))
      | some c => (readString start ds).map fun p => ((c : CodePoint) :: p.1, p.2)
  | c :: cs =>
    if c.toNat < 32 then .error (.at .controlCharacter (c :: cs))
    else (readString start cs).map fun p => ((c : CodePoint) :: p.1, p.2)
termination_by cs => cs.length
decreasing_by
  · have := length_fourDigits? _h
    have : rest'.length ≤ rest.length := by
      split at _h'
      · exact length_lowSurrogate? _h'
      · simp at _h'
    simp only [List.length_cons]
    omega
  · have := length_fourDigits? _h
    simp only [List.length_cons]
    omega
  · simp only [List.length_cons]
    omega
  · simp

/-! ## Numbers -/

/-- The number that decimal digits write. -/
def natOfDigits (cs : List Char) : Nat :=
  Decimal.Numeral.value 10 (cs.map fun c => c.toNat - 48)

/-- The exponent at the front of a text, if it is complete: its sign, its digits, and the rest. -/
def exponent? : List Char → Option (Int × List Char)
  | [] => none
  | e :: cs =>
    if e == 'e' || e == 'E' then
      let (negative, cs) := match cs with
        | '-' :: cs => (true, cs)
        | '+' :: cs => (false, cs)
        | cs => (false, cs)
      let digits := cs.takeWhile Char.isDigit
      if digits.isEmpty then none
      else
        let n : Int := natOfDigits digits
        some (if negative then -n else n, cs.dropWhile Char.isDigit)
    else none

/-- The digits after a decimal point at the front of a text, at least one. -/
def fraction? : List Char → Option (List Char × List Char)
  | '.' :: cs =>
    let digits := cs.takeWhile Char.isDigit
    if digits.isEmpty then none else some (digits, cs.dropWhile Char.isDigit)
  | _ => none

/-- The whole digits at the front of a text: a zero stands alone. -/
def wholeDigits (cs : List Char) : List Char × List Char :=
  match cs with
  | '0' :: cs => (['0'], cs)
  | cs => (cs.takeWhile Char.isDigit, cs.dropWhile Char.isDigit)

/-- Reads a number whose sign is already read. -/
def readNumber (negative : Bool) (cs : List Char) : Reading Json :=
  let (whole, rest) := wholeDigits cs
  let fraction := fraction? rest
  let rest' := (fraction.map Prod.snd).getD rest
  let exponent := exponent? rest'
  let rest'' := (exponent.map Prod.snd).getD rest'
  if fraction.isNone && exponent.isNone then
    if Decimal.maxDigits < whole.length then .error (.hugeNumber whole.length)
    else
      let n : Int := natOfDigits whole
      .ok (.int (if negative then -n else n), rest)
  else
    let digits := (fraction.map Prod.fst).getD []
    let e := (exponent.map Prod.fst).getD 0
    .ok (.float (.ofDecimal negative (natOfDigits (whole ++ digits)) (e - digits.length)), rest'')

/-! ## Values -/

/-- The rest of a text that begins with a word. -/
def afterWord? (word : String) (cs : List Char) : Option (List Char) :=
  if word.toList.isPrefixOf cs then some (cs.drop word.length) else none

/-- Reads one of the words that are values. -/
def readWord? (cs : List Char) : Option (Json × List Char) :=
  let words : List (String × Json) :=
    [("null", null), ("true", bool true), ("false", bool false), ("NaN", float .nan),
      ("Infinity", float (.infinite false)), ("-Infinity", float (.infinite true))]
  words.findSome? fun p => (afterWord? p.1 cs).map (p.2, ·)

/-- Reads a value that is neither an array nor an object. -/
def readScalar (cs : List Char) : Reading Json :=
  match readWord? cs with
  | some found => .ok found
  | none =>
    match cs with
    | '"' :: rest => (readString cs rest).map fun p => (text p.1, p.2)
    | '-' :: d :: rest =>
      if d.isDigit then readNumber true (d :: rest) else .error (.at .value cs)
    | d :: _ => if d.isDigit then readNumber false cs else .error (.at .value cs)
    | [] => .error (.at .value cs)

/-- The levels of arrays and objects that may stand inside each other. -/
def maxDepth : Nat := 980

mutual

/-- Reads a value with up to `left` levels; white space before it is already read. -/
def readValue (left : Nat) : (fuel : Nat) → List Char → Reading Json
  | 0, cs => .error (.at .value cs)
  | fuel + 1, '[' :: cs =>
    match left with
    | 0 => .error (.tooDeep .array)
    | left + 1 =>
      match skipSpace cs with
      | ']' :: rest => .ok (array [], rest)
      | cs => (readItems left fuel [] cs).map fun p => (array p.1.reverse, p.2)
  | fuel + 1, '\x7b' :: cs =>
    match left with
    | 0 => .error (.tooDeep .object)
    | left + 1 =>
      match skipSpace cs with
      | '\x7d' :: rest => .ok (object [], rest)
      | cs => (readMembers left fuel [] cs).map fun p => (object p.1, p.2)
  | _ + 1, cs => readScalar cs

/-- Reads the items of an array up to its end, after those already read, the last one first. -/
def readItems (left : Nat) : (fuel : Nat) → List Json → List Char → Reading (List Json)
  | 0, _, cs => .error (.at .value cs)
  | fuel + 1, items, cs =>
    match readValue left fuel cs with
    | .error e => .error e
    | .ok (item, rest) =>
      match skipSpace rest with
      | ']' :: rest => .ok (item :: items, rest)
      | ',' :: rest => readItems left fuel (item :: items) (skipSpace rest)
      | rest => .error (.at .comma rest)

/-- Reads the members of an object up to its end, after those already read. -/
def readMembers (left : Nat) : (fuel : Nat) → Bindings Json → List Char → Reading (Bindings Json)
  | 0, _, cs => .error (.at .value cs)
  | fuel + 1, members, cs =>
    match cs with
    | '"' :: afterQuote =>
      match readString cs afterQuote with
      | .error e => .error e
      | .ok (name, rest) =>
        match skipSpace rest with
        | ':' :: rest =>
          match readValue left fuel (skipSpace rest) with
          | .error e => .error e
          | .ok (value, rest) =>
            let members := members.bind name value
            match skipSpace rest with
            | '\x7d' :: rest => .ok (members, rest)
            | ',' :: rest => readMembers left fuel members (skipSpace rest)
            | rest => .error (.at .comma rest)
        | rest => .error (.at .colon rest)
    | _ => .error (.at .propertyName cs)

end

/-! ## Texts -/

/-- Why a text is no JSON: the cause, and the place, as a line and a column counted from one and an
offset counted from zero. -/
structure ReadError where
  cause : ReadError.Cause
  line : Nat
  column : Nat
  offset : Nat
  deriving DecidableEq, Repr

/-- The error in words. -/
def ReadError.message (e : ReadError) : String :=
  s!"{e.cause.message}: line {e.line} column {e.column} (char {e.offset})"

/-- The error with the given cause at the place of `cs` where `rest` begins. -/
def ReadError.ofRest (cause : Cause) (cs rest : List Char) : ReadError :=
  let offset := cs.length - rest.length
  let before := cs.take offset
  let lastLine := (before.reverse.takeWhile (· != '\n')).length
  ⟨cause, before.count '\n' + 1, lastLine + 1, offset⟩

/-- Why a text cannot be read. -/
inductive Unreadable where
  | invalid (e : ReadError)
  | hugeNumber (digits : Nat)
  | tooDeep (nesting : Nesting)
  deriving DecidableEq, Repr

/-- Reads the one value of a text. -/
def readAll (cs : List Char) : Except Stop Json :=
  if cs.head? == some (Char.ofNat 0xFEFF) then .error (.at .byteOrderMark cs)
  else
    match readValue maxDepth (2 * cs.length + 2) (skipSpace cs) with
    | .error e => .error e
    | .ok (value, rest) =>
      match skipSpace rest with
      | [] => .ok value
      | rest => .error (.at .extraData rest)

/-- The data of a JSON text. -/
def read (cs : List Char) : Except Unreadable Json :=
  (readAll cs).mapError fun
    | .at cause rest => .invalid (.ofRest cause cs rest)
    | .hugeNumber digits => .hugeNumber digits
    | .tooDeep nesting => .tooDeep nesting

end LineSpec.Json
