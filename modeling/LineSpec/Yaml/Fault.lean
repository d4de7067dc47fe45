import LineSpec.Decimal.Numeral
import LineSpec.Scalar.Calendar
import LineSpec.Text.Quoted
/-!
# Faults of YAML texts

Why a YAML text gives no data. Most faults are alike: the text breaks the grammar, names what is not
there, or tags a value that no type fits. The others are values that are written well but do not
exist.
-/

namespace LineSpec.Yaml

/-- Why a YAML text gives no data. -/
inductive Fault where
  /-- The text is not YAML, or holds what has no meaning as data. -/
  | invalid
  /-- An escape with a number beyond the last character. -/
  | noCharacter
  /-- An escape with a number of more than 31 bits. -/
  | wideCharacter
  | numeral (e : Decimal.NumeralError)
  /-- A number without digits. -/
  | emptyNumeral
  /-- A truth value that is none of the words for it. -/
  | noTruthValue (word : Text)
  | calendar (e : CalendarError)
  /-- A date that has not the form of one. -/
  | noDate
  /-- A date that is given by a mapping. -/
  | dateOfMapping
  /-- A number in base sixty with too many places. -/
  | hugePlace
  /-- A mapping that stands for a scalar and is given by itself. -/
  | endless
  /-- Too many collections inside each other. -/
  | tooDeep
  /-- A whole number with more digits than are written. -/
  | unwritable
  deriving DecidableEq, Repr

/-- The fault in words, if it has any of its own. -/
def Fault.message? : Fault → Option Text
  | .invalid => none
  | .noCharacter => some "chr() arg not in range(0x110000)"
  | .wideCharacter => some "Python int too large to convert to C int"
  | .numeral e => some e.message
  | .emptyNumeral => some "string index out of range"
  | .noTruthValue word => some (Text.quoted word)
  | .calendar e => some e.message
  | .noDate => none
  | .dateOfMapping => none
  | .hugePlace => some "int too large to convert to float"
  | .endless | .tooDeep => some "maximum recursion depth exceeded"
  | .unwritable =>
    some (s!"Exceeds the limit ({Decimal.maxDigits} digits) for integer string conversion; " ++
      "use sys.set_int_max_str_digits() to increase the limit")

end LineSpec.Yaml
