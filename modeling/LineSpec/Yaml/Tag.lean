import LineSpec.Text.Lines
import LineSpec.Text.Pattern
/-!
# Types of YAML values

Each node of a YAML text has a tag, which says what type its value is of. A node is tagged in the
text, or its tag follows from its form: a plain scalar is a truth value, a number, a date or nothing
if it looks like one, and a text otherwise.
-/

namespace LineSpec.Yaml

/-- The type of a node. -/
inductive Tag where
  | null
  | bool
  | int
  | float
  | octets
  | date
  | text
  | sequence
  | mapping
  | set
  /-- A sequence of pairs, each given as a mapping with one member. -/
  | pairs
  /-- The key of a mapping whose value is merged into it. -/
  | merge
  /-- The key of a mapping whose value stands for it. -/
  | value
  /-- A type without a meaning as data. -/
  | other
  deriving DecidableEq, Repr

namespace Tag

/-- What all tags of the types of the language begin with. -/
def namespaceText : String := "tag:yaml.org,2002:"

/-- The names of the types. -/
def names : List (String × Tag) :=
  [("null", null), ("bool", bool), ("int", int), ("float", float), ("binary", octets),
    ("timestamp", date), ("str", text), ("seq", sequence), ("map", mapping), ("set", set),
    ("omap", pairs), ("pairs", pairs), ("merge", merge), ("value", value)]

/-- The type that a tag names. -/
def ofText (s : String) : Tag :=
  ((names.find? fun p => namespaceText ++ p.1 == s).map Prod.snd).getD other

/-- Whether the values of a type are collections. -/
def isCollection : Tag → Bool
  | sequence | mapping | set | pairs => true
  | _ => false

/-! ## Plain scalars -/

section

open Text.Pattern

/-- One decimal digit. -/
private def digit : Text.Pattern := char Char.isDigit

/-- A decimal digit or an underscore. -/
private def digitOrGap : Text.Pattern := char fun c => c.isDigit || c == '_'

/-- Decimal digits with underscores after the first. -/
private def digits : Text.Pattern := seq digit (many digitOrGap)

/-- A sign, or none. -/
private def sign : Text.Pattern := optional (among "+-")

/-- A number up to 59 after a colon. -/
private def sixtieth : Text.Pattern :=
  all [one ':', optional (char fun c => '0' ≤ c && c ≤ '5'), digit]

/-- An exponent with its sign, or none. -/
private def exponent : Text.Pattern :=
  optional (all [among "eE", among "+-", atLeastOnce digit])

/-- The words of a list. -/
private def words (ws : List String) : Text.Pattern := any (ws.map word)

/-- The forms of truth values. -/
def boolForm : Text.Pattern :=
  words ["yes", "Yes", "YES", "no", "No", "NO", "true", "True", "TRUE", "false", "False", "FALSE",
    "on", "On", "ON", "off", "Off", "OFF"]

/-- The forms of numbers that are not whole. -/
def floatForm : Text.Pattern :=
  any [
    all [sign, digits, one '.', many digitOrGap, exponent],
    all [one '.', digits, exponent],
    all [sign, digits, atLeastOnce sixtieth, one '.', many digitOrGap],
    all [sign, words [".inf", ".Inf", ".INF"]],
    words [".nan", ".NaN", ".NAN"]]

/-- The forms of whole numbers: with the marks of the bases two and sixteen, in base eight after a
zero, in base ten, and in base sixty. -/
def intForm : Text.Pattern :=
  seq sign <| any [
    seq (word "0b") (atLeastOnce (among "01_")),
    seq (one '0') (atLeastOnce (among "01234567_")),
    one '0',
    seq (word "0x") (atLeastOnce (char fun c => c.isDigit || ('a' ≤ c && c ≤ 'f') ||
      ('A' ≤ c && c ≤ 'F') || c == '_')),
    all [char fun c => '1' ≤ c && c ≤ '9', many digitOrGap, many sixtieth]]

/-- A time of day, with its offset if it has one. -/
private def timeForm : Text.Pattern :=
  all [
    either (among "Tt") (atLeastOnce (among " \t")),
    digit, optional digit, one ':', digit, digit, one ':', digit, digit,
    optional (seq (one '.') (many digit)),
    optional (seq (many (among " \t")) (either (one 'Z') (all [
      among "+-", digit, optional digit, optional (all [one ':', digit, digit])])))]

/-- The forms of dates: with two digits for the month and the day, or with a time of day. -/
def dateForm : Text.Pattern :=
  all [digit, digit, digit, digit, one '-',
    either (all [digit, digit, one '-', digit, digit])
      (all [digit, optional digit, one '-', digit, optional digit, timeForm])]

/-- The forms of plain scalars that are no texts. -/
def forms : List (Text.Pattern × Tag) :=
  [(boolForm, bool), (floatForm, float), (intForm, int), (word "<<", merge),
    (words ["~", "null", "Null", "NULL"], null), (dateForm, date), (word "=", value),
    (words ["!", "&", "*"], other)]

end

/-- The type of a scalar that is known by its form alone. A line feed at the end does not matter. -/
def ofForm (t : Text) : Tag :=
  match t.chars? with
  | none => text
  | some [] => null
  | some cs =>
    let cs := Text.dropLast? cs '\n'
    ((forms.find? fun p => p.1.matchesChars cs).map Prod.snd).getD text

end Tag

end LineSpec.Yaml
