import LineSpec.Text.Quoted
/-!
# Where a match fails

A match fails at a line of the input that is not the expected one, at the end of the input when
another line is expected, or at a line where the end is expected. The line is counted from one, the
offset from zero.
-/

namespace LineSpec

/-- The place and the reason of a failed match. -/
inductive MatchError where
  /-- The line `actual` differs from `expected`, first at `offset`. -/
  | differs (line : Int) (expected actual : Text) (offset patternLine : Int)
  /-- The input has `line` lines and ends where `expected` should stand. -/
  | inputEnds (line : Int) (expected : Text) (patternLine : Int)
  /-- The line `actual` stands where the input should end. -/
  | inputGoesOn (line : Int) (actual : Text)
  /-- A failure of no particular kind; an absent text is the end of the input. -/
  | other (line : Int) (expected actual : Option Text) (offset patternLine : Int)
  deriving DecidableEq, Repr

namespace MatchError

/-- The line of the input. -/
def line : MatchError → Int
  | .differs line .. => line
  | .inputEnds line .. => line
  | .inputGoesOn line _ => line
  | .other line .. => line

/-- The expected line, unless the end of the input was expected. -/
def expected : MatchError → Option Text
  | .differs _ expected .. => some expected
  | .inputEnds _ expected _ => some expected
  | .inputGoesOn .. => none
  | .other _ expected .. => expected

/-- The line that was found, unless the input ended. -/
def actual : MatchError → Option Text
  | .differs _ _ actual .. => some actual
  | .inputEnds .. => none
  | .inputGoesOn _ actual => some actual
  | .other _ _ actual .. => actual

/-- Where the two lines differ first. -/
def offset : MatchError → Int
  | .differs _ _ _ offset _ => offset
  | .inputEnds .. => 0
  | .inputGoesOn .. => 0
  | .other _ _ _ offset _ => offset

/-- The line of the specification that was not met. -/
def patternLine : MatchError → Int
  | .differs _ _ _ _ patternLine => patternLine
  | .inputEnds _ _ patternLine => patternLine
  | .inputGoesOn .. => 0
  | .other _ _ _ _ patternLine => patternLine

/-- A line in words; an absent one is the end of the input. -/
def describe : Option Text → Text
  | none => "end of input"
  | some text => Text.quoted text

/-- The place in words. -/
def place : MatchError → String
  | .inputEnds line _ _ => if line == 0 then "input is empty" else s!"after line {line}"
  | e => s!"line {e.line}, column {e.offset + 1}"

/-- The error in words, on one line. -/
def message (e : MatchError) : Text :=
  "expected " ++ describe e.expected ++ ", found " ++ describe e.actual ++ s!" ({e.place})"

end MatchError

end LineSpec
