import LineSpec.Problem
import LineSpec.Text.Lines
/-!
# Reports

A report shows the line at which a specification or a file is wrong, with its number, the lines
before it, and carets under the part that is wrong. Lines are cut to a width; a part that the cut
hides is marked under the two dots at its end. Only problems that have a place can be reported.
-/

namespace LineSpec.Report

/-- The number of characters that a shown line has at most. -/
def maxWidth : Nat := 80

/-- The number of lines shown before the one that is wrong. -/
def contextLines : Nat := 2

/-- A line cut to the width. -/
def clip (line : Text) : Text :=
  if maxWidth < line.length then line.take (maxWidth - 2) ++ ".." else line

/-- The part of `line` before `offset`; a negative offset counts from the end. -/
def before (offset : Int) (line : Text) : Text :=
  line.take (if offset < 0 then offset + line.length else offset).toNat

/-- Blanks under the text `t`, with tabs under tabs so that what follows lines up. -/
def padding (t : Text) : List Char :=
  t.map fun (c : CodePoint) => if c = '\t' then '\t' else ' '

/-- Carets from `offset` to `width` under the line `text`, at least one. -/
def caretRow (text : Text) (offset : Int) (width : Nat) : List Char :=
  let offset := if maxWidth < text.length then min offset (maxWidth - 2 : Nat) else offset
  let width : Int := (min width maxWidth : Nat)
  padding (before offset text) ++ List.replicate (max 1 (width - offset)).toNat '^'

/-- The line that a report is about: its number, its text, the carets under it, and the message. -/
structure Focus where
  number : Int
  text : Text
  carets : List Char
  message : Text
  deriving DecidableEq, Repr

/-- The line that a failed match is about: the line that was found, or the one after the last
line. -/
def Focus.ofMatch (e : MatchError) : Focus :=
  let expected := e.expected.getD []
  let number := if e.actual.isNone then e.line + 1 else e.line
  let text := e.actual.getD []
  let width := max expected.length text.length
  ⟨number, text, caretRow text e.offset width, e.message⟩

/-- The line of a specification that cannot be read. -/
def Focus.ofParse (e : ParseError) : Focus :=
  ⟨e.number, e.line, caretRow e.line 0 e.line.length, e.cause.message⟩

/-- The line that a problem is about, if it has a place. -/
def Focus.of? : Problem → Option Focus
  | .mismatch e => some (.ofMatch e)
  | .parse e => some (.ofParse e)
  | _ => none

/-- `alignRight width s` is `s` after as many spaces as make it `width` long. -/
def alignRight (width : Nat) (s : String) : String :=
  String.ofList (List.replicate (width - s.length) ' ') ++ s

/-- A row with a number. -/
def numberedRow (gutter : Nat) (number : Int) (line : Text) : Text :=
  alignRight gutter (toString number) ++ " | " ++ clip line

/-- A row without a number. -/
def blankRow (gutter : Nat) (content : Text) : Text :=
  alignRight gutter "" ++ " | " ++ content

/-- The rows of a report: where the line stands, the lines `context` before it, the line itself, the
carets, and the message. -/
def rows (label : Text) (context : List Text) (focus : Focus) : List Text :=
  let gutter := (toString focus.number).length
  let first := focus.number - context.length
  ["in " ++ Text.quoted label] ++
    (context.zipIdx.map fun p => numberedRow gutter (first + p.2) p.1) ++
    [numberedRow gutter focus.number focus.text, blankRow gutter (Text.ofChars focus.carets),
      blankRow gutter focus.message]

/-- The report of a problem that has a place. -/
def format? (problem : Problem) (label : Text) (context : List Text) : Option Text :=
  (Focus.of? problem).map fun focus => Text.join "\n" (rows label context focus)

/-- The lines among `lines` that a report of line `number` shows before it. -/
def contextOf (lines : List Text) (number : Int) : List Text :=
  let start := (number - 1 - contextLines).toNat
  (lines.take (number - 1).toNat).drop start

/-- The report of a problem in the file with the given lines. -/
def formatIn? (problem : Problem) (label : Text) (lines : List Text) : Option Text :=
  (Focus.of? problem).bind fun focus => format? problem label (contextOf lines focus.number)

end LineSpec.Report
