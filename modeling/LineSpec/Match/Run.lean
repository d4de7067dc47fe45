import LineSpec.Match.Error
import LineSpec.Spec.Document
import LineSpec.Text.Lines
/-!
# Matching a body

A body is matched against the lines of an input from the front, without going back. A literal has to
be the next line. After skips it is found at the first line that equals it, and the lines before
that one are skipped; skips that end the body leave the rest of the input unread. A literal's text
is resolved just before it is looked for, so what resolving refuses comes to light only there.

The input is a list of chunks, the lines with their terminators. A run tells the verdict, the chunks
that it left unread, and for each skip the line that ended it.
-/

namespace LineSpec

/-- The length of the longest common beginning of two texts. -/
def commonPrefixLength : Text → Text → Nat
  | a :: as, b :: bs => if a = b then commonPrefixLength as bs + 1 else 0
  | _, _ => 0

/-- The first offset at which two texts differ, or `none` when they are equal. -/
def divergence? (expected actual : Text) : Option Nat :=
  if expected = actual then none
  else some (commonPrefixLength expected actual)

namespace Match

/-- A skip that ended: at which line of the input, by which line of the specification. -/
structure Anchor where
  line : Nat
  patternLine : Int
  deriving DecidableEq, Repr

/-- How a match ends, where resolving a literal may be refused with an `ε`. -/
inductive Verdict (ε : Type) where
  | matched
  | failed (e : MatchError)
  | unresolved (e : ε)
  deriving DecidableEq, Repr

/-- The verdict of a match, the unread rest of the input, and the skips that ended on the way. -/
structure Run (ε : Type) where
  verdict : Verdict ε
  rest : List Text
  anchors : List Anchor
  deriving DecidableEq, Repr

/-- `seek expected ls` finds the first of the chunks `ls` whose line is `expected`: how many chunks
stand before it, and those after it. -/
def seek (expected : Text) : List Text → Option (Nat × List Text)
  | [] => none
  | l :: ls =>
    if Text.bare l = expected then some (0, ls)
    else (seek expected ls).map fun p => (p.1 + 1, p.2)

variable {ε : Type}

/-- Matches a body against the chunks of an input of which `consumed` lines are already read.
`pending` tells whether a skip stands just before the body. -/
def runFrom (resolve : Text → Except ε Text) (strictEnd : Bool) :
    Body → (pending : Bool) → (consumed : Nat) → List Text → Run ε
  | [], pending, consumed, ls =>
    if pending || !strictEnd then ⟨.matched, ls, []⟩
    else
      match ls with
      | [] => ⟨.matched, [], []⟩
      | l :: rest => ⟨.failed (.inputGoesOn (consumed + 1) (Text.bare l)), rest, []⟩
  | .skip _ :: body, _, consumed, ls => runFrom resolve strictEnd body true consumed ls
  | .literal text patternLine :: body, pending, consumed, ls =>
    -- resolved before a line is read, so a refusal counts even where no line is left
    match resolve text with
    | .error e => ⟨.unresolved e, ls, []⟩
    | .ok expected =>
      if pending then
        match seek expected ls with
        | none => ⟨.failed (.inputEnds (consumed + ls.length : Nat) expected patternLine), [], []⟩
        | some (skipped, rest) =>
          let line := consumed + skipped + 1
          let run := runFrom resolve strictEnd body false line rest
          { run with anchors := ⟨line, patternLine⟩ :: run.anchors }
      else
        match ls with
        | [] => ⟨.failed (.inputEnds consumed expected patternLine), [], []⟩
        | l :: rest =>
          match divergence? expected (Text.bare l) with
          | some offset =>
            ⟨.failed (.differs (consumed + 1) expected (Text.bare l) offset patternLine), rest, []⟩
          | none => runFrom resolve strictEnd body false (consumed + 1) rest

/-- Matches a body against the chunks of an input. -/
def run (resolve : Text → Except ε Text) (strictEnd : Bool) (body : Body) (ls : List Text) :
    Run ε :=
  runFrom resolve strictEnd body false 0 ls

/-- Whether a run with this verdict has asked for a line after the last one: when it failed for want
of a line, and when it made sure that the input ends. -/
def Verdict.readsEnd (v : Verdict ε) (strictEnd : Bool) (body : Body) : Bool :=
  match v with
  | .matched => strictEnd && !body.endsWithSkip
  | .failed (.inputEnds ..) => true
  | _ => false

end Match

end LineSpec
