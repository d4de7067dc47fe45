import LineSpec.Text.Basic
/-!
# Terminal sequences

Sequences that tell a terminal how to show a text: the escape character, an opening bracket, digits
and marks, and a letter. They are removed from what is printed.
-/

namespace LineSpec.Text

/-- The character that begins a terminal sequence. -/
def escapeChar : CodePoint := '\x1b'

/-- A character between the bracket and the letter of a terminal sequence. -/
def isSequenceChar (c : CodePoint) : Bool :=
  c.isA Char.isDigit || c == ';' || c == '?'

/-- What follows a terminal sequence, of which the escape character and the bracket are removed. -/
def afterSequence? (cs : Text) : Option Text :=
  match cs.dropWhile isSequenceChar with
  | c :: rest => if c.isA Char.isAlpha then some rest else none
  | [] => none

theorem length_afterSequence? {cs rest : Text} (h : afterSequence? cs = some rest) :
    rest.length < cs.length := by
  unfold afterSequence? at h
  split at h
  · next c r hc =>
    split at h
    · simp only [Option.some.injEq] at h
      subst h
      have := (List.dropWhile_suffix (l := cs) isSequenceChar).length_le
      rw [hc] at this
      simp only [List.length_cons] at this
      omega
    · simp at h
  · simp at h

/-- A text as it is printed, without its terminal sequences. -/
def printed : Text → Text
  | [] => []
  | c :: cs =>
    match cs with
    | [] => [c]
    | d :: rest =>
      if c == escapeChar && d == '[' then
        match _h : afterSequence? rest with
        | some after => printed after
        | none => c :: printed (d :: rest)
      else c :: printed (d :: rest)
termination_by cs => cs.length
decreasing_by
  · have := length_afterSequence? _h
    simp only [List.length_cons]
    omega
  · simp
  · simp

end LineSpec.Text
