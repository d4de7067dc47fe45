import LineSpec.Proofs.Match.Divergence
import LineSpec.Proofs.Report.Row
/-!
# Carets under a line

Where a line differs from the expected one, carets stand under it from the first different character
to the end of the longer line, as far as the width reaches, below blanks and tabs that make them line
up (`Marks`). A line is cut to the width, and then carets that would begin behind the cut begin under
the dots. Only a line that has the full width and that the expected one goes on from has its caret
behind the width.
-/

namespace LineSpec.Report

/-! ## Lines that are cut -/

section
variable {line : Text}

theorem clip_of_le (h : line.length ≤ maxWidth) : clip line = line := by
  unfold clip
  rw [if_neg (Nat.not_lt.2 h)]

theorem clip_of_lt (h : maxWidth < line.length) : clip line = line.take (maxWidth - 2) ++ ".." := by
  unfold clip
  rw [if_pos h]

theorem length_clip_le (line : Text) : (clip line).length ≤ maxWidth := by
  rcases Nat.lt_or_ge maxWidth line.length with h | h
  · have hdots : (".." : Text).length = 2 := rfl
    rw [clip_of_lt h, List.length_append, List.length_take, hdots]
    unfold maxWidth at *
    omega
  · rw [clip_of_le h]
    exact h

end

/-! ## Where the carets stand -/

section
variable {text : Text} {d width : Nat}

/-- Where the carets under `text` begin that stand for an offset. -/
def caretStart (text : Text) (offset : Nat) : Nat :=
  if maxWidth < text.length then min offset (maxWidth - 2) else offset

theorem caretStart_le (h : d ≤ text.length) : caretStart text d ≤ text.length := by
  unfold caretStart
  split <;> omega

theorem caretStart_le_maxWidth (h : d ≤ text.length) : caretStart text d ≤ maxWidth := by
  unfold caretStart
  split <;> omega

/-- Before the carets begin, the cut line is the line itself. -/
theorem getElem?_clip {i : Nat} (h : i < caretStart text d) : (clip text)[i]? = text[i]? := by
  unfold caretStart at h
  split at h
  next hlt =>
    have hi : i < (text.take (maxWidth - 2)).length := by
      rw [List.length_take]
      omega
    rw [clip_of_lt hlt, List.getElem?_append_left hi, List.getElem?_take_of_lt (by omega)]
  next hle => rw [clip_of_le (Nat.not_lt.1 hle)]

theorem caretRow_natCast (text : Text) (d width : Nat) :
    caretRow text d width = padding (text.take (caretStart text d)) ++
      List.replicate (max 1 (min width maxWidth - caretStart text d)) '^' := by
  have hstart : (if maxWidth < text.length then min (d : Int) (maxWidth - 2 : Nat) else d) =
      (caretStart text d : Int) := by
    unfold caretStart
    split <;> omega
  have hcount : (max 1 (((min width maxWidth : Nat) : Int) - (caretStart text d : Int))).toNat =
      max 1 (min width maxWidth - caretStart text d) := by omega
  unfold caretRow before
  dsimp only
  rw [hstart, hcount, if_neg (by omega), Int.toNat_natCast]

theorem length_padding (t : Text) : (padding t).length = t.length := List.length_map _

/-- Carets reach at most one column behind the width. -/
theorem length_caretRow_le (h : d ≤ text.length) (width : Nat) :
    (caretRow text d width).length ≤ maxWidth + 1 := by
  have hle := caretStart_le_maxWidth h
  rw [caretRow_natCast, List.length_append, List.length_replicate, length_padding, List.length_take]
  omega

end

/-! ## Lines that differ -/

/-- `shown` is what a report shows of the line `actual`, which has its first `d` characters in
common with `expected`; under it stand `blanks` and then as many carets as `carets` says. -/
structure Marks (expected actual : Text) (d : Nat) (shown : Text) (blanks : List Char)
    (carets : Nat) : Prop where
  shown_of_short : actual.length ≤ 80 → shown = actual
  shown_of_long : 80 < actual.length → shown = actual.take 78 ++ ".."
  shown_length : shown.length ≤ 80
  begin_within : blanks.length ≤ shown.length
  begin_at : blanks.length = if actual.length ≤ 80 then d else min d 78
  blank_or_tab : ∀ i < blanks.length,
    blanks[i]? = some (if shown[i]? = some ('\t' : CodePoint) then '\t' else ' ')
  some_caret : 1 ≤ carets
  end_at : blanks.length + carets =
    if actual.length = 80 ∧ actual <+: expected ∧ actual ≠ expected then 81
    else min 80 (max expected.length actual.length)

section
variable {expected actual : Text} {d : Nat}

theorem marks_of_isGreatest (hne : expected ≠ actual)
    (hd : IsGreatest {d | ∃ p : Text, p.length = d ∧ p <+: expected ∧ p <+: actual} d) :
    Marks expected actual d (clip actual) (padding (actual.take (caretStart actual d)))
      (max 1 (min (max expected.length actual.length) maxWidth - caretStart actual d)) := by
  have hlt : d < max expected.length actual.length := lt_max_of_isGreatest hne hd
  have hle : d ≤ actual.length := by
    obtain ⟨p, rfl, -, hprefix⟩ := hd.1
    exact hprefix.length_le
  have hwhole : d = actual.length ↔ actual <+: expected := eq_length_iff_of_isGreatest hd
  have hlength : (padding (actual.take (caretStart actual d))).length = caretStart actual d := by
    rw [length_padding, List.length_take, Nat.min_eq_left (caretStart_le hle)]
  have hstart : caretStart actual d = if actual.length ≤ 80 then d else min d 78 := by
    unfold caretStart maxWidth
    split <;> split <;> omega
  constructor
  case shown_of_short => exact fun h => clip_of_le h
  case shown_of_long => exact fun h => clip_of_lt h
  case shown_length => exact length_clip_le actual
  case begin_within =>
    rw [hlength]
    rcases Nat.lt_or_ge maxWidth actual.length with h | h
    · rw [clip_of_lt h, List.length_append, List.length_take, caretStart, if_pos h]
      omega
    · rw [clip_of_le h]
      exact caretStart_le hle
  case begin_at => rw [hlength, hstart]
  case blank_or_tab =>
    intro i hi
    rw [hlength] at hi
    have hat : i < actual.length := Nat.lt_of_lt_of_le hi (caretStart_le hle)
    rw [getElem?_clip hi]
    unfold padding
    rw [List.getElem?_map, List.getElem?_take_of_lt hi, List.getElem?_eq_getElem hat]
    simp only [Option.map_some, Option.some.injEq]
  case some_caret => exact Nat.le_max_left _ _
  case end_at =>
    -- the carets begin behind the width only where the whole line, of that width, is common
    have hfull : (actual.length = 80 ∧ actual <+: expected ∧ actual ≠ expected) ↔
        actual.length = 80 ∧ d = 80 := by
      constructor
      · rintro ⟨h80, hprefix, -⟩
        exact ⟨h80, h80 ▸ hwhole.2 hprefix⟩
      · rintro ⟨h80, hd80⟩
        exact ⟨h80, hwhole.1 (hd80.trans h80.symm), Ne.symm hne⟩
    rw [hlength, hstart]
    simp only [hfull]
    unfold maxWidth
    split <;> split <;> omega

end

theorem alignRight_self (s : String) : alignRight s.length s = s := by
  unfold alignRight
  rw [Nat.sub_self]
  rfl

/-- The report of two lines that differ shows the line that was found, and marks it from the first
different character on, whatever the lines are and wherever the report is from. -/
theorem format_differs_marks {expected actual : Text} (hne : expected ≠ actual) {d : Nat}
    (hd : IsGreatest {d | ∃ p : Text, p.length = d ∧ p <+: expected ∧ p <+: actual} d)
    (number patternLine : Int) (label : Text) (context : List Text) :
    ∃ (above : List Text) (shown : Text) (blanks : List Char) (carets : Nat),
      above.length = context.length + 1 ∧
      format? (.mismatch (.differs number expected actual d patternLine)) label context =
        some (Text.join "\n" (above ++
          [Text.ofString (toString number) ++ " | " ++ shown,
            blankRow (toString number).length
              (Text.ofChars (blanks ++ List.replicate carets '^')),
            blankRow (toString number).length
              (MatchError.differs number expected actual d patternLine).message])) ∧
      Marks expected actual d shown blanks carets := by
  refine ⟨("in " ++ Text.quoted label) :: context.zipIdx.map fun p =>
      numberedRow (toString number).length (number - context.length + p.2) p.1,
    _, _, _, ?_, ?_, marks_of_isGreatest hne hd⟩
  · rw [List.length_cons, List.length_map, List.length_zipIdx]
  · have hrow : numberedRow (toString number).length number actual =
        Text.ofString (toString number) ++ " | " ++ clip actual := by
      rw [numberedRow, alignRight_self]
    have hcarets := caretRow_natCast actual d (max expected.length actual.length)
    rw [← hrow, ← hcarets]
    rfl

/-- A line of the full width, which the expected one goes on from: its caret is behind the width. -/
theorem format_differs_marks_full_width :
    let actual : Text := Text.ofChars (List.replicate 80 'a')
    let expected : Text := actual ++ "b"
    expected ≠ actual ∧
      IsGreatest {d | ∃ p : Text, p.length = d ∧ p <+: expected ∧ p <+: actual} 80 ∧
      ∃ (above : List Text) (shown : Text) (blanks : List Char) (carets : Nat),
        above.length = 2 ∧
        format? (.mismatch (.differs 12 expected actual 80 3)) "t" ["x"] =
          some (Text.join "\n" (above ++
            [Text.ofString (toString (12 : Int)) ++ " | " ++ shown,
              blankRow (toString (12 : Int)).length
                (Text.ofChars (blanks ++ List.replicate carets '^')),
              blankRow (toString (12 : Int)).length
                (MatchError.differs 12 expected actual 80 3).message])) ∧
        Marks expected actual 80 shown blanks carets := by
  intro actual expected
  have hne : expected ≠ actual := by decide +kernel
  have hlength : commonPrefixLength expected actual = 80 := by decide +kernel
  have hd := hlength ▸ isGreatest_commonPrefixLength expected actual
  exact ⟨hne, hd, format_differs_marks hne hd 12 3 "t" ["x"]⟩

end LineSpec.Report
