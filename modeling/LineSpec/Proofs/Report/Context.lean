import LineSpec.Check.Run
import LineSpec.Report
import Mathlib.Data.List.Basic
/-!
# The lines above the reported one

A report takes the lines above the reported one out of the file by their numbers, but numbers them
from how many it was given (`numbered`). The two agree on every file but one that is a line too
short: where the reported line would be the second one behind the end, the last line of the file is
shown with a number that is one too high (`report_showsBefore_iff`).
-/

namespace LineSpec.Report

/-! ## Numbers of the lines above -/

/-- The lines `context` with the numbers that they are shown with above line `number`. -/
def numbered (number : Int) (context : List Text) : List (Int × Text) :=
  context.zipIdx.map fun p => (number - context.length + p.2, p.1)

theorem rows_eq (label : Text) (context : List Text) (focus : Focus) :
    rows label context focus =
      ["in " ++ Text.quoted label] ++
        (numbered focus.number context).map
          (fun p => numberedRow (toString focus.number).length p.1 p.2) ++
        [numberedRow (toString focus.number).length focus.number focus.text,
          blankRow (toString focus.number).length (Text.ofChars focus.carets),
          blankRow (toString focus.number).length focus.message] := by
  unfold rows numbered
  rw [List.map_map]
  rfl

theorem length_numbered (number : Int) (context : List Text) :
    (numbered number context).length = context.length := by
  unfold numbered
  rw [List.length_map, List.length_zipIdx]

theorem getElem?_numbered (number : Int) (context : List Text) (i : Nat) :
    (numbered number context)[i]? =
      context[i]?.map fun l => (number - context.length + i, l) := by
  unfold numbered
  rw [List.getElem?_map, List.getElem?_zipIdx, Option.map_map, Nat.zero_add]
  rfl

theorem mem_numbered_iff {number k : Int} {context : List Text} {l : Text} :
    (k, l) ∈ numbered number context ↔
      ∃ i : Nat, context[i]? = some l ∧ k = number - context.length + i := by
  rw [List.mem_iff_getElem?]
  refine exists_congr fun i => ?_
  rw [getElem?_numbered, Option.map_eq_some_iff]
  constructor
  · rintro ⟨l', hl', heq⟩
    obtain ⟨rfl, rfl⟩ := Prod.mk.inj heq
    exact ⟨hl', rfl⟩
  · rintro ⟨hl, rfl⟩
    exact ⟨l, hl, rfl⟩

/-! ## The lines that are taken -/

section
variable {lines : List Text} {number : Nat}

theorem contextOf_natCast (lines : List Text) (number : Nat) :
    contextOf lines number = (lines.take (number - 1)).drop (number - 3) := by
  have hstart : ((number : Int) - 1 - contextLines).toNat = number - 3 := by
    rw [contextLines]
    omega
  have hend : ((number : Int) - 1).toNat = number - 1 := by omega
  rw [contextOf, hstart, hend]

theorem length_contextOf (lines : List Text) (number : Nat) :
    (contextOf lines number).length = min (number - 1) lines.length - (number - 3) := by
  rw [contextOf_natCast, List.length_drop, List.length_take]

theorem getElem?_contextOf_eq_some_iff {i : Nat} {l : Text} :
    (contextOf lines number)[i]? = some l ↔
      number - 3 + i < number - 1 ∧ lines[number - 3 + i]? = some l := by
  rw [contextOf_natCast, List.getElem?_drop, List.getElem?_take]
  split
  next hlt => exact (and_iff_right hlt).symm
  next hge => simp [hge]

/-- Unless the file is a line too short, the lines are shown with the numbers that they have. -/
theorem mem_numbered_contextOf_iff (hpos : 1 ≤ number)
    (hlong : ¬(lines ≠ [] ∧ number = lines.length + 2)) {k : Int} {l : Text} :
    (k, l) ∈ numbered number (contextOf lines number) ↔
      ∃ i : Nat, k = i ∧ max 1 (number - 2) ≤ i ∧ i ≤ number - 1 ∧ lines[i - 1]? = some l := by
  rw [← List.length_pos_iff] at hlong
  have hlength := length_contextOf lines number
  rw [mem_numbered_iff]
  constructor
  · rintro ⟨i, hi, rfl⟩
    obtain ⟨hlt, hline⟩ := getElem?_contextOf_eq_some_iff.1 hi
    have hbound := (List.getElem?_eq_some_iff.1 hline).1
    refine ⟨number - 3 + i + 1, by omega, by omega, by omega, ?_⟩
    rw [Nat.add_sub_cancel]
    exact hline
  · rintro ⟨j, rfl, hfirst, hlast, hline⟩
    have hbound := (List.getElem?_eq_some_iff.1 hline).1
    have hat : number - 3 + (j - 1 - (number - 3)) = j - 1 := by omega
    refine ⟨j - 1 - (number - 3), getElem?_contextOf_eq_some_iff.2 ⟨by omega, ?_⟩, by omega⟩
    rw [hat]
    exact hline

/-- In a file that is a line too short, the last line is shown with the number of the next. -/
theorem mem_numbered_contextOf_of_short (hne : lines ≠ []) :
    (((lines.length + 1 : Nat) : Int), lines.getLast hne) ∈
      numbered (lines.length + 2 : Nat) (contextOf lines (lines.length + 2 : Nat)) := by
  have hpos := List.length_pos_iff.2 hne
  have hlength : (contextOf lines (lines.length + 2 : Nat)).length = 1 := by
    rw [length_contextOf]
    omega
  have hat : lines.length + 2 - 3 + 0 = lines.length - 1 := by omega
  refine mem_numbered_iff.2 ⟨0, getElem?_contextOf_eq_some_iff.2 ⟨by omega, ?_⟩, ?_⟩
  · rw [hat, List.getLast_eq_getElem, List.getElem?_eq_getElem]
  · rw [hlength]
    omega

end

/-! ## Reports of a file -/

/-- What is shown above line `number`: each line with the number that it has in the file, only the
two lines before, and of these every one that there is. -/
structure ShowsBefore (lines : List Text) (number : Nat) (shown : List (Int × Text)) : Prop where
  line_at : ∀ k l, (k, l) ∈ shown → ∃ i : Nat, k = i ∧ 1 ≤ i ∧ lines[i - 1]? = some l
  within : ∀ k l, (k, l) ∈ shown → max 1 (number - 2 : Int) ≤ k ∧ k ≤ number - 1
  shown_of_line : ∀ i : Nat, max 1 (number - 2) ≤ i → i ≤ number - 1 →
    ∀ l, lines[i - 1]? = some l → ((i : Int), l) ∈ shown

theorem showsBefore_contextOf_iff {lines : List Text} {number : Nat} (hpos : 1 ≤ number) :
    ShowsBefore lines number (numbered number (contextOf lines number)) ↔
      ¬(lines ≠ [] ∧ number = lines.length + 2) := by
  constructor
  · rintro hshows ⟨hne, rfl⟩
    obtain ⟨i, hi, -, hline⟩ := hshows.line_at _ _ (mem_numbered_contextOf_of_short hne)
    have hbound := (List.getElem?_eq_some_iff.1 hline).1
    omega
  · intro hlong
    constructor
    case line_at =>
      intro k l hk
      obtain ⟨i, rfl, hfirst, -, hline⟩ := (mem_numbered_contextOf_iff hpos hlong).1 hk
      exact ⟨i, rfl, by omega, hline⟩
    case within =>
      intro k l hk
      obtain ⟨i, rfl, hfirst, hlast, -⟩ := (mem_numbered_contextOf_iff hpos hlong).1 hk
      constructor <;> omega
    case shown_of_line =>
      intro i hfirst hlast l hline
      exact (mem_numbered_contextOf_iff hpos hlong).2 ⟨i, rfl, hfirst, hlast, hline⟩

/-- The report of a problem in a file shows above the reported line the lines before it, each with
its own number, exactly unless the file ends one line before the one above. -/
theorem report_showsBefore_iff {w : Workspace} {path : Path} {content : List UInt8}
    (hread : w.read path = .ok content) {problem : Problem} {focus : Focus}
    (hfocus : Focus.of? problem = some focus) {number : Nat} (hnumber : focus.number = number)
    (hpos : 1 ≤ number) (label : Text) :
    ∃ (lines : List Text) (shown : List (Int × Text)),
      w.readLines path = .ok lines ∧
      formatIn? problem label lines = some (Text.join "\n" (
        ["in " ++ Text.quoted label] ++
          shown.map (fun p => numberedRow (toString focus.number).length p.1 p.2) ++
          [numberedRow (toString focus.number).length focus.number focus.text,
            blankRow (toString focus.number).length (Text.ofChars focus.carets),
            blankRow (toString focus.number).length focus.message])) ∧
      (ShowsBefore lines number shown ↔ ¬(lines ≠ [] ∧ number = lines.length + 2)) := by
  obtain ⟨lines, hlines⟩ : ∃ lines, w.readLines path = .ok lines := by
    rw [Workspace.readLines, hread]
    exact ⟨_, rfl⟩
  refine ⟨lines, numbered number (contextOf lines number), hlines, ?_,
    showsBefore_contextOf_iff hpos⟩
  rw [formatIn?, hfocus, Option.bind_some, format?, hfocus, Option.map_some, rows_eq, hnumber]

/-- A problem in the fourth of five lines. -/
theorem showsBefore_fourth_line :
    let content := Text.Utf8.encode "a\nb\nc\nd\ne\n".toList
    let w : Workspace := { tree.entries := [(["f"], .file content)] }
    let problem : Problem := .mismatch (.differs 4 "x" "d" 0 4)
    w.read (Path.ofText "f") = .ok content ∧
      ∃ (focus : Focus) (lines : List Text) (shown : List (Int × Text)),
        Focus.of? problem = some focus ∧ focus.number = (4 : Nat) ∧
        w.readLines (Path.ofText "f") = .ok lines ∧ lines.length = 5 ∧
        formatIn? problem "f" lines = some (Text.join "\n" (
          ["in " ++ Text.quoted "f"] ++
            shown.map (fun p => numberedRow (toString focus.number).length p.1 p.2) ++
            [numberedRow (toString focus.number).length focus.number focus.text,
              blankRow (toString focus.number).length (Text.ofChars focus.carets),
              blankRow (toString focus.number).length focus.message])) ∧
        ShowsBefore lines 4 shown := by
  intro content w problem
  have hread : w.read (Path.ofText "f") = .ok content := by decide +kernel
  have hlength : w.readLines (Path.ofText "f") = .ok ["a", "b", "c", "d", "e"] := by
    decide +kernel
  have hfocus : Focus.of? problem = some (Focus.ofMatch (.differs 4 "x" "d" 0 4)) := rfl
  have hnumber : (Focus.ofMatch (.differs 4 "x" "d" 0 4)).number = (4 : Nat) := rfl
  obtain ⟨lines, shown, hlines, hreport, hiff⟩ :=
    report_showsBefore_iff hread hfocus hnumber (by decide) "f"
  obtain rfl := Except.ok.inj (hlength.symm.trans hlines)
  exact ⟨hread, _, _, shown, rfl, rfl, hlength, rfl, hreport, hiff.2 (by decide)⟩

/-- A file of one line, and a problem at its third line: the one line is shown as the second. -/
theorem not_showsBefore_of_short_file :
    let w : Workspace :=
      { tree.entries := [(["f"], .file (Text.Utf8.encode "a\n".toList))] }
    w.readLines (Path.ofText "f") = .ok ["a"] ∧
      formatIn? (.mismatch (.differs 3 "x" "y" 0 0)) "f" ["a"] = some (Text.join "\n"
        ["in 'f'", "2 | a", "3 | y", "  | ^",
          "  | expected 'x', found 'y' (line 3, column 1)"]) ∧
      numbered 3 (contextOf ["a"] 3) = [(2, ("a" : Text))] ∧
      ¬ShowsBefore ["a"] 3 (numbered 3 (contextOf ["a"] 3)) := by
  have hshown : numbered 3 (contextOf ["a"] 3) = [(2, ("a" : Text))] := by decide +kernel
  refine ⟨by decide +kernel, by decide +kernel, hshown, ?_⟩
  intro hshows
  obtain ⟨i, hi, -, hline⟩ := hshows.line_at 2 "a" (hshown ▸ List.mem_singleton_self _)
  obtain rfl : i = 2 := by omega
  exact absurd hline (by decide)

end LineSpec.Report
