import LineSpec.Proofs.Text.Cutting
import LineSpec.Proofs.Text.Printable
import LineSpec.Report
/-!
# Rows of a report

A report is rows with a line feed between any two, so it can be cut into its rows again as long as
none of them holds a line feed (`Text.pieces_intercalate`). What is quoted holds none, whatever the
text is, since it is printable; neither do numbers and carets. A shown line is as good as the line
itself.
-/

namespace LineSpec

/-! ## Messages -/

/-- The message of a failed match is printable, whatever the lines are that it quotes. -/
theorem MatchError.printable_message (e : MatchError) : e.message.Printable := by
  have hdescribe : ∀ t, (describe t).Printable := by
    intro t
    cases t with
    | none => decide
    | some t => exact Text.printable_quoted t
  have hnumber := Text.printable_toString
  have happend : ∀ {a b : String}, Text.Printable a → Text.Printable b →
      Text.Printable ((a ++ b : String) : Text) := Text.printable_ofString_append
  have hplace : Text.Printable e.place := by
    cases e with
    | inputEnds line =>
      simp only [place]
      split
      · decide
      · exact happend (by decide) (hnumber line)
    | differs | inputGoesOn | other =>
      simp only [place]
      exact happend (happend (happend (by decide) (hnumber _)) (by decide)) (hnumber _)
  unfold message
  refine Text.Printable.append (Text.Printable.append (Text.Printable.append (Text.Printable.append
    (by decide) (hdescribe _)) (by decide)) (hdescribe _)) ?_
  exact happend (happend (by decide) hplace) (by decide)

theorem MatchError.lineFeed_not_mem_message (e : MatchError) : ('\n' : CodePoint) ∉ e.message :=
  e.printable_message.lineFeed_not_mem

namespace Report

/-! ## Rows -/

theorem lineFeed_not_mem_clip {line : Text} (h : ('\n' : CodePoint) ∉ line) :
    ('\n' : CodePoint) ∉ clip line := by
  rw [clip]
  split
  · rw [List.mem_append, not_or]
    exact ⟨fun hmem => h (List.mem_of_mem_take hmem), by decide⟩
  · exact h

theorem printable_alignRight {s : String} (h : Text.Printable s) (width : Nat) :
    Text.Printable (alignRight width s) := by
  refine Text.printable_ofString_append ?_ h
  unfold Text.ofString Text.ofChars
  rw [String.toList_ofList]
  refine List.forall_mem_map.2 fun c hc => ?_
  rw [List.eq_of_mem_replicate hc]
  decide

theorem lineFeed_not_mem_numberedRow {line : Text} (h : ('\n' : CodePoint) ∉ line) (gutter : Nat)
    (number : Int) : ('\n' : CodePoint) ∉ numberedRow gutter number line := by
  have hnumber := printable_alignRight (Text.printable_toString number) gutter
  rw [numberedRow, List.mem_append, List.mem_append, not_or, not_or]
  exact ⟨⟨hnumber.lineFeed_not_mem, by decide⟩, lineFeed_not_mem_clip h⟩

theorem lineFeed_not_mem_blankRow {content : Text} (h : ('\n' : CodePoint) ∉ content)
    (gutter : Nat) : ('\n' : CodePoint) ∉ blankRow gutter content := by
  have hblank := printable_alignRight (s := "") (by decide) gutter
  rw [blankRow, List.mem_append, List.mem_append, not_or, not_or]
  exact ⟨⟨hblank.lineFeed_not_mem, by decide⟩, h⟩

/-- Carets stand behind blanks and tabs. -/
theorem lineFeed_not_mem_caretRow (text : Text) (offset : Int) (width : Nat) :
    '\n' ∉ caretRow text offset width := by
  rw [caretRow, List.mem_append, not_or]
  refine ⟨fun hmem => ?_, fun hmem => absurd (List.eq_of_mem_replicate hmem) (by decide)⟩
  obtain ⟨c, -, hc⟩ := List.mem_map.1 hmem
  split at hc
  · exact absurd hc (by decide)
  · exact absurd hc (by decide)

/-- A report can be cut into its rows. -/
theorem pieces_join_rows {label : Text} {context : List Text} {focus : Focus}
    (hcontext : ∀ l ∈ context, ('\n' : CodePoint) ∉ l) (htext : ('\n' : CodePoint) ∉ focus.text)
    (hcarets : '\n' ∉ focus.carets) (hmessage : ('\n' : CodePoint) ∉ focus.message) :
    Text.pieces (Text.join "\n" (rows label context focus)) ('\n' : CodePoint) =
      rows label context focus := by
  have hall : ∀ row ∈ rows label context focus, ('\n' : CodePoint) ∉ row := by
    rw [rows, List.forall_mem_append, List.forall_mem_append, List.forall_mem_singleton,
      List.forall_mem_cons, List.forall_mem_cons, List.forall_mem_singleton]
    refine ⟨⟨?_, fun row hrow => ?_⟩, lineFeed_not_mem_numberedRow htext _ _,
      lineFeed_not_mem_blankRow (mt Text.ofChar_mem_ofChars_iff.1 hcarets) _,
      lineFeed_not_mem_blankRow hmessage _⟩
    · rw [List.mem_append, not_or]
      exact ⟨by decide, Text.lineFeed_not_mem_quoted label⟩
    · obtain ⟨p, hp, heq⟩ := List.mem_map.1 hrow
      rw [← heq]
      exact lineFeed_not_mem_numberedRow (hcontext _ (List.fst_mem_of_mem_zipIdx hp)) _ _
  refine Text.pieces_intercalate ?_ hall
  rw [rows]
  exact List.append_ne_nil_of_right_ne_nil _ (List.cons_ne_nil _ _)

end Report

end LineSpec
