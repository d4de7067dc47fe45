import LineSpec.Proofs.Report.Place
import LineSpec.Proofs.Spec.Plain
/-!
# Problems in plain words

A problem is told in its words, or in a report that shows lines. Quoted texts, numbers and carets
are plain whatever they come from, so only a few texts matter: names of files, and the lines that
are shown as they are. If these are plain, so is the report (`Report.plain_of_formatIn?`).
-/

namespace LineSpec

/-! ## Words -/

theorem MatchError.plain_message (e : MatchError) : e.message.Plain := e.printable_message.plain

theorem ParseError.plain_message {e : ParseError} (hsource : ∀ file ∈ e.source, file.Plain)
    (hcause : e.cause.message.Plain) : e.message.Plain := by
  refine e.printableUpTo_message.plain (Text.Plain.append ?_ hcause)
  cases hfile : e.source with
  | none => exact Text.plain_nil
  | some file => exact hsource file hfile

/-- A problem whose words are plain, and the line that a report shows for it. -/
structure Problem.Plain (p : Problem) : Prop where
  message : p.message.Plain
  focus : ∀ focus ∈ Report.Focus.of? p, focus.text.Plain ∧ focus.message.Plain

namespace Problem

theorem plain_parse {e : ParseError} (hsource : ∀ file ∈ e.source, file.Plain)
    (hline : e.line.Plain) (hcause : e.cause.message.Plain) : (parse e).Plain where
  message := e.plain_message hsource hcause
  focus focus hfocus := by
    obtain rfl := Option.some.inj hfocus
    exact ⟨hline, hcause⟩

theorem plain_mismatch {e : MatchError} (hactual : ∀ actual ∈ e.actual, actual.Plain) :
    (mismatch e).Plain where
  message := e.plain_message
  focus focus hfocus := by
    obtain rfl := Option.some.inj hfocus
    refine ⟨?_, e.plain_message⟩
    rw [Report.Focus.ofMatch]
    cases hfound : e.actual with
    | none => exact Text.plain_nil
    | some actual => exact hactual actual hfound

theorem plain_placeholder {e : PlaceholderError} (h : e.message.Plain) : (placeholder e).Plain :=
  ⟨h, nofun⟩

theorem plain_skipRendered (line : Int) : (skipRendered line).Plain :=
  ⟨Text.plain_ofString _, nofun⟩

theorem plain_targetMissing {path : Text} (h : path.Plain) : (targetMissing path).Plain :=
  ⟨(Text.plain_ofString _).append h, nofun⟩

theorem plain_targetUnreadable {path : Text} (h : path.Plain) (reason : String) :
    (targetUnreadable path reason).Plain :=
  ⟨(((Text.plain_ofString _).append h).append (Text.plain_ofString _)).append
    (Text.plain_ofString _), nofun⟩

end Problem

/-! ## Reports -/

namespace Report

variable {lines : List Text}

theorem plain_clip {line : Text} (h : line.Plain) : (clip line).Plain := by
  rw [clip]
  split
  · exact (h.of_subset (List.take_subset _ _)).append (Text.plain_ofString _)
  · exact h

theorem plain_numberedRow {line : Text} (h : line.Plain) (gutter : Nat) (number : Int) :
    (numberedRow gutter number line).Plain :=
  ((Text.plain_ofString _).append (Text.plain_ofString _)).append (plain_clip h)

theorem plain_blankRow {content : Text} (h : content.Plain) (gutter : Nat) :
    (blankRow gutter content).Plain :=
  ((Text.plain_ofString _).append (Text.plain_ofString _)).append h

theorem plain_of_mem_rows {label row : Text} {context : List Text} {focus : Focus}
    (hcontext : ∀ l ∈ context, l.Plain) (htext : focus.text.Plain)
    (hmessage : focus.message.Plain) (h : row ∈ rows label context focus) : row.Plain := by
  revert h row
  rw [rows, List.forall_mem_append, List.forall_mem_append, List.forall_mem_singleton,
    List.forall_mem_cons, List.forall_mem_cons, List.forall_mem_singleton]
  refine ⟨⟨(Text.plain_ofString _).append (Text.plain_quoted label), ?_⟩,
    plain_numberedRow htext _ _, plain_blankRow (Text.plain_ofChars _) _, plain_blankRow hmessage _⟩
  exact List.forall_mem_map.2 fun p hp =>
    plain_numberedRow (hcontext _ (List.fst_mem_of_mem_zipIdx hp)) _ _

/-- The report of a plain problem in a file with plain lines is plain. -/
theorem plain_of_formatIn? {p : Problem} (hp : p.Plain) (hlines : ∀ l ∈ lines, l.Plain)
    (label : Text) : ((formatIn? p label lines).getD []).Plain := by
  rw [formatIn?]
  cases hfocus : Focus.of? p with
  | none => exact Text.plain_nil
  | some focus =>
    obtain ⟨htext, hmessage⟩ := hp.focus focus hfocus
    rw [Option.bind_some, format?, hfocus]
    refine Text.plain_join (Text.plain_ofString _) fun row hrow => ?_
    refine plain_of_mem_rows (fun l hl => ?_) htext hmessage hrow
    exact hlines l (List.mem_of_mem_take (List.mem_of_mem_drop hl))

end Report

end LineSpec
