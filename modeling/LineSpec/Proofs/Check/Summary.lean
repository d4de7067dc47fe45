import LineSpec.Check.Reading
import LineSpec.Proofs.Check.Problem
import LineSpec.Proofs.Match.Diagnosis
import LineSpec.Proofs.Report.Row
import LineSpec.Proofs.Spec.Plain
/-!
# Summaries

A problem is summed up in its words, and a summary has to fit on one line. The words repeat lines of
the specification, names of files and the reasons that the system gives; lines of the input and the
values of variables are only ever quoted. So a summary is one line whatever the values and the input
are (`Problem.lineFeed_not_mem_summary`), and that of a failed match is printable throughout.
-/

namespace LineSpec

/-! ## Reasons -/

theorem OsError.printable_reason (e : OsError) : Text.Printable e.reason := by
  cases e <;> decide

theorem Text.Utf8.Fault.printable_message (f : Fault) : Printable f.message := by
  have happend : ∀ {a b : String}, Printable a → Printable b → Printable ((a ++ b : String) : Text) :=
    printable_ofString_append
  have hreason : Printable f.reason.message := by
    cases f.reason <;> decide
  have hoctet : Printable (String.ofList (hex 2 f.first.toNat)) := by
    unfold ofString
    rw [String.toList_ofList]
    exact printable_hex 2 _
  unfold message
  refine happend (happend (happend (by decide) ?_) (by decide)) hreason
  split
  · exact happend (happend (happend (by decide) hoctet) (by decide)) (printable_toString_nat _)
  · exact happend (happend (happend (by decide) (printable_toString_nat _)) (by decide))
      (printable_toString_nat _)

namespace Problem

/-- `Arises c vars source t target p` says that the problem `p` comes up when the specification
`t`, which is called `source`, is parsed, when one of its items is matched with some input or
rendered, or when one is checked against the file at `target`. -/
inductive Arises (c : Conventions) (vars : Bindings Text) (source : Option Text) (t : Text)
    (target : Path) : Problem → Prop
  | parsing {e : ParseError} (refused : Document.parse c source t = .error e) :
      Arises c vars source t target (.parse e)
  | matching {d : Document} {item : Item} {ls : List Text} {e : MatchError}
      (parsed : Document.parse c source t = .ok d) (mem : item ∈ d.items)
      (failed : (c.run vars item.body ls).verdict = .failed e) :
      Arises c vars source t target (.mismatch e)
  | resolving {d : Document} {item : Item} {ls : List Text} {e : PlaceholderError}
      (parsed : Document.parse c source t = .ok d) (mem : item ∈ d.items)
      (refused : (c.run vars item.body ls).verdict = .unresolved e) :
      Arises c vars source t target (.placeholder e)
  | rendering {d : Document} {item : Item} {e : RenderError PlaceholderError}
      (parsed : Document.parse c source t = .ok d) (mem : item ∈ d.items)
      (refused : item.body.render (c.resolve vars) = .error e) :
      Arises c vars source t target (ofRender e)
  | checking {w : Workspace} {d : Document} {item : Item} {p : Problem}
      (parsed : Document.parse c source t = .ok d) (mem : item ∈ d.items)
      (found : (Check.item (c.reading vars) w item.body target).result = .ok (some p)) :
      Arises c vars source t target p

variable {c : Conventions} {vars : Bindings Text} {source : Option Text} {t : Text} {target : Path}

/-- What cannot be resolved in a document is summed up on one line. -/
theorem lineFeed_not_mem_placeholder {d : Document} {item : Item}
    (hparse : Document.parse c source t = .ok d) (hitem : item ∈ d.items) {text : Text} {line : Int}
    (hmem : .literal text line ∈ item.body) {e : PlaceholderError}
    (he : c.resolve vars text = .error e) : ('\n' : CodePoint) ∉ e.message :=
  (Template.printableUpTo_of_substitute he).lineFeed_not_mem
    (Text.lineFeed_not_mem_of_mem_lines (Document.literal_mem_lines_of_parse hparse hitem hmem))

theorem lineFeed_not_mem_targetUnreadable (htarget : ('\n' : CodePoint) ∉ target.text)
    {reason : String} (hreason : Text.Printable reason) :
    ('\n' : CodePoint) ∉ (targetUnreadable target.text reason).message := by
  simp only [message, List.mem_append, not_or]
  exact ⟨⟨⟨by decide, htarget⟩, by decide⟩, hreason.lineFeed_not_mem⟩

/-- What the check of an item finds is summed up on one line. -/
theorem lineFeed_not_mem_of_item {d : Document} {item : Item} {w : Workspace} {p : Problem}
    (hparse : Document.parse c source t = .ok d) (hitem : item ∈ d.items)
    (htarget : ('\n' : CodePoint) ∉ target.text)
    (h : (Check.item (c.reading vars) w item.body target).result = .ok (some p)) :
    ('\n' : CodePoint) ∉ p.message := by
  cases Check.finds_of_item h with
  | missing =>
    simp only [message, List.mem_append, not_or]
    exact ⟨by decide, htarget⟩
  | unreadable refused present =>
    exact lineFeed_not_mem_targetUnreadable htarget (OsError.printable_reason _)
  | undecodable read faulty =>
    exact lineFeed_not_mem_targetUnreadable htarget (Text.Utf8.Fault.printable_message _)
  | mismatch read failed => exact MatchError.lineFeed_not_mem_message _
  | unresolved read refused =>
    obtain ⟨text, line, hmem, herror⟩ := Match.exists_of_unresolved refused
    obtain ⟨e', he', heq⟩ := mapError_eq_error_iff.1 herror
    obtain rfl := Sum.inl.inj heq
    exact lineFeed_not_mem_placeholder hparse hitem hmem he'

/-- Every problem of a specification is summed up on one line, where the names of the specification
and of the file that is checked are on one line each. The summary of a failed match is printable,
whatever texts were compared. -/
theorem lineFeed_not_mem_summary (hsource : ∀ file ∈ source, ('\n' : CodePoint) ∉ file)
    (htarget : ('\n' : CodePoint) ∉ target.text) :
    (∀ p, Arises c vars source t target p → ('\n' : CodePoint) ∉ p.message) ∧
      ∀ e : MatchError, (mismatch e).message.Printable := by
  refine ⟨?_, MatchError.printable_message⟩
  intro p hp
  cases hp with
  | @parsing e refused =>
    obtain ⟨rfl, hline, hcause, -⟩ := Document.error_of_parse refused
    have hcause' : ('\n' : CodePoint) ∉ e.cause.message :=
      hcause.lineFeed_not_mem (Text.lineFeed_not_mem_of_mem_lines hline)
    apply e.printableUpTo_message.lineFeed_not_mem
    rw [List.mem_append, not_or]
    refine ⟨?_, hcause'⟩
    cases hfile : e.source with
    | none => exact List.not_mem_nil
    | some file => exact hsource file hfile
  | matching => exact MatchError.lineFeed_not_mem_message _
  | resolving parsed mem refused =>
    obtain ⟨text, line, hmem, herror⟩ := Match.exists_of_unresolved refused
    exact lineFeed_not_mem_placeholder parsed mem hmem herror
  | @rendering d item e parsed mem refused =>
    cases e with
    | skip line =>
      have hmessage : Text.Printable (s!"Cannot render skip marker at line {line}" : String) :=
        Text.printable_ofString_append (by decide) (Text.printable_toString line)
      exact hmessage.lineFeed_not_mem
    | unresolved e =>
      obtain ⟨text, line, hmem, herror⟩ := Body.exists_of_render_eq_error refused
      exact lineFeed_not_mem_placeholder parsed mem hmem herror
  | checking parsed mem found => exact lineFeed_not_mem_of_item parsed mem htarget found

/-- A value with a line feed is expected, and a line with a terminal sequence is found. -/
theorem lineFeed_not_mem_summary_of_values :
    let vars : Bindings Text := [("v", "a\nb")]
    let t : Text := "## file: f\n$\x7bv\x7d\n"
    let w : Workspace :=
      { tree.entries := [(["f"], .file (Text.Utf8.encode ['\x1b', '[', '\n']))] }
    let e : MatchError := .differs 1 "a\nb" "\x1b[" 0 2
    (∀ file ∈ (some "s" : Option Text), ('\n' : CodePoint) ∉ file) ∧
      ('\n' : CodePoint) ∉ (Path.ofText "f").text ∧
      (Check.item (({} : Conventions).reading vars) w [.literal "$\x7bv\x7d" 2]
        (Path.ofText "f")).result = .ok (some (.mismatch e)) ∧
      Arises {} vars (some "s") t (Path.ofText "f") (.mismatch e) ∧
      (mismatch e).message =
        Text.ofString "expected 'a\\nb', found '\\x1b[' (line 1, column 1)" ∧
      ('\n' : CodePoint) ∉ (mismatch e).message ∧ (mismatch e).message.Printable := by
  intro vars t w e
  have hsource : ∀ file ∈ (some "s" : Option Text), ('\n' : CodePoint) ∉ file := by decide
  have htarget : ('\n' : CodePoint) ∉ (Path.ofText "f").text := by decide
  have hparse : Document.parse {} (some "s") t =
      .ok ⟨[⟨[("file", "f")], [.literal "$\x7bv\x7d" 2], 1⟩], some "s"⟩ := by decide +kernel
  have hfound : (Check.item (({} : Conventions).reading vars) w [.literal "$\x7bv\x7d" 2]
      (Path.ofText "f")).result = .ok (some (.mismatch e)) := by decide +kernel
  have harises : Arises {} vars (some "s") t (Path.ofText "f") (.mismatch e) :=
    .checking hparse List.mem_cons_self hfound
  obtain ⟨hline, hprintable⟩ :=
    @lineFeed_not_mem_summary {} vars (some "s") t (Path.ofText "f") hsource htarget
  exact ⟨hsource, htarget, hfound, harises, by decide +kernel, hline _ harises, hprintable e⟩

end Problem

end LineSpec
