import LineSpec.Proofs.Match.Diagnosis
import LineSpec.Proofs.Report.Context
import LineSpec.Proofs.Report.Row
import LineSpec.Proofs.Text.Encoding
import LineSpec.Proofs.Text.Fragment
import Mathlib.Data.List.Forall2
/-!
# The place that a report shows

A match counts the lines of a file while it reads them; a report reads the whole file again and cuts
it in another way. Both come to the same lines as long as the file is text
(`readLines_eq_map_bare`), so what the report of a failed match shows is the line at which the match
stopped, with its number, below the lines before it (`locates_of_mismatch`).
-/

namespace LineSpec

namespace Check

variable {ε : Type}

/-- A file that is text is found not to match only where the match fails. -/
theorem eq_failed_of_problemOf {strictEnd : Bool} {body : Body} {target : Path}
    {v : Match.Verdict (PlaceholderError ⊕ ε)} {e : MatchError}
    (h : problemOf strictEnd body target none v = .ok (some (.mismatch e))) : v = .failed e := by
  rcases v with _ | e' | e' | e'
  · cases h
  · obtain rfl := Problem.mismatch.inj (Option.some.inj (Except.ok.inj h))
    rfl
  · cases h
  · cases h

theorem verdict_of_item_eq_mismatch {r : Reading ε} {w : Workspace} {body : Body} {target : Path}
    {content : List UInt8} {e : MatchError} (hread : w.read target = .ok content)
    (hfault : (Text.Feed.ofBytes content).fault = none)
    (h : (item r w body target).result = .ok (some (.mismatch e))) :
    (Match.run r.resolve r.strictEnd body (Text.Feed.ofBytes content).lines).verdict =
      .failed e := by
  rw [item, hread] at h
  dsimp only at h
  rw [hfault] at h
  exact eq_failed_of_problemOf h

end Check

/-! ## Lines that are read twice -/

section
variable {w : Workspace} {p : Path} {content : List UInt8} {cs : List Char}

/-- The lines of a file that is text are the same however they are read. -/
theorem readLines_eq_map_bare (hread : w.read p = .ok content)
    (hdecode : Text.Utf8.decode content = .ok cs) :
    w.readLines p = .ok ((Text.Feed.ofBytes content).lines.map Text.bare) := by
  obtain rfl := Text.Utf8.decode_eq_ok_iff.1 hdecode
  rw [Workspace.readLines, hread, Except.map, Text.Feed.ofBytes_encode,
    Text.Utf8.decodeLossy_encode, Text.lines_eq_map_bare_cut]

end

namespace Report

/-! ## Rows that show lines -/

/-- `row` shows the line `line` with its number, aligned by blanks, and cut to the width. -/
def Shows (row : Text) (number : Nat) (line : Text) : Prop :=
  ∃ blanks : Nat, row = Text.ofString (String.ofList (List.replicate blanks ' ') ++
    toString number) ++ " | " ++ clip line

theorem shows_numberedRow (gutter number : Nat) (line : Text) :
    Shows (numberedRow gutter number line) number line :=
  ⟨_, rfl⟩

/-- The rows of a report: where the file is, the lines of it with the numbers from two before
`number`, the row for `number` itself, which shows `text`, and two rows without a number. -/
def Locates (report label : Text) (lines : List Text) (number : Nat) (text : Text) : Prop :=
  ∃ (context : List Text) (row : Text) (gutter : Nat) (carets message : Text),
    Text.pieces report ('\n' : CodePoint) =
      ("in " ++ Text.quoted label) ::
        (context ++ [row, blankRow gutter carets, blankRow gutter message]) ∧
    List.Forall₂ (fun k row => ∃ line, lines[k - 1]? = some line ∧ Shows row k line)
      (List.range' (max 1 (number - 2)) (number - max 1 (number - 2))) context ∧
    Shows row number text

variable {lines : List Text} {number : Nat}

/-- The rows above the reported line show the lines before it, each with its number. -/
theorem forall₂_shows_contextOf (hpos : 1 ≤ number) (h : number ≤ lines.length + 1)
    (gutter : Nat) :
    List.Forall₂ (fun k row => ∃ line, lines[k - 1]? = some line ∧ Shows row k line)
      (List.range' (max 1 (number - 2)) (number - max 1 (number - 2)))
      ((contextOf lines number).zipIdx.map fun p =>
        numberedRow gutter (number - (contextOf lines number).length + p.2) p.1) := by
  have hlength : (contextOf lines number).length = number - max 1 (number - 2) := by
    rw [length_contextOf]
    omega
  rw [List.forall₂_iff_get]
  refine ⟨by simp [hlength], fun i hi hi' => ?_⟩
  rw [List.length_range'] at hi
  have hi'' : i < (contextOf lines number).length := hlength ▸ hi
  have hat : max 1 (number - 2) + i - 1 = number - 3 + i := by omega
  have hline := (getElem?_contextOf_eq_some_iff.1 (List.getElem?_eq_getElem hi'')).2
  simp only [List.get_eq_getElem, List.getElem_range', Nat.one_mul, List.getElem_map,
    List.getElem_zipIdx, Nat.zero_add]
  refine ⟨_, hat ▸ hline, ?_⟩
  have hnumber : (number : Int) - (contextOf lines number).length + i =
      (max 1 (number - 2) + i : Nat) := by
    rw [hlength]
    omega
  rw [hnumber]
  exact shows_numberedRow gutter _ _

/-- A report of a line of a file, or of the place behind its last line, shows where it is. -/
theorem locates_join_rows (label : Text) {focus : Focus} {lines : List Text} {number : Nat}
    (hnumber : focus.number = number) (hpos : 1 ≤ number) (h : number ≤ lines.length + 1)
    (hlines : ∀ l ∈ lines, ('\n' : CodePoint) ∉ l) (htext : ('\n' : CodePoint) ∉ focus.text)
    (hcarets : '\n' ∉ focus.carets) (hmessage : ('\n' : CodePoint) ∉ focus.message) :
    Locates (Text.join "\n" (rows label (contextOf lines focus.number) focus)) label lines number
      focus.text := by
  have hcontext : ∀ l ∈ contextOf lines focus.number, ('\n' : CodePoint) ∉ l := fun l hl =>
    hlines l (List.mem_of_mem_take (List.mem_of_mem_drop hl))
  let gutter := (toString (number : Int)).length
  rw [Locates, pieces_join_rows hcontext htext hcarets hmessage, hnumber]
  refine ⟨_, numberedRow gutter number focus.text, gutter, Text.ofChars focus.carets,
    focus.message, ?_, forall₂_shows_contextOf hpos h gutter,
    shows_numberedRow gutter number focus.text⟩
  rw [rows, hnumber, List.append_assoc, List.singleton_append]

/-! ## Failed matches -/

section
variable {lines : List Text} {e : MatchError} {number : Nat}

/-- A failed match can be reported, at the line that it is about. -/
theorem exists_locates_formatIn? (label : Text) (hnumber : (Focus.ofMatch e).number = number)
    (hpos : 1 ≤ number) (h : number ≤ lines.length + 1)
    (hlines : ∀ l ∈ lines, ('\n' : CodePoint) ∉ l)
    (htext : ('\n' : CodePoint) ∉ (Focus.ofMatch e).text) :
    ∃ report, formatIn? (.mismatch e) label lines = some report ∧
      Locates report label lines number (Focus.ofMatch e).text :=
  ⟨_, rfl, locates_join_rows label hnumber hpos h hlines htext (lineFeed_not_mem_caretRow _ _ _)
    e.lineFeed_not_mem_message⟩

end

/-- When the check of an item finds that its file, which is text, does not match, then the report
for the file shows the place where the match stopped. The report reads the lines that the match
reads. It shows the line that the match found there with its number, or behind the last line an
empty row when the input ran out, below the lines before it. -/
theorem locates_of_mismatch {ε : Type} {r : Reading ε} {w : Workspace} {body : Body}
    {target : Path} {content : List UInt8} {cs : List Char} {e : MatchError}
    (hread : w.read target = .ok content) (hdecode : Text.Utf8.decode content = .ok cs)
    (he : (Check.item r w body target).result = .ok (some (.mismatch e))) (label : Text) :
    ∃ (lines : List Text) (number : Nat) (report : Text),
      lines = (Text.Feed.ofBytes content).lines.map Text.bare ∧
      w.readLines target = .ok lines ∧
      formatIn? (.mismatch e) label lines = some report ∧
      ((∃ actual, e.actual = some actual ∧ e.line = number ∧ lines[number - 1]? = some actual ∧
          Locates report label lines number actual) ∨
        e.actual = none ∧ e.line + 1 = number ∧ number = lines.length + 1 ∧
          Locates report label lines number []) := by
  have hlinesRead := readLines_eq_map_bare hread hdecode
  obtain rfl := Text.Utf8.decode_eq_ok_iff.1 hdecode
  have hverdict : (Match.run r.resolve r.strictEnd body
      (Text.Feed.ofBytes (Text.Utf8.encode cs)).lines).verdict = .failed e :=
    Check.verdict_of_item_eq_mismatch hread (by rw [Text.Feed.ofBytes_encode]) he
  have hfeed : ∀ l ∈ (Text.Feed.ofBytes (Text.Utf8.encode cs)).lines.map Text.bare,
      ('\n' : CodePoint) ∉ l := by
    rw [Text.Feed.ofBytes_encode, ← Text.lines_eq_map_bare_cut]
    exact fun l hl => Text.lineFeed_not_mem_of_mem_lines hl
  generalize (Text.Feed.ofBytes (Text.Utf8.encode cs)).lines = ls at hverdict hfeed hlinesRead ⊢
  rcases Match.place_of_failed hverdict with ⟨i, actual, hactual, hline, hat⟩ | ⟨hactual, hline⟩
  · have hlt := (List.getElem?_eq_some_iff.1 hat).1
    have htext : (Focus.ofMatch e).text = actual := by simp [Focus.ofMatch, hactual]
    have hnumber : (Focus.ofMatch e).number = (i + 1 : Nat) := by
      simp [Focus.ofMatch, hactual, hline]
    obtain ⟨report, hreport, hlocates⟩ := exists_locates_formatIn? label hnumber (by omega)
      (by omega) hfeed (htext ▸ hfeed actual (List.mem_of_getElem? hat))
    rw [htext] at hlocates
    exact ⟨_, i + 1, report, rfl, hlinesRead, hreport, .inl ⟨actual, hactual, hline, hat, hlocates⟩⟩
  · have htext : (Focus.ofMatch e).text = [] := by simp [Focus.ofMatch, hactual]
    have hnumber : (Focus.ofMatch e).number = ((ls.map Text.bare).length + 1 : Nat) := by
      simp [Focus.ofMatch, hactual, hline]
    obtain ⟨report, hreport, hlocates⟩ := exists_locates_formatIn? label hnumber (by omega)
      (Nat.le_refl _) hfeed (htext ▸ List.not_mem_nil)
    rw [htext] at hlocates
    exact ⟨_, _, report, rfl, hlinesRead, hreport,
      .inr ⟨hactual, by rw [hline]; rfl, rfl, hlocates⟩⟩

/-- A file with three kinds of line ends and none at its end, which differs in its last line. -/
theorem locates_of_mismatch_last_line :
    let content := Text.Utf8.encode ['a', '\r', 'b', '\r', '\n', 'c', '\n', 'd']
    let w : Workspace := { tree.entries := [(["t"], .file content)] }
    let body : Body := [.literal "a" 1, .literal "b" 2, .literal "c" 3, .literal "x" 4]
    let e : MatchError := .differs 4 "x" "d" 0 4
    (Check.item (({} : Conventions).reading []) w body (Path.ofText "t")).result =
        .ok (some (.mismatch e)) ∧
      ∃ (lines : List Text) (number : Nat) (report : Text),
        lines = (Text.Feed.ofBytes content).lines.map Text.bare ∧
        w.readLines (Path.ofText "t") = .ok lines ∧
        formatIn? (.mismatch e) "t" lines = some report ∧
        ((∃ actual, e.actual = some actual ∧ e.line = number ∧ lines[number - 1]? = some actual ∧
            Locates report "t" lines number actual) ∨
          e.actual = none ∧ e.line + 1 = number ∧ number = lines.length + 1 ∧
            Locates report "t" lines number []) := by
  intro content w body e
  have hread : w.read (Path.ofText "t") = .ok content := by decide +kernel
  have he : (Check.item (({} : Conventions).reading []) w body (Path.ofText "t")).result =
      .ok (some (.mismatch e)) := by decide +kernel
  exact ⟨he, locates_of_mismatch hread (Text.Utf8.decode_encode _) he "t"⟩

end Report

end LineSpec
