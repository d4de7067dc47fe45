import LineSpec.Proofs.Match.Diagnosis
import LineSpec.Proofs.Report.Caret
import LineSpec.Proofs.Report.Context
import LineSpec.Proofs.Spec.Wording
/-!
# The layout of a report

A report is a table: below a row for the place, each row has a gutter of one width and a cell. What
a specification or a file holds does not break it. The cells fit their columns (`Focus.Fits`) since
errors are about lines, which hold no line feed, and quote all other text; the numbers in the gutter
fit since none has more digits than the last.
-/

namespace LineSpec

/-! ## Errors that are raised -/

/-- A problem that comes out of reading a specification, or out of matching a body to lines that
hold no line feed but at their end. -/
inductive Problem.Raised : Problem → Prop where
  | parse {c : Conventions} {source : Option Text} {t : Text} {e : ParseError}
    (failed : Document.parse c source t = .error e) : Raised (.parse e)
  | mismatch {ε : Type} {resolve : Text → Except ε Text} {strictEnd : Bool} {body : Body}
    {ls : List Text} {e : MatchError}
    (fed : ∀ l ∈ ls, ('\n' : CodePoint) ∉ l.dropLast)
    (failed : (Match.run resolve strictEnd body ls).verdict = .failed e) : Raised (.mismatch e)

theorem Text.lineFeed_not_mem_bare {l : Text} (h : ('\n' : CodePoint) ∉ l.dropLast) :
    ('\n' : CodePoint) ∉ bare l := by
  have hdrop : ('\n' : CodePoint) ∉ dropLast? l '\n' := by
    unfold dropLast?
    split
    · exact h
    next hlast =>
      intro hmem
      obtain ⟨l', c, rfl⟩ := (List.eq_nil_or_concat' l).resolve_left (List.ne_nil_of_mem hmem)
      rw [List.dropLast_concat] at h
      rw [List.getLast?_concat, Option.some.injEq] at hlast
      rcases List.mem_append.1 hmem with hmem | hmem
      · exact h hmem
      · exact hlast (List.mem_singleton.1 hmem).symm
  exact fun hmem => hdrop ((dropLast?_sublist _ _).subset hmem)

namespace Report

/-! ## Numbers in a gutter -/

/-- Nothing but spaces. -/
def blanks (n : Nat) : Text := List.replicate n (' ' : CodePoint)

theorem ofString_alignRight (width : Nat) (s : String) :
    Text.ofString (alignRight width s) = blanks (width - s.length) ++ Text.ofString s := by
  unfold alignRight blanks Text.ofString Text.ofChars
  rw [String.toList_append, String.toList_ofList, List.map_append, List.map_replicate]

theorem blankRow_eq (width : Nat) (content : Text) :
    blankRow width content = blanks width ++ " | " ++ content := by
  have hempty : Text.ofString "" = [] := rfl
  unfold blankRow
  rw [ofString_alignRight, String.length_empty, Nat.sub_zero, hempty, List.append_nil]

theorem numberedRow_natCast (width number : Nat) (line : Text) :
    numberedRow width number line =
      blanks (width - (toString number).length) ++ toString number ++ " | " ++ clip line := by
  unfold numberedRow
  rw [ofString_alignRight]
  rfl

theorem length_toString_mono {a b : Nat} (h : a ≤ b) :
    (toString a).length ≤ (toString b).length := by
  have hdigits : ∀ n : Nat, (toString n).length = (Nat.toDigits 10 n).length := by
    intro n
    rw [Nat.toString_eq_ofList_toDigits, String.length_ofList]
  have hpos : 0 < (Nat.toDigits 10 b).length := Nat.length_toDigits_pos
  rw [hdigits, hdigits, Nat.length_toDigits_le_iff (by decide) hpos]
  exact Nat.lt_of_le_of_lt h ((Nat.length_toDigits_le_iff (by decide) hpos).1 (Nat.le_refl _))

/-- The reported line goes on with the numbers of those above it. -/
theorem numbered_concat (number : Int) (context : List Text) (l : Text) :
    numbered (number + 1) (context ++ [l]) = numbered number context ++ [(number, l)] := by
  unfold numbered
  rw [List.zipIdx_append, List.map_append]
  congr 1
  · refine List.map_congr_left fun p _ => ?_
    rw [List.length_append, List.length_singleton]
    congr 1
    omega
  · rw [List.zipIdx_singleton, List.map_singleton, List.length_append, List.length_singleton]
    congr 2
    omega

/-! ## Rows -/

/-- The rows of a report of line `number` with `m` lines above it. -/
structure LaidOut (rows : List Text) (label : Text) (m number : Nat) : Prop where
  count : rows.length = m + 4
  place_row : rows[0]? = some ("in " ++ Text.quoted label)
  numbered_row : ∀ i ≤ m, ∃ (k : Nat) (shown : Text),
    rows[i + 1]? = some (blanks k ++ toString (number - m + i) ++ " | " ++ shown) ∧
    k + (toString (number - m + i)).length = (toString number).length ∧ shown.length ≤ 80
  caret_row : ∃ carets : Text,
    rows[m + 2]? = some (blanks (toString number).length ++ " | " ++ carets) ∧
    carets.length ≤ 81
  message_row : ∃ message : Text,
    rows[m + 3]? = some (blanks (toString number).length ++ " | " ++ message) ∧
    ('\n' : CodePoint) ∉ message

/-- A line with carets and a message that each fit into one row. -/
structure Focus.Fits (focus : Focus) : Prop where
  text : ('\n' : CodePoint) ∉ focus.text
  carets : '\n' ∉ focus.carets
  length_carets : focus.carets.length ≤ maxWidth + 1
  message : ('\n' : CodePoint) ∉ focus.message

section
variable {label : Text} {focus : Focus} {number : Nat} {context : List Text}

/-- The rows with the gutter and the separator of each; the numbered ones are of one kind. -/
theorem rows_eq_cons (hnumber : focus.number = number) :
    rows label context focus = ("in " ++ Text.quoted label) ::
      ((numbered (number + 1) (context ++ [focus.text])).map
          (fun p => numberedRow (toString number).length p.1 p.2) ++
        [blanks (toString number).length ++ " | " ++ Text.ofChars focus.carets,
          blanks (toString number).length ++ " | " ++ focus.message]) := by
  have hwidth : (toString (number : Int)).length = (toString number).length := rfl
  rw [rows_eq, hnumber, hwidth, numbered_concat, List.map_append, blankRow_eq, blankRow_eq]
  simp only [List.cons_append, List.append_assoc, List.map_cons, List.map_nil, List.nil_append]

theorem exists_numberedRow (hlength : context.length < number) {i : Nat} (hi : i ≤ context.length)
    (text : Text) :
    ∃ (k : Nat) (shown : Text),
      ((numbered (number + 1) (context ++ [text])).map
          (fun p => numberedRow (toString number).length p.1 p.2))[i]? =
        some (blanks k ++ toString (number - context.length + i) ++ " | " ++ shown) ∧
      k + (toString (number - context.length + i)).length = (toString number).length ∧
      shown.length ≤ 80 := by
  have hbound : i < (context ++ [text]).length := by
    rw [List.length_append, List.length_singleton]
    omega
  have hat : (number : Int) + 1 - (context ++ [text]).length + i =
      (number - context.length + i : Nat) := by
    rw [List.length_append, List.length_singleton]
    omega
  have hdigits : (toString (number - context.length + i)).length ≤ (toString number).length :=
    length_toString_mono (by omega)
  refine ⟨_, clip (context ++ [text])[i], ?_, Nat.sub_add_cancel hdigits, length_clip_le _⟩
  rw [List.getElem?_map, getElem?_numbered, List.getElem?_eq_getElem hbound, Option.map_some,
    Option.map_some, hat, numberedRow_natCast]

theorem laidOut_rows (hfits : focus.Fits) (hnumber : focus.number = number)
    (hlength : context.length < number) (label : Text) :
    LaidOut (rows label context focus) label context.length number := by
  rw [rows_eq_cons hnumber]
  have hcells : ((numbered (number + 1) (context ++ [focus.text])).map
      (fun p => numberedRow (toString number).length p.1 p.2)).length = context.length + 1 := by
    rw [List.length_map, length_numbered, List.length_append, List.length_singleton]
  constructor
  case count =>
    rw [List.length_cons, List.length_append, hcells]
    rfl
  case place_row => rw [List.getElem?_cons_zero]
  case numbered_row =>
    intro i hi
    rw [List.getElem?_cons_succ, List.getElem?_append_left (by omega)]
    exact exists_numberedRow hlength hi focus.text
  case caret_row =>
    refine ⟨Text.ofChars focus.carets, ?_, ?_⟩
    · rw [List.getElem?_cons_succ, List.getElem?_append_right (by omega), hcells, Nat.sub_self]
      rfl
    · rw [Text.ofChars, List.length_map]
      exact hfits.length_carets
  case message_row =>
    have hsecond : context.length + 2 - (context.length + 1) = 1 := by omega
    refine ⟨focus.message, ?_, hfits.message⟩
    rw [List.getElem?_cons_succ, List.getElem?_append_right (by omega), hcells, hsecond]
    rfl

end

/-! ## Errors -/

theorem fits_ofParse {c : Conventions} {source : Option Text} {t : Text} {e : ParseError}
    (h : Document.parse c source t = .error e) : (Focus.ofParse e).Fits := by
  obtain ⟨-, hline, hmessage, -⟩ := Document.error_of_parse h
  have htext := Text.lineFeed_not_mem_of_mem_lines hline
  constructor
  case text => exact htext
  case carets => exact lineFeed_not_mem_caretRow e.line 0 e.line.length
  case length_carets => exact length_caretRow_le (Nat.zero_le _) e.line.length
  case message => exact hmessage.lineFeed_not_mem htext

theorem fits_ofMatch {ε : Type} {resolve : Text → Except ε Text} {strictEnd : Bool} {body : Body}
    {ls : List Text} {e : MatchError} (hls : ∀ l ∈ ls, ('\n' : CodePoint) ∉ l.dropLast)
    (h : (Match.run resolve strictEnd body ls).verdict = .failed e) : (Focus.ofMatch e).Fits := by
  obtain ⟨d, hoffset, hle⟩ := Match.offset_of_failed h
  constructor
  case text =>
    show ('\n' : CodePoint) ∉ e.actual.getD []
    cases hactual : e.actual with
    | none => exact List.not_mem_nil
    | some actual =>
      obtain ⟨l, hl, rfl⟩ := List.mem_map.1 (Match.actual_mem_of_failed h hactual)
      exact Text.lineFeed_not_mem_bare (hls l hl)
  case carets => exact lineFeed_not_mem_caretRow _ _ _
  case length_carets =>
    show (caretRow (e.actual.getD []) e.offset _).length ≤ maxWidth + 1
    rw [hoffset]
    exact length_caretRow_le hle _
  case message => exact e.lineFeed_not_mem_message

theorem number_ofMatch {ε : Type} {resolve : Text → Except ε Text} {strictEnd : Bool} {body : Body}
    {ls : List Text} {e : MatchError}
    (h : (Match.run resolve strictEnd body ls).verdict = .failed e) :
    ∃ i : Nat, (Focus.ofMatch e).number = (i + 1 : Nat) := by
  unfold Focus.ofMatch
  rcases Match.place_of_failed h with ⟨i, actual, hactual, hline, -⟩ | ⟨hactual, hline⟩
  · exact ⟨i, by simp [hactual, hline]⟩
  · exact ⟨ls.length, by simp [hactual, hline]⟩

/-- The report of an error that reading or matching raised is laid out in rows, whatever the label
is, with the line numbers in a gutter, a message in one row, and all cells within the width. -/
theorem laidOut_of_raised {problem : Problem} (h : problem.Raised) :
    ∃ (focus : Focus) (number : Nat),
      Focus.of? problem = some focus ∧ focus.number = number ∧ 1 ≤ number ∧
      ∀ (label : Text) (context : List Text), (∀ l ∈ context, ('\n' : CodePoint) ∉ l) →
        context.length < number → ∃ report, format? problem label context = some report ∧
          LaidOut (Text.pieces report ('\n' : CodePoint)) label context.length number := by
  have hfocus : ∃ (focus : Focus) (i : Nat), Focus.of? problem = some focus ∧
      focus.number = (i + 1 : Nat) ∧ focus.Fits := by
    cases h with
    | parse failed =>
      obtain ⟨-, -, -, i, hnumber⟩ := Document.error_of_parse failed
      exact ⟨_, i, rfl, hnumber, fits_ofParse failed⟩
    | mismatch fed failed =>
      obtain ⟨i, hnumber⟩ := number_ofMatch failed
      exact ⟨_, i, rfl, hnumber, fits_ofMatch fed failed⟩
  obtain ⟨focus, i, hof, hnumber, hfits⟩ := hfocus
  refine ⟨focus, i + 1, hof, hnumber, Nat.succ_pos i, fun label context hcontext hlength => ?_⟩
  refine ⟨Text.join "\n" (rows label context focus), by rw [format?, hof]; rfl, ?_⟩
  rw [pieces_join_rows hcontext hfits.text hfits.carets hfits.message]
  exact laidOut_rows hfits hnumber hlength label

/-- An input of nine lines that lacks one, so that a number of two digits stands below others. -/
theorem laidOut_tenth_line :
    let ls : List Text := List.replicate 9 "a\n"
    let body : Body := [.skip 1, .literal "x" 2]
    let e : MatchError := .inputEnds 9 "x" 2
    (∀ l ∈ ls, ('\n' : CodePoint) ∉ l.dropLast) ∧
      (Match.run (Except.ok : Text → Except Empty Text) false body ls).verdict = .failed e ∧
      ∃ (focus : Focus) (number : Nat), Focus.of? (.mismatch e) = some focus ∧
        focus.number = number ∧ number = 10 ∧
        ∃ report, format? (.mismatch e) "f\n" ["p", "q"] = some report ∧
          LaidOut (Text.pieces report ('\n' : CodePoint)) "f\n" 2 number := by
  intro ls body e
  have hls : ∀ l ∈ ls, ('\n' : CodePoint) ∉ l.dropLast := by decide +kernel
  have hfailed : (Match.run (Except.ok : Text → Except Empty Text) false body ls).verdict =
      .failed e := by rfl
  obtain ⟨focus, number, hof, hnumber, -, hlaid⟩ := laidOut_of_raised (.mismatch hls hfailed)
  have hten : focus.number = 10 := by
    obtain rfl := Option.some.inj hof
    rfl
  obtain rfl : number = 10 := by omega
  exact ⟨hls, hfailed, focus, 10, hof, hnumber, rfl,
    hlaid "f\n" ["p", "q"] (by decide) (by decide)⟩

end Report

end LineSpec
