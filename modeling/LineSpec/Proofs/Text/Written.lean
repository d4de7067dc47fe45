import LineSpec.Proofs.Text.Cutting
import LineSpec.Proofs.Text.Terminator
/-!
# Lines of a text that was written line by line

The lines of two texts in a row are the lines of the one and then those of the other, when the first
text ends where a line ends (`lines_append`). Cutting a text into chunks and reading a line off each
leads to the same lines (`lines_eq_map_bare_cut`). So lines that were written one after the other,
each with an end of its own, are read back as they were written (`lines_written`), as long as no
part of a line is taken for its end; the last line needs no end (`lines_read_back`).
-/

namespace LineSpec.Text

/-! ## Texts in a row -/

@[simp] theorem lines_nil : lines [] = [] := rfl

/-- A line feed ends a line: what stands before it is cut on its own. -/
theorem lines_append_lineFeed (a b : Text) :
    lines (a ++ ('\n' : CodePoint) :: b) =
      (pieces a ('\n' : CodePoint)).map (dropLast? · ('\r' : CodePoint)) ++ lines b := by
  have hne := pieces_ne_nil b ('\n' : CodePoint)
  simp only [lines, pieces_append_cons, List.getLast?_append_of_ne_nil _ hne]
  split
  · rw [List.dropLast_append_of_ne_nil hne, List.map_append]
  · rw [List.map_append]

/-- The lines of two texts in a row, where the first ends with the end of a line. -/
theorem lines_append {a : Text} (ha : a = [] ∨ a.getLast? = some ('\n' : CodePoint)) (b : Text) :
    lines (a ++ b) = lines a ++ lines b := by
  rcases ha with rfl | ha
  · rfl
  · obtain ⟨a', rfl⟩ := List.getLast?_eq_some_iff.1 ha
    rw [List.append_assoc, List.singleton_append, lines_append_lineFeed, lines_append_lineFeed,
      lines_nil, List.append_nil]

/-! ## Both ways to the lines of a text -/

theorem cut_of_not_mem {t : Text} (h : ('\n' : CodePoint) ∉ t) (hne : t ≠ []) : cut t = [t] := by
  induction t with
  | nil => exact absurd rfl hne
  | cons c t ih =>
    rw [List.mem_cons, not_or] at h
    rw [cut, if_neg (Ne.symm h.1)]
    cases t with
    | nil => rfl
    | cons d t => rw [ih h.2 (List.cons_ne_nil _ _)]

theorem bare_of_not_mem {t : Text} (h : ('\n' : CodePoint) ∉ t) : bare t = dropLast? t '\r' := by
  rw [bare, dropLast?_eq_self_iff.2 fun hlast => h (List.mem_of_getLast? hlast)]

/-- The two ways to the lines of a text lead to the same lines. -/
theorem lines_eq_map_bare_cut (t : Text) : lines t = (cut t).map bare := by
  induction hn : t.length using Nat.strongRecOn generalizing t with
  | ind n ih =>
    by_cases hmem : ('\n' : CodePoint) ∈ t
    · obtain ⟨a, b, rfl, ha⟩ := List.eq_append_cons_of_mem hmem
      have hlt : b.length < n := by
        rw [← hn, List.length_append, List.length_cons]
        omega
      rw [lines_append_lineFeed, pieces_eq_singleton ha, ih _ hlt b rfl, cut_append ha,
        List.map_singleton, List.map_cons, bare_append_lineFeed, List.singleton_append]
    · by_cases hne : t = []
      · subst hne
        rfl
      · rw [cut_of_not_mem hmem hne, List.map_singleton, bare_of_not_mem hmem]
        simp only [lines, pieces_eq_singleton hmem, List.getLast?_singleton, Option.some.injEq,
          if_neg hne, List.map_singleton]

/-! ## Lines with their ends -/

/-- A line can be written with this end: it holds no line feed, and no part of it is taken for a
part of the end. -/
structure LineEnd.Ends (e : LineEnd) (l : Text) : Prop where
  noLineFeed : ('\n' : CodePoint) ∉ l
  noReturnAtEnd : e = .feed → l.getLast? ≠ some ('\r' : CodePoint)

instance (e : LineEnd) (l : Text) : Decidable (e.Ends l) :=
  decidable_of_iff (l.contains ('\n' : CodePoint) = false ∧
      (e ≠ .feed ∨ l.getLast? ≠ some ('\r' : CodePoint))) <| by
    rw [← Bool.not_eq_true, List.contains_iff_mem]
    exact ⟨fun h => ⟨h.1, h.2.neg_resolve_left⟩,
      fun h => ⟨h.noLineFeed, or_iff_not_imp_left.2 fun he => h.noReturnAtEnd (not_not.1 he)⟩⟩

theorem LineEnd.Ends.of_isLine {l : Text} (h : l.IsLine) (e : LineEnd) : e.Ends l :=
  ⟨h.noLineFeed, fun _ => h.noReturnAtEnd⟩

/-- Reading takes one line off what was written, without its end. -/
theorem lines_append_end {e : LineEnd} {l : Text} (h : e.Ends l) (t : Text) :
    lines (l ++ e.text ++ t) = l :: lines t := by
  cases e with
  | feed =>
    change lines (l ++ [('\n' : CodePoint)] ++ t) = _
    rw [List.append_assoc, List.singleton_append, lines_append_lineFeed,
      pieces_eq_singleton h.noLineFeed, List.map_singleton,
      dropLast?_eq_self_iff.2 (h.noReturnAtEnd rfl)]
    rfl
  | returnFeed =>
    have hfeed : ('\n' : CodePoint) ∉ l ++ [('\r' : CodePoint)] := by
      simpa using ⟨h.noLineFeed, by decide⟩
    change lines (l ++ ([('\r' : CodePoint)] ++ [('\n' : CodePoint)]) ++ t) = _
    rw [← List.append_assoc, List.append_assoc, List.singleton_append, lines_append_lineFeed,
      pieces_eq_singleton hfeed, List.map_singleton, dropLast?, List.getLast?_concat, if_pos rfl,
      List.dropLast_concat]
    rfl

/-- Lines that were written with their ends are read back, and then what follows them. -/
theorem lines_written_append {ls : List (Text × LineEnd)} (h : ∀ l ∈ ls, l.2.Ends l.1) (t : Text) :
    lines (written ls ++ t) = ls.map Prod.fst ++ lines t := by
  induction ls with
  | nil => rfl
  | cons l ls ih =>
    rw [List.forall_mem_cons] at h
    rw [written, List.flatMap_cons, List.append_assoc, lines_append_end h.1, ← written, ih h.2,
      List.map_cons, List.cons_append]

/-- Lines that were written with their ends are read back. -/
theorem lines_written {ls : List (Text × LineEnd)} (h : ∀ l ∈ ls, l.2.Ends l.1) :
    lines (written ls) = ls.map Prod.fst := by
  have happend := lines_written_append h []
  rwa [List.append_nil, lines_nil, List.append_nil] at happend

/-- A line that is not empty needs no end where nothing follows it. -/
theorem lines_of_isLine {l : Text} (h : l.IsLine) (hne : l ≠ []) : lines l = [l] := by
  rw [lines_eq_map_bare_cut, cut_of_not_mem h.noLineFeed hne, List.map_singleton,
    bare_of_not_mem h.noLineFeed, dropLast?_eq_self_iff.2 h.noReturnAtEnd]

/-- Cutting a whole text and reading line by line lead to the same lines of every text. Both take
back what was written line by line, each line with an end that no part of it is taken for, where the
last line may also stand without an end. -/
theorem lines_read_back :
    (∀ t, lines t = (cut t).map bare) ∧
    ∀ ls : List (Text × LineEnd), (∀ l ∈ ls, l.2.Ends l.1) →
      (lines (written ls) = ls.map Prod.fst ∧ (cut (written ls)).map bare = ls.map Prod.fst) ∧
      ∀ last : Text, last ≠ [] → last.IsLine →
        lines (written ls ++ last) = ls.map Prod.fst ++ [last] ∧
          (cut (written ls ++ last)).map bare = ls.map Prod.fst ++ [last] := by
  refine ⟨lines_eq_map_bare_cut, fun ls h => ⟨⟨lines_written h, ?_⟩, fun last hne hlast => ?_⟩⟩
  · rw [← lines_eq_map_bare_cut, lines_written h]
  · have hlines : lines (written ls ++ last) = ls.map Prod.fst ++ [last] := by
      rw [lines_written_append h, lines_of_isLine hlast hne]
    exact ⟨hlines, by rw [← lines_eq_map_bare_cut, hlines]⟩

/-- An empty line, a line that ends in a carriage return, and a last one without an end that holds a
carriage return. -/
theorem lines_read_back_returns :
    (∀ l ∈ [(("a", .feed) : Text × LineEnd), ("", .returnFeed), ("b\r", .returnFeed), ("", .feed)],
      l.2.Ends l.1) ∧
    lines "a\n\r\nb\r\r\n\nc\rd" = ["a", "", "b\r", "", "c\rd"] ∧
    (cut "a\n\r\nb\r\r\n\nc\rd").map bare = ["a", "", "b\r", "", "c\rd"] := by
  have hends : ∀ l ∈ [(("a", .feed) : Text × LineEnd), ("", .returnFeed), ("b\r", .returnFeed),
      ("", .feed)], l.2.Ends l.1 := by
    decide
  obtain ⟨hlines, hcut⟩ := (lines_read_back.2 _ hends).2 "c\rd" (by decide) (by decide)
  exact ⟨hends, hlines, hcut⟩

end LineSpec.Text
