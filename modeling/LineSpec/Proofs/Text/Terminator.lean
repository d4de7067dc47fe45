import LineSpec.Text.Lines
import Mathlib.Data.List.Basic
/-!
# Lines with their terminators

A text that is written with a line feed after it is read back as a line exactly when it holds no
line feed itself and does not end with a carriage return (`exists_cut_append`).
-/

namespace LineSpec.Text

/-- A text that can be a line: no part of it is taken for the terminator of a line. -/
structure IsLine (l : Text) : Prop where
  noLineFeed : ('\n' : CodePoint) ∉ l
  noReturnAtEnd : l.getLast? ≠ some ('\r' : CodePoint)

instance (l : Text) : Decidable (IsLine l) :=
  decidable_of_iff (('\n' : CodePoint) ∉ l ∧ l.getLast? ≠ some ('\r' : CodePoint))
    ⟨fun h => ⟨h.1, h.2⟩, fun h => ⟨h.noLineFeed, h.noReturnAtEnd⟩⟩

theorem dropLast?_eq_self_iff {α : Type} [DecidableEq α] {cs : List α} {c : α} :
    dropLast? cs c = cs ↔ cs.getLast? ≠ some c := by
  rw [dropLast?]
  split
  · next h =>
    have hne : cs ≠ [] := by
      rintro rfl
      cases h
    have hlen := List.length_pos_iff.2 hne
    refine ⟨fun heq => absurd (congrArg List.length heq) ?_, fun hn => absurd h hn⟩
    rw [List.length_dropLast]
    omega
  · next h => exact ⟨fun _ => h, fun _ => rfl⟩

theorem dropLast?_sublist {α : Type} [DecidableEq α] (cs : List α) (c : α) :
    (dropLast? cs c).Sublist cs := by
  rw [dropLast?]
  split
  · exact List.dropLast_sublist cs
  · exact List.Sublist.refl cs

theorem bare_append_lineFeed (l : Text) : bare (l ++ [('\n' : CodePoint)]) = dropLast? l '\r' := by
  have hfeed : dropLast? (l ++ [('\n' : CodePoint)]) '\n' = l := by
    rw [dropLast?, List.getLast?_concat, if_pos rfl, List.dropLast_concat]
  rw [bare, hfeed]

/-- The first chunk of a text ends with the first line feed. -/
theorem cut_append {l : Text} (h : ('\n' : CodePoint) ∉ l) (t : Text) :
    cut (l ++ ('\n' : CodePoint) :: t) = (l ++ [('\n' : CodePoint)]) :: cut t := by
  induction l with
  | nil => rw [List.nil_append, cut, if_pos rfl, List.nil_append]
  | cons c l ih =>
    rw [List.mem_cons, not_or] at h
    rw [List.cons_append, cut, if_neg (Ne.symm h.1), ih h.2]
    rfl

/-- What the first chunk says of a text that was written with a line feed after it. -/
theorem exists_cut_append (l t : Text) :
    ∃ chunk rest, cut (l ++ ('\n' : CodePoint) :: t) = chunk :: rest ∧
      (bare chunk = l ↔ IsLine l) ∧ (IsLine l → rest = cut t) := by
  by_cases hmem : ('\n' : CodePoint) ∈ l
  · -- the chunk ends within `l`, so its line has no line feed
    obtain ⟨a, b, rfl, ha⟩ := List.eq_append_cons_of_mem hmem
    refine ⟨_, _, by rw [List.append_assoc, List.cons_append, cut_append ha], ?_, ?_⟩
    · rw [bare_append_lineFeed]
      refine ⟨fun heq => absurd ((dropLast?_sublist a _).subset (heq ▸ hmem)) ha, fun h => ?_⟩
      exact absurd hmem h.noLineFeed
    · exact fun h => absurd hmem h.noLineFeed
  · refine ⟨_, _, cut_append hmem t, ?_, fun _ => rfl⟩
    rw [bare_append_lineFeed, dropLast?_eq_self_iff]
    exact ⟨fun h => ⟨hmem, h⟩, fun h => h.noReturnAtEnd⟩

end LineSpec.Text
