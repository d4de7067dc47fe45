import LineSpec.Proofs.Text.Cutting
import LineSpec.Proofs.Text.Surrogate
import LineSpec.Proofs.Text.Written
import LineSpec.Text.Feed
/-!
# Fragments of a text

What is cut out of a text holds no code point that the text does not hold: its lines, its pieces,
what trimming leaves, and the two sides of a cut. So fragments of a plain text are plain, and the
lines that a reader gets from a file are plain whatever its octets are.
-/

namespace LineSpec.Text

variable {t l : Text}

theorem trim_subset (t : Text) : trim t ⊆ t := by
  obtain ⟨pre, post, heq, -⟩ := exists_eq_append_trim_append t
  intro c hc
  rw [heq]
  exact List.mem_append_left _ (List.mem_append_right _ hc)

section
variable {α : Type} [DecidableEq α] {pat cs a b p : List α} {sep : α}

theorem subset_of_splitFirst? (h : splitFirst? pat cs = some (a, b)) : a ⊆ cs ∧ b ⊆ cs := by
  rw [eq_of_splitFirst? h]
  exact ⟨fun c hc => List.mem_append_left _ (List.mem_append_left _ hc),
    fun c hc => List.mem_append_right _ hc⟩

theorem subset_of_mem_pieces (h : p ∈ pieces cs sep) : p ⊆ cs := by
  induction cs generalizing p with
  | nil =>
    obtain rfl := List.mem_singleton.1 h
    exact List.Subset.refl _
  | cons c cs ih =>
    rw [pieces] at h
    split at h
    · rcases List.mem_cons.1 h with rfl | h
      · exact List.nil_subset _
      · exact List.subset_cons_of_subset _ (ih h)
    · obtain ⟨q, qs, hqs⟩ := List.exists_cons_of_ne_nil (pieces_ne_nil cs sep)
      rw [hqs] at h ih
      rcases List.mem_cons.1 h with rfl | h
      · exact List.cons_subset_cons _ (ih List.mem_cons_self)
      · exact List.subset_cons_of_subset _ (ih (List.mem_cons_of_mem _ h))

end

/-! ## Lines -/

theorem bare_subset (t : Text) : bare t ⊆ t :=
  ((dropLast?_sublist _ _).trans (dropLast?_sublist _ _)).subset

theorem subset_of_mem_cut (h : l ∈ cut t) : l ⊆ t := by
  intro c hc
  rw [← flatten_cut t]
  exact List.mem_flatten_of_mem h hc

theorem subset_of_mem_lines (h : l ∈ lines t) : l ⊆ t := by
  rw [lines_eq_map_bare_cut] at h
  obtain ⟨chunk, hchunk, rfl⟩ := List.mem_map.1 h
  exact List.Subset.trans (bare_subset chunk) (subset_of_mem_cut hchunk)

/-- The lines of a text hold no line feed. -/
theorem lineFeed_not_mem_of_mem_lines (h : l ∈ lines t) : ('\n' : CodePoint) ∉ l := by
  obtain ⟨p, hp, rfl⟩ := List.mem_map.1 h
  have hpiece : p ∈ pieces t ('\n' : CodePoint) := by
    split at hp
    · exact (List.dropLast_sublist _).subset hp
    · exact hp
  exact fun hmem => not_mem_of_mem_pieces hpiece ((dropLast?_sublist _ _).subset hmem)

/-- What a reader gets from a file is plain, also where a fault in the octets follows. -/
theorem plain_of_mem_lines_ofBytes {bs : List UInt8} (h : l ∈ (Feed.ofBytes bs).lines) :
    l.Plain := by
  rw [Feed.ofBytes] at h
  split at h
  · exact (plain_ofChars _).of_subset (subset_of_mem_cut h)
  · exact (plain_ofChars _).of_subset (subset_of_mem_cut (List.mem_of_mem_filter h))

end LineSpec.Text
