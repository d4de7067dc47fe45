import LineSpec.Tree.Path
import Mathlib.Data.List.Lex
import Mathlib.Order.Fin.Basic
/-!
# The order of paths

Paths are compared by their parts alone, in the lexicographic order of texts. That is a linear order
of the parts, so paths that begin at the same place come in one order only.
-/

namespace LineSpec

/-- No member is left twice. -/
theorem nodup_eraseDups {α : Type} [BEq α] [LawfulBEq α] (l : List α) : l.eraseDups.Nodup := by
  -- each step goes on with a filtered rest, so the induction is on the length
  induction hn : l.length using Nat.strong_induction_on generalizing l with
  | _ n ih =>
    cases l with
    | nil => exact List.nodup_nil
    | cons a l =>
      rw [List.eraseDups_cons, List.nodup_cons, List.mem_eraseDups]
      refine ⟨by simp, ih _ ?_ _ rfl⟩
      rw [← hn]
      exact Nat.lt_succ_of_le (List.length_filter_le _ _)

namespace Path

theorem le_iff {p q : Path} : p.le q = true ↔ p.parts ≤ q.parts := by
  have hpoints : ∀ t u : Text, (t.lex u fun c d => decide (c.val < d.val)) = true ↔ t < u := by
    intro t u
    rw [List.lex_eq_true_iff_lex]
    simp only [decide_eq_true_eq]
    rfl
  have hparts : (q.parts.lex p.parts fun t u => t.lex u fun c d => decide (c.val < d.val)) = true ↔
      q.parts < p.parts := by
    rw [List.lex_eq_true_iff_lex]
    simp only [hpoints]
    rfl
  rw [le, Bool.not_eq_true', ← Bool.not_eq_true, hparts]
  exact not_lt

/-- Sorting puts paths in order. -/
theorem pairwise_mergeSort_le (ps : List Path) :
    (ps.mergeSort le).Pairwise fun p q => p.parts ≤ q.parts := by
  have hsorted : (ps.mergeSort le).Pairwise fun p q => p.le q = true := by
    apply List.pairwise_mergeSort
    · intro p q r hpq hqr
      rw [le_iff] at hpq hqr ⊢
      exact hpq.trans hqr
    · intro p q
      rw [Bool.or_eq_true, le_iff, le_iff]
      exact le_total p.parts q.parts
  exact hsorted.imp le_iff.1

/-- Sorting paths that begin at the same place, each of them once, puts them in strict order. -/
theorem pairwise_mergeSort_lt {ps : List Path} (hnodup : ps.Nodup) {root : Root}
    (hroot : ∀ p ∈ ps, p.root = root) :
    (ps.mergeSort le).Pairwise fun p q => p.parts < q.parts := by
  have hperm := List.mergeSort_perm ps le
  have hdistinct : (ps.mergeSort le).Pairwise (· ≠ ·) := hperm.nodup_iff.2 hnodup
  refine ((pairwise_mergeSort_le ps).and hdistinct).imp_of_mem ?_
  rintro p q hp hq ⟨hle, hne⟩
  refine lt_of_le_of_ne hle fun hparts => hne ?_
  have hroots : p.root = q.root :=
    (hroot p (hperm.mem_iff.1 hp)).trans (hroot q (hperm.mem_iff.1 hq)).symm
  rw [show p = ⟨p.root, p.parts⟩ from rfl, hroots, hparts]

end Path

end LineSpec
