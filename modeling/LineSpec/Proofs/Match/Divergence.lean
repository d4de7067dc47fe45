import LineSpec.Match.Run
import Mathlib.Order.Bounds.Basic
/-!
# Where two lines differ

The offset that a failed match reports is the length of the longest common beginning of the expected
line and the one that was found.
-/

namespace LineSpec

theorem take_commonPrefixLength (a b : Text) :
    a.take (commonPrefixLength a b) = b.take (commonPrefixLength a b) := by
  fun_induction commonPrefixLength a b with
  | case1 x as bs ih => rw [List.take_succ_cons, List.take_succ_cons, ih]
  | case2 x as y bs hne => rfl
  | case3 a b _ => rfl

theorem commonPrefixLength_le_left (a b : Text) : commonPrefixLength a b ≤ a.length := by
  fun_induction commonPrefixLength a b with
  | case1 x as bs ih => exact Nat.succ_le_succ ih
  | case2 x as y bs hne => exact Nat.zero_le _
  | case3 a b _ => exact Nat.zero_le _

theorem length_le_commonPrefixLength {p a b : Text} (ha : p <+: a) (hb : p <+: b) :
    p.length ≤ commonPrefixLength a b := by
  induction p generalizing a b with
  | nil => exact Nat.zero_le _
  | cons c p ih =>
    obtain ⟨as, rfl⟩ := ha
    obtain ⟨bs, rfl⟩ := hb
    rw [List.cons_append, List.cons_append, commonPrefixLength, if_pos rfl]
    exact Nat.succ_le_succ (ih ⟨as, rfl⟩ ⟨bs, rfl⟩)

/-- No common beginning of two texts is longer than `commonPrefixLength` says, and one has that
length. -/
theorem isGreatest_commonPrefixLength (a b : Text) :
    IsGreatest {d | ∃ p : Text, p.length = d ∧ p <+: a ∧ p <+: b} (commonPrefixLength a b) := by
  constructor
  · refine ⟨a.take (commonPrefixLength a b), ?_, List.take_prefix _ _, ?_⟩
    · rw [List.length_take, Nat.min_eq_left (commonPrefixLength_le_left a b)]
    · rw [take_commonPrefixLength]
      exact List.take_prefix _ _
  · rintro d ⟨p, rfl, ha, hb⟩
    exact length_le_commonPrefixLength ha hb

section
variable {a b : Text} {d : Nat}

/-- Of two different texts, one goes on behind the longest common beginning. -/
theorem lt_max_of_isGreatest (hne : a ≠ b)
    (h : IsGreatest {d | ∃ p : Text, p.length = d ∧ p <+: a ∧ p <+: b} d) :
    d < max a.length b.length := by
  obtain ⟨p, rfl, ha, hb⟩ := h.1
  have hla := ha.length_le
  have hlb := hb.length_le
  by_contra hle
  apply hne
  calc
    a = p := (ha.eq_of_length (by omega)).symm
    _ = b := hb.eq_of_length (by omega)

/-- The longest common beginning is the whole of a text exactly when the other one begins with
it. -/
theorem eq_length_iff_of_isGreatest
    (h : IsGreatest {d | ∃ p : Text, p.length = d ∧ p <+: a ∧ p <+: b} d) :
    d = b.length ↔ b <+: a := by
  obtain ⟨p, rfl, ha, hb⟩ := h.1
  constructor
  · intro heq
    rw [← hb.eq_of_length heq]
    exact ha
  · intro hprefix
    exact Nat.le_antisymm hb.length_le (h.2 ⟨b, rfl, hprefix, List.prefix_refl b⟩)

end

@[simp] theorem divergence?_self (a : Text) : divergence? a a = none := by
  simp [divergence?]

theorem divergence?_of_ne {a b : Text} (h : a ≠ b) :
    divergence? a b = some (commonPrefixLength a b) := by
  simp [divergence?, h]

end LineSpec
