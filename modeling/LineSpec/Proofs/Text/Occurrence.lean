import LineSpec.Text.Search
import Mathlib.Data.List.Infix
/-!
# The first occurrence of a text

`FirstCut` says what a search finds without saying how it is found: a text is cut around another
one, and the other does not occur further left. There is at most one such cut
(`FirstCut.unique`), a search finds it (`splitFirst?_eq_some_iff`), and it finds none exactly when
there is no occurrence at all (`splitFirst?_eq_none_iff`).
-/

namespace LineSpec.Text

variable {α : Type}

/-- `FirstCut pat cs a b` says that `cs` is `a`, `pat` and `b` in a row, and that `pat` occurs in
`cs` nowhere further left than behind `a`. -/
structure FirstCut (pat cs a b : List α) : Prop where
  eq_append : cs = a ++ pat ++ b
  length_le : ∀ a' b', cs = a' ++ pat ++ b' → a.length ≤ a'.length

/-- The first occurrence of a text is at one place. -/
theorem FirstCut.unique {pat cs a b a' b' : List α} (h : FirstCut pat cs a b)
    (h' : FirstCut pat cs a' b') : a = a' ∧ b = b' := by
  have hlen : a.length = a'.length :=
    Nat.le_antisymm (h.length_le a' b' h'.eq_append) (h'.length_le a b h.eq_append)
  have heq : a ++ (pat ++ b) = a' ++ (pat ++ b') := by
    rw [← List.append_assoc, ← List.append_assoc, ← h.eq_append, h'.eq_append]
  obtain ⟨ha, hb⟩ := List.append_inj heq hlen
  exact ⟨ha, List.append_cancel_left hb⟩

theorem FirstCut.infix {pat cs a b : List α} (h : FirstCut pat cs a b) : pat <:+: cs :=
  ⟨a, b, h.eq_append.symm⟩

theorem FirstCut.length_eq {pat cs a b : List α} (h : FirstCut pat cs a b) :
    cs.length = a.length + pat.length + b.length := by
  rw [h.eq_append, List.length_append, List.length_append]

section
variable [DecidableEq α]

/-- No occurrence is further left than the one that a search finds. -/
theorem length_le_of_splitFirst?_eq_some {pat cs a b : List α}
    (h : splitFirst? pat cs = some (a, b)) (a' b' : List α) (h' : cs = a' ++ pat ++ b') :
    a.length ≤ a'.length := by
  induction cs generalizing a a' with
  | nil =>
    have hab := eq_of_splitFirst? h
    rw [eq_comm, List.append_eq_nil_iff, List.append_eq_nil_iff] at hab
    rw [hab.1.1]
    exact Nat.zero_le _
  | cons c cs ih =>
    rw [splitFirst?] at h
    split at h
    · obtain ⟨rfl, -⟩ := Prod.mk.inj (Option.some.inj h)
      exact Nat.zero_le _
    · next hp =>
      obtain ⟨⟨a₀, b₀⟩, h₀, hab⟩ := Option.map_eq_some_iff.1 h
      obtain ⟨rfl, rfl⟩ := Prod.mk.inj hab
      cases a' with
      | nil =>
        -- then `pat` would stand at the front, where it was looked for
        refine absurd (List.isPrefixOf_iff_prefix.2 ⟨b', ?_⟩) hp
        exact h'.symm
      | cons d a' =>
        have htail : cs = a' ++ pat ++ b' := (List.cons.inj h').2
        exact Nat.succ_le_succ (ih h₀ a' htail)

/-- A search finds nothing exactly when there is no occurrence. -/
theorem splitFirst?_eq_none_iff {pat cs : List α} :
    splitFirst? pat cs = none ↔ ¬pat <:+: cs := by
  induction cs with
  | nil => cases pat <;> simp [splitFirst?]
  | cons c cs ih =>
    rw [splitFirst?, List.infix_cons_iff, not_or]
    split
    · next hp => simp [List.isPrefixOf_iff_prefix.1 hp]
    · next hp =>
      rw [Option.map_eq_none_iff, ih, ← List.isPrefixOf_iff_prefix]
      exact (and_iff_right hp).symm

/-- A search finds the first occurrence. -/
theorem splitFirst?_eq_some_iff {pat cs a b : List α} :
    splitFirst? pat cs = some (a, b) ↔ FirstCut pat cs a b := by
  constructor
  · intro h
    exact ⟨eq_of_splitFirst? h, length_le_of_splitFirst?_eq_some h⟩
  · intro h
    cases hfound : splitFirst? pat cs with
    | none => exact absurd h.infix (splitFirst?_eq_none_iff.1 hfound)
    | some p =>
      obtain ⟨a', b'⟩ := p
      obtain ⟨rfl, rfl⟩ :=
        h.unique ⟨eq_of_splitFirst? hfound, length_le_of_splitFirst?_eq_some hfound⟩
      rfl

end

end LineSpec.Text
