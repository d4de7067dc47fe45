/-!
# Searching a text

The first occurrence of one text in another, as the part before it and the part after it. Positions
never appear: what was found is said by an equation between lists (`eq_of_splitFirst?`), and that it
is the first by recursion on the text before it. Texts are lists here, of characters or of code
points.
-/

namespace LineSpec.Text

variable {α : Type} [DecidableEq α]

/-- `splitFirst? pat cs` cuts `cs` at the first occurrence of `pat`: the part before it and the part
after it, or `none` when `pat` does not occur. -/
def splitFirst? (pat : List α) : List α → Option (List α × List α)
  | [] => if pat.isEmpty then some ([], []) else none
  | c :: cs =>
    if pat.isPrefixOf (c :: cs) then some ([], (c :: cs).drop pat.length)
    else (splitFirst? pat cs).map fun p => (c :: p.1, p.2)

theorem eq_of_splitFirst? {pat cs a b : List α} (h : splitFirst? pat cs = some (a, b)) :
    cs = a ++ pat ++ b := by
  induction cs generalizing a with
  | nil => cases pat <;> simp_all [splitFirst?]
  | cons c cs ih =>
    rw [splitFirst?] at h
    split at h
    · next hp =>
      obtain ⟨t, ht⟩ := List.isPrefixOf_iff_prefix.1 hp
      simp only [Option.some.injEq, Prod.mk.injEq] at h
      obtain ⟨rfl, rfl⟩ := h
      rw [← ht]
      simp
    · obtain ⟨⟨a', b'⟩, h', hab⟩ := Option.map_eq_some_iff.1 h
      simp only [Prod.mk.injEq] at hab
      obtain ⟨rfl, rfl⟩ := hab
      simp [ih h']

/-- What follows an occurrence of a text that is not empty is shorter than the whole. -/
theorem length_lt_of_splitFirst? {pat cs a b : List α} (hpat : pat ≠ [])
    (h : splitFirst? pat cs = some (a, b)) : b.length < cs.length := by
  have := List.length_pos_iff.2 hpat
  rw [eq_of_splitFirst? h]
  simp only [List.length_append]
  omega

theorem length_le_of_splitFirst? {pat cs a b : List α} (h : splitFirst? pat cs = some (a, b)) :
    b.length ≤ cs.length := by
  rw [eq_of_splitFirst? h]
  simp only [List.length_append]
  omega

/-- `pieces cs sep` are the texts between the elements `sep` of `cs`, always at least one. -/
def pieces (cs : List α) (sep : α) : List (List α) :=
  match cs with
  | [] => [[]]
  | c :: cs =>
    if c = sep then [] :: pieces cs sep
    else match pieces cs sep with
      | [] => [[c]]
      | l :: ls => (c :: l) :: ls

/-- `splitAt? cs sep` cuts `cs` at the first `sep`, which belongs to neither part. -/
def splitAt? (cs : List α) (sep : α) : Option (List α × List α) := splitFirst? [sep] cs

/-- `dropLast? cs c` is `cs` without its last element, if that is `c`. -/
def dropLast? (cs : List α) (c : α) : List α :=
  if cs.getLast? = some c then cs.dropLast else cs

end LineSpec.Text
