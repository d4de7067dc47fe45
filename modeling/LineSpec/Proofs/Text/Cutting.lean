import LineSpec.Text.Blank
import LineSpec.Text.Search
import Mathlib.Data.List.TakeWhile
/-!
# Trimming and cutting texts

What trimming takes off a text, and what the two parts are when a text is cut at the first of an
element. Trimming a part of a trimmed text is the same as trimming that part of the whole, so a text
may be cut before or after it is trimmed (`exists_splitAt?_of_trim`).
-/

namespace LineSpec.Text

/-! ## Trimming -/

theorem trimEnd_append_of_blank {t post : Text} (h : ∀ c ∈ post, isBlank c = true) :
    trimEnd (t ++ post) = trimEnd t := by
  rw [trimEnd, trimEnd, List.reverse_append, List.dropWhile_append_of_pos]
  intro c hc
  exact h c (List.mem_reverse.1 hc)

/-- White space at the ends of a text does not change what trimming leaves. -/
theorem trim_append_of_blank {pre t post : Text} (hpre : ∀ c ∈ pre, isBlank c = true)
    (hpost : ∀ c ∈ post, isBlank c = true) : trim (pre ++ t ++ post) = trim t := by
  rw [trim, trim, List.append_assoc, List.dropWhile_append_of_pos hpre, List.dropWhile_append]
  split
  · next hnil =>
    -- all of the text is white space
    rw [List.isEmpty_iff] at hnil
    rw [hnil, List.dropWhile_eq_nil_iff.2 hpost]
  · exact trimEnd_append_of_blank hpost

theorem exists_eq_trimEnd_append (t : Text) :
    ∃ post, t = trimEnd t ++ post ∧ ∀ c ∈ post, isBlank c = true := by
  refine ⟨(t.reverse.takeWhile isBlank).reverse, ?_, ?_⟩
  · rw [trimEnd, ← List.reverse_append, List.takeWhile_append_dropWhile, List.reverse_reverse]
  · intro c hc
    exact List.mem_takeWhile_imp (List.mem_reverse.1 hc)

/-- Trimming takes white space off both ends and nothing else. -/
theorem exists_eq_append_trim_append (t : Text) :
    ∃ pre post, t = pre ++ trim t ++ post ∧ (∀ c ∈ pre, isBlank c = true) ∧
      ∀ c ∈ post, isBlank c = true := by
  obtain ⟨post, hpost, hblank⟩ := exists_eq_trimEnd_append (t.dropWhile isBlank)
  refine ⟨t.takeWhile isBlank, post, ?_, fun c hc => List.mem_takeWhile_imp hc, hblank⟩
  rw [trim, List.append_assoc, ← hpost, List.takeWhile_append_dropWhile]

/-- What trimming leaves does not end with white space. -/
theorem isBlank_of_mem_getLast?_trim {t : Text} : ∀ c ∈ (trim t).getLast?, isBlank c = false := by
  intro c hc
  rw [trim, trimEnd, List.getLast?_reverse] at hc
  have hhead := List.head?_dropWhile_not isBlank (t.dropWhile isBlank).reverse
  rw [hc] at hhead
  simpa using hhead

/-! ## Cutting at the first of an element -/

section
variable {α : Type} [DecidableEq α]

theorem splitAt?_cons (c : α) (cs : List α) (sep : α) :
    splitAt? (c :: cs) sep =
      if c = sep then some ([], cs) else (splitAt? cs sep).map fun p => (c :: p.1, p.2) := by
  rw [splitAt?, splitFirst?]
  by_cases h : c = sep
  · simp [h]
  · simp [h, Ne.symm h, splitAt?]

theorem splitAt?_eq_some_iff {cs a b : List α} {sep : α} :
    splitAt? cs sep = some (a, b) ↔ cs = a ++ sep :: b ∧ sep ∉ a := by
  induction cs generalizing a with
  | nil => simp [splitAt?, splitFirst?]
  | cons c cs ih =>
    rw [splitAt?_cons]
    by_cases h : c = sep
    · subst h
      cases a with
      | nil => simp [eq_comm]
      | cons x a =>
        simp only [if_true, Option.some.injEq, Prod.mk.injEq, reduceCtorEq, false_and,
          List.cons_append, List.cons.injEq, List.mem_cons, not_or, false_iff]
        rintro ⟨⟨hx, -⟩, hne, -⟩
        exact hne hx
    · cases a with
      | nil => simp [h]
      | cons x a =>
        simp only [h, if_false, Option.map_eq_some_iff, Prod.mk.injEq, List.cons.injEq,
          Prod.exists, List.cons_append, List.mem_cons, not_or]
        constructor
        · rintro ⟨a', b', h', ⟨rfl, rfl⟩, rfl⟩
          obtain ⟨rfl, hmem⟩ := ih.1 h'
          exact ⟨⟨rfl, rfl⟩, Ne.symm h, hmem⟩
        · rintro ⟨⟨rfl, rfl⟩, -, hmem⟩
          exact ⟨a, b, ih.2 ⟨rfl, hmem⟩, ⟨rfl, rfl⟩, rfl⟩

/-! ## Cutting at every of an element -/

theorem pieces_ne_nil (cs : List α) (sep : α) : pieces cs sep ≠ [] := by
  cases cs with
  | nil => exact List.cons_ne_nil _ _
  | cons c cs =>
    rw [pieces]
    split
    · exact List.cons_ne_nil _ _
    · split <;> exact List.cons_ne_nil _ _

/-- Without a separator there is one piece. -/
theorem pieces_eq_singleton {cs : List α} {sep : α} (h : sep ∉ cs) : pieces cs sep = [cs] := by
  induction cs with
  | nil => rfl
  | cons c cs ih =>
    rw [List.mem_cons, not_or] at h
    rw [pieces, if_neg (Ne.symm h.1), ih h.2]

/-- A separator ends the piece before it. -/
theorem pieces_append_cons (a b : List α) (sep : α) :
    pieces (a ++ sep :: b) sep = pieces a sep ++ pieces b sep := by
  induction a with
  | nil => simp [pieces]
  | cons c a ih =>
    rw [List.cons_append, pieces, pieces, ih]
    split
    · rfl
    · obtain ⟨p, ps, hps⟩ := List.exists_cons_of_ne_nil (pieces_ne_nil a sep)
      rw [hps]
      rfl

theorem not_mem_of_mem_pieces {cs p : List α} {sep : α}
    (h : p ∈ pieces cs sep) : sep ∉ p := by
  induction cs generalizing p with
  | nil =>
    obtain rfl := List.mem_singleton.1 h
    exact List.not_mem_nil
  | cons c cs ih =>
    rw [pieces] at h
    split at h
    · rcases List.mem_cons.1 h with rfl | h
      · exact List.not_mem_nil
      · exact ih h
    · next hne =>
      obtain ⟨q, qs, hqs⟩ := List.exists_cons_of_ne_nil (pieces_ne_nil cs sep)
      rw [hqs] at h ih
      rcases List.mem_cons.1 h with rfl | h
      · rw [List.mem_cons, not_or]
        exact ⟨Ne.symm hne, ih List.mem_cons_self⟩
      · exact ih (List.mem_cons_of_mem _ h)

/-- What was joined can be cut again. -/
theorem pieces_intercalate {ts : List (List α)} {sep : α} (hne : ts ≠ [])
    (h : ∀ t ∈ ts, sep ∉ t) : pieces ([sep].intercalate ts) sep = ts := by
  induction ts with
  | nil => exact absurd rfl hne
  | cons t ts ih =>
    rw [List.forall_mem_cons] at h
    cases ts with
    | nil => rw [List.intercalate_singleton, pieces_eq_singleton h.1]
    | cons t' ts =>
      rw [List.intercalate_cons_cons, List.append_assoc, List.singleton_append, pieces_append_cons,
        pieces_eq_singleton h.1, ih (List.cons_ne_nil _ _) h.2, List.singleton_append]

end

/-! ## Cutting a trimmed text -/

/-- A cut of a trimmed text is one of the text itself, with parts that trim to the same. -/
theorem exists_splitAt?_of_trim {t a b : Text} {sep : CodePoint} (hsep : isBlank sep = false)
    (h : splitAt? (trim t) sep = some (a, b)) :
    ∃ a' b', t = a' ++ sep :: b' ∧ sep ∉ a' ∧ trim a' = trim a ∧ trim b' = trim b := by
  obtain ⟨ht, hmem⟩ := splitAt?_eq_some_iff.1 h
  obtain ⟨pre, post, hcut, hpre, hpost⟩ := exists_eq_append_trim_append t
  refine ⟨pre ++ a, b ++ post, ?_, ?_, ?_, ?_⟩
  · rw [hcut, ht]
    simp
  · rw [List.mem_append, not_or]
    refine ⟨fun hin => ?_, hmem⟩
    rw [hpre sep hin] at hsep
    exact absurd hsep (by decide)
  · have := @trim_append_of_blank pre a [] hpre (by simp)
    rwa [List.append_nil] at this
  · exact @trim_append_of_blank [] b post (by simp) hpost

end LineSpec.Text
