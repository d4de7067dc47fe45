import LineSpec.Spec.Parser
import Mathlib.Data.List.Chain
/-!
# Parts of the lines of a text

Where the parts of a list begin that is cut between certain neighbours, and the tokens of a run of
lines. Tokens are numbered from where their run begins, so that a part of the tokens is again the
tokens of a part of the lines (`eq_ofLinesFrom_of_flatten`).
-/

namespace LineSpec

/-! ## Parts of a list -/

namespace Parts

variable {α : Type}

/-- How many elements stand before the part with index `j`. -/
def offset (parts : List (List α)) (j : Nat) : Nat := (parts.take j).flatten.length

@[simp] theorem offset_zero (parts : List (List α)) : offset parts 0 = 0 := rfl

@[simp] theorem offset_cons_succ (p : List α) (ps : List (List α)) (j : Nat) :
    offset (p :: ps) (j + 1) = p.length + offset ps j := by
  simp [offset]

theorem offset_map {β : Type} (f : α → β) (parts : List (List α)) (j : Nat) :
    offset (parts.map (List.map f)) j = offset parts j := by
  rw [offset, offset, ← List.map_take, ← List.map_flatten, List.length_map]

/-- An element of a part stands behind the parts before it. -/
theorem getElem?_flatten {parts : List (List α)} {j k : Nat} {part : List α} {a : α}
    (hj : parts[j]? = some part) (hk : part[k]? = some a) :
    parts.flatten[offset parts j + k]? = some a := by
  induction parts generalizing j with
  | nil => simp at hj
  | cons p ps ih =>
    cases j with
    | zero =>
      obtain rfl := Option.some.inj hj
      have hlt : k < p.length := (List.getElem?_eq_some_iff.1 hk).1
      rw [offset_zero, Nat.zero_add, List.flatten_cons, List.getElem?_append_left hlt, hk]
    | succ j =>
      rw [offset_cons_succ, List.flatten_cons, Nat.add_assoc,
        List.getElem?_append_right (Nat.le_add_right _ _), Nat.add_sub_cancel_left]
      exact ih hj

theorem offset_succ {parts : List (List α)} {j : Nat} {part : List α}
    (hj : parts[j]? = some part) : offset parts (j + 1) = offset parts j + part.length := by
  rw [offset, List.take_add_one, hj, Option.toList_some, List.flatten_append, List.length_append,
    List.flatten_singleton, offset]

/-- What is left of a list without its first elements of a kind. -/
theorem getElem?_dropWhile (p : α → Bool) (l : List α) (k : Nat) :
    (l.dropWhile p)[k]? = l[(l.takeWhile p).length + k]? := by
  conv_rhs => rw [← List.takeWhile_append_dropWhile (p := p) (l := l)]
  rw [List.getElem?_append_right (by simp), List.takeWhile_append_dropWhile,
    Nat.add_sub_cancel_left]

/-- Where the first element is without `p`, nothing is taken and nothing dropped. -/
theorem cut_of_head? {p : α → Bool} {l : List α} (h : ∀ a ∈ l.head?, p a = false) :
    l.takeWhile p = [] ∧ l.dropWhile p = l := by
  cases l with
  | nil => exact ⟨rfl, rfl⟩
  | cons a l =>
    have ha : ¬p a = true := Bool.not_eq_true _ ▸ h a rfl
    exact ⟨List.takeWhile_cons_of_neg ha, List.dropWhile_cons_of_neg ha⟩

/-- Where no element with `p` follows one without, there is none behind the leading ones. -/
theorem eq_false_of_mem_dropWhile {p : α → Bool} {l : List α}
    (hl : l.IsChain fun a b => p b = true → p a = true) : ∀ a ∈ l.dropWhile p, p a = false := by
  have hchain := hl.suffix (List.dropWhile_suffix p)
  have hhead := List.head?_dropWhile_not p l
  cases hd : l.dropWhile p with
  | nil => simp
  | cons a as =>
    rw [hd] at hchain hhead
    have ha : p a = false := by simpa using hhead
    -- what holds from one element to the next holds from the first one to all later ones
    have : IsTrans α fun a b => p b = true → p a = true := ⟨fun _ _ _ h h' hp => h (h' hp)⟩
    have hfirst := (List.pairwise_cons.1 hchain.pairwise).1
    intro b hb
    rcases List.mem_cons.1 hb with rfl | hmem
    · exact ha
    · by_contra hne
      rw [Bool.not_eq_false] at hne
      rw [hfirst b hmem hne] at ha
      exact absurd ha (by decide)

/-- Whether a new part begins at the element with index `i` when a list is cut between neighbours
that `r` does not relate. -/
def Begins (r : α → α → Bool) (l : List α) (i : Nat) : Prop :=
  ∃ b, l[i]? = some b ∧ (i = 0 ∨ ∃ a, l[i - 1]? = some a ∧ r a b = false)

theorem begins_of_lt_length {r : α → α → Bool} {p l : List α} (hp : p.IsChain fun a b => r a b)
    {i : Nat} (hi : i < p.length) : Begins r (p ++ l) i ↔ i = 0 := by
  constructor
  · rintro ⟨b, hb, h0 | ⟨a, ha, hr⟩⟩
    · exact h0
    · -- a later element of `p` is related to the one before it
      by_contra hne
      obtain ⟨k, rfl⟩ := Nat.exists_eq_succ_of_ne_zero hne
      rw [Nat.succ_sub_one, List.getElem?_append_left (by omega)] at ha
      rw [List.getElem?_append_left hi] at hb
      obtain ⟨_, rfl⟩ := List.getElem?_eq_some_iff.1 ha
      obtain ⟨_, rfl⟩ := List.getElem?_eq_some_iff.1 hb
      rw [List.isChain_iff_getElem.1 hp k hi] at hr
      exact absurd hr (by decide)
  · rintro rfl
    have h0 : 0 < (p ++ l).length := by
      rw [List.length_append]
      omega
    exact ⟨(p ++ l)[0], List.getElem?_eq_getElem h0, Or.inl rfl⟩

theorem begins_length_add {r : α → α → Bool} {p l : List α} (hp : p ≠ [])
    (hl : ∀ hl : l ≠ [], r (p.getLast hp) (l.head hl) = false) (i : Nat) :
    Begins r (p ++ l) (p.length + i) ↔ Begins r l i := by
  have hpos : 0 < p.length := List.length_pos_iff.2 hp
  have hget : (p ++ l)[p.length + i]? = l[i]? := by
    rw [List.getElem?_append_right (by omega), Nat.add_sub_cancel_left]
  rw [Begins, Begins, hget]
  refine exists_congr fun b => and_congr_right fun hb => ?_
  cases i with
  | zero =>
    -- the first element of `l` begins a part on both sides: it is the first, or follows `p`
    refine iff_of_true (Or.inr ⟨p.getLast hp, ?_, ?_⟩) (Or.inl rfl)
    · rw [Nat.add_zero, List.getElem?_append_left (by omega), ← List.getLast?_eq_getElem?,
        List.getLast?_eq_some_getLast hp]
    · have hne : l ≠ [] := by
        rintro rfl
        simp at hb
      rw [← List.head?_eq_getElem?, List.head?_eq_some_head hne] at hb
      rw [← Option.some.inj hb]
      exact hl hne
  | succ k =>
    have hprev : (p ++ l)[p.length + (k + 1) - 1]? = l[k]? := by
      rw [List.getElem?_append_right (by omega)]
      congr 1
      omega
    rw [hprev]
    simp

/-- The parts of a list that is cut where `r` does not relate neighbours begin where `Begins`
says. -/
theorem exists_offset_iff_begins {r : α → α → Bool} {parts : List (List α)} (hne : [] ∉ parts)
    (hin : ∀ p ∈ parts, p.IsChain fun a b => r a b)
    (hbetween : parts.IsChain fun p q => ∃ hp hq, r (p.getLast hp) (q.head hq) = false) (i : Nat) :
    (∃ j < parts.length, i = offset parts j) ↔ Begins r parts.flatten i := by
  induction parts generalizing i with
  | nil => simp [Begins]
  | cons p ps ih =>
    rw [List.mem_cons, not_or] at hne
    have hp : p ≠ [] := Ne.symm hne.1
    have hpos : 0 < p.length := List.length_pos_iff.2 hp
    have hl : ∀ hl : ps.flatten ≠ [], r (p.getLast hp) (ps.flatten.head hl) = false := by
      intro hl
      cases ps with
      | nil => exact absurd rfl hl
      | cons q qs =>
        obtain ⟨_, hq, hr⟩ := (List.isChain_cons_cons.1 hbetween).1
        simpa [List.head_append_of_ne_nil hq] using hr
    rw [List.flatten_cons]
    rcases Nat.lt_or_ge i p.length with hi | hi
    -- of the elements of `p` only the first, and behind `p` what holds for the other parts
    · rw [begins_of_lt_length (hin p List.mem_cons_self) hi]
      constructor
      · rintro ⟨j, -, rfl⟩
        cases j with
        | zero => rfl
        | succ j =>
          rw [offset_cons_succ] at hi
          omega
      · rintro rfl
        exact ⟨0, Nat.succ_pos _, rfl⟩
    · obtain ⟨k, rfl⟩ := Nat.exists_eq_add_of_le hi
      rw [begins_length_add hp hl, ← ih hne.2 (fun q hq => hin q (List.mem_cons_of_mem _ hq))
        hbetween.tail]
      constructor
      · rintro ⟨j, hj, heq⟩
        cases j with
        | zero =>
          rw [offset_zero] at heq
          omega
        | succ j =>
          rw [offset_cons_succ] at heq
          exact ⟨j, Nat.lt_of_succ_lt_succ hj, by omega⟩
      · rintro ⟨j, hj, rfl⟩
        exact ⟨j + 1, Nat.succ_lt_succ hj, (offset_cons_succ p ps j).symm⟩

end Parts

/-! ## Tokens of a run of lines -/

namespace Token

/-- The lines `ls`, classified and numbered from `n`. -/
def ofLinesFrom (c : Conventions) (n : Nat) (ls : List Text) : List Token :=
  (ls.zipIdx n).map fun p => ⟨classify c p.1, p.1, (p.2 : Int)⟩

theorem ofLines_eq (c : Conventions) (ls : List Text) : ofLines c ls = ofLinesFrom c 1 ls := rfl

theorem ofLinesFrom_cons (c : Conventions) (n : Nat) (l : Text) (ls : List Text) :
    ofLinesFrom c n (l :: ls) = ⟨classify c l, l, (n : Int)⟩ :: ofLinesFrom c (n + 1) ls := by
  simp [ofLinesFrom, List.zipIdx_cons]

theorem ofLinesFrom_append (c : Conventions) (n : Nat) (ls ls' : List Text) :
    ofLinesFrom c n (ls ++ ls') = ofLinesFrom c n ls ++ ofLinesFrom c (n + ls.length) ls' := by
  simp [ofLinesFrom, List.zipIdx_append]

@[simp] theorem length_ofLinesFrom (c : Conventions) (n : Nat) (ls : List Text) :
    (ofLinesFrom c n ls).length = ls.length := by
  simp [ofLinesFrom]

theorem map_text_ofLinesFrom (c : Conventions) (n : Nat) (ls : List Text) :
    (ofLinesFrom c n ls).map Token.text = ls := by
  simp [ofLinesFrom, List.map_map, Function.comp_def]

theorem getElem?_ofLinesFrom (c : Conventions) (n : Nat) (ls : List Text) (i : Nat) :
    (ofLinesFrom c n ls)[i]? =
      ls[i]?.map fun l => ⟨classify c l, l, ((n + i : Nat) : Int)⟩ := by
  simp [ofLinesFrom, Function.comp_def]

theorem kind_of_mem_ofLinesFrom {c : Conventions} {n : Nat} {ls : List Text} {t : Token}
    (h : t ∈ ofLinesFrom c n ls) : t.kind = classify c t.text := by
  obtain ⟨p, -, rfl⟩ := List.mem_map.1 h
  rfl

theorem text_mem_of_mem_ofLinesFrom {c : Conventions} {n : Nat} {ls : List Text} {t : Token}
    (h : t ∈ ofLinesFrom c n ls) : t.text ∈ ls := by
  rw [← map_text_ofLinesFrom c n ls]
  exact List.mem_map_of_mem h

/-- The two parts of the tokens of a run of lines are the tokens of two runs. -/
theorem eq_ofLinesFrom_of_append {c : Conventions} {n : Nat} {ls : List Text} {ts us : List Token}
    (h : ts ++ us = ofLinesFrom c n ls) :
    ts = ofLinesFrom c n (ts.map Token.text) ∧
      us = ofLinesFrom c (n + ts.length) (us.map Token.text) := by
  have hls := congrArg (List.map Token.text) h
  rw [map_text_ofLinesFrom, List.map_append] at hls
  rw [← hls, ofLinesFrom_append, List.length_map] at h
  exact List.append_inj h (by simp)

/-- Each part of the tokens of a run of lines is the tokens of a part of it, numbered from there. -/
theorem eq_ofLinesFrom_of_flatten {c : Conventions} {n : Nat} {ls : List Text}
    {parts : List (List Token)} (h : parts.flatten = ofLinesFrom c n ls) {j : Nat}
    {ts : List Token} (hj : parts[j]? = some ts) :
    ts = ofLinesFrom c (n + Parts.offset parts j) (ts.map Token.text) := by
  induction parts generalizing n ls j with
  | nil => simp at hj
  | cons p ps ih =>
    obtain ⟨hp, hps⟩ := eq_ofLinesFrom_of_append h
    cases j with
    | zero =>
      obtain rfl := Option.some.inj hj
      exact hp
    | succ j =>
      rw [Parts.offset_cons_succ, ← Nat.add_assoc]
      exact ih hps hj

theorem classify_beq_marker (c : Conventions) (l : Text) :
    (classify c l == .marker) = isMarkerLine c l := by
  rw [classify]
  split
  · next h => exact h.symm
  · next h =>
    rw [Bool.not_eq_true] at h
    rw [h]
    split <;> rfl

theorem classify_of_not_isMarkerLine {c : Conventions} {l : Text}
    (h : isMarkerLine c l = false) :
    classify c l = if l = c.skip then .skip else .text := by
  rw [classify, h, if_neg Bool.false_ne_true]

theorem classify_ne_finish (c : Conventions) (l : Text) : classify c l ≠ .finish := by
  rw [classify]
  split
  · decide
  · split <;> decide

/-- The leading parameter lines of a run, as tokens. -/
theorem takeWhile_ofLinesFrom (c : Conventions) (n : Nat) (ls : List Text) :
    (ofLinesFrom c n ls).takeWhile (·.kind == .marker) =
      ofLinesFrom c n (ls.takeWhile (isMarkerLine c)) := by
  induction ls generalizing n with
  | nil => rfl
  | cons l ls ih =>
    rw [ofLinesFrom_cons, List.takeWhile_cons, List.takeWhile_cons]
    simp only [classify_beq_marker]
    split
    · rw [ih, ofLinesFrom_cons]
    · rfl

/-- What follows the leading parameter lines of a run, as tokens. -/
theorem dropWhile_ofLinesFrom (c : Conventions) (n : Nat) (ls : List Text) :
    (ofLinesFrom c n ls).dropWhile (·.kind == .marker) =
      ofLinesFrom c (n + (ls.takeWhile (isMarkerLine c)).length)
        (ls.dropWhile (isMarkerLine c)) := by
  have h := ofLinesFrom_append c n (ls.takeWhile (isMarkerLine c)) (ls.dropWhile (isMarkerLine c))
  rw [List.takeWhile_append_dropWhile, ← takeWhile_ofLinesFrom] at h
  exact List.append_cancel_left (List.takeWhile_append_dropWhile.trans h)

end Token

end LineSpec
