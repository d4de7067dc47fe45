import LineSpec.Proofs.Spec.Partition
/-!
# Wrong lines of a specification

Only a parameter line can be wrong: on its own, when it holds nothing after the marker, no colon or
an empty key (`Malformed`), or because its key stands in the same run of parameter lines before
(`Fault.duplicate`). A text is refused exactly when it has a wrong line, and the error is that of
the first wrong line, for the first of its causes.

The proof follows the reading: `Answers` says what the result of reading some lines should be, and
holds for one run of parameter lines, then for one item and then for all items in a row. What
carries it from one item to the next is that a run of parameter lines does not reach into the next
item, so that a line there is wrong in the whole exactly when it is wrong in its item
(`fault_length_add`).
-/

namespace LineSpec

open Token (isMarkerLine ofLinesFrom)

/-- The place of a cause in the order in which a line is tested. -/
def ParseError.Cause.rank : ParseError.Cause → Nat
  | .noParameter => 0
  | .noColon _ => 1
  | .emptyKey => 2
  | .duplicateKey _ => 3
  | .stated _ => 4

namespace Item

/-! ## Keys -/

/-- The parameter line `l` has the key `k` before its first colon. -/
def HasKey (c : Conventions) (l k : Text) : Prop := ∃ value, IsParam c l (k, value)

theorem IsParam.drop_eq {c : Conventions} {l : Text} {p : Text × Text} (h : IsParam c l p) :
    ∃ key value, l.drop c.item.length = key ++ CodePoint.ofChar ':' :: value ∧
      CodePoint.ofChar ':' ∉ key ∧ p = (Text.trim key, Text.trim value) := by
  obtain ⟨key, value, rfl, hmem, rfl⟩ := h
  refine ⟨key, value, ?_, hmem, rfl⟩
  rw [List.append_assoc, List.drop_left]

theorem HasKey.colon_mem {c : Conventions} {l k : Text} (h : HasKey c l k) :
    CodePoint.ofChar ':' ∈ l.drop c.item.length := by
  obtain ⟨_, hparam⟩ := h
  obtain ⟨key, value, heq, -⟩ := hparam.drop_eq
  rw [heq]
  simp

/-- A parameter line holds one key and one value. -/
theorem IsParam.unique {c : Conventions} {l : Text} {p p' : Text × Text} (h : IsParam c l p)
    (h' : IsParam c l p') : p = p' := by
  obtain ⟨key, value, heq, hmem, rfl⟩ := h.drop_eq
  obtain ⟨key', value', heq', hmem', rfl⟩ := h'.drop_eq
  -- both keys stand before the first colon of the same text
  have hcut := Text.splitAt?_eq_some_iff.2 ⟨heq, hmem⟩
  have hcut' := Text.splitAt?_eq_some_iff.2 ⟨heq', hmem'⟩
  obtain ⟨rfl, rfl⟩ := Prod.mk.inj (Option.some.inj (hcut.symm.trans hcut'))
  rfl

theorem HasKey.unique {c : Conventions} {l k k' : Text} (h : HasKey c l k) (h' : HasKey c l k') :
    k = k' := by
  obtain ⟨value, hparam⟩ := h
  obtain ⟨value', hparam'⟩ := h'
  exact congrArg Prod.fst (hparam.unique hparam')

/-! ## A line on its own -/

/-- `Malformed c l cause` says that the parameter line `l` is wrong on its own. -/
inductive Malformed (c : Conventions) (l : Text) : ParseError.Cause → Prop
  | noParameter : Text.trim (l.drop c.item.length) = [] → Malformed c l .noParameter
  | noColon : CodePoint.ofChar ':' ∉ l.drop c.item.length →
      Malformed c l (.noColon (Text.trim (l.drop c.item.length)))
  | emptyKey : HasKey c l [] → Malformed c l .emptyKey

theorem Malformed.rank_lt {c : Conventions} {l : Text} {cause : ParseError.Cause}
    (h : Malformed c l cause) : cause.rank < 3 := by
  cases h <;> simp [ParseError.Cause.rank]

theorem Malformed.eq_of_rank_eq {c : Conventions} {l : Text} {cause cause' : ParseError.Cause}
    (h : Malformed c l cause) (h' : Malformed c l cause') (hrank : cause.rank = cause'.rank) :
    cause = cause' := by
  cases h <;> cases h' <;> first | rfl | cases hrank

/-- Trimming leaves a colon where it is. -/
theorem colon_mem_trim {t : Text} :
    CodePoint.ofChar ':' ∈ Text.trim t ↔ CodePoint.ofChar ':' ∈ t := by
  obtain ⟨pre, post, ht, hpre, hpost⟩ := Text.exists_eq_append_trim_append t
  have hcolon : Text.isBlank (CodePoint.ofChar ':') = false := by decide
  constructor
  · intro h
    rw [ht]
    exact List.mem_append_left _ (List.mem_append_right _ h)
  · intro h
    rw [ht, List.mem_append, List.mem_append] at h
    rcases h with (h | h) | h
    · rw [hpre _ h] at hcolon
      cases hcolon
    · exact h
    · rw [hpost _ h] at hcolon
      cases hcolon

/-- A line with a key is not blank after the marker. -/
theorem HasKey.trim_ne_nil {c : Conventions} {l k : Text} (h : HasKey c l k) :
    Text.trim (l.drop c.item.length) ≠ [] :=
  List.ne_nil_of_mem (colon_mem_trim.2 h.colon_mem)

/-- Reading a parameter line on its own refuses the first thing that is wrong with it. -/
theorem malformed_of_paramOfLine_eq_error {c : Conventions} {l : Text} {cause : ParseError.Cause}
    (hm : isMarkerLine c l = true) (h : paramOfLine c l = .error cause) :
    Malformed c l cause ∧ ∀ cause', Malformed c l cause' → cause.rank ≤ cause'.rank := by
  simp only [paramOfLine, List.isEmpty_iff] at h
  split at h
  · next hnil =>
    obtain rfl := Except.error.inj h
    exact ⟨.noParameter hnil, fun _ _ => Nat.zero_le _⟩
  · next hne =>
    split at h
    · next hcut =>
      have hcolon : CodePoint.ofChar ':' ∉ l.drop c.item.length := by
        intro hmem
        obtain ⟨a, b, hab, ha⟩ := List.eq_append_cons_of_mem (colon_mem_trim.2 hmem)
        rw [Text.splitAt?_eq_some_iff.2 ⟨hab, ha⟩] at hcut
        cases hcut
      obtain rfl := Except.error.inj h
      refine ⟨.noColon hcolon, fun cause' h' => ?_⟩
      cases h' with
      | noParameter hnil => exact absurd hnil hne
      | noColon => exact Nat.le_refl _
      | emptyKey => exact Nat.le_succ _
    · next hcut =>
      split at h
      · next hkey =>
        have hparam := isParam_of_splitAt? hm hcut
        rw [hkey] at hparam
        obtain rfl := Except.error.inj h
        refine ⟨.emptyKey ⟨_, hparam⟩, fun cause' h' => ?_⟩
        cases h' with
        | noParameter hnil => exact absurd hnil hne
        | noColon hcolon => exact absurd (HasKey.colon_mem ⟨_, hparam⟩) hcolon
        | emptyKey => exact Nat.le_refl _
      · cases h

/-- A parameter line that is read is not wrong on its own. -/
theorem not_malformed_of_paramOfLine_eq_ok {c : Conventions} {l : Text} {p : Text × Text}
    (hm : isMarkerLine c l = true) (h : paramOfLine c l = .ok p) (cause : ParseError.Cause) :
    ¬Malformed c l cause := by
  have hkey : HasKey c l p.1 := ⟨p.2, isParam_of_paramOfLine hm h⟩
  intro hbad
  cases hbad with
  | noParameter hnil => exact hkey.trim_ne_nil hnil
  | noColon hcolon => exact hcolon hkey.colon_mem
  | emptyKey hempty =>
    have hp := hkey.unique hempty
    simp only [paramOfLine, List.isEmpty_iff] at h
    split at h
    · cases h
    · split at h
      · cases h
      · split at h
        · cases h
        · next hne =>
          obtain rfl := Except.ok.inj h
          exact hne hp

/-- A parameter line is read as the key and the value around its first colon, if there is a key. -/
theorem paramOfLine_eq_ok_iff {c : Conventions} {l : Text} {p : Text × Text}
    (hm : isMarkerLine c l = true) : paramOfLine c l = .ok p ↔ IsParam c l p ∧ p.1 ≠ [] := by
  constructor
  · intro h
    have hparam := isParam_of_paramOfLine hm h
    refine ⟨hparam, fun hnil => not_malformed_of_paramOfLine_eq_ok hm h _ (.emptyKey ?_)⟩
    exact ⟨p.2, hnil ▸ hparam⟩
  · rintro ⟨hparam, hne⟩
    have hkey : HasKey c l p.1 := ⟨p.2, hparam⟩
    cases h : paramOfLine c l with
    | ok p' => rw [hparam.unique (isParam_of_paramOfLine hm h)]
    | error cause =>
      cases (malformed_of_paramOfLine_eq_error hm h).1 with
      | noParameter hnil => exact absurd hnil hkey.trim_ne_nil
      | noColon hcolon => exact absurd hkey.colon_mem hcolon
      | emptyKey hempty => exact absurd (hkey.unique hempty) hne

end Item

/-! ## A line among others -/

namespace Document

open Item (HasKey Malformed)

/-- The lines with the indices `j` to `i` are parameter lines: they stand in one run. -/
def SameRun (c : Conventions) (ls : List Text) (j i : Nat) : Prop :=
  ∀ k, j ≤ k → k ≤ i → ∃ l, ls[k]? = some l ∧ isMarkerLine c l = true

/-- `Fault c ls i cause` says that the line with the index `i` is a parameter line and wrong: on its
own, or because it has the key of a line before it in its run. -/
inductive Fault (c : Conventions) (ls : List Text) (i : Nat) : ParseError.Cause → Prop
  | malformed {l : Text} {cause : ParseError.Cause} :
      ls[i]? = some l → isMarkerLine c l = true → Malformed c l cause → Fault c ls i cause
  | duplicate {j : Nat} {l l' k : Text} :
      j < i → SameRun c ls j i → ls[j]? = some l' → HasKey c l' k → ls[i]? = some l →
      HasKey c l k → Fault c ls i (.duplicateKey k)

/-- The line with the index `i` is the first wrong one, and `cause` is the first of its causes. -/
structure FirstFault (c : Conventions) (ls : List Text) (i : Nat)
    (cause : ParseError.Cause) : Prop where
  fault : Fault c ls i cause
  first : ∀ j cause', Fault c ls j cause' → i < j ∨ i = j ∧ cause.rank ≤ cause'.rank

theorem Fault.exists_line {c : Conventions} {ls : List Text} {i : Nat} {cause : ParseError.Cause}
    (h : Fault c ls i cause) : ∃ l, ls[i]? = some l ∧ isMarkerLine c l = true := by
  cases h with
  | malformed hl hm _ => exact ⟨_, hl, hm⟩
  | duplicate hj hrun => exact hrun i (Nat.le_of_lt hj) (Nat.le_refl i)

theorem Fault.lt_length {c : Conventions} {ls : List Text} {i : Nat} {cause : ParseError.Cause}
    (h : Fault c ls i cause) : i < ls.length := by
  obtain ⟨l, hl, -⟩ := h.exists_line
  exact (List.getElem?_eq_some_iff.1 hl).1

theorem Fault.eq_of_rank_eq {c : Conventions} {ls : List Text} {i : Nat}
    {cause cause' : ParseError.Cause} (h : Fault c ls i cause) (h' : Fault c ls i cause')
    (hrank : cause.rank = cause'.rank) : cause = cause' := by
  cases h with
  | malformed hl _ hbad =>
    cases h' with
    | malformed hl' _ hbad' =>
      obtain rfl := Option.some.inj (hl.symm.trans hl')
      exact hbad.eq_of_rank_eq hbad' hrank
    | duplicate =>
      have := hbad.rank_lt
      rw [hrank] at this
      exact absurd this (Nat.lt_irrefl 3)
  | duplicate _ _ _ _ hl hkey =>
    cases h' with
    | malformed _ _ hbad' =>
      have := hbad'.rank_lt
      rw [← hrank] at this
      exact absurd this (Nat.lt_irrefl 3)
    | duplicate _ _ _ _ hl' hkey' =>
      obtain rfl := Option.some.inj (hl.symm.trans hl')
      rw [hkey.unique hkey']

/-- There is one first wrong line, with one first cause. -/
theorem FirstFault.unique {c : Conventions} {ls : List Text} {i i' : Nat}
    {cause cause' : ParseError.Cause} (h : FirstFault c ls i cause)
    (h' : FirstFault c ls i' cause') : i = i' ∧ cause = cause' := by
  have h₁ := h.first i' cause' h'.fault
  have h₂ := h'.first i cause h.fault
  obtain rfl : i = i' := by omega
  exact ⟨rfl, h.fault.eq_of_rank_eq h'.fault (by omega)⟩

/-! ## Lines in a row -/

section
variable {c : Conventions} {p r : List Text} {i : Nat} {cause : ParseError.Cause}

/-- What is wrong with a line depends on the lines up to it. -/
theorem fault_append_left (hi : i < p.length) : Fault c (p ++ r) i cause ↔ Fault c p i cause := by
  have hget : ∀ k ≤ i, (p ++ r)[k]? = p[k]? := fun k hk =>
    List.getElem?_append_left (Nat.lt_of_le_of_lt hk hi)
  have hrun : ∀ j, SameRun c (p ++ r) j i ↔ SameRun c p j i := fun j =>
    forall₃_congr fun k _ hk => by rw [hget k hk]
  constructor
  · rintro (⟨hl, hm, hbad⟩ | ⟨hj, hsame, hl', hkey', hl, hkey⟩)
    · exact .malformed (hget i (Nat.le_refl i) ▸ hl) hm hbad
    · exact .duplicate hj ((hrun _).1 hsame) (hget _ (Nat.le_of_lt hj) ▸ hl') hkey'
        (hget i (Nat.le_refl i) ▸ hl) hkey
  · rintro (⟨hl, hm, hbad⟩ | ⟨hj, hsame, hl', hkey', hl, hkey⟩)
    · exact .malformed ((hget i (Nat.le_refl i)).trans hl) hm hbad
    · exact .duplicate hj ((hrun _).2 hsame) ((hget _ (Nat.le_of_lt hj)).trans hl') hkey'
        ((hget i (Nat.le_refl i)).trans hl) hkey

/-- What is wrong with a line does not depend on the lines before its run. -/
theorem fault_length_add (hlast : ∀ l, p.getLast? = some l → isMarkerLine c l = false) :
    Fault c (p ++ r) (p.length + i) cause ↔ Fault c r i cause := by
  have hget : ∀ k, (p ++ r)[p.length + k]? = r[k]? := fun k => by
    rw [List.getElem?_append_right (Nat.le_add_right _ _), Nat.add_sub_cancel_left]
  have hrun : ∀ j, SameRun c (p ++ r) (p.length + j) (p.length + i) ↔ SameRun c r j i := by
    intro j
    constructor
    · intro h k hjk hki
      rw [← hget k]
      exact h (p.length + k) (by omega) (by omega)
    · intro h k hjk hki
      obtain ⟨k', rfl⟩ := Nat.exists_eq_add_of_le (Nat.le_trans (Nat.le_add_right _ _) hjk)
      rw [hget k']
      exact h k' (by omega) (by omega)
  constructor
  · rintro (⟨hl, hm, hbad⟩ | ⟨hj, hsame, hl', hkey', hl, hkey⟩)
    · exact .malformed ((hget i).symm.trans hl) hm hbad
    · rename_i j _ _ _
      -- a run that began in `p` would contain its last line
      have hle : p.length ≤ j := by
        by_contra hlt
        have hpos : p.length - 1 < p.length := by omega
        obtain ⟨l₀, hl₀, hm₀⟩ := hsame (p.length - 1) (by omega) (by omega)
        rw [List.getElem?_append_left hpos, ← List.getLast?_eq_getElem?] at hl₀
        rw [hlast l₀ hl₀] at hm₀
        cases hm₀
      obtain ⟨j', rfl⟩ := Nat.exists_eq_add_of_le hle
      exact .duplicate (by omega) ((hrun j').1 hsame) ((hget j').symm.trans hl') hkey'
        ((hget i).symm.trans hl) hkey
  · rintro (⟨hl, hm, hbad⟩ | ⟨hj, hsame, hl', hkey', hl, hkey⟩)
    · exact .malformed ((hget i).trans hl) hm hbad
    · exact .duplicate (by omega) ((hrun _).2 hsame) ((hget _).trans hl') hkey'
        ((hget i).trans hl) hkey

end

/-! ## What reading should answer -/

/-- `Answers c source n ls result` says that `result` is what reading the lines `ls`, which are
numbered from `n`, should answer: the error of the first wrong line, if there is one. -/
def Answers {α : Type} (c : Conventions) (source : Option Text) (n : Nat) (ls : List Text) :
    Except ParseError α → Prop
  | .ok _ => ∀ i cause, ¬Fault c ls i cause
  | .error e => ∃ i l, ls[i]? = some l ∧ FirstFault c ls i e.cause ∧
      e = ⟨e.cause, (n + i : Nat), l, source⟩

section
variable {α β : Type} {c : Conventions} {source : Option Text} {n : Nat} {p r : List Text}

/-- An error in the first lines is the answer for all lines. -/
theorem answers_append_of_error {e : ParseError}
    (h : Answers c source n p (.error e : Except ParseError α)) :
    Answers c source n (p ++ r) (.error e : Except ParseError β) := by
  obtain ⟨i, l, hl, hfirst, he⟩ := h
  have hi : i < p.length := hfirst.fault.lt_length
  refine ⟨i, l, by rw [List.getElem?_append_left hi, hl], ⟨?_, ?_⟩, he⟩
  · exact (fault_append_left hi).2 hfirst.fault
  · intro j cause' hj
    rcases Nat.lt_or_ge j p.length with hlt | hge
    · exact hfirst.first j cause' ((fault_append_left hlt).1 hj)
    · exact Or.inl (Nat.lt_of_lt_of_le hi hge)

/-- Where no line of the first ones is wrong and no run goes on behind them, the answer for the
other lines is the answer for all lines. -/
theorem Answers.append {result : Except ParseError α}
    (hlast : ∀ l, p.getLast? = some l → isMarkerLine c l = false)
    (hp : ∀ i cause, ¬Fault c p i cause) (hr : Answers c source (n + p.length) r result) :
    Answers c source n (p ++ r) result := by
  -- what is wrong in the whole is wrong behind `p`
  have hfault : ∀ j cause, Fault c (p ++ r) j cause →
      ∃ k, j = p.length + k ∧ Fault c r k cause := by
    intro j cause h
    rcases Nat.lt_or_ge j p.length with hlt | hge
    · exact absurd ((fault_append_left hlt).1 h) (hp j cause)
    · obtain ⟨k, rfl⟩ := Nat.exists_eq_add_of_le hge
      exact ⟨k, rfl, (fault_length_add hlast).1 h⟩
  cases result with
  | ok a =>
    intro j cause h
    obtain ⟨k, -, hk⟩ := hfault j cause h
    exact hr k cause hk
  | error e =>
    obtain ⟨i, l, hl, hfirst, he⟩ := hr
    refine ⟨p.length + i, l, ?_, ⟨(fault_length_add hlast).2 hfirst.fault, ?_⟩, ?_⟩
    · rw [List.getElem?_append_right (Nat.le_add_right _ _), Nat.add_sub_cancel_left, hl]
    · intro j cause' h
      obtain ⟨k, rfl, hk⟩ := hfault j cause' h
      have := hfirst.first k cause' hk
      omega
    · rw [← Nat.add_assoc]
      exact he

theorem answers_map {result : Except ParseError α} (f : α → β) :
    Answers c source n r (result.map f) ↔ Answers c source n r result := by
  cases result <;> exact Iff.rfl

end

/-! ## Parameter lines -/

section
variable {c : Conventions} {source : Option Text} {n : Nat} {run : List Text}

theorem sameRun_of_forall {j i : Nat} (hrun : ∀ l ∈ run, isMarkerLine c l = true)
    (hi : i < run.length) : SameRun c run j i := by
  intro k _ hk
  have hlt := Nat.lt_of_le_of_lt hk hi
  exact ⟨run[k], List.getElem?_eq_getElem hlt, hrun _ (List.getElem_mem hlt)⟩

/-- The names of the parameters are the keys of their lines. -/
theorem mem_names_iff {params : Bindings Text} (h : List.Forall₂ (Item.IsParam c) run params)
    {k : Text} : k ∈ params.names ↔ ∃ l ∈ run, HasKey c l k := by
  induction h with
  | nil => simp [Assoc.names]
  | @cons l p ls ps hp _ ih =>
    have hkey : HasKey c l k ↔ k = p.1 := by
      constructor
      · exact fun h => h.unique ⟨p.2, hp⟩
      · rintro rfl
        exact ⟨p.2, hp⟩
    unfold Assoc.names at ih ⊢
    rw [List.map_cons, List.mem_cons, ih, List.exists_mem_cons_iff, hkey]

/-- What can be wrong with the last line of a run: itself, or that a line before it has its key. -/
theorem fault_concat_iff {l : Text} {cause : ParseError.Cause}
    (hrun : ∀ l' ∈ run ++ [l], isMarkerLine c l' = true) :
    Fault c (run ++ [l]) run.length cause ↔ Malformed c l cause ∨
      ∃ k, cause = .duplicateKey k ∧ HasKey c l k ∧ ∃ l' ∈ run, HasKey c l' k := by
  have hl : (run ++ [l])[run.length]? = some l := by simp
  constructor
  · intro h
    cases h with
    | malformed hl' _ hbad =>
      obtain rfl := Option.some.inj (hl.symm.trans hl')
      exact Or.inl hbad
    | duplicate hlt _ hl' hkey' hl'' hkey =>
      obtain rfl := Option.some.inj (hl.symm.trans hl'')
      rw [List.getElem?_append_left hlt] at hl'
      exact Or.inr ⟨_, rfl, hkey, _, List.mem_of_getElem? hl', hkey'⟩
  · rintro (hbad | ⟨k, rfl, hkey, l', hmem, hkey'⟩)
    · exact .malformed hl (hrun l (by simp)) hbad
    · obtain ⟨j, hj⟩ := List.mem_iff_getElem?.1 hmem
      have hlt := (List.getElem?_eq_some_iff.1 hj).1
      exact .duplicate hlt (sameRun_of_forall hrun (by simp))
        ((List.getElem?_append_left hlt).trans hj) hkey' hl hkey

/-- Where the lines before it are not wrong, only the last line is. -/
theorem eq_length_of_fault_concat {l : Text} {j : Nat} {cause : ParseError.Cause}
    (hok : ∀ i cause, ¬Fault c run i cause) (h : Fault c (run ++ [l]) j cause) :
    j = run.length := by
  have hlt := h.lt_length
  rw [List.length_append, List.length_singleton] at hlt
  rcases Nat.lt_succ_iff_lt_or_eq.1 hlt with hlt | rfl
  · exact absurd ((fault_append_left hlt).1 h) (hok j cause)
  · rfl

theorem answers_concat_error {α : Type} {l : Text} {cause : ParseError.Cause}
    (hok : ∀ i cause, ¬Fault c run i cause) (hfault : Fault c (run ++ [l]) run.length cause)
    (hleast : ∀ cause', Fault c (run ++ [l]) run.length cause' → cause.rank ≤ cause'.rank) :
    Answers c source n (run ++ [l])
      (.error ⟨cause, (n + run.length : Nat), l, source⟩ : Except ParseError α) := by
  refine ⟨run.length, l, by simp, ⟨hfault, fun j cause' h => Or.inr ?_⟩, rfl⟩
  obtain rfl := eq_length_of_fault_concat hok h
  exact ⟨rfl, hleast cause' h⟩

theorem answers_concat_ok {α : Type} {l : Text} (a : α) (hok : ∀ i cause, ¬Fault c run i cause)
    (hlast : ∀ cause, ¬Fault c (run ++ [l]) run.length cause) :
    Answers c source n (run ++ [l]) (.ok a : Except ParseError α) := by
  intro j cause h
  obtain rfl := eq_length_of_fault_concat hok h
  exact hlast cause h

/-- The answer for one more parameter line, behind lines that give the parameters `params`. -/
theorem answers_addParam {l : Text} {params : Bindings Text} (kind : TokenKind)
    (hrun : ∀ l' ∈ run ++ [l], isMarkerLine c l' = true)
    (hok : ∀ i cause, ¬Fault c run i cause)
    (hparams : List.Forall₂ (Item.IsParam c) run params) :
    Answers c source n (run ++ [l])
      (Item.addParam c source params ⟨kind, l, (n + run.length : Nat)⟩) := by
  have hm : isMarkerLine c l = true := hrun l (by simp)
  simp only [Item.addParam]
  cases hread : Item.paramOfLine c l with
  | error cause =>
    obtain ⟨hbad, hleast⟩ := Item.malformed_of_paramOfLine_eq_error hm hread
    refine answers_concat_error hok ((fault_concat_iff hrun).2 (Or.inl hbad)) fun cause' h => ?_
    rcases (fault_concat_iff hrun).1 h with hbad' | ⟨k, rfl, -⟩
    · exact hleast cause' hbad'
    · exact Nat.le_of_lt hbad.rank_lt
  | ok p =>
    obtain ⟨key, value⟩ := p
    have hkey : HasKey c l key := ⟨value, Item.isParam_of_paramOfLine hm hread⟩
    have hgood := Item.not_malformed_of_paramOfLine_eq_ok hm hread
    have hnames : (params.get? key).isSome ↔ ∃ l' ∈ run, HasKey c l' key :=
      Assoc.isSome_get?_iff.trans (mem_names_iff hparams)
    by_cases hdup : (params.get? key).isSome
    · have hfault := (fault_concat_iff hrun).2 (Or.inr ⟨key, rfl, hkey, hnames.1 hdup⟩)
      simp only [if_pos hdup]
      refine answers_concat_error hok hfault fun cause' h => ?_
      rcases (fault_concat_iff hrun).1 h with hbad | ⟨k, rfl, -⟩
      · exact absurd hbad (hgood cause')
      · exact Nat.le_refl _
    · simp only [if_neg hdup]
      refine answers_concat_ok _ hok fun cause h => ?_
      rcases (fault_concat_iff hrun).1 h with hbad | ⟨k, -, hkey', hmem⟩
      · exact hgood cause hbad
      · obtain rfl := hkey.unique hkey'
        exact hdup (hnames.2 hmem)

/-- Reading a run of parameter lines answers as it should. -/
theorem answers_foldlM (hrun : ∀ l ∈ run, isMarkerLine c l = true) :
    Answers c source n run ((ofLinesFrom c n run).foldlM (Item.addParam c source) []) := by
  induction run using List.reverseRecOn with
  | nil => exact fun i cause h => absurd h.lt_length (Nat.not_lt_zero i)
  | append_singleton run l ih =>
    have hrun' : ∀ l ∈ run, isMarkerLine c l = true := fun l' hl' =>
      hrun l' (List.mem_append_left _ hl')
    rw [Token.ofLinesFrom_append, List.foldlM_append]
    cases hfold : (ofLinesFrom c n run).foldlM (Item.addParam c source) [] with
    | error e => exact answers_append_of_error (hfold ▸ ih hrun')
    | ok params =>
      have hok : ∀ i cause, ¬Fault c run i cause := by
        have := ih hrun'
        rwa [hfold] at this
      have hparams := Item.forall₂_isParam_of_foldlM hrun' hfold
      rw [Token.ofLinesFrom_cons]
      change Answers c source n (run ++ [l]) (Item.addParam c source params _ >>= pure)
      rw [bind_pure]
      exact answers_addParam _ hrun hok hparams

end

/-! ## Items -/

section
variable {c : Conventions} {source : Option Text} {n : Nat}

/-- Reading the lines of one item answers as it should. -/
theorem answers_ofTokens {part : List Text}
    (hpart : part.IsChain fun l l' => isMarkerLine c l' = true → isMarkerLine c l = true) :
    Answers c source n part (Item.ofTokens c source (ofLinesFrom c n part)) := by
  have hno := Parts.eq_false_of_mem_dropWhile hpart
  have hrun : Answers c source n (part.takeWhile (isMarkerLine c)) _ :=
    answers_foldlM fun l hl => List.mem_takeWhile_imp hl
  have hcut : part.takeWhile (isMarkerLine c) ++ part.dropWhile (isMarkerLine c) = part :=
    List.takeWhile_append_dropWhile
  rw [Item.ofTokens, Token.takeWhile_ofLinesFrom]
  cases hfold : (ofLinesFrom c n (part.takeWhile (isMarkerLine c))).foldlM
      (Item.addParam c source) [] with
  | error e =>
    rw [hfold] at hrun
    have herror : Answers c source n
        (part.takeWhile (isMarkerLine c) ++ part.dropWhile (isMarkerLine c))
        (.error e : Except ParseError Item) := answers_append_of_error hrun
    rwa [hcut] at herror
  | ok params =>
    rw [hfold] at hrun
    intro i cause h
    rcases Nat.lt_or_ge i (part.takeWhile (isMarkerLine c)).length with hlt | hge
    · rw [← hcut, fault_append_left hlt] at h
      exact hrun i cause h
    · -- behind the leading parameter lines there is no other one
      obtain ⟨l, hl, hm⟩ := h.exists_line
      rw [← hcut, List.getElem?_append_right hge] at hl
      rw [hno l (List.mem_of_getElem? hl)] at hm
      cases hm

/-- Reading all items answers as it should. -/
theorem answers_mapM {ls : List Text} {tss : List (List Token)}
    (hflat : tss.flatten = ofLinesFrom c n ls)
    (hin : ∀ ts ∈ tss, ts.IsChain fun t u => sameItem t u = true)
    (hbetween : tss.IsChain fun p q => ∃ hp hq, sameItem (p.getLast hp) (q.head hq) = false) :
    Answers c source n ls (tss.mapM (Item.ofTokens c source)) := by
  induction tss generalizing n ls with
  | nil =>
    have hls := congrArg List.length hflat
    rw [Token.length_ofLinesFrom] at hls
    intro i cause h
    have hlt := h.lt_length
    rw [← hls] at hlt
    exact absurd hlt (Nat.not_lt_zero i)
  | cons ts tss ih =>
    obtain ⟨hts, hrest⟩ := Token.eq_ofLinesFrom_of_append hflat
    have hls := congrArg (List.map Token.text) hflat
    rw [Token.map_text_ofLinesFrom, List.flatten_cons, List.map_append] at hls
    have hitem : Answers c source n (ts.map Token.text) (Item.ofTokens c source ts) := by
      have hchain := hin ts List.mem_cons_self
      rw [hts] at hchain
      have hanswers : Answers c source n (ts.map Token.text)
          (Item.ofTokens c source (ofLinesFrom c n (ts.map Token.text))) :=
        answers_ofTokens (isChain_of_ofLinesFrom hchain)
      rwa [← hts] at hanswers
    rw [← hls, List.mapM_cons]
    cases hread : Item.ofTokens c source ts with
    | error e =>
      rw [hread] at hitem
      exact answers_append_of_error hitem
    | ok item =>
      rw [hread] at hitem
      have hnext : Answers c source (n + (ts.map Token.text).length) (tss.flatten.map Token.text)
          (tss.mapM (Item.ofTokens c source)) := by
        rw [List.length_map]
        exact ih hrest (fun us hus => hin us (List.mem_cons_of_mem _ hus)) hbetween.tail
      have hall : Answers c source n (ts.map Token.text ++ tss.flatten.map Token.text)
          (tss.mapM (Item.ofTokens c source)) := by
        cases tss with
        | nil =>
          intro i cause h
          rw [List.flatten_nil, List.map_nil, List.append_nil] at h
          exact hitem i cause h
        | cons us tss =>
          -- the last line of an item is none that opens a run, since the next item opens one
          refine hnext.append (fun l hl => ?_) hitem
          obtain ⟨hp, hq, hcut⟩ := (List.isChain_cons_cons.1 hbetween).1
          rw [List.getLast?_map, List.getLast?_eq_some_getLast hp] at hl
          obtain rfl := Option.some.inj hl
          have hmem : ts.getLast hp ∈ ofLinesFrom c n (ts.map Token.text) := by
            rw [← hts]
            exact List.getLast_mem hp
          rw [sameItem, Token.kind_of_mem_ofLinesFrom hmem, Token.classify_beq_marker,
            Bool.or_eq_false_iff] at hcut
          exact hcut.1
      exact (answers_map _).2 hall

/-- Reading a text answers as it should. -/
theorem answers_parse (t : Text) : Answers c source 1 (Text.lines t) (parse c source t) := by
  rw [parse, ofTokens, takeWhile_ofText]
  exact (answers_map _).2 (answers_mapM (List.flatten_splitBy _ _)
    (fun ts hts => List.isChain_of_mem_splitBy hts)
    (List.isChain_getLast_head_splitBy sameItem _))

end

/-! ## What is refused -/

/-- A text is refused exactly when it has a wrong line. The error is that of the first wrong line,
with its number, its text and the first of its causes; it is always a parameter line. -/
theorem parse_eq_error_iff_fault (c : Conventions) (source : Option Text) (t : Text) :
    ((∃ e, parse c source t = .error e) ↔ ∃ i cause, Fault c (Text.lines t) i cause) ∧
    (∀ e, parse c source t = .error e ↔
      ∃ i l cause, (Text.lines t)[i]? = some l ∧ FirstFault c (Text.lines t) i cause ∧
        e = ⟨cause, (i + 1 : Nat), l, source⟩) ∧
    ∀ e, parse c source t = .error e → isMarkerLine c e.line = true := by
  have hanswers : Answers c source 1 (Text.lines t) (parse c source t) := answers_parse t
  cases hread : parse c source t with
  | ok d =>
    rw [hread] at hanswers
    refine ⟨⟨?_, ?_⟩, fun e => ⟨?_, ?_⟩, ?_⟩
    · rintro ⟨e, he⟩
      cases he
    · rintro ⟨i, cause, h⟩
      exact absurd h (hanswers i cause)
    · intro he
      cases he
    · rintro ⟨i, l, cause, -, h, -⟩
      exact absurd h.fault (hanswers i cause)
    · intro e he
      cases he
  | error e =>
    rw [hread] at hanswers
    obtain ⟨i, l, hl, hfirst, he⟩ := hanswers
    rw [Nat.add_comm] at he
    refine ⟨⟨fun _ => ⟨i, _, hfirst.fault⟩, fun _ => ⟨e, rfl⟩⟩, fun e' => ⟨?_, ?_⟩, ?_⟩
    · intro he'
      obtain rfl := Except.error.inj he'
      exact ⟨i, l, e.cause, hl, hfirst, he⟩
    · rintro ⟨i', l', cause', hl', hfirst', rfl⟩
      obtain ⟨rfl, hcause⟩ := hfirst.unique hfirst'
      obtain rfl := Option.some.inj (hl.symm.trans hl')
      rw [he, hcause]
    · intro e' he'
      obtain rfl := Except.error.inj he'
      obtain ⟨l', hl', hm⟩ := hfirst.fault.exists_line
      obtain rfl := Option.some.inj (hl.symm.trans hl')
      rw [he]
      exact hm

/-- A key stands in two items, which is no fault, and twice in the second one. The line after it is
wrong as well, but it is not the first. -/
example :
    parse {} (some "s") "## k: 1\nx\n## k: 2\n## l:\n##\tk : 3\n##\n" =
      .error ⟨.duplicateKey "k", 5, "##\tk : 3", some "s"⟩ := by
  decide +kernel

end Document

end LineSpec
