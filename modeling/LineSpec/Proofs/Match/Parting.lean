import LineSpec.Proofs.Match.Diagnosis
/-!
# Where two texts part

Two different texts part at exactly one place: before it they are the same, and there one of them
ends while the other goes on, or each goes on with a character of its own (`PartsAt`). It lies
within both texts or just behind one of them, and it is the same place from either side. The
divergence of two texts is that place, and `none` for equal texts, which part nowhere
(`divergence_partsAt`). A match that fails because two lines differ therefore always has a place to
point at, where the lines are not the same.
-/

namespace LineSpec

/-- The texts `a` and `b` have their first `d` characters in common and no more. -/
structure PartsAt (a b : Text) (d : Nat) : Prop where
  le_left : d ≤ a.length
  le_right : d ≤ b.length
  before : a.take d = b.take d
  apart : (d = a.length ∧ d < b.length) ∨ (d = b.length ∧ d < a.length) ∨
    ∃ x y, a[d]? = some x ∧ b[d]? = some y ∧ x ≠ y

namespace PartsAt

variable {a b : Text} {d d' : Nat}

theorem symm (h : PartsAt a b d) : PartsAt b a d where
  le_left := h.le_right
  le_right := h.le_left
  before := h.before.symm
  apart := by
    rcases h.apart with hleft | hright | ⟨x, y, hx, hy, hne⟩
    · exact .inr (.inl hleft)
    · exact .inl hright
    · exact .inr (.inr ⟨y, x, hy, hx, hne.symm⟩)

/-- At the place where they part, at most one of the texts goes on, or they go on differently. -/
theorem getElem?_ne (h : PartsAt a b d) : a[d]? ≠ b[d]? := by
  rcases h.apart with ⟨hend, hlt⟩ | ⟨hend, hlt⟩ | ⟨x, y, hx, hy, hne⟩
  · rw [List.getElem?_eq_none (Nat.le_of_eq hend.symm), List.getElem?_eq_getElem hlt]
    exact (Option.some_ne_none _).symm
  · rw [List.getElem?_eq_getElem hlt, List.getElem?_eq_none (Nat.le_of_eq hend.symm)]
    exact Option.some_ne_none _
  · rw [hx, hy]
    exact fun heq => hne (Option.some.inj heq)

theorem ne (h : PartsAt a b d) : a ≠ b := by
  rintro rfl
  exact h.getElem?_ne rfl

/-- The longer of the texts goes on where they part. -/
theorem lt_max (h : PartsAt a b d) : d < max a.length b.length := by
  rcases h.apart with ⟨-, hlt⟩ | ⟨-, hlt⟩ | ⟨x, y, hx, -, -⟩
  · exact Nat.lt_of_lt_of_le hlt (Nat.le_max_right _ _)
  · exact Nat.lt_of_lt_of_le hlt (Nat.le_max_left _ _)
  · exact Nat.lt_of_lt_of_le (List.getElem?_eq_some_iff.1 hx).1 (Nat.le_max_left _ _)

/-- Behind a place where they part, two texts have nothing in common any more, so they do not part
again. -/
theorem le (h : PartsAt a b d) (h' : PartsAt a b d') : d' ≤ d := by
  by_contra hlt
  rw [Nat.not_le] at hlt
  apply h.getElem?_ne
  calc
    a[d]? = (a.take d')[d]? := (List.getElem?_take_of_lt hlt).symm
    _ = (b.take d')[d]? := by rw [h'.before]
    _ = b[d]? := List.getElem?_take_of_lt hlt

theorem unique (h : PartsAt a b d) (h' : PartsAt a b d') : d = d' :=
  Nat.le_antisymm (h'.le h) (h.le h')

end PartsAt

/-! ## The divergence -/

section
variable {a b : Text} {d : Nat}

/-- With the texts side by side, the longest common beginning ends at the first two characters that
are not the same. If there are none, it ends with the shorter text. -/
theorem commonPrefixLength_eq_findIdx (a b : Text) :
    commonPrefixLength a b = (a.zip b).findIdx fun p => decide (p.1 ≠ p.2) := by
  fun_induction commonPrefixLength a b with
  | case1 x as bs ih => simp [List.findIdx_cons, ih]
  | case2 x as y bs hne => simp [List.findIdx_cons, hne]
  | case3 a b hnil =>
    have hzip : a.zip b = [] := by
      cases a with
      | nil => rfl
      | cons x as =>
        cases b with
        | nil => rfl
        | cons y bs => exact (hnil x as y bs rfl rfl).elim
    rw [hzip, List.findIdx_nil]

/-- Different texts part behind their longest common beginning. -/
theorem partsAt_commonPrefixLength (hne : a ≠ b) : PartsAt a b (commonPrefixLength a b) := by
  have hfirst := (commonPrefixLength_eq_findIdx a b).symm
  have hle : commonPrefixLength a b ≤ (a.zip b).length := hfirst ▸ List.findIdx_le_length
  have hbefore := take_commonPrefixLength a b
  have hmax : commonPrefixLength a b < max a.length b.length :=
    lt_max_of_isGreatest hne (isGreatest_commonPrefixLength a b)
  generalize commonPrefixLength a b = d at *
  have hzip : (a.zip b).length = min a.length b.length := List.length_zip
  constructor
  case le_left => omega
  case le_right => omega
  case before => exact hbefore
  case apart =>
    rcases hle.lt_or_eq with hlt | heq
    · -- two characters that stand side by side stop the common beginning
      have hpair := ((List.findIdx_eq hlt).1 hfirst).1
      rw [List.getElem_zip, decide_eq_true_iff] at hpair
      exact .inr (.inr ⟨_, _, List.getElem?_eq_getElem _, List.getElem?_eq_getElem _, hpair⟩)
    · -- the shorter text is used up
      omega

/-- The divergence of two texts is the place where they part. -/
theorem divergence?_eq_some_iff : divergence? a b = some d ↔ PartsAt a b d := by
  constructor
  · intro h
    have hne : a ≠ b := by
      rintro rfl
      rw [divergence?_self] at h
      cases h
    rw [divergence?_of_ne hne, Option.some.injEq] at h
    exact h ▸ partsAt_commonPrefixLength hne
  · intro h
    rw [divergence?_of_ne h.ne, (partsAt_commonPrefixLength h.ne).unique h]

theorem divergence?_eq_none_iff : divergence? a b = none ↔ a = b := by
  simp [divergence?]

/-- It does not matter which of two texts is the expected one. -/
theorem divergence?_comm (a b : Text) : divergence? b a = divergence? a b := by
  apply Option.ext
  intro d
  rw [divergence?_eq_some_iff, divergence?_eq_some_iff]
  exact ⟨PartsAt.symm, PartsAt.symm⟩

end

/-! ## Failed matches -/

namespace Match

/-- The offset that a failed match reports is the divergence of the two lines. -/
theorem divergence?_of_differs {ε : Type} {resolve : Text → Except ε Text} {strictEnd : Bool}
    {body : Body} {ls : List Text} {line offset patternLine : Int} {expected actual : Text}
    (h : (run resolve strictEnd body ls).verdict =
      .failed (.differs line expected actual offset patternLine)) :
    ∃ d : Nat, offset = d ∧ divergence? expected actual = some d := by
  cases diagnosis_of_verdict h with
  | differs split placed next resolved found ne common =>
    refine ⟨_, rfl, ?_⟩
    rw [divergence?_of_ne ne, common.unique (isGreatest_commonPrefixLength _ _)]

end Match

/-- Two texts have no divergence exactly when they are equal. Otherwise it is the one place where
they part, which is before the end of the longer one and the same from either side. The offset of
every match that fails because two lines differ is such a place: there the lines are not the
same. -/
theorem divergence_partsAt (expected actual : Text) :
    (divergence? expected actual = none ↔ expected = actual) ∧
    (expected ≠ actual → ∃ d, divergence? expected actual = some d ∧
      PartsAt expected actual d ∧ (∀ d', PartsAt expected actual d' → d' = d) ∧
      d < max expected.length actual.length) ∧
    divergence? actual expected = divergence? expected actual ∧
    ∀ (ε : Type) (resolve : Text → Except ε Text) (strictEnd : Bool) (body : Body)
      (ls : List Text) (line offset patternLine : Int),
      (Match.run resolve strictEnd body ls).verdict =
          .failed (.differs line expected actual offset patternLine) →
        ∃ d : Nat, offset = d ∧ divergence? expected actual = some d ∧
          d < max expected.length actual.length ∧ expected[d]? ≠ actual[d]? := by
  refine ⟨divergence?_eq_none_iff, ?_, divergence?_comm expected actual, ?_⟩
  · intro hne
    have hparts := partsAt_commonPrefixLength hne
    exact ⟨_, divergence?_of_ne hne, hparts, fun d' h => h.unique hparts, hparts.lt_max⟩
  · intro ε resolve strictEnd body ls line offset patternLine hverdict
    obtain ⟨d, hoffset, hd⟩ := Match.divergence?_of_differs hverdict
    have hparts := divergence?_eq_some_iff.1 hd
    exact ⟨d, hoffset, hd, hparts.lt_max, hparts.getElem?_ne⟩

/-- A line that goes on where the expected one ends. -/
theorem divergence_partsAt_longer_line :
    let body : Body := [.literal "x" 1, .literal "a$\x7bv\x7d" 2]
    let expected : Text := "ab"
    let actual : Text := "abc"
    expected ≠ actual ∧
      (({} : Conventions).run [("v", "b")] body ["x\r\n", "abc\n"]).verdict =
        .failed (.differs 2 expected actual 2 2) ∧
      (∃ d, divergence? expected actual = some d ∧ PartsAt expected actual d ∧
        (∀ d', PartsAt expected actual d' → d' = d) ∧ d < max expected.length actual.length) ∧
      ∃ d : Nat, (2 : Int) = d ∧ divergence? expected actual = some d ∧
        d < max expected.length actual.length ∧ expected[d]? ≠ actual[d]? := by
  intro body expected actual
  have hne : expected ≠ actual := by decide +kernel
  have hverdict : (({} : Conventions).run [("v", "b")] body ["x\r\n", "abc\n"]).verdict =
      .failed (.differs 2 expected actual 2 2) := by decide +kernel
  obtain ⟨-, hdifferent, -, hfailed⟩ := divergence_partsAt expected actual
  exact ⟨hne, hverdict, hdifferent hne, hfailed _ _ _ _ _ _ _ _ hverdict⟩

end LineSpec
