import Mathlib.Data.List.Forall2
/-!
# Steps that may fail

A step that may fail gives an `Except`. Two steps in a row succeed when both do, and so does a list
of steps, each of them on its own; the results are then those of the single steps
(`mapM_eq_ok_iff`).
-/

namespace LineSpec

variable {α β ε : Type}

theorem bind_eq_ok_iff {x : Except ε α} {f : α → Except ε β} {b : β} :
    (x >>= f) = .ok b ↔ ∃ a, x = .ok a ∧ f a = .ok b := by
  constructor
  · intro h
    cases x with
    | error e => cases h
    | ok a => exact ⟨a, rfl, h⟩
  · rintro ⟨a, rfl, h⟩
    exact h

theorem map_eq_ok_iff {x : Except ε α} {f : α → β} {b : β} :
    x.map f = .ok b ↔ ∃ a, x = .ok a ∧ f a = b := by
  constructor
  · intro h
    cases x with
    | error e => cases h
    | ok a => exact ⟨a, rfl, Except.ok.inj h⟩
  · rintro ⟨a, rfl, rfl⟩
    rfl

theorem mapError_eq_ok_iff {δ : Type} {x : Except ε α} {f : ε → δ} {a : α} :
    x.mapError f = .ok a ↔ x = .ok a := by
  constructor
  · intro h
    cases x with
    | error e => cases h
    | ok a' => exact congrArg _ (Except.ok.inj h)
  · rintro rfl
    rfl

theorem mapM_cons_eq_ok_iff {f : α → Except ε β} {a : α} {l : List α} {bs : List β} :
    (a :: l).mapM f = .ok bs ↔
      ∃ b bs', f a = .ok b ∧ l.mapM f = .ok bs' ∧ bs = b :: bs' := by
  rw [List.mapM_cons, bind_eq_ok_iff]
  refine exists_congr fun b => ?_
  rw [bind_eq_ok_iff]
  constructor
  · rintro ⟨hb, bs', hbs', h⟩
    exact ⟨bs', hb, hbs', (Except.ok.inj h).symm⟩
  · rintro ⟨bs', hb, hbs', rfl⟩
    exact ⟨hb, bs', hbs', rfl⟩

/-- A list of steps succeeds with the results of the single steps. -/
theorem mapM_eq_ok_iff {f : α → Except ε β} {l : List α} {bs : List β} :
    l.mapM f = .ok bs ↔ List.Forall₂ (fun a b => f a = .ok b) l bs := by
  induction l generalizing bs with
  | nil =>
    rw [List.mapM_nil, List.forall₂_nil_left_iff]
    exact ⟨fun h => (Except.ok.inj h).symm, fun h => congrArg _ h.symm⟩
  | cons a l ih =>
    rw [mapM_cons_eq_ok_iff, List.forall₂_cons_left_iff]
    simp only [ih]

/-- A list of steps succeeds exactly when each step does. -/
theorem exists_mapM_eq_ok_iff {f : α → Except ε β} {l : List α} :
    (∃ bs, l.mapM f = .ok bs) ↔ ∀ a ∈ l, ∃ b, f a = .ok b := by
  induction l with
  | nil => exact ⟨fun _ _ ha => absurd ha List.not_mem_nil, fun _ => ⟨[], rfl⟩⟩
  | cons a l ih =>
    rw [List.forall_mem_cons, ← ih]
    simp only [mapM_cons_eq_ok_iff]
    constructor
    · rintro ⟨_, b, bs, hb, hbs, -⟩
      exact ⟨⟨b, hb⟩, bs, hbs⟩
    · rintro ⟨⟨b, hb⟩, bs, hbs⟩
      exact ⟨_, b, bs, hb, hbs, rfl⟩

theorem mapM_mapError {δ : Type} (f : α → Except ε β) (g : ε → δ) (l : List α) :
    (l.mapM fun a => (f a).mapError g) = (l.mapM f).mapError g := by
  induction l with
  | nil => rfl
  | cons a l ih =>
    rw [List.mapM_cons, List.mapM_cons, ih]
    cases f a with
    | error e => rfl
    | ok b => cases l.mapM f <;> rfl

theorem bind_eq_error_iff {x : Except ε α} {f : α → Except ε β} {e : ε} :
    (x >>= f) = .error e ↔ x = .error e ∨ ∃ a, x = .ok a ∧ f a = .error e := by
  cases x with
  | error e' => simp [bind, Except.bind]
  | ok a => simp [bind, Except.bind]

theorem map_eq_error_iff {x : Except ε α} {f : α → β} {e : ε} :
    x.map f = .error e ↔ x = .error e := by
  cases x <;> simp [Except.map]

theorem mapError_eq_error_iff {δ : Type} {x : Except ε α} {f : ε → δ} {e : δ} :
    x.mapError f = .error e ↔ ∃ e', x = .error e' ∧ f e' = e := by
  cases x <;> simp [Except.mapError]

/-- A list of steps fails with the error of the first that fails. -/
theorem mapM_eq_error_iff {f : α → Except ε β} {l : List α} {e : ε} :
    l.mapM f = .error e ↔ ∃ before a after, l = before ++ a :: after ∧
      (∀ a' ∈ before, ∃ b, f a' = .ok b) ∧ f a = .error e := by
  induction l with
  | nil =>
    refine ⟨fun h => (by cases h), ?_⟩
    rintro ⟨before, a, after, hl, -⟩
    exact absurd hl.symm (List.append_ne_nil_of_right_ne_nil before (List.cons_ne_nil a after))
  | cons a l ih =>
    rw [List.mapM_cons, bind_eq_error_iff]
    constructor
    · rintro (h | ⟨b, hb, h⟩)
      · exact ⟨[], a, l, rfl, List.forall_mem_nil _, h⟩
      · rcases bind_eq_error_iff.1 h with h | ⟨bs, -, h⟩
        · obtain ⟨before, a', after, rfl, hbefore, ha'⟩ := ih.1 h
          exact ⟨a :: before, a', after, rfl, List.forall_mem_cons.2 ⟨⟨b, hb⟩, hbefore⟩, ha'⟩
        · cases h
    · rintro ⟨before, a', after, hl, hbefore, ha'⟩
      cases before with
      | nil =>
        obtain ⟨rfl, rfl⟩ := List.cons.inj hl
        exact Or.inl ha'
      | cons a₀ before =>
        obtain ⟨rfl, rfl⟩ := List.cons.inj hl
        obtain ⟨⟨b, hb⟩, hbefore⟩ := List.forall_mem_cons.1 hbefore
        have hrest := ih.2 ⟨before, a', after, rfl, hbefore, ha'⟩
        exact Or.inr ⟨b, hb, bind_eq_error_iff.2 (Or.inl hrest)⟩

/-- A list of steps fails with the error of one of them. -/
theorem exists_of_mapM_eq_error {f : α → Except ε β} {l : List α} {e : ε}
    (h : l.mapM f = .error e) : ∃ a ∈ l, f a = .error e := by
  obtain ⟨before, a, after, rfl, -, ha⟩ := mapM_eq_error_iff.1 h
  exact ⟨a, by simp, ha⟩

/-- Where `g` gives the results of the steps that succeed, a list of steps succeeds with the results
that `g` gives. -/
theorem mapM_eq_ok_iff_map {f : α → Except ε β} {g : α → β} (hg : ∀ a b, f a = .ok b → g a = b)
    {l : List α} {bs : List β} :
    l.mapM f = .ok bs ↔ (∀ a ∈ l, ∃ b, f a = .ok b) ∧ bs = l.map g := by
  have hmap : ∀ bs, l.mapM f = .ok bs → bs = l.map g := by
    intro bs h
    rw [mapM_eq_ok_iff] at h
    induction h with
    | nil => rfl
    | cons hab _ ih => rw [List.map_cons, hg _ _ hab, ih]
  constructor
  · intro h
    exact ⟨exists_mapM_eq_ok_iff.1 ⟨bs, h⟩, hmap bs h⟩
  · rintro ⟨hall, rfl⟩
    obtain ⟨bs, h⟩ := exists_mapM_eq_ok_iff.2 hall
    rw [h, hmap bs h]

/-- What each step keeps, steps one after the other keep. -/
theorem foldlM_keeps {P : β → Prop} {f : β → α → Except ε β}
    (hstep : ∀ b a b', P b → f b a = .ok b' → P b') {l : List α} {b b' : β} (hb : P b)
    (h : l.foldlM f b = .ok b') : P b' := by
  induction l generalizing b with
  | nil =>
    obtain rfl := Except.ok.inj h
    exact hb
  | cons a l ih =>
    rw [List.foldlM_cons] at h
    obtain ⟨b₁, hb₁, h⟩ := bind_eq_ok_iff.1 h
    exact ih (hstep b a b₁ hb hb₁) h

/-- Filtering by a step that may fail succeeds exactly when the step does for each member. -/
theorem exists_filterM_eq_ok_iff {f : α → Except ε Bool} {l : List α} :
    (∃ bs, l.filterM f = .ok bs) ↔ ∀ a ∈ l, ∃ b, f a = .ok b := by
  have haux : ∀ acc, (∃ bs, l.filterAuxM f acc = .ok bs) ↔ ∀ a ∈ l, ∃ b, f a = .ok b := by
    induction l with
    | nil => exact fun acc => ⟨fun _ _ ha => absurd ha List.not_mem_nil, fun _ => ⟨acc, rfl⟩⟩
    | cons a l ih =>
      intro acc
      rw [List.forall_mem_cons, List.filterAuxM]
      simp only [bind_eq_ok_iff]
      constructor
      · rintro ⟨bs, b, hb, h⟩
        exact ⟨⟨b, hb⟩, (ih _).1 ⟨bs, h⟩⟩
      · rintro ⟨⟨b, hb⟩, h⟩
        obtain ⟨bs, hbs⟩ := (ih _).2 h
        exact ⟨bs, b, hb, hbs⟩
  rw [← haux []]
  simp only [List.filterM, bind_eq_ok_iff]
  constructor
  · rintro ⟨_, bs, hbs, -⟩
    exact ⟨bs, hbs⟩
  · rintro ⟨bs, hbs⟩
    exact ⟨_, bs, hbs, rfl⟩

/-- The results of a list of steps are those of its members. -/
theorem mem_mapM_iff {f : α → Except ε β} {l : List α} {bs : List β} (h : l.mapM f = .ok bs)
    {b : β} : b ∈ bs ↔ ∃ a ∈ l, f a = .ok b := by
  induction l generalizing bs with
  | nil =>
    obtain rfl := Except.ok.inj h
    simp
  | cons a l ih =>
    obtain ⟨c, cs, hc, hcs, rfl⟩ := mapM_cons_eq_ok_iff.1 h
    rw [List.mem_cons, ih hcs, List.exists_mem_cons_iff, hc]
    refine or_congr_left ⟨fun heq => congrArg _ heq.symm, fun heq => (Except.ok.inj heq).symm⟩

/-- Filtering by a step that may fail keeps the members for which it gives `true`. -/
theorem filterM_eq_filter {f : α → Except ε Bool} {l bs : List α} (h : l.filterM f = .ok bs) :
    bs = l.filter fun a => (f a).toOption == some true := by
  have haux : ∀ acc cs, l.filterAuxM f acc = .ok cs →
      cs = (l.filter fun a => (f a).toOption == some true).reverse ++ acc := by
    clear h
    induction l with
    | nil => exact fun acc cs h => (Except.ok.inj h).symm
    | cons a l ih =>
      intro acc cs h
      rw [List.filterAuxM, bind_eq_ok_iff] at h
      obtain ⟨b, hb, h⟩ := h
      rw [ih _ cs h, List.filter_cons, hb]
      cases b
      · rfl
      · simp [Except.toOption]
  -- what is kept is gathered from the end
  rw [List.filterM, bind_eq_ok_iff] at h
  obtain ⟨cs, hcs, h⟩ := h
  rw [← Except.ok.inj h, haux [] cs hcs, List.append_nil, List.reverse_reverse]

end LineSpec
