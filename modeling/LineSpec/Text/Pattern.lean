/-!
# Regular patterns

Forms of texts: characters of a class, one pattern after another, either of two, and any number of
repetitions. Whether a text has a form is decided character by character: `after p c` is the form of
what may follow `c` in a text of the form `p`. `Pattern.Describes` says what a form means, and
`matches_iff` that the decision is right.
-/

namespace LineSpec.Text

/-- A form of texts. -/
inductive Pattern where
  | never
  | empty
  | char (p : Char → Bool)
  | seq (a b : Pattern)
  | either (a b : Pattern)
  | many (a : Pattern)

namespace Pattern

/-- The texts of a form. -/
inductive Describes : Pattern → List Char → Prop where
  | empty : Describes empty []
  | char {p : Char → Bool} {c : Char} (h : p c = true) : Describes (char p) [c]
  | seq {a b : Pattern} {s t : List Char} (h : Describes a s) (h' : Describes b t) :
      Describes (seq a b) (s ++ t)
  | left {a b : Pattern} {s : List Char} (h : Describes a s) : Describes (either a b) s
  | right {a b : Pattern} {s : List Char} (h : Describes b s) : Describes (either a b) s
  | done {a : Pattern} : Describes (many a) []
  | more {a : Pattern} {s t : List Char} (h : Describes a s) (h' : Describes (many a) t) :
      Describes (many a) (s ++ t)

/-! ## Deciding -/

/-- Whether the empty text is of the form. -/
def acceptsEmpty : Pattern → Bool
  | never => false
  | empty => true
  | char _ => false
  | seq a b => a.acceptsEmpty && b.acceptsEmpty
  | either a b => a.acceptsEmpty || b.acceptsEmpty
  | many _ => true

/-- `a.andThen b` is `seq a b`, kept small. -/
def andThen : Pattern → Pattern → Pattern
  | never, _ => never
  | empty, b => b
  | a, b => seq a b

/-- `a.or b` is `either a b`, kept small. -/
def or : Pattern → Pattern → Pattern
  | never, b => b
  | a, never => a
  | a, b => either a b

/-- What may follow the character `c` in a text of the form. -/
def after (c : Char) : Pattern → Pattern
  | never => never
  | empty => never
  | char p => if p c then empty else never
  | seq a b =>
    if a.acceptsEmpty then ((a.after c).andThen b).or (b.after c) else (a.after c).andThen b
  | either a b => (a.after c).or (b.after c)
  | many a => (a.after c).andThen (many a)

/-- Whether a text is of the form. -/
def matchesChars (p : Pattern) : List Char → Bool
  | [] => p.acceptsEmpty
  | c :: cs => (p.after c).matchesChars cs

/-! ## What each form describes -/

theorem describes_char_iff {p : Char → Bool} {s : List Char} :
    Describes (char p) s ↔ ∃ c, s = [c] ∧ p c = true := by
  constructor
  · intro h
    cases h with
    | @char _ c h => exact ⟨c, rfl, h⟩
  · rintro ⟨c, rfl, h⟩
    exact .char h

theorem describes_seq_iff {a b : Pattern} {x : List Char} :
    Describes (seq a b) x ↔ ∃ s t, x = s ++ t ∧ Describes a s ∧ Describes b t := by
  constructor
  · intro h
    cases h with
    | @seq _ _ s t ha hb => exact ⟨s, t, rfl, ha, hb⟩
  · rintro ⟨s, t, rfl, ha, hb⟩
    exact .seq ha hb

theorem describes_either_iff {a b : Pattern} {s : List Char} :
    Describes (either a b) s ↔ Describes a s ∨ Describes b s := by
  constructor
  · intro h
    cases h with
    | left h => exact .inl h
    | right h => exact .inr h
  · rintro (h | h)
    · exact .left h
    · exact .right h

/-- What a sequence describes begins in its first form or, if that may be empty, in its second. -/
theorem describes_seq_cons_iff {a b : Pattern} {c : Char} {cs : List Char} :
    Describes (seq a b) (c :: cs) ↔
      (∃ s t, cs = s ++ t ∧ Describes a (c :: s) ∧ Describes b t) ∨
        Describes a [] ∧ Describes b (c :: cs) := by
  rw [describes_seq_iff]
  constructor
  · rintro ⟨s, t, hst, ha, hb⟩
    cases s with
    | nil => exact .inr ⟨ha, hst ▸ hb⟩
    | cons d s =>
      obtain ⟨rfl, rfl⟩ := List.cons.inj hst
      exact .inl ⟨s, t, rfl, ha, hb⟩
  · rintro (⟨s, t, rfl, ha, hb⟩ | ⟨ha, hb⟩)
    · exact ⟨c :: s, t, rfl, ha, hb⟩
    · exact ⟨[], c :: cs, rfl, ha, hb⟩

/-- What repetitions describe begins in one of them that is not empty. -/
theorem describes_many_cons_iff {a : Pattern} {c : Char} {cs : List Char} :
    Describes (many a) (c :: cs) ↔
      ∃ s t, cs = s ++ t ∧ Describes a (c :: s) ∧ Describes (many a) t := by
  constructor
  · intro h
    generalize hp : many a = p at h
    generalize hx : c :: cs = x at h
    induction h with
    | @more a' s t ha hb _ ih =>
      cases hp
      cases s with
      | nil => exact ih rfl hx
      | cons d s =>
        obtain ⟨rfl, rfl⟩ := List.cons.inj hx
        exact ⟨s, t, rfl, ha, hb⟩
    | done => cases hx
    | _ => cases hp
  · rintro ⟨s, t, rfl, ha, hb⟩
    exact .more (s := c :: s) ha hb

/-! ## The decision is right -/

theorem acceptsEmpty_iff (p : Pattern) : p.acceptsEmpty = true ↔ Describes p [] := by
  induction p with
  | never => exact ⟨nofun, nofun⟩
  | empty => exact ⟨fun _ => .empty, fun _ => rfl⟩
  | char p => exact ⟨nofun, nofun⟩
  | seq a b iha ihb =>
    rw [acceptsEmpty, Bool.and_eq_true, iha, ihb, describes_seq_iff]
    constructor
    · rintro ⟨ha, hb⟩
      exact ⟨[], [], rfl, ha, hb⟩
    · rintro ⟨s, t, hst, ha, hb⟩
      obtain ⟨rfl, rfl⟩ := List.append_eq_nil_iff.1 hst.symm
      exact ⟨ha, hb⟩
  | either a b iha ihb => rw [acceptsEmpty, Bool.or_eq_true, iha, ihb, describes_either_iff]
  | many a _ => exact ⟨fun _ => .done, fun _ => rfl⟩

theorem describes_andThen {a b : Pattern} {s : List Char} :
    Describes (a.andThen b) s ↔ Describes (seq a b) s := by
  unfold andThen
  split
  · constructor
    · nofun
    · intro h
      cases h with
      | seq ha _ => nomatch ha
  · constructor
    · intro h
      exact .seq .empty h
    · intro h
      cases h with
      | seq ha hb => cases ha; exact hb
  · rfl

theorem describes_or {a b : Pattern} {s : List Char} :
    Describes (a.or b) s ↔ Describes (either a b) s := by
  unfold or
  split
  · exact ⟨.right, fun h => by cases h with | left h => nomatch h | right h => exact h⟩
  · exact ⟨.left, fun h => by cases h with | left h => exact h | right h => nomatch h⟩
  · rfl

theorem describes_after (p : Pattern) (c : Char) (cs : List Char) :
    Describes (p.after c) cs ↔ Describes p (c :: cs) := by
  induction p generalizing cs with
  | never => exact ⟨nofun, nofun⟩
  | empty => exact ⟨nofun, nofun⟩
  | char p =>
    rw [after, describes_char_iff]
    split
    next hp =>
      constructor
      · rintro ⟨⟩
        exact ⟨c, rfl, hp⟩
      · rintro ⟨_, ⟨⟩, -⟩
        exact .empty
    next hp =>
      constructor
      · nofun
      · rintro ⟨_, ⟨⟩, hp'⟩
        exact absurd hp' hp
  | seq a b iha ihb =>
    have hfirst : Describes ((a.after c).andThen b) cs ↔
        ∃ s t, cs = s ++ t ∧ Describes a (c :: s) ∧ Describes b t := by
      simp only [describes_andThen, describes_seq_iff, iha]
    rw [after, describes_seq_cons_iff, ← acceptsEmpty_iff]
    split
    next hempty => simp only [describes_or, describes_either_iff, hfirst, ihb, hempty, true_and]
    next hempty => simp only [hfirst, hempty, false_and, or_false, Bool.false_eq_true]
  | either a b iha ihb =>
    rw [after, describes_or, describes_either_iff, describes_either_iff, iha, ihb]
  | many a ih =>
    rw [after, describes_andThen, describes_seq_iff, describes_many_cons_iff]
    simp only [ih]

theorem matches_iff (p : Pattern) (cs : List Char) : p.matchesChars cs = true ↔ Describes p cs := by
  induction cs generalizing p with
  | nil => exact acceptsEmpty_iff p
  | cons c cs ih => rw [matchesChars, ih, describes_after]

/-! ## Building forms -/

/-- One given character. -/
def one (c : Char) : Pattern := char (· == c)

/-- The text itself. -/
def word (s : String) : Pattern :=
  s.toList.foldr (fun c p => seq (one c) p) empty

/-- One of the characters of a text. -/
def among (s : String) : Pattern := char s.toList.contains

/-- The pattern or nothing. -/
def optional (p : Pattern) : Pattern := either p empty

/-- The pattern at least once. -/
def atLeastOnce (p : Pattern) : Pattern := seq p (many p)

/-- Patterns one after the other. -/
def all (ps : List Pattern) : Pattern := ps.foldr seq empty

/-- One of several patterns. -/
def any (ps : List Pattern) : Pattern := ps.foldr either never

end Pattern

end LineSpec.Text
