import LineSpec.Match.Run
import Mathlib.Data.List.Basic
import Mathlib.Data.List.Induction
import Mathlib.Order.Bounds.Basic
/-!
# Placing the literals of a body

What it means that a body matches, without a scan: each literal is assigned one line of the input.
A literal that opens the body has the first line, one right after a literal the next line, and one
after skips the first line from there on that it equals.

`Placement` says this of a list of indices by position. It looks only at the literals before the one
that is placed, so bodies are extended at their end here: a further skip asks for nothing
(`placement_concat_skip`), a further literal for one more index (`Placement.concat_literal`,
`Placement.of_concat_literal`). Everything else follows from these by induction from the end of the
body.
-/

namespace LineSpec

/-! ## The literals of a body -/

/-- A literal of a body, with its number and whether a skip stands directly before it. -/
structure Body.Literal where
  text : Text
  line : Int
  afterSkip : Bool
  deriving DecidableEq, Repr

namespace Body

/-- The literals of a body, where `afterSkip` tells whether a skip stands directly before it. -/
def literalsFrom (afterSkip : Bool) : Body → List Literal
  | [] => []
  | .literal text line :: body => ⟨text, line, afterSkip⟩ :: literalsFrom false body
  | .skip _ :: body => literalsFrom true body

/-- The literals of a body in order. -/
def literals (body : Body) : List Literal := literalsFrom false body

@[simp] theorem endsWithSkip_concat (body : Body) (e : Entry) :
    endsWithSkip (body ++ [e]) = e.isSkip := by
  simp [endsWithSkip]

theorem literalsFrom_append (afterSkip : Bool) (body body' : Body) :
    literalsFrom afterSkip (body ++ body') =
      literalsFrom afterSkip body ++
        literalsFrom (body.getLast?.elim afterSkip Entry.isSkip) body' := by
  induction body generalizing afterSkip with
  | nil => rfl
  | cons e body ih =>
    cases e with
    | literal text line =>
      simp only [List.cons_append, literalsFrom, ih, List.getLast?_cons]
      cases body.getLast? <;> rfl
    | skip line =>
      simp only [List.cons_append, literalsFrom, ih, List.getLast?_cons]
      cases body.getLast? <;> rfl

@[simp] theorem literals_concat_skip (body : Body) (line : Int) :
    literals (body ++ [.skip line]) = literals body := by
  simp [literals, literalsFrom_append, literalsFrom]

@[simp] theorem literals_concat_literal (body : Body) (text : Text) (line : Int) :
    literals (body ++ [.literal text line]) =
      literals body ++ [⟨text, line, body.endsWithSkip⟩] := by
  rw [literals, literalsFrom_append, literals, endsWithSkip]
  cases body.getLast? <;> rfl

end Body

namespace Match

variable {ε : Type} {resolve : Text → Except ε Text} {lines : List Text}

/-! ## The line of one literal -/

/-- The first index after the indices `is`, which is 0 when there are none. -/
def reach (is : List Nat) : Nat := is.getLast?.elim 0 (· + 1)

@[simp] theorem reach_nil : reach [] = 0 := rfl

@[simp] theorem reach_concat (is : List Nat) (i : Nat) : reach (is ++ [i]) = i + 1 := by
  simp [reach]

/-- `Lands lines start afterSkip t i` says that `i` is the index for a literal that reads `t` when
the indices before `start` are taken: `start` itself, or after a skip the least one from there on
at which `t` stands. -/
def Lands (lines : List Text) (start : Nat) (afterSkip : Bool) (t : Text) (i : Nat) : Prop :=
  if afterSkip then IsLeast {j | start ≤ j ∧ lines[j]? = some t} i
  else i = start ∧ lines[i]? = some t

theorem lands_true {start i : Nat} {t : Text} :
    Lands lines start true t i ↔ IsLeast {j | start ≤ j ∧ lines[j]? = some t} i := by
  simp [Lands]

theorem lands_false {start i : Nat} {t : Text} :
    Lands lines start false t i ↔ i = start ∧ lines[i]? = some t := by
  simp [Lands]

theorem Lands.getElem?_eq {start i : Nat} {afterSkip : Bool} {t : Text}
    (h : Lands lines start afterSkip t i) : lines[i]? = some t := by
  cases afterSkip with
  | false => exact (lands_false.1 h).2
  | true => exact (lands_true.1 h).1.2

theorem Lands.start_le {start i : Nat} {afterSkip : Bool} {t : Text}
    (h : Lands lines start afterSkip t i) : start ≤ i := by
  cases afterSkip with
  | false => exact (lands_false.1 h).1.ge
  | true => exact (lands_true.1 h).1.1

theorem Lands.unique {start i i' : Nat} {afterSkip : Bool} {t : Text}
    (h : Lands lines start afterSkip t i) (h' : Lands lines start afterSkip t i') : i = i' := by
  cases afterSkip with
  | false => rw [(lands_false.1 h).1, (lands_false.1 h').1]
  | true => exact (lands_true.1 h).unique (lands_true.1 h')

/-! ## The lines of all literals -/

/-- `Placement resolve lines body is` says that the literals of `body` have the lines with the
indices `is`, one each and in order: what a literal resolves to stands at its index, and the index
is the one that `Lands` asks for after the indices of the literals before it. -/
structure Placement (resolve : Text → Except ε Text) (lines : List Text) (body : Body)
    (is : List Nat) : Prop where
  length_eq : is.length = body.literals.length
  lands : ∀ (j : Nat) (l : Body.Literal) (i : Nat), body.literals[j]? = some l → is[j]? = some i →
    ∃ t, resolve l.text = .ok t ∧ Lands lines (reach (is.take j)) l.afterSkip t i

theorem placement_nil {is : List Nat} : Placement resolve lines [] is ↔ is = [] := by
  constructor
  · intro h
    exact List.length_eq_zero_iff.1 h.length_eq
  · rintro rfl
    exact ⟨rfl, by simp⟩

theorem placement_concat_skip {body : Body} {line : Int} {is : List Nat} :
    Placement resolve lines (body ++ [.skip line]) is ↔ Placement resolve lines body is := by
  constructor
  · rintro ⟨hlen, hl⟩
    rw [Body.literals_concat_skip] at hlen hl
    exact ⟨hlen, hl⟩
  · rintro ⟨hlen, hl⟩
    refine ⟨?_, ?_⟩ <;> rw [Body.literals_concat_skip]
    · exact hlen
    · exact hl

/-- One more literal asks for one more index, which depends on the indices so far only through
`reach`. -/
theorem Placement.concat_literal {body : Body} {text t : Text} {line : Int} {is : List Nat}
    {i : Nat} (h : Placement resolve lines body is) (ht : resolve text = .ok t)
    (hi : Lands lines (reach is) body.endsWithSkip t i) :
    Placement resolve lines (body ++ [.literal text line]) (is ++ [i]) := by
  refine ⟨by simp [h.length_eq], ?_⟩
  intro j l i' hl hi'
  rw [Body.literals_concat_literal] at hl
  have hj : j < (is ++ [i]).length := (List.getElem?_eq_some_iff.1 hi').1
  rw [List.length_append, List.length_singleton] at hj
  rcases Nat.lt_or_ge j is.length with hlt | hge
  · -- an index of the old body: nothing before it has changed
    rw [List.getElem?_append_left (h.length_eq ▸ hlt)] at hl
    rw [List.getElem?_append_left hlt] at hi'
    rw [List.take_append_of_le_length (Nat.le_of_lt hlt)]
    exact h.lands j l i' hl hi'
  · obtain rfl : j = is.length := by omega
    rw [List.getElem?_concat_length] at hi'
    rw [h.length_eq, List.getElem?_concat_length] at hl
    obtain rfl := Option.some.inj hl
    obtain rfl := Option.some.inj hi'
    rw [List.take_left]
    exact ⟨t, ht, hi⟩

/-- The last index of a placement is that of the last literal. -/
theorem Placement.of_concat_literal {body : Body} {text : Text} {line : Int} {is : List Nat}
    (h : Placement resolve lines (body ++ [.literal text line]) is) :
    ∃ is' i t, is = is' ++ [i] ∧ Placement resolve lines body is' ∧ resolve text = .ok t ∧
      Lands lines (reach is') body.endsWithSkip t i := by
  obtain ⟨hlen, hl⟩ := h
  rw [Body.literals_concat_literal] at hlen hl
  rw [List.length_append, List.length_singleton] at hlen
  obtain rfl | ⟨is', i, rfl⟩ := List.eq_nil_or_concat' is
  · simp at hlen
  have hlen' : is'.length = body.literals.length := by simpa using hlen
  -- the last index belongs to the last literal, and the others keep theirs
  obtain ⟨t, ht, hi⟩ := hl is'.length _ i (by rw [hlen', List.getElem?_concat_length])
    List.getElem?_concat_length
  rw [List.take_left] at hi
  refine ⟨is', i, t, rfl, ⟨hlen', ?_⟩, ht, hi⟩
  intro j l i' hj hj'
  have hlt : j < is'.length := (List.getElem?_eq_some_iff.1 hj').1
  have := hl j l i' (by rwa [List.getElem?_append_left (hlen' ▸ hlt)])
    (by rwa [List.getElem?_append_left hlt])
  rwa [List.take_append_of_le_length (Nat.le_of_lt hlt)] at this

/-! ## Laws -/

theorem Placement.unique {body : Body} {is is' : List Nat} (h : Placement resolve lines body is)
    (h' : Placement resolve lines body is') : is = is' := by
  induction body using List.reverseRecOn generalizing is is' with
  | nil => rw [placement_nil.1 h, placement_nil.1 h']
  | append_singleton body e ih =>
    cases e with
    | skip line => exact ih (placement_concat_skip.1 h) (placement_concat_skip.1 h')
    | literal text line =>
      obtain ⟨js, i, t, rfl, hp, ht, hi⟩ := h.of_concat_literal
      obtain ⟨js', i', t', rfl, hp', ht', hi'⟩ := h'.of_concat_literal
      obtain rfl := ih hp hp'
      obtain rfl : t = t' := Except.ok.inj (ht.symm.trans ht')
      rw [hi.unique hi']

/-- The beginning of a body that can be placed can be placed. -/
theorem Placement.of_append {body body' : Body} {is : List Nat}
    (h : Placement resolve lines (body ++ body') is) :
    ∃ is', Placement resolve lines body is' := by
  induction body' using List.reverseRecOn generalizing is with
  | nil => exact ⟨is, by simpa using h⟩
  | append_singleton body' e ih =>
    rw [← List.append_assoc] at h
    cases e with
    | skip line => exact ih (placement_concat_skip.1 h)
    | literal text line =>
      obtain ⟨is', i, t, rfl, hp, -, -⟩ := h.of_concat_literal
      exact ih hp

/-- A literal that is placed resolves. -/
theorem Placement.resolves {body : Body} {is : List Nat} (h : Placement resolve lines body is)
    {text : Text} {line : Int} (hmem : .literal text line ∈ body) :
    ∃ t, resolve text = .ok t := by
  obtain ⟨before, after, rfl⟩ := List.append_of_mem hmem
  rw [← List.singleton_append, ← List.append_assoc] at h
  obtain ⟨is', h'⟩ := h.of_append
  obtain ⟨-, -, t, -, -, ht, -⟩ := h'.of_concat_literal
  exact ⟨t, ht⟩

theorem Placement.reach_le {body : Body} {is : List Nat} (h : Placement resolve lines body is) :
    reach is ≤ lines.length := by
  induction body using List.reverseRecOn generalizing is with
  | nil => simp [placement_nil.1 h]
  | append_singleton body e ih =>
    cases e with
    | skip line => exact ih (placement_concat_skip.1 h)
    | literal text line =>
      obtain ⟨is', i, t, rfl, -, -, hi⟩ := h.of_concat_literal
      rw [reach_concat]
      exact (List.getElem?_eq_some_iff.1 hi.getElem?_eq).1

/-! ## How far a body can be placed -/

/-- `StopsAt resolve lines body before` says that the entries `before` are the longest beginning of
`body` that can be placed, and that a literal follows them: it is where a match fails. -/
def StopsAt (resolve : Text → Except ε Text) (lines : List Text) (body before : Body) : Prop :=
  (∃ is, Placement resolve lines before is) ∧
    ∃ text line after, body = before ++ .literal text line :: after ∧
      ¬∃ is, Placement resolve lines (before ++ [.literal text line]) is

/-- Either a body can be placed or there is a literal where it stops. -/
theorem placement_or_stopsAt (resolve : Text → Except ε Text) (lines : List Text) (body : Body) :
    (∃ is, Placement resolve lines body is) ∨ ∃ before, StopsAt resolve lines body before := by
  induction body using List.reverseRecOn with
  | nil => exact Or.inl ⟨[], placement_nil.2 rfl⟩
  | append_singleton body e ih =>
    rcases ih with ⟨is, h⟩ | ⟨before, hplaced, text, line, after, rfl, hstop⟩
    · cases e with
      | skip line => exact Or.inl ⟨is, placement_concat_skip.2 h⟩
      | literal text line =>
        by_cases hp : ∃ is', Placement resolve lines (body ++ [.literal text line]) is'
        · exact Or.inl hp
        · exact Or.inr ⟨body, ⟨is, h⟩, text, line, [], rfl, hp⟩
    · -- a longer body stops where its beginning does
      exact Or.inr ⟨before, hplaced, text, line, after ++ [e], by simp, hstop⟩

/-- There is only one place where a body stops. -/
theorem StopsAt.unique {body before before' : Body} (h : StopsAt resolve lines body before)
    (h' : StopsAt resolve lines body before') : before = before' := by
  -- of two such beginnings the longer one would contain the entry that cannot be placed
  have hle : ∀ {b b' : Body}, StopsAt resolve lines body b → StopsAt resolve lines body b' →
      b'.length ≤ b.length := by
    rintro b b' ⟨-, text, line, after, hb, hstop⟩ ⟨⟨is', hp'⟩, text', line', after', hb', -⟩
    by_contra hlt
    have hlen : (b ++ [Entry.literal text line]).length ≤ b'.length := by
      rw [List.length_append, List.length_singleton]
      omega
    have hpre : b ++ [Entry.literal text line] <+: body := ⟨after, by simp [hb]⟩
    obtain ⟨rest, rfl⟩ := List.prefix_of_prefix_length_le hpre ⟨_, hb'.symm⟩ hlen
    exact hstop hp'.of_append
  have hlen : before.length = before'.length := Nat.le_antisymm (hle h' h) (hle h h')
  obtain ⟨-, text, line, after, hb, -⟩ := h
  obtain ⟨-, text', line', after', hb', -⟩ := h'
  exact (List.append_inj (hb.symm.trans hb') hlen).1

end Match

end LineSpec
