import LineSpec.Proofs.Match.Diagnosis
/-!
# Skips as wildcards

The other way to read a body: a skip stands for any lines at all, and a body matches when some
choice of them makes it fit the beginning of the input. A match makes one choice for each skip, the
shortest, and never another. Its choice is not always the right one, but it is never behind: lines
that a body fits reach at least as far as its placement (`Placement.reach_le_of_fits`). So a match
that runs out of input, or that fails before it made any choice, shows that no choice is right, and
where each literal after a skip has a skip of its own the shortest choice is as good as any.
-/

namespace LineSpec

/-- Whether each literal after the first skip of a body stands directly after a skip. -/
def Body.IsAnchored (body : Body) : Prop :=
  ∀ (i j : Nat) (text : Text) (n line : Int), i < j → body[i]? = some (.skip n) →
    body[j]? = some (.literal text line) → ∃ n', body[j - 1]? = some (.skip n')

/-- In an anchored body a literal without a skip directly before it has none before it at all. -/
theorem Body.IsAnchored.isSkip_eq_false {before after : Body} {text : Text}
    {line : Int} (h : Body.IsAnchored (before ++ .literal text line :: after))
    (hskip : before.endsWithSkip = false) : ∀ e ∈ before, e.isSkip = false := by
  intro e he
  cases e with
  | literal => rfl
  | skip n =>
    obtain ⟨i, hi⟩ := List.mem_iff_getElem?.1 he
    have hlt : i < before.length := (List.getElem?_eq_some_iff.1 hi).1
    obtain ⟨n', hn'⟩ := h i before.length text n line hlt
      (by rwa [List.getElem?_append_left hlt]) (by simp)
    rw [List.getElem?_append_left (by omega), ← List.getLast?_eq_getElem?] at hn'
    rw [Body.endsWithSkip, hn'] at hskip
    exact absurd hskip (by simp [Entry.isSkip])

namespace Match

variable {ε : Type} {resolve : Text → Except ε Text} {lines : List Text}

/-! ## What a body stands for -/

/-- `Fits resolve body lines` says that `body` stands for exactly `lines` when each of its skips
stands for suitable ones, none or more. -/
inductive Fits (resolve : Text → Except ε Text) : Body → List Text → Prop
  | nil : Fits resolve [] []
  | literal {text t : Text} {body : Body} {lines : List Text} (line : Int) :
      resolve text = .ok t → Fits resolve body lines →
      Fits resolve (.literal text line :: body) (t :: lines)
  | skip {body : Body} {lines : List Text} (line : Int) (skipped : List Text) :
      Fits resolve body lines → Fits resolve (.skip line :: body) (skipped ++ lines)

/-- `Matchable resolve body lines` says that for some choice of what the skips stand for `body` is
the beginning of `lines`. -/
def Matchable (resolve : Text → Except ε Text) (body : Body) (lines : List Text) : Prop :=
  ∃ front, front <+: lines ∧ Fits resolve body front

theorem fits_literal {body : Body} {text : Text} {line : Int} {front : List Text} :
    Fits resolve (.literal text line :: body) front ↔
      ∃ t rest, front = t :: rest ∧ resolve text = .ok t ∧ Fits resolve body rest := by
  constructor
  · rintro (_ | ⟨_, ht, h⟩)
    exact ⟨_, _, rfl, ht, h⟩
  · rintro ⟨t, rest, rfl, ht, h⟩
    exact .literal line ht h

/-- What two bodies in a row stand for are two parts in a row. -/
theorem fits_append {body body' : Body} {front : List Text} :
    Fits resolve (body ++ body') front ↔
      ∃ l l', front = l ++ l' ∧ Fits resolve body l ∧ Fits resolve body' l' := by
  constructor
  · intro h
    induction body generalizing front with
    | nil => exact ⟨[], front, rfl, .nil, h⟩
    | cons e body ih =>
      cases h with
      | literal line ht h' =>
        obtain ⟨l, l', rfl, hl, hl'⟩ := ih h'
        exact ⟨_ :: l, l', rfl, .literal line ht hl, hl'⟩
      | skip line skipped h' =>
        obtain ⟨l, l', rfl, hl, hl'⟩ := ih h'
        exact ⟨skipped ++ l, l', (List.append_assoc ..).symm, .skip line skipped hl, hl'⟩
  · rintro ⟨l, l', rfl, hl, hl'⟩
    induction hl with
    | nil => exact hl'
    | literal line ht _ ih => exact .literal line ht ih
    | skip line skipped _ ih =>
      rw [List.append_assoc]
      exact .skip line skipped ih

/-- A skip that ends a body can stand for more lines. -/
theorem Fits.append_of_endsWithSkip {body : Body} {front : List Text} (h : Fits resolve body front)
    (hskip : body.endsWithSkip = true) (more : List Text) : Fits resolve body (front ++ more) := by
  induction h with
  | nil => exact absurd hskip Bool.false_ne_true
  | @literal _ _ body _ line ht h ih =>
    refine .literal line ht (ih ?_)
    cases body with
    | nil => exact hskip
    | cons e body => simpa [Body.endsWithSkip] using hskip
  | @skip body _ line skipped h ih =>
    cases body with
    | nil =>
      obtain _ | _ := h
      simpa using Fits.skip line (skipped ++ more) Fits.nil
    | cons e body =>
      rw [List.append_assoc]
      exact .skip line skipped (ih (by simpa [Body.endsWithSkip] using hskip))

theorem Fits.length_eq {body : Body} {front : List Text} (h : Fits resolve body front)
    (hskip : ∀ e ∈ body, e.isSkip = false) : front.length = body.length := by
  induction h with
  | nil => rfl
  | literal line ht h ih =>
    rw [List.length_cons, List.length_cons, ih fun e he => hskip e (List.mem_cons_of_mem _ he)]
  | skip line skipped h ih =>
    exact absurd (hskip _ List.mem_cons_self) (by simp [Entry.isSkip])

/-! ## Placements and choices -/

/-- A placement is a choice: the body stands for the lines up to the last placed one. -/
theorem Placement.fits {body : Body} {is : List Nat} (h : Placement resolve lines body is) :
    Fits resolve body (lines.take (reach is)) := by
  induction body using List.reverseRecOn generalizing is with
  | nil =>
    rw [placement_nil.1 h, reach_nil, List.take_zero]
    exact .nil
  | append_singleton body e ih =>
    cases e with
    | skip line =>
      have hb := ih (placement_concat_skip.1 h)
      exact fits_append.2 ⟨_, [], (List.append_nil _).symm, hb, .skip line [] .nil⟩
    | literal text line =>
      obtain ⟨is', i, t, rfl, hp, ht, hi⟩ := h.of_concat_literal
      -- the lines between the last placed one and this one belong to the skip before it
      have hb : Fits resolve body (lines.take i) := by
        cases hskip : Body.endsWithSkip body with
        | false =>
          rw [hskip] at hi
          rw [(lands_false.1 hi).1]
          exact ih hp
        | true =>
          have hmore := (ih hp).append_of_endsWithSkip hskip
            ((lines.drop (reach is')).take (i - reach is'))
          rwa [← List.take_add, Nat.add_sub_cancel' hi.start_le] at hmore
      rw [reach_concat, List.take_add_one, hi.getElem?_eq]
      exact fits_append.2 ⟨_, [t], rfl, hb, .literal line ht .nil⟩

/-- No choice ends before the placement does. -/
theorem Placement.reach_le_of_fits {body : Body} {is : List Nat} {front : List Text}
    (h : Placement resolve lines body is) (hf : Fits resolve body front)
    (hpre : front <+: lines) : reach is ≤ front.length := by
  induction body using List.reverseRecOn generalizing is front with
  | nil =>
    rw [placement_nil.1 h]
    exact Nat.zero_le _
  | append_singleton body e ih =>
    obtain ⟨l, l', rfl, hl, hl'⟩ := fits_append.1 hf
    have hpre' : l <+: lines := (List.prefix_append l l').trans hpre
    cases e with
    | skip line =>
      have := ih (placement_concat_skip.1 h) hl hpre'
      rw [List.length_append]
      omega
    | literal text line =>
      obtain ⟨is', i, t, rfl, hp, ht, hi⟩ := h.of_concat_literal
      obtain ⟨t', rest, rfl, ht', hrest⟩ := fits_literal.1 hl'
      obtain rfl : t = t' := Except.ok.inj (ht.symm.trans ht')
      have hle := ih hp hl hpre'
      -- the choice has this literal at index `l.length`, which the placement could take as well
      have hat : lines[l.length]? = some t := by
        obtain ⟨after, rfl⟩ := hpre
        simp
      have hi' : i ≤ l.length := by
        cases hskip : Body.endsWithSkip body with
        | false =>
          rw [hskip] at hi
          rw [(lands_false.1 hi).1]
          exact hle
        | true =>
          rw [hskip] at hi
          exact (lands_true.1 hi).2 ⟨hle, hat⟩
      rw [reach_concat, List.length_append, List.length_cons]
      omega

/-- The choice at the literal where a placement stops: the literal stands behind the placed lines,
at a line that it equals. -/
theorem Matchable.exists_getElem? {before after : Body} {text : Text} {line : Int} {is : List Nat}
    (hm : Matchable resolve (before ++ .literal text line :: after) lines)
    (h : Placement resolve lines before is) :
    ∃ front t, Fits resolve before front ∧ reach is ≤ front.length ∧ resolve text = .ok t ∧
      lines[front.length]? = some t := by
  obtain ⟨front, hpre, hf⟩ := hm
  obtain ⟨l, l', rfl, hl, hl'⟩ := fits_append.1 hf
  obtain ⟨t, rest, rfl, ht, -⟩ := fits_literal.1 hl'
  refine ⟨l, t, hl, h.reach_le_of_fits hl ((List.prefix_append l _).trans hpre), ht, ?_⟩
  obtain ⟨more, rfl⟩ := hpre
  simp

/-! ## What a diagnosis tells of the choices -/

section
variable {strictEnd : Bool} {body : Body}

theorem matchable_of_matched (hd : Diagnosis resolve strictEnd lines body .matched) :
    Matchable resolve body lines ∧
      (strictEnd = true → body.endsWithSkip = false → Fits resolve body lines) := by
  obtain ⟨placed, atEnd⟩ := hd
  refine ⟨⟨_, List.take_prefix _ _, placed.fits⟩, fun hstrict hskip => ?_⟩
  have hfits := placed.fits
  rwa [atEnd hstrict hskip, List.take_length] at hfits

/-- A match that runs out of input has not passed over a right choice: the lines of any choice would
reach behind the placed ones, where the literal is not found. -/
theorem not_matchable_of_inputEnds {n line : Int} {expected : Text}
    (hd : Diagnosis resolve strictEnd lines body (.failed (.inputEnds n expected line))) :
    ¬Matchable resolve body lines := by
  intro hm
  cases hd with
  | @inputEnds before after text _ _ is split placed resolved ended =>
    subst split
    obtain ⟨front, t, -, hle, ht, hat⟩ := hm.exists_getElem? placed
    obtain rfl : expected = t := Except.ok.inj (resolved.symm.trans ht)
    have hlt := (List.getElem?_eq_some_iff.1 hat).1
    cases hskip : before.endsWithSkip with
    | false =>
      rw [hskip, if_neg Bool.false_ne_true] at ended
      omega
    | true =>
      rw [hskip, if_pos rfl] at ended
      refine ended (List.mem_iff_getElem?.2 ⟨front.length - reach is, ?_⟩)
      rw [List.getElem?_drop, Nat.add_sub_cancel' hle]
      exact hat

/-- Without a skip before it, a literal has only one line to stand at. -/
theorem not_matchable_of_ne {before after : Body} {text expected actual : Text} {line : Int}
    {is : List Nat} (placed : Placement resolve lines before is)
    (hskip : ∀ e ∈ before, e.isSkip = false) (resolved : resolve text = .ok expected)
    (found : lines[reach is]? = some actual) (ne : expected ≠ actual) :
    ¬Matchable resolve (before ++ .literal text line :: after) lines := by
  intro hm
  obtain ⟨front, t, hf, -, ht, hat⟩ := hm.exists_getElem? placed
  obtain rfl : expected = t := Except.ok.inj (resolved.symm.trans ht)
  -- without skips `before` stands for as many lines as it has entries, in the choice as well
  have hreach : (lines.take (reach is)).length = before.length := placed.fits.length_eq hskip
  rw [List.length_take, Nat.min_eq_left placed.reach_le] at hreach
  rw [hf.length_eq hskip, ← hreach, found] at hat
  exact ne (Option.some.inj hat).symm

/-- A match that finds another line stops at the literal that it expected there. -/
theorem stopsAt_of_ne {before after : Body} {text expected actual : Text} {line : Int}
    {is : List Nat} (placed : Placement resolve lines before is)
    (next : before.endsWithSkip = false) (resolved : resolve text = .ok expected)
    (found : lines[reach is]? = some actual) (ne : expected ≠ actual) :
    StopsAt resolve lines (before ++ .literal text line :: after) before := by
  refine ⟨⟨is, placed⟩, text, line, after, rfl, ?_⟩
  rintro ⟨js, hjs⟩
  obtain ⟨is', i, t, rfl, hp, ht, hi⟩ := hjs.of_concat_literal
  obtain rfl := hp.unique placed
  obtain rfl : expected = t := Except.ok.inj (resolved.symm.trans ht)
  rw [next] at hi
  obtain ⟨rfl, hat⟩ := lands_false.1 hi
  exact ne (Option.some.inj (hat.symm.trans found))

theorem not_matchable_of_differs {n offset line : Int} {expected actual : Text} {before : Body}
    (hd : Diagnosis resolve strictEnd lines body
      (.failed (.differs n expected actual offset line)))
    (hstop : StopsAt resolve lines body before) (hskip : ∀ e ∈ before, e.isSkip = false) :
    ¬Matchable resolve body lines := by
  cases hd with
  | differs split placed next resolved found ne common =>
    subst split
    obtain rfl := hstop.unique (stopsAt_of_ne placed next resolved found ne)
    exact not_matchable_of_ne placed hskip resolved found ne

/-- Where each literal after a skip has a skip of its own, every verdict but success is at odds with
a right choice or with the end check. -/
theorem eq_matched_of_matchable {v : Verdict ε} (hd : Diagnosis resolve strictEnd lines body v)
    (hanch : body.IsAnchored) (hopen : strictEnd = false ∨ body.endsWithSkip = true)
    (hm : Matchable resolve body lines) : v = .matched := by
  cases hd with
  | matched placed atEnd => rfl
  | unresolved split placed refused =>
    subst split
    -- every choice resolves the literal
    obtain ⟨front, t, -, -, ht, -⟩ := hm.exists_getElem? placed
    rw [refused] at ht
    cases ht
  | differs split placed next resolved found ne common =>
    subst split
    exact absurd hm (not_matchable_of_ne placed (hanch.isSkip_eq_false next) resolved found ne)
  | inputEnds split placed resolved ended =>
    have hends : Diagnosis resolve strictEnd lines body _ :=
      .inputEnds split placed resolved ended
    exact absurd hm (not_matchable_of_inputEnds hends)
  | inputGoesOn strict noSkip placed found =>
    rcases hopen with h | h
    · rw [strict] at h
      cases h
    · rw [noSkip] at h
      cases h

end

/-! ## The verdict and the choices -/

/-- A match that succeeds has made a right choice for its skips. There is none when it runs out of
input, and none when it finds another line for a literal that no skip stands before. For an anchored
body whose end may be followed by lines, it succeeds whenever there is a right choice. -/
theorem verdict_wildcard (c : Conventions) (vars : Bindings Text) (body : Body) (ls : List Text) :
    ((c.run vars body ls).verdict = .matched →
      Matchable (c.resolve vars) body (ls.map Text.bare) ∧
        (c.strictEnd = true → body.endsWithSkip = false →
          Fits (c.resolve vars) body (ls.map Text.bare))) ∧
    (∀ n expected line, (c.run vars body ls).verdict = .failed (.inputEnds n expected line) →
      ¬Matchable (c.resolve vars) body (ls.map Text.bare)) ∧
    (∀ n expected actual offset line before,
      (c.run vars body ls).verdict = .failed (.differs n expected actual offset line) →
      StopsAt (c.resolve vars) (ls.map Text.bare) body before →
      (∀ e ∈ before, e.isSkip = false) →
      ¬Matchable (c.resolve vars) body (ls.map Text.bare)) ∧
    (body.IsAnchored → c.strictEnd = false ∨ body.endsWithSkip = true →
      ((c.run vars body ls).verdict = .matched ↔
        Matchable (c.resolve vars) body (ls.map Text.bare))) := by
  have hd := diagnosis_verdict (c.resolve vars) c.strictEnd body ls
  refine ⟨?_, ?_, ?_, ?_⟩
  · intro hv
    exact matchable_of_matched (hv ▸ hd)
  · intro n expected line hv
    exact not_matchable_of_inputEnds (hv ▸ hd)
  · intro n expected actual offset line before hv hstop hskip
    exact not_matchable_of_differs (hv ▸ hd) hstop hskip
  · intro hanch hopen
    exact ⟨fun hv => (matchable_of_matched (hv ▸ hd)).1, eq_matched_of_matchable hd hanch hopen⟩

/-- The shortest choice can be wrong: the skip ends at the first line `a`, which no line `b`
follows, and the second one is not tried. -/
example :
    (run (fun t => (.ok t : Except Empty Text)) false
      [.skip 1, .literal "a" 2, .literal "b" 3] ["a", "a", "b"]).verdict =
        .failed (.differs 2 "b" "a" 0 3) ∧
      Matchable (fun t => (.ok t : Except Empty Text))
        [.skip 1, .literal "a" 2, .literal "b" 3] ["a", "a", "b"] :=
  ⟨by decide, _, List.prefix_refl _, .skip 1 ["a"] (.literal 2 rfl (.literal 3 rfl .nil))⟩

end Match

end LineSpec
