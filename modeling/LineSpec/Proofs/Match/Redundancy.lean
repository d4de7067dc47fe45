import LineSpec.Proofs.Match.Extent
/-!
# Skips that make no difference

A skip that stands beside another one asks for nothing more. So skips in a row can be squeezed into
one, and the match of the squeezed body is the very same run (`run_squeezed`).

A skip between two literals that stand in lines next to each other finds the second one at once, and
one at the end of a body finds what would have been left over anyway. So a body that matches goes on
to match when a skip is put into it, wherever that is, and its literals keep their lines
(`run_insert_skip`).
-/

namespace LineSpec

namespace Body

/-! ## Skips in a row -/

/-- `Squeezes body body'` says that `body'` is `body` with a single skip, of any number, in place of
each run of skips. A run of skips has no further skip beside it. -/
inductive Squeezes : Body → Body → Prop
  | nil : Squeezes [] []
  | literal {body body' : Body} (text : Text) (line : Int) (rest : Squeezes body body') :
      Squeezes (.literal text line :: body) (.literal text line :: body')
  | skips {body body' : Body} (skips : Body) (line : Int) (nonempty : skips ≠ [])
      (areSkips : ∀ e ∈ skips, e.isSkip = true) (maximal : ∀ e ∈ body.head?, e.isSkip = false)
      (rest : Squeezes body body') :
      Squeezes (skips ++ body) (.skip line :: body')

/-- Every body can be squeezed. -/
theorem exists_squeezes (body : Body) : ∃ body', body.Squeezes body' := by
  induction body with
  | nil => exact ⟨[], .nil⟩
  | cons e body ih =>
    obtain ⟨body', h⟩ := ih
    cases e with
    | literal text line => exact ⟨_, .literal text line h⟩
    | skip line =>
      have hsingle : ∀ e ∈ [Entry.skip line], e.isSkip = true := List.forall_mem_singleton.2 rfl
      -- the skip joins the run that the body begins with, or is a run of its own
      cases h with
      | nil => exact ⟨_, .skips _ line (List.cons_ne_nil _ _) hsingle nofun .nil⟩
      | literal text line' rest =>
        refine ⟨_, .skips _ line (List.cons_ne_nil _ _) hsingle ?_ (.literal text line' rest)⟩
        rintro e he
        obtain rfl := Option.some.inj he
        rfl
      | skips skips line' nonempty areSkips maximal rest =>
        have hskips : ∀ e ∈ Entry.skip line :: skips, e.isSkip = true :=
          List.forall_mem_cons.2 ⟨rfl, areSkips⟩
        exact ⟨_, .skips _ line' (List.cons_ne_nil _ _) hskips maximal rest⟩

/-! ## A further skip -/

/-- A literal as an entry of a body. -/
def Literal.entry (l : Literal) : Entry := .literal l.text l.line

/-- The literals of a body are its entries that are no skips. -/
theorem map_entry_literalsFrom (afterSkip : Bool) (body : Body) :
    (literalsFrom afterSkip body).map Literal.entry = body.filter (!·.isSkip) := by
  induction body generalizing afterSkip with
  | nil => rfl
  | cons e body ih =>
    cases e with
    | literal text line =>
      rw [literalsFrom, List.map_cons, ih]
      rfl
    | skip line =>
      rw [literalsFrom, ih]
      rfl

theorem map_entry_literals_insert_skip (before after : Body) (line : Int) :
    (literals (before ++ .skip line :: after)).map Literal.entry =
      (literals (before ++ after)).map Literal.entry := by
  simp [literals, map_entry_literalsFrom, Entry.isSkip]

/-- A further skip ends a body, or else the body ends as before. -/
theorem endsWithSkip_insert_skip (before after : Body) (line : Int) :
    endsWithSkip (before ++ .skip line :: after) =
      (after.isEmpty || endsWithSkip (before ++ after)) := by
  obtain rfl | ⟨after, e, rfl⟩ := List.eq_nil_or_concat' after
  · rw [endsWithSkip_concat]
    rfl
  · rw [← List.cons_append, ← List.append_assoc, ← List.append_assoc, endsWithSkip_concat,
      endsWithSkip_concat]
    simp

end Body

namespace Match

variable {ε : Type} {resolve : Text → Except ε Text} {strictEnd : Bool} {lines ls : List Text}
  {before after body body' : Body} {is : List Nat}

/-! ## Squeezed bodies -/

/-- Skips only open, however many they are. -/
theorem runFrom_skips (body : Body) (pending : Bool) (consumed : Nat) {skips : Body}
    (nonempty : skips ≠ []) (areSkips : ∀ e ∈ skips, e.isSkip = true) :
    runFrom resolve strictEnd (skips ++ body) pending consumed ls =
      runFrom resolve strictEnd body true consumed ls := by
  induction skips generalizing pending with
  | nil => exact absurd rfl nonempty
  | cons e skips ih =>
    obtain ⟨he, hskips⟩ := List.forall_mem_cons.1 areSkips
    cases e with
    | literal text line => cases he
    | skip line =>
      rw [List.cons_append, runFrom_skip]
      cases skips with
      | nil => rfl
      | cons e' skips => exact ih true (List.cons_ne_nil _ _) hskips

/-- From any point of a match on, a squeezed body runs as the body does. -/
theorem runFrom_squeezed (h : body.Squeezes body') (pending : Bool) (consumed : Nat)
    (ls : List Text) :
    runFrom resolve strictEnd body' pending consumed ls =
      runFrom resolve strictEnd body pending consumed ls := by
  induction h generalizing pending consumed ls with
  | nil => rfl
  | literal text line _ ih => simp only [runFrom, ih]
  | skips skips line nonempty areSkips _ _ ih =>
    rw [runFrom_skip, runFrom_skips _ _ _ nonempty areSkips, ih]

/-- Squeezing a body, which is always possible, changes nothing of its match: neither the verdict
with all that it tells, nor the rest that is left unread, nor the lines at which skips ended. -/
theorem run_squeezed (c : Conventions) (vars : Bindings Text) (body : Body) (ls : List Text) :
    (∃ body', body.Squeezes body') ∧
      ∀ body', body.Squeezes body' → c.run vars body' ls = c.run vars body ls :=
  ⟨body.exists_squeezes, fun _ h => runFrom_squeezed h false 0 ls⟩

/-- Three runs of skips, the first before the first literal and the last at the end. -/
theorem run_squeezed_three_runs :
    Body.Squeezes
      [.skip 1, .skip 2, .literal "a" 3, .skip 4, .skip 5, .skip 6, .literal "b" 7, .skip 8,
        .skip 9]
      [.skip 1, .literal "a" 3, .skip 6, .literal "b" 7, .skip 0] ∧
    Conventions.run {} [] [.skip 1, .skip 2, .literal "a" 3, .skip 4, .skip 5, .skip 6,
        .literal "b" 7, .skip 8, .skip 9] ["x\n", "a\n", "y\n", "b\n", "z\n"] =
      ⟨.matched, ["z\n"], [⟨2, 3⟩, ⟨4, 7⟩]⟩ := by
  have h : Body.Squeezes
      [.skip 1, .skip 2, .literal "a" 3, .skip 4, .skip 5, .skip 6, .literal "b" 7, .skip 8,
        .skip 9]
      [.skip 1, .literal "a" 3, .skip 6, .literal "b" 7, .skip 0] := by
    refine .skips [.skip 1, .skip 2] _ (by decide) (by decide) (by decide) ?_
    refine .literal _ _ ?_
    refine .skips [.skip 4, .skip 5, .skip 6] _ (by decide) (by decide) (by decide) ?_
    refine .literal _ _ ?_
    exact .skips [.skip 8, .skip 9] _ (by decide) (by decide) (by decide) .nil
  refine ⟨h, ?_⟩
  rw [← (run_squeezed {} [] _ _).2 _ h]
  decide +kernel

/-! ## Bodies with a further skip -/

/-- Where a literal lands, it lands also behind a skip. -/
theorem Lands.after_skip {start i : Nat} {afterSkip : Bool} {t : Text}
    (h : Lands lines start afterSkip t i) : Lands lines start true t i := by
  cases afterSkip with
  | true => exact h
  | false =>
    obtain ⟨rfl, ht⟩ := lands_false.1 h
    exact lands_true.2 ⟨⟨Nat.le_refl _, ht⟩, fun j hj => hj.1⟩

/-- A placement stays one when a skip is put into the body. -/
theorem Placement.insert_skip (line : Int) (h : Placement resolve lines (before ++ after) is) :
    Placement resolve lines (before ++ .skip line :: after) is := by
  induction after using List.reverseRecOn generalizing is with
  | nil =>
    rw [List.append_nil] at h
    exact placement_concat_skip.2 h
  | append_singleton after e ih =>
    rw [← List.append_assoc] at h
    rw [← List.cons_append, ← List.append_assoc]
    cases e with
    | skip line' => exact placement_concat_skip.2 (ih (placement_concat_skip.1 h))
    | literal text line' =>
      obtain ⟨is, i, t, rfl, hplaced, ht, hi⟩ := h.of_concat_literal
      refine (ih hplaced).concat_literal ht ?_
      -- only right behind the further skip is the literal looked for in another way
      rw [Body.endsWithSkip_insert_skip]
      cases after with
      | nil => exact hi.after_skip
      | cons e after => exact hi

/-- A match that succeeds leaves unread what follows the last line of its placement. -/
theorem rest_run_of_matched (hmatched : (run resolve strictEnd body ls).verdict = .matched)
    (placed : Placement resolve (ls.map Text.bare) body is) :
    (run resolve strictEnd body ls).rest = ls.drop (reach is) := by
  cases hopen : body.endsWithSkip || !strictEnd with
  | true => exact rest_run_of_placement placed hopen
  | false =>
    -- the end of the body is the end of the input: both are empty
    rw [Bool.or_eq_false_iff, Bool.not_eq_false'] at hopen
    obtain ⟨hskip, rfl⟩ := hopen
    cases diagnosis_of_verdict hmatched with
    | matched placed' atEnd =>
      obtain rfl := placed.unique placed'
      obtain ⟨front, h⟩ := exists_reads resolve true body false 0 ls
      have hall : (run resolve true body ls).rest = [] := by
        refine h.rest_eq_nil ?_
        change Verdict.asksBehind _ (run resolve true body ls).verdict = true
        rw [hmatched, Body.endsOpen_false, hskip]
        rfl
      rw [hall, atEnd rfl hskip, List.length_map, List.drop_length]

/-- A body that matches goes on to match when a skip is put into it: the same literals are placed on
the same lines, and the same rest is left unread. -/
theorem run_insert_skip (c : Conventions) (vars : Bindings Text) (before after : Body) (line : Int)
    (ls : List Text) (h : (c.run vars (before ++ after) ls).verdict = .matched) :
    (c.run vars (before ++ .skip line :: after) ls).verdict = .matched ∧
      (before ++ .skip line :: after).literals.map Body.Literal.entry =
        (before ++ after).literals.map Body.Literal.entry ∧
      (∃ is, Placement (c.resolve vars) (ls.map Text.bare) (before ++ after) is ∧
        Placement (c.resolve vars) (ls.map Text.bare) (before ++ .skip line :: after) is) ∧
      (c.run vars (before ++ .skip line :: after) ls).rest =
        (c.run vars (before ++ after) ls).rest := by
  have hd := diagnosis_verdict (c.resolve vars) c.strictEnd (before ++ after) ls
  rw [h] at hd
  cases hd with
  | @matched is placed atEnd =>
    have placed' := placed.insert_skip line
    have hmatched : (c.run vars (before ++ .skip line :: after) ls).verdict = .matched := by
      refine (Diagnosis.matched placed' fun hstrict hskip => ?_).verdict_eq
      rw [Body.endsWithSkip_insert_skip, Bool.or_eq_false_iff] at hskip
      exact atEnd hstrict hskip.2
    refine ⟨hmatched, Body.map_entry_literals_insert_skip before after line,
      ⟨is, placed, placed'⟩, ?_⟩
    rw [rest_run_of_matched hmatched placed', rest_run_of_matched h placed]

/-- A skip between two literals that are next to each other, where the body has to reach the end. -/
theorem run_insert_skip_between :
    (Conventions.run { strictEnd := true } [] ([.literal "a" 1] ++ [.literal "b" 2])
      ["a\n", "b\n"]).verdict = .matched ∧
    (Conventions.run { strictEnd := true } [] ([.literal "a" 1] ++ .skip 0 :: [.literal "b" 2])
      ["a\n", "b\n"]).verdict = .matched := by
  have h : (Conventions.run { strictEnd := true } [] ([.literal "a" 1] ++ [.literal "b" 2])
      ["a\n", "b\n"]).verdict = .matched := by
    decide +kernel
  exact ⟨h, (run_insert_skip _ _ _ _ 0 _ h).1⟩

end Match

end LineSpec
