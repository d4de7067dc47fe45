import LineSpec.Proofs.Match.Extent
import LineSpec.Proofs.Match.Strictness
/-!
# Bodies one after the other

A match leaves unread what it has not taken, so another body can be matched against the rest. As
long as no skip is open in between, this is the same as matching all of it as one body
(`run_flatten`): only the lines are counted from where the last match began. A run over two bodies
in a row is the run over the first, without a look at the end, and where that succeeds the run over
the second (`runFrom_append`).
-/

namespace LineSpec

/-- The error `e` when `n` more lines stand before the input. -/
def MatchError.shift (n : Nat) : MatchError → MatchError
  | .differs line expected actual offset patternLine =>
    .differs (n + line) expected actual offset patternLine
  | .inputEnds line expected patternLine => .inputEnds (n + line) expected patternLine
  | .inputGoesOn line actual => .inputGoesOn (n + line) actual
  | .other line expected actual offset patternLine =>
    .other (n + line) expected actual offset patternLine

theorem MatchError.shift_zero (e : MatchError) : e.shift 0 = e := by
  cases e <;> simp [shift]

theorem MatchError.shift_shift (m n : Nat) (e : MatchError) :
    (e.shift m).shift n = e.shift (n + m) := by
  cases e <;> simp [shift, Int.add_assoc]

namespace Match

variable {ε : Type}

/-! ## More lines before the input -/

/-- The verdict `v` when `n` more lines stand before the input. -/
def Verdict.shift (n : Nat) : Verdict ε → Verdict ε
  | .failed e => .failed (e.shift n)
  | .matched => .matched
  | .unresolved e => .unresolved e

theorem Verdict.shift_zero (v : Verdict ε) : v.shift 0 = v := by
  cases v <;> simp [shift, MatchError.shift_zero]

theorem Verdict.shift_shift (m n : Nat) (v : Verdict ε) :
    (v.shift m).shift n = v.shift (n + m) := by
  cases v <;> simp [shift, MatchError.shift_shift]

/-- The run `r` when `n` more lines stand before the input. -/
def Run.shift (n : Nat) (r : Run ε) : Run ε :=
  ⟨r.verdict.shift n, r.rest, r.anchors.map fun a => ⟨n + a.line, a.patternLine⟩⟩

theorem Run.shift_after (n : Nat) (as : List Anchor) (r : Run ε) :
    (r.after as).shift n = (r.shift n).after (as.map fun a => ⟨n + a.line, a.patternLine⟩) := by
  simp [shift, after]

/-- Lines that are already read only count. -/
theorem runFrom_add (resolve : Text → Except ε Text) (strictEnd : Bool) (body : Body)
    (pending : Bool) (n consumed : Nat) (ls : List Text) :
    runFrom resolve strictEnd body pending (n + consumed) ls =
      (runFrom resolve strictEnd body pending consumed ls).shift n := by
  induction body, pending, consumed, ls using runFrom_induction resolve strictEnd with
  | canStop pending consumed ls hopen =>
    rw [runFrom_nil_of_open hopen, runFrom_nil_of_open hopen]
    rfl
  | atEnd consumed hstrict =>
    rw [runFrom_nil_nil, runFrom_nil_nil]
    rfl
  | surplus consumed l rest hstrict =>
    subst hstrict
    rw [runFrom_surplus, runFrom_surplus]
    simp [Run.shift, Verdict.shift, MatchError.shift, Int.add_assoc]
  | skip line body pending consumed ls ih => rw [runFrom_skip, runFrom_skip, ih]
  | refused text line body pending consumed ls e he =>
    rw [runFrom_refused _ _ _ _ he, runFrom_refused _ _ _ _ he]
    rfl
  | sought text line body consumed ls expected skipped rest ht hseek ih =>
    rw [runFrom_sought _ _ _ _ ht hseek, runFrom_sought _ _ _ _ ht hseek, Run.shift_after, ← ih]
    simp [Nat.add_assoc]
  | notFound text line body consumed ls expected ht hseek =>
    rw [runFrom_not_found _ _ _ _ ht hseek, runFrom_not_found _ _ _ _ ht hseek]
    simp [Run.shift, Verdict.shift, MatchError.shift, Int.add_assoc]
  | next text line body consumed l rest ht ih =>
    rw [runFrom_next _ _ _ _ ht, runFrom_next _ _ _ _ ht, ← ih, Nat.add_assoc]
  | differs text line body consumed l rest expected ht hne =>
    rw [runFrom_differs _ _ _ _ ht hne, runFrom_differs _ _ _ _ ht hne]
    simp [Run.shift, Verdict.shift, MatchError.shift, Int.add_assoc]
  | noLine text line body consumed expected ht =>
    rw [runFrom_at_end _ _ _ _ ht, runFrom_at_end _ _ _ _ ht]
    simp [Run.shift, Verdict.shift, MatchError.shift]

/-! ## Two bodies in a row -/

/-- The run `r`, and where it succeeds the run `next` over what it left unread. -/
def Run.andThen (r : Run ε) (next : List Text → Run ε) : Run ε :=
  match r.verdict with
  | .matched => (next r.rest).after r.anchors
  | _ => r

theorem Run.andThen_after (as : List Anchor) {r : Run ε} {next next' : List Text → Run ε}
    (h : next r.rest = next' r.rest) : (r.after as).andThen next = (r.andThen next').after as := by
  obtain ⟨v, rest, as'⟩ := r
  cases v with
  | matched =>
    change (next rest).after (as ++ as') = ((next' rest).after as').after as
    rw [h]
    simp [after]
  | failed e => rfl
  | unresolved e => rfl

theorem length_rest_le (resolve : Text → Except ε Text) (strictEnd : Bool) (body : Body)
    (pending : Bool) (consumed : Nat) (ls : List Text) :
    (runFrom resolve strictEnd body pending consumed ls).rest.length ≤ ls.length := by
  obtain ⟨front, h⟩ := exists_reads resolve strictEnd body pending consumed ls
  rw [h.rest_eq, List.length_drop]
  exact Nat.sub_le _ _

theorem runFrom_append (resolve : Text → Except ε Text) (strictEnd : Bool) (body body' : Body)
    (pending : Bool) (consumed : Nat) (ls : List Text) :
    runFrom resolve strictEnd (body ++ body') pending consumed ls =
      (runFrom resolve false body pending consumed ls).andThen fun rest =>
        runFrom resolve strictEnd body' (body.endsOpen pending)
          (consumed + (ls.length - rest.length)) rest := by
  induction body, pending, consumed, ls using runFrom_induction resolve false with
  | canStop pending consumed ls hopen =>
    rw [runFrom_nil_of_open hopen, Run.andThen, Nat.sub_self]
    rfl
  | atEnd consumed hstrict => cases hstrict
  | surplus consumed l rest hstrict => cases hstrict
  | skip line body pending consumed ls ih =>
    rw [List.cons_append, runFrom_skip, runFrom_skip, ih, Body.endsOpen_cons]
    rfl
  | refused text line body pending consumed ls e he =>
    rw [List.cons_append, runFrom_refused _ _ _ _ he, runFrom_refused _ _ _ _ he]
    rfl
  | sought text line body consumed ls expected skipped rest ht hseek ih =>
    have hlen := length_rest_le resolve false body false (consumed + skipped + 1) rest
    obtain ⟨before, hls, hbefore, -⟩ := seek_eq_some hseek
    have hls := congrArg List.length hls
    rw [List.length_append] at hls
    rw [List.cons_append, runFrom_sought _ _ _ _ ht hseek, runFrom_sought _ _ _ _ ht hseek, ih,
      Body.endsOpen_cons]
    refine (Run.andThen_after _ ?_).symm
    congr 1
    omega
  | notFound text line body consumed ls expected ht hseek =>
    rw [List.cons_append, runFrom_not_found _ _ _ _ ht hseek, runFrom_not_found _ _ _ _ ht hseek]
    rfl
  | next text line body consumed l rest ht ih =>
    have hlen := length_rest_le resolve false body false (consumed + 1) rest
    rw [List.cons_append, runFrom_next _ _ _ _ ht, runFrom_next _ _ _ _ ht, ih,
      Body.endsOpen_cons]
    refine (Run.andThen_after [] ?_).symm
    congr 1
    rw [List.length_cons]
    omega
  | differs text line body consumed l rest expected ht hne =>
    rw [List.cons_append, runFrom_differs _ _ _ _ ht hne, runFrom_differs _ _ _ _ ht hne]
    rfl
  | noLine text line body consumed expected ht =>
    rw [List.cons_append, runFrom_at_end _ _ _ _ ht, runFrom_at_end _ _ _ _ ht]
    rfl

/-- A body that ends with no skip leaves nothing open for the next one. -/
theorem run_andThen (resolve : Text → Except ε Text) (strictEnd : Bool) {body : Body}
    (hskip : body.endsWithSkip = false) (body' : Body) (ls : List Text) :
    run resolve strictEnd (body ++ body') ls =
      (run resolve false body ls).andThen fun rest =>
        (run resolve strictEnd body' rest).shift (ls.length - rest.length) := by
  rw [run, runFrom_append, Body.endsOpen_false, hskip]
  simp only [run, ← runFrom_add, Nat.zero_add, Nat.add_zero]

/-! ## Bodies in a row -/

/-- Matches `bodies` and then `last` one after the other, each against what the one before it left
unread, up to the first that fails. Only `last` may have to reach the end. The result is the last
run there was, and the number of lines that were taken before it. -/
def runInTurn (c : Conventions) (vars : Bindings Text) (last : Body) :
    List Body → List Text → Nat × Run PlaceholderError
  | [], ls => (0, c.run vars last ls)
  | body :: bodies, ls =>
    let first := (c.withEnd false).run vars body ls
    match first.verdict with
    | .matched =>
      let next := runInTurn c vars last bodies first.rest
      (ls.length - first.rest.length + next.1, next.2)
    | _ => (0, first)

/-- Bodies of which none but the last ends with a skip match in turn as they match in one: with the
same verdict, but for the lines that earlier bodies took, and the same rest. -/
theorem run_flatten (c : Conventions) (vars : Bindings Text) (bodies : List Body) (last : Body)
    (ls : List Text) (hskip : ∀ body ∈ bodies, body.endsWithSkip = false) :
    (c.run vars (bodies.flatten ++ last) ls).verdict =
        (runInTurn c vars last bodies ls).2.verdict.shift (runInTurn c vars last bodies ls).1 ∧
      (c.run vars (bodies.flatten ++ last) ls).rest = (runInTurn c vars last bodies ls).2.rest := by
  induction bodies generalizing ls with
  | nil => exact ⟨(Verdict.shift_zero _).symm, rfl⟩
  | cons body bodies ih =>
    obtain ⟨hbody, hbodies⟩ := List.forall_mem_cons.1 hskip
    have hfirst : (c.withEnd false).run vars body ls = run (c.resolve vars) false body ls := by
      rw [Conventions.run, Conventions.resolve_withEnd]
      rfl
    rw [List.flatten_cons, List.append_assoc, Conventions.run, run_andThen _ _ hbody, runInTurn,
      hfirst]
    obtain ⟨v, rest, as⟩ := run (c.resolve vars) false body ls
    cases v with
    | matched =>
      obtain ⟨hverdict, hrest⟩ := ih rest hbodies
      refine ⟨?_, hrest⟩
      change ((c.run vars (bodies.flatten ++ last) rest).verdict).shift (ls.length - rest.length) = _
      rw [hverdict, Verdict.shift_shift]
    | failed e => exact ⟨(Verdict.shift_zero _).symm, rfl⟩
    | unresolved e => exact ⟨(Verdict.shift_zero _).symm, rfl⟩

/-- The third body fails at its first line, the fourth of the input. -/
theorem run_flatten_three_bodies :
    (∀ body ∈ ([[.literal "a" 1], [.skip 2, .literal "b" 3]] : List Body),
      body.endsWithSkip = false) ∧
    runInTurn {} [] [.literal "c" 4, .skip 5] [[.literal "a" 1], [.skip 2, .literal "b" 3]]
        ["a\n", "x\n", "b\n", "d\n", "e\n"] =
      (3, ⟨.failed (.differs 1 "c" "d" 0 4), ["e\n"], []⟩) ∧
    (Conventions.run {} []
        [.literal "a" 1, .skip 2, .literal "b" 3, .literal "c" 4, .skip 5]
        ["a\n", "x\n", "b\n", "d\n", "e\n"]).verdict = .failed (.differs 4 "c" "d" 0 4) := by
  have hskip : ∀ body ∈ ([[.literal "a" 1], [.skip 2, .literal "b" 3]] : List Body),
      body.endsWithSkip = false := by decide
  have hturn : runInTurn {} [] [.literal "c" 4, .skip 5]
      [[.literal "a" 1], [.skip 2, .literal "b" 3]] ["a\n", "x\n", "b\n", "d\n", "e\n"] =
        (3, ⟨.failed (.differs 1 "c" "d" 0 4), ["e\n"], []⟩) := by decide +kernel
  refine ⟨hskip, hturn, ?_⟩
  have h := (run_flatten {} [] _ [.literal "c" 4, .skip 5] ["a\n", "x\n", "b\n", "d\n", "e\n"]
    hskip).1
  rwa [hturn] at h

end Match

end LineSpec
