import LineSpec.Proofs.Match.Sequence
/-!
# Lines behind the end of a body

Whether a match has to reach the end of its input matters only when all entries of the body are
dealt with. So a match that has to is the match that need not, followed by a match of the empty body
against what that left unread (`run_true`), and the empty body only asks whether anything is left.
-/

namespace LineSpec.Match

variable {ε : Type} {resolve : Text → Except ε Text} {body : Body} {ls rest : List Text} {l : Text}

/-- A match that has to reach the end goes on, where the other one succeeds, with a look at the
rest. -/
theorem run_true (resolve : Text → Except ε Text) (body : Body) (ls : List Text) :
    run resolve true body ls =
      (run resolve false body ls).andThen fun rest =>
        runFrom resolve true [] body.endsWithSkip (ls.length - rest.length) rest := by
  have happend := runFrom_append resolve true body [] false 0 ls
  simp only [List.append_nil, Body.endsOpen_false, Nat.zero_add] at happend
  exact happend

theorem Run.andThen_of_ne_matched {r : Run ε} (h : r.verdict ≠ .matched)
    (next : List Text → Run ε) : r.andThen next = r := by
  obtain ⟨v, rest, as⟩ := r
  cases v with
  | matched => exact absurd rfl h
  | failed e => rfl
  | unresolved e => rfl

theorem Run.andThen_of_matched {r : Run ε} (h : r.verdict = .matched)
    (next : List Text → Run ε) : r.andThen next = (next r.rest).after r.anchors := by
  rw [andThen, h]

/-- A failure comes before the end of the body, so it does not depend on what the end asks for. -/
theorem run_true_of_ne_matched (h : (run resolve false body ls).verdict ≠ .matched) :
    run resolve true body ls = run resolve false body ls := by
  rw [run_true, Run.andThen_of_ne_matched h]

/-- With a skip at the end of the body, or with nothing left, the end is reached already. -/
theorem run_true_of_matched (h : (run resolve false body ls).verdict = .matched)
    (hend : body.endsWithSkip = true ∨ (run resolve false body ls).rest = []) :
    run resolve true body ls = run resolve false body ls := by
  have hnext : runFrom resolve true [] body.endsWithSkip
      (ls.length - (run resolve false body ls).rest.length) (run resolve false body ls).rest =
        ⟨.matched, (run resolve false body ls).rest, []⟩ := by
    rcases hend with hskip | hrest
    · exact runFrom_nil_of_open (by rw [hskip, Bool.true_or])
    · rw [hrest, runFrom_nil_nil]
  rw [run_true, Run.andThen_of_matched h, hnext, ← h, Run.after, List.append_nil]

/-- Otherwise the first line left over is one too many, and it is read. -/
theorem run_true_of_surplus (h : (run resolve false body ls).verdict = .matched)
    (hskip : body.endsWithSkip = false) (hrest : (run resolve false body ls).rest = l :: rest) :
    run resolve true body ls =
      ⟨.failed (.inputGoesOn ((ls.length - (l :: rest).length : Nat) + 1) (Text.bare l)), rest,
        (run resolve false body ls).anchors⟩ := by
  rw [run_true, Run.andThen_of_matched h, hrest, hskip, runFrom_surplus, Run.after,
    List.append_nil]

/-- Having to reach the end changes a match only if it succeeds, the body does not end with a skip
and lines are left. Then it fails at the first of these lines, the one after those that were taken,
and leaves the lines behind it. -/
theorem run_withEnd_true (c : Conventions) (vars : Bindings Text) (body : Body) (ls : List Text) :
    let lenient := (c.withEnd false).run vars body ls
    let strict := (c.withEnd true).run vars body ls
    (lenient.verdict ≠ .matched → strict = lenient) ∧
    (lenient.verdict = .matched → body.endsWithSkip = true ∨ lenient.rest = [] →
      strict = lenient) ∧
    (lenient.verdict = .matched → body.endsWithSkip = false →
      ∀ l rest, lenient.rest = l :: rest → ∃ taken, ls = taken ++ l :: rest ∧
        strict.verdict = .failed (.inputGoesOn (taken.length + 1) (Text.bare l)) ∧
        strict.rest = rest) := by
  simp only [Conventions.run, Conventions.resolve_withEnd]
  refine ⟨run_true_of_ne_matched, run_true_of_matched, fun hmatched hskip l rest hrest => ?_⟩
  obtain ⟨taken, htaken⟩ := exists_reads (c.resolve vars) false body false 0 ls
  have hsplit : ls = taken ++ l :: rest := hrest ▸ htaken.split
  have hlength : ls.length - (l :: rest).length = taken.length := by
    rw [hsplit, List.length_append, Nat.add_sub_cancel_right]
  refine ⟨taken, hsplit, ?_⟩
  have hstrict := run_true_of_surplus hmatched hskip hrest
  rw [hlength] at hstrict
  exact ⟨congrArg Run.verdict hstrict, congrArg Run.rest hstrict⟩

/-- A body after a skip takes two of four lines and leaves two, of which the first has a carriage
return before its end. The same body with another skip behind it may leave them, and one with
another literal fails before the end matters. -/
theorem run_withEnd_true_four_lines :
    let ls : List Text := ["x\n", "a\n", "y\r\n", "z"]
    ((Conventions.withEnd {} true).run [] [.skip 1, .literal "a" 2] ls).verdict =
        .failed (.inputGoesOn 3 "y") ∧
      ((Conventions.withEnd {} true).run [] [.skip 1, .literal "a" 2] ls).rest = ["z"] ∧
      (Conventions.withEnd {} true).run [] [.skip 1, .literal "a" 2, .skip 3] ls =
        ⟨.matched, ["y\r\n", "z"], [⟨2, 2⟩]⟩ ∧
      (Conventions.withEnd {} true).run [] [.skip 1, .literal "a" 2, .literal "b" 3] ls =
        ⟨.failed (.differs 3 "b" "y" 0 3), ["z"], [⟨2, 2⟩]⟩ := by
  intro ls
  have hmatched : (Conventions.withEnd {} false).run [] [.skip 1, .literal "a" 2] ls =
      ⟨.matched, ["y\r\n", "z"], [⟨2, 2⟩]⟩ := by
    decide +kernel
  have hskip : (Conventions.withEnd {} false).run [] [.skip 1, .literal "a" 2, .skip 3] ls =
      ⟨.matched, ["y\r\n", "z"], [⟨2, 2⟩]⟩ := by
    decide +kernel
  have hfailed : (Conventions.withEnd {} false).run [] [.skip 1, .literal "a" 2, .literal "b" 3]
      ls = ⟨.failed (.differs 3 "b" "y" 0 3), ["z"], [⟨2, 2⟩]⟩ := by
    decide +kernel
  obtain ⟨-, -, hsurplus⟩ := run_withEnd_true {} [] [.skip 1, .literal "a" 2] ls
  obtain ⟨-, hopen, -⟩ := run_withEnd_true {} [] [.skip 1, .literal "a" 2, .skip 3] ls
  obtain ⟨hsame, -, -⟩ := run_withEnd_true {} [] [.skip 1, .literal "a" 2, .literal "b" 3] ls
  rw [hmatched] at hsurplus
  rw [hskip] at hopen
  rw [hfailed] at hsame
  obtain ⟨taken, hsplit, hverdict, hrest⟩ := hsurplus rfl (by decide) _ _ rfl
  have hlength : taken.length = 2 := by
    have := congrArg List.length hsplit
    rw [List.length_append] at this
    exact Nat.add_right_cancel this.symm
  rw [hlength] at hverdict
  exact ⟨hverdict, hrest, hopen rfl (.inl (by decide)), hsame nofun⟩

end LineSpec.Match
