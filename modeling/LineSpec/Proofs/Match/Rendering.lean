import LineSpec.Proofs.Match.Step
import LineSpec.Proofs.Match.Strictness
import LineSpec.Proofs.Steps
import LineSpec.Proofs.Text.Terminator
import LineSpec.Render
/-!
# Matching what was rendered

The content that a body asks for is written line by line, each with a line feed after it. When it is
cut into lines again, those with a line feed in them or a carriage return at their end are not read
back as they were written. So a body matches its own content, to the end and with nothing left over,
exactly when none of its lines is of that kind (`matches_rendered_iff`).
-/

namespace LineSpec

variable {ε : Type} {resolve : Text → Except ε Text}

/-! ## Resolved lines -/

namespace Body

theorem resolved_cons_eq_ok_iff {e : Entry} {body : Body} {ls : List Text} :
    resolved resolve (e :: body) = .ok ls ↔
      ∃ text line l ls', e = .literal text line ∧ resolve text = .ok l ∧
        resolved resolve body = .ok ls' ∧ ls = l :: ls' := by
  cases e with
  | skip line => simp [resolved]
  | literal text line =>
    cases ht : resolve text with
    | error e => simp [resolved, ht]
    | ok l =>
      simp only [resolved, ht, map_eq_ok_iff]
      constructor
      · rintro ⟨ls', hls', rfl⟩
        exact ⟨text, line, l, ls', rfl, ht, hls', rfl⟩
      · rintro ⟨_, _, l', ls', heq, ht', hls', rfl⟩
        obtain ⟨rfl, rfl⟩ := Entry.literal.inj heq
        obtain rfl := Except.ok.inj (ht.symm.trans ht')
        exact ⟨ls', hls', rfl⟩

/-- A body has content exactly when each entry is a literal whose text resolves. -/
theorem exists_resolved_eq_ok_iff {body : Body} :
    (∃ ls, resolved resolve body = .ok ls) ↔
      ∀ e ∈ body, ∃ text line l, e = .literal text line ∧ resolve text = .ok l := by
  induction body with
  | nil => exact ⟨fun _ => List.forall_mem_nil _, fun _ => ⟨[], rfl⟩⟩
  | cons e body ih =>
    rw [List.forall_mem_cons, ← ih]
    simp only [resolved_cons_eq_ok_iff]
    constructor
    · rintro ⟨_, text, line, l, ls, he, hl, hls, -⟩
      exact ⟨⟨text, line, l, he, hl⟩, ls, hls⟩
    · rintro ⟨⟨text, line, l, he, hl⟩, ls, hls⟩
      exact ⟨_, text, line, l, ls, he, hl, hls, rfl⟩

/-- A body with content has one line for each entry, which is the resolved text of a literal. -/
theorem mem_resolved_iff {body : Body} {ls : List Text} (h : resolved resolve body = .ok ls)
    {l : Text} :
    l ∈ ls ↔ ∃ text line, .literal text line ∈ body ∧ resolve text = .ok l := by
  induction body generalizing ls with
  | nil =>
    obtain rfl := Except.ok.inj h
    simp
  | cons e body ih =>
    obtain ⟨text, line, l', ls', rfl, ht, hbody, rfl⟩ := resolved_cons_eq_ok_iff.1 h
    rw [List.mem_cons, ih hbody]
    constructor
    · rintro (rfl | ⟨text', line', hmem, ht'⟩)
      · exact ⟨text, line, List.mem_cons_self, ht⟩
      · exact ⟨text', line', List.mem_cons_of_mem _ hmem, ht'⟩
    · rintro ⟨text', line', hmem, ht'⟩
      rcases List.mem_cons.1 hmem with heq | hmem
      · obtain ⟨rfl, rfl⟩ := Entry.literal.inj heq
        exact Or.inl (Except.ok.inj (ht'.symm.trans ht))
      · exact Or.inr ⟨text', line', hmem, ht'⟩

end Body

/-! ## Reading the content back -/

namespace Match

/-- A run over the content of its own body goes through it line by line, up to the first that is
not read back as it was written. -/
theorem runFrom_rendered {body : Body} {ls : List Text} (h : body.resolved resolve = .ok ls)
    (consumed : Nat) :
    let r := runFrom resolve true body false consumed (Text.cut (ls.flatMap (· ++ "\n")))
    r.verdict = .matched ∧ r.rest = [] ↔ ∀ l ∈ ls, l.IsLine := by
  induction body generalizing ls consumed with
  | nil =>
    obtain rfl := Except.ok.inj h
    rw [List.flatMap_nil, Text.cut, runFrom_nil_nil]
    simp
  | cons e body ih =>
    obtain ⟨text, line, l, ls', rfl, ht, hbody, rfl⟩ := Body.resolved_cons_eq_ok_iff.1 h
    have hcontent : (l :: ls').flatMap (· ++ ("\n" : Text)) =
        l ++ ('\n' : CodePoint) :: ls'.flatMap (· ++ ("\n" : Text)) := by
      rw [List.flatMap_cons, List.append_assoc]
      rfl
    obtain ⟨chunk, rest, hcut, hbare, hrest⟩ :=
      Text.exists_cut_append l (ls'.flatMap (· ++ ("\n" : Text)))
    rw [hcontent, hcut, List.forall_mem_cons]
    by_cases hline : l.IsLine
    · rw [← hbare.2 hline] at ht
      rw [runFrom_next _ _ _ _ ht, hrest hline]
      exact (ih hbody _).trans (iff_and_self.2 fun _ => hline)
    · rw [runFrom_differs _ _ _ _ ht fun heq => hline (hbare.1 heq.symm)]
      simp [hline]

/-- The content of a body is matched by the body, to its end and with nothing left over, exactly
when each resolved literal can be a line. -/
theorem matches_rendered_iff (c : Conventions) (vars : Bindings Text) (body : Body) (t : Text)
    (h : body.render (c.resolve vars) = .ok t) :
    (((c.withEnd true).run vars body (Text.cut t)).verdict = .matched ∧
        ((c.withEnd true).run vars body (Text.cut t)).rest = []) ↔
      ∀ text line l, .literal text line ∈ body → c.resolve vars text = .ok l →
        ('\n' : CodePoint) ∉ l ∧ l.getLast? ≠ some ('\r' : CodePoint) := by
  obtain ⟨ls, hls, rfl⟩ := map_eq_ok_iff.1 h
  rw [Conventions.run, Conventions.resolve_withEnd]
  refine (runFrom_rendered hls 0).trans ?_
  constructor
  · intro hall text line l hmem ht
    have hline := hall l ((Body.mem_resolved_iff hls).2 ⟨text, line, hmem, ht⟩)
    exact ⟨hline.noLineFeed, hline.noReturnAtEnd⟩
  · intro hall l hmem
    obtain ⟨text, line, hmem, ht⟩ := (Body.mem_resolved_iff hls).1 hmem
    obtain ⟨hfeed, hreturn⟩ := hall text line l hmem ht
    exact ⟨hfeed, hreturn⟩

/-- The value of a variable decides whether a body matches its content: a carriage return at the end
of a line is lost when the content is read. -/
theorem matches_rendered_two_values :
    Body.render (Conventions.resolve {} [("v", "x")]) [.literal "a" 1, .literal "$\x7bv\x7d" 2] =
      .ok "a\nx\n" ∧
    ((Conventions.withEnd {} true).run [("v", "x")] [.literal "a" 1, .literal "$\x7bv\x7d" 2]
      (Text.cut "a\nx\n")).verdict = .matched ∧
    Body.render (Conventions.resolve {} [("v", "x\r")]) [.literal "a" 1, .literal "$\x7bv\x7d" 2] =
      .ok "a\nx\r\n" ∧
    ¬(((Conventions.withEnd {} true).run [("v", "x\r")] [.literal "a" 1, .literal "$\x7bv\x7d" 2]
        (Text.cut "a\nx\r\n")).verdict = .matched ∧
      ((Conventions.withEnd {} true).run [("v", "x\r")] [.literal "a" 1, .literal "$\x7bv\x7d" 2]
        (Text.cut "a\nx\r\n")).rest = []) := by
  have hgood : Body.render (Conventions.resolve {} [("v", "x")])
      [.literal "a" 1, .literal "$\x7bv\x7d" 2] = .ok "a\nx\n" := by decide +kernel
  have hbad : Body.render (Conventions.resolve {} [("v", "x\r")])
      [.literal "a" 1, .literal "$\x7bv\x7d" 2] = .ok "a\nx\r\n" := by decide +kernel
  refine ⟨hgood, ?_, hbad, ?_⟩
  · have hlines : Body.resolved (Conventions.resolve {} [("v", "x")])
        [.literal "a" 1, .literal "$\x7bv\x7d" 2] = .ok ["a", "x"] := by decide +kernel
    have hall : ∀ l ∈ (["a", "x"] : List Text),
        ('\n' : CodePoint) ∉ l ∧ l.getLast? ≠ some ('\r' : CodePoint) := by decide
    refine ((matches_rendered_iff _ _ _ _ hgood).2 fun text line l hmem ht => ?_).1
    exact hall l ((Body.mem_resolved_iff hlines).2 ⟨text, line, hmem, ht⟩)
  · intro hmatches
    have hline := (matches_rendered_iff _ _ _ _ hbad).1 hmatches "$\x7bv\x7d" 2 "x\r" (by decide)
      (by decide +kernel)
    exact hline.2 (by decide)

end Match

end LineSpec
