import LineSpec.Command.Answer
import LineSpec.Proofs.Steps
import LineSpec.Proofs.Text.Surrogate
import Mathlib.Order.Defs.Unbundled
/-!
# What a run of a command leaves

A run begins with an answer and leaves another one, with a result or a reason to end. Exit code and
cause are only set when the run is over. Until then each step goes on from the answer that the step
before it left, and what the steps do to the workspace, one after the other, is what the run does
(`Moves.bind`). None of them ends the command with exit code 0, so a command that has this exit code
has come to its end (`exec_eq_ok_of_exitCode`).
-/

namespace LineSpec.Command

/-- The answer `a'` goes on from `a`: the workspace has changed by an `R`, and nothing is said yet
of how the command ends. -/
structure Answer.Continues (R : Workspace → Workspace → Prop) (a a' : Answer) : Prop where
  workspace : R a.workspace a'.workspace
  exitCode : a'.exitCode = a.exitCode
  cause : a'.cause = a.cause

/-- The answer of a command whose run leaves `a` and ends like this. -/
def Answer.ended (a : Answer) : Except (Nat ⊕ Break) Unit → Answer
  | .ok () => a
  | .error (.inl code) => { a with exitCode := code }
  | .error (.inr cause) => { a with exitCode := 1, cause := some cause }

namespace Session

variable {α β : Type} {a a' : Answer} {s : Session α} {f : α → Session β}

/-! ## Steps -/

/-- How a run ends that begins with an answer, and the answer that it leaves. -/
def exec (s : Session α) (a : Answer) : Except (Nat ⊕ Break) α × Answer := s.run.run a

theorem exec_pure (x : α) : exec (pure x) a = (.ok x, a) := rfl

theorem exec_bind (s : Session α) (f : α → Session β) (a : Answer) :
    exec (s >>= f) a =
      match exec s a with
      | (.ok x, a') => exec (f x) a'
      | (.error e, a') => (.error e, a') := by
  rw [exec, exec, ExceptT.run_bind, StateT.run_bind]
  change (match s.run.run a with | (r, a') => _) = _
  obtain ⟨_ | _, _⟩ := StateT.run (ExceptT.run s) a <;> rfl

theorem exec_bind_ok {x : α} (h : exec s a = (.ok x, a')) :
    exec (s >>= f) a = exec (f x) a' := by
  rw [exec_bind, h]

theorem exec_bind_error {e : Nat ⊕ Break} (h : exec s a = (.error e, a')) :
    exec (s >>= f) a = (.error e, a') := by
  rw [exec_bind, h]

theorem exec_bind_eq_ok_iff {y : β} {a'' : Answer} :
    exec (s >>= f) a = (.ok y, a'') ↔
      ∃ x a', exec s a = (.ok x, a') ∧ exec (f x) a' = (.ok y, a'') := by
  rw [exec_bind]
  obtain ⟨_ | x, a'⟩ := exec s a <;> simp

theorem exec_workspace : exec workspace a = (.ok a.workspace, a) := rfl

theorem exec_noted (x : Noted α) :
    exec (noted x) a = (.ok x.result, { a with events := a.events ++ x.events }) := rfl

theorem exec_breakOff (cause : Break) :
    exec (breakOff cause : Session α) a = (.error (.inr cause), a) := rfl

theorem exec_exit (code : Nat) : exec (exit code : Session α) a = (.error (.inl code), a) := rfl

theorem exec_act (g : Workspace → Workspace × Except AccessError α) :
    exec (act g) a =
      ((g a.workspace).2.mapError (.inr ∘ .access), { a with workspace := (g a.workspace).1 }) := by
  rw [act, exec_bind_ok exec_workspace]
  obtain ⟨w, _ | _⟩ := g a.workspace <;> rfl

theorem exec_act_eq_ok_iff {g : Workspace → Workspace × Except AccessError α} {x : α} :
    exec (act g) a = (.ok x, a') ↔
      g a.workspace = (a'.workspace, .ok x) ∧ a' = { a with workspace := a'.workspace } := by
  rw [exec_act, Prod.mk.injEq, mapError_eq_ok_iff]
  constructor
  · rintro ⟨hok, rfl⟩
    exact ⟨Prod.ext rfl hok, rfl⟩
  · rintro ⟨hg, ha'⟩
    rw [hg]
    exact ⟨rfl, ha'.symm⟩

theorem exec_print_ok {t : Text} {cs : List Char} (h : (Text.printed t).chars? = some cs) :
    exec (print t) a = (.ok (), { a with stdout := a.stdout ++ String.ofList cs }) := by
  simp only [print, h]
  rfl

/-- What holds a surrogate is not printed. -/
theorem exec_print_error {t : Text} (h : (Text.printed t).chars? = none) :
    ∃ e, exec (print t) a = (.error (.inr (.unencodable e)), a) := by
  obtain ⟨e, he⟩ := Text.chars?_eq_none_iff.1 h
  exact ⟨e, by simp only [print, h, he, exec_breakOff]⟩

/-- A run that ends the command, whatever it begins with. -/
def Ends (s : Session α) : Prop := ∀ a, ∃ e a', exec s a = (.error e, a')

theorem Ends.exec_ne_ok (h : Ends s) {x : α} : exec s a ≠ (.ok x, a') := by
  obtain ⟨e, a'', he⟩ := h a
  rw [he]
  exact fun heq => nomatch congrArg Prod.fst heq

theorem ends_breakOff (cause : Break) : Ends (breakOff cause : Session α) :=
  fun a => ⟨_, a, exec_breakOff cause⟩

theorem ends_exit (code : Nat) : Ends (exit code : Session α) := fun a => ⟨_, a, exec_exit code⟩

theorem Ends.bind (hf : ∀ x, Ends (f x)) : Ends (s >>= f) := by
  intro a
  rw [exec_bind]
  split
  · exact hf _ _
  · exact ⟨_, _, rfl⟩

theorem ends_fail (message : Text) : Ends (fail message : Session α) :=
  .bind fun _ => ends_exit 1

/-! ## What steps do to the workspace -/

/-- A run that begins with `a` changes the workspace by an `R`. Where it ends the command with an
exit code, this is not 0. -/
structure Moves (R : Workspace → Workspace → Prop) (s : Session α) (a : Answer) : Prop extends
    a.Continues R (exec s a).2 where
  fails : (exec s a).1 ≠ .error (.inl 0)

theorem moves_iff_of_exec {R : Workspace → Workspace → Prop} {r : Except (Nat ⊕ Break) α}
    (h : exec s a = (r, a')) : Moves R s a ↔ a.Continues R a' ∧ r ≠ .error (.inl 0) := by
  constructor
  · rintro ⟨hcontinues, hfails⟩
    rw [h] at hcontinues hfails
    exact ⟨hcontinues, hfails⟩
  · rintro ⟨hcontinues, hfails⟩
    exact ⟨by rwa [h], by rwa [h]⟩

section
variable {R : Workspace → Workspace → Prop} [Std.Refl R]

theorem Moves.of_exec {r : Except (Nat ⊕ Break) α} {stdout : String} {events : List Event}
    (h : exec s a = (r, { a with stdout, events })) (hr : r ≠ .error (.inl 0)) : Moves R s a :=
  (moves_iff_of_exec h).2 ⟨⟨refl _, rfl, rfl⟩, hr⟩

theorem Moves.pure (x : α) : Moves R (Pure.pure x : Session α) a :=
  .of_exec (exec_pure x) (by simp)

theorem moves_workspace : Moves R workspace a := .of_exec exec_workspace (by simp)

theorem moves_noted (x : Noted α) : Moves R (noted x) a := .of_exec (exec_noted x) (by simp)

theorem moves_breakOff (cause : Break) : Moves R (breakOff cause : Session α) a :=
  .of_exec (exec_breakOff cause) (by simp)

theorem moves_exit {code : Nat} (h : code ≠ 0) : Moves R (exit code : Session α) a :=
  .of_exec (exec_exit code) (by simpa using h)

theorem moves_print (t : Text) : Moves R (print t) a := by
  cases h : (Text.printed t).chars? with
  | some cs => exact .of_exec (exec_print_ok h) (by simp)
  | none =>
    obtain ⟨e, he⟩ := exec_print_error (a := a) h
    exact .of_exec he (by simp)

theorem moves_printLine (t : Text) : Moves R (printLine t) a := moves_print _

end

theorem moves_act {R : Workspace → Workspace → Prop}
    {g : Workspace → Workspace × Except AccessError α} (h : R a.workspace (g a.workspace).1) :
    Moves R (act g) a := by
  refine (moves_iff_of_exec (exec_act g)).2 ⟨⟨h, rfl, rfl⟩, ?_⟩
  cases (g a.workspace).2 <;> simp [Except.mapError]

theorem Moves.mono {R R' : Workspace → Workspace → Prop} (h : Moves R s a)
    (himp : ∀ w w', R w w' → R' w w') : Moves R' s a :=
  ⟨⟨himp _ _ h.workspace, h.exitCode, h.cause⟩, h.fails⟩

section
variable {R : Workspace → Workspace → Prop} [IsTrans Workspace R]

theorem Moves.bind (h : Moves R s a) (hf : ∀ x a', exec s a = (.ok x, a') → Moves R (f x) a') :
    Moves R (s >>= f) a := by
  cases hs : exec s a with
  | mk r a' =>
    obtain ⟨h, hfails⟩ := (moves_iff_of_exec hs).1 h
    cases r with
    | error e =>
      exact (moves_iff_of_exec (exec_bind_error hs)).2 ⟨h, by simpa using hfails⟩
    | ok x =>
      obtain ⟨h', hfails'⟩ := hf x a' hs
      refine (moves_iff_of_exec ((exec_bind_ok hs).trans rfl)).2 ⟨⟨?_, ?_, ?_⟩, hfails'⟩
      · exact IsTrans.trans _ _ _ h.workspace h'.workspace
      · exact h'.exitCode.trans h.exitCode
      · exact h'.cause.trans h.cause

variable [Std.Refl R]

theorem moves_fail (message : Text) : Moves R (fail message : Session α) a :=
  (moves_printLine _).bind fun _ _ _ => moves_exit Nat.one_ne_zero

theorem Moves.mapM {γ : Type} {g : γ → Session α} {l : List γ}
    (h : ∀ x ∈ l, ∀ a, Moves R (g x) a) : Moves R (l.mapM g) a := by
  induction l generalizing a with
  | nil => exact .pure _
  | cons x l ih =>
    rw [List.mapM_cons]
    refine (h x List.mem_cons_self a).bind fun _ a' _ => ?_
    exact (ih fun y hy => h y (List.mem_cons_of_mem _ hy)).bind fun _ _ _ => .pure _

end

/-! ## Answers -/

theorem answer_of_exec {s : Session Unit} {w : Workspace} {r : Except (Nat ⊕ Break) Unit}
    (h : exec s { workspace := w } = (r, a')) : answer s w = a'.ended r := by
  rw [exec] at h
  rw [answer, h]
  obtain (_ | _) | _ := r <;> rfl

theorem workspace_answer {s : Session Unit} {w : Workspace} {R : Workspace → Workspace → Prop}
    (h : Moves R s { workspace := w }) : R w (answer s w).workspace := by
  have hworkspace := h.workspace
  cases hexec : exec s { workspace := w } with
  | mk r a' =>
    rw [hexec] at hworkspace
    rw [answer_of_exec hexec]
    obtain (_ | _) | _ := r <;> exact hworkspace

/-- A command with exit code 0 has come to its end. -/
theorem exec_eq_ok_of_exitCode {s : Session Unit} {w : Workspace}
    {R : Workspace → Workspace → Prop} (hs : Moves R s { workspace := w })
    (h : (answer s w).exitCode = 0) : exec s { workspace := w } = (.ok (), answer s w) := by
  cases hexec : exec s { workspace := w } with
  | mk r a =>
    have hfails := ((moves_iff_of_exec hexec).1 hs).2
    rw [answer_of_exec hexec] at h ⊢
    rcases r with (code | cause) | ⟨⟩
    · exact absurd (congrArg (Except.error ∘ Sum.inl) h) hfails
    · cases h
    · rfl

end Session

end LineSpec.Command
