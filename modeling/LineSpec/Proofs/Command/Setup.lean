import LineSpec.Command.Run
import LineSpec.Proofs.Command.Session
/-!
# How a command begins

Settings, variables and options come from the workspace and the request. They are had exactly when
they are well, and having them leaves the answer as it is; otherwise the command ends. None of this
changes the workspace.
-/

namespace LineSpec.Command

open Session

variable {a a' : Answer} {s : Settings}

/-- Only the events that are kept depend on whether they are to be shown. -/
theorem run_of_request {w : Workspace} {args : List String} {q : Request} {verbose : Bool}
    (h : Request.ofArguments w args = .ok (q, verbose)) :
    ∃ events, run w args = { answer (perform q) w with events } := by
  delta run
  rw [h]
  exact ⟨_, rfl⟩

theorem exec_settingsOrFail_eq_ok_iff :
    exec settingsOrFail a = (.ok s, a') ↔ projectSettings a.workspace = .ok s ∧ a' = a := by
  rw [settingsOrFail, exec_bind_ok exec_workspace]
  cases projectSettings a.workspace with
  | ok s' => simp [exec_pure, eq_comm]
  | error e =>
    have hends : Ends (if isReportedSettings e then fail (e.message?.getD [])
        else breakOff (.settings e) : Session Settings) := by
      split
      · exact ends_fail _
      · exact ends_breakOff _
    exact iff_of_false hends.exec_ne_ok nofun

theorem exec_variablesOrFail_eq_ok_iff {file : Option Path} {assignments : List Text}
    {vars : Bindings Text} :
    exec (variablesOrFail s file assignments) a = (.ok vars, a') ↔
      Variables.collect a.workspace s.vars file assignments = .ok vars ∧ a' = a := by
  rw [variablesOrFail, exec_bind_ok exec_workspace]
  cases Variables.collect a.workspace s.vars file assignments with
  | ok vs => simp [exec_pure, eq_comm]
  | error e =>
    have hends : Ends (if isReportedVariables e then fail (e.message?.getD [])
        else breakOff (.source e) : Session (Bindings Text)) := by
      split
      · exact ends_fail _
      · exact ends_breakOff _
    exact iff_of_false hends.exec_ne_ok nofun

theorem exec_optionsOrFail_eq_ok_iff {strictEnd : Option Bool} {o : Settings.Options} :
    exec (optionsOrFail s strictEnd) a = (.ok o, a') ↔ s.options strictEnd = .ok o ∧ a' = a := by
  rw [optionsOrFail]
  cases s.options strictEnd with
  | ok o' => simp [exec_pure, eq_comm]
  | error m => exact iff_of_false (ends_fail _).exec_ne_ok nofun

/-! ## Beginnings that succeed -/

section
variable {w : Workspace}

theorem exec_settingsOrFail_ok (h : projectSettings w = .ok s) :
    exec settingsOrFail { workspace := w } = (.ok s, { workspace := w }) :=
  exec_settingsOrFail_eq_ok_iff.2 ⟨h, rfl⟩

theorem exec_variablesOrFail_ok {file : Option Path} {assignments : List Text}
    {vars : Bindings Text} (h : Variables.collect w s.vars file assignments = .ok vars) :
    exec (variablesOrFail s file assignments) { workspace := w } =
      (.ok vars, { workspace := w }) :=
  exec_variablesOrFail_eq_ok_iff.2 ⟨h, rfl⟩

theorem exec_optionsOrFail_ok {strictEnd : Option Bool} {o : Settings.Options}
    (h : s.options strictEnd = .ok o) :
    exec (optionsOrFail s strictEnd) { workspace := w } = (.ok o, { workspace := w }) :=
  exec_optionsOrFail_eq_ok_iff.2 ⟨h, rfl⟩

end

/-! ## The workspace -/

section
variable {R : Workspace → Workspace → Prop} [Std.Refl R] [IsTrans Workspace R]

theorem moves_settingsOrFail : Moves R settingsOrFail a := by
  refine moves_workspace.bind fun w _ _ => ?_
  split
  · exact .pure _
  · split
    · exact moves_fail _
    · exact moves_breakOff _

theorem moves_variablesOrFail {file : Option Path} {assignments : List Text} :
    Moves R (variablesOrFail s file assignments) a := by
  refine moves_workspace.bind fun w _ _ => ?_
  split
  · exact .pure _
  · split
    · exact moves_fail _
    · exact moves_breakOff _

theorem moves_optionsOrFail {strictEnd : Option Bool} : Moves R (optionsOrFail s strictEnd) a := by
  rw [optionsOrFail]
  split
  · exact .pure _
  · exact moves_fail _

end

end LineSpec.Command
