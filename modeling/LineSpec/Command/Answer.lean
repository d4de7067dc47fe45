import LineSpec.Check.Run
import LineSpec.Settings.File
import LineSpec.Settings.Reading
import LineSpec.Text.Terminal
import LineSpec.Variables
/-!
# Answers

What a command answers: the text it prints, its exit code, the events on the way, and the workspace
it leaves. A command that meets what it has no words for breaks off: the text printed so far stands,
the exit code is 1, and the answer tells the cause.
-/

namespace LineSpec.Command

/-- What makes a command break off. -/
inductive Break where
  | settings (e : Settings.LoadError)
  | source (e : Variables.SourceError)
  | misfit (m : Misfit)
  | access (e : AccessError)
  | encoding (fault : Text.Utf8.Fault)
  /-- A text that is to be printed or written holds surrogates. -/
  | unencodable (e : Text.Unencodable)
  | pattern (e : Glob.BadPart)
  deriving DecidableEq, Repr

namespace Break

/-- The cause in words, if it has any. -/
def message? : Break → Option Text
  | settings e => e.message?
  | source e => e.message?
  | misfit _ => none
  | access e => some e.message
  | encoding fault => some fault.message
  | unencodable e => some e.message
  | pattern _ => some Glob.BadPart.message

/-- A specification that cannot be loaded, where that is not reported. -/
def ofLoad : Survey.LoadError Misfit → Option Break
  | .parse _ => none
  | .access e => some (.access e)
  | .encoding fault => some (.encoding fault)
  | .refused m => some (.misfit m)

/-- What ends the check of an item. -/
def ofEscape : Check.Escape Misfit → Break
  | .access e => .access e
  | .refused m => .misfit m

end Break

/-- What a command answers. -/
structure Answer where
  workspace : Workspace
  stdout : String := ""
  exitCode : Nat := 0
  cause : Option Break := none
  events : List Event := []

/-- A run of a command: it changes a workspace, prints lines, notes events down, and ends early with
an exit code or with a cause to break off. -/
abbrev Session := ExceptT (Nat ⊕ Break) (StateM Answer)

namespace Session

/-- The result of a computation, with its events noted down. -/
def noted {α : Type} (x : Noted α) : Session α := do
  modify fun a => { a with events := a.events ++ x.events }
  return x.result

/-- The workspace. -/
def workspace : Session Workspace := return (← get).workspace

/-- Does something to the workspace. -/
def act {α : Type} (f : Workspace → Workspace × Except AccessError α) : Session α := do
  let (w, result) := f (← workspace)
  modify fun a => { a with workspace := w }
  match result with
  | .ok x => return x
  | .error e => throw (.inr (.access e))

/-- Breaks off with a cause. -/
def breakOff {α : Type} (cause : Break) : Session α := throw (.inr cause)

/-- Prints a text without its terminal sequences; one that holds surrogates cannot be printed. -/
def print (t : Text) : Session Unit := do
  let t := Text.printed t
  match t.chars? with
  | some cs => modify fun a => { a with stdout := a.stdout ++ String.ofList cs }
  | none =>
    match Text.Unencodable.inText? t with
    | some e => breakOff (.unencodable e)
    | none => return

/-- Prints a line. -/
def printLine (t : Text) : Session Unit := print (t ++ "\n")

/-- Ends with an exit code. -/
def exit {α : Type} (code : Nat) : Session α := throw (.inl code)

/-- Prints an error and ends. -/
def fail {α : Type} (message : Text) : Session α := do
  printLine ("Error: " ++ message)
  exit 1

/-- The answer of a run in a workspace. -/
def answer (s : Session Unit) (w : Workspace) : Answer :=
  match (s.run).run { workspace := w } with
  | (.ok (), a) => a
  | (.error (.inl code), a) => { a with exitCode := code }
  | (.error (.inr cause), a) => { a with exitCode := 1, cause := some cause }

end Session

end LineSpec.Command
