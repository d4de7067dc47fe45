import LineSpec.Text.Surrogate
/-!
# Events

What a run notes down while it works, in order. `Noted α` is a result with the events on the way to
it. An event says what happened; its severity, its channel and its wording follow from that.
-/

namespace LineSpec

/-- How much an event matters. -/
inductive Severity where
  | debug
  | info
  | warning
  deriving DecidableEq, Repr

namespace Severity

/-- The name of a severity. -/
def label : Severity → String
  | debug => "DEBUG"
  | info => "INFO"
  | warning => "WARNING"

/-- The place of a severity among all of them; what matters more has a later one. -/
def rank : Severity → Nat
  | debug => 0
  | info => 1
  | warning => 2

/-- The least severity that is shown: warnings, and on request everything. -/
def threshold (verbose : Bool) : Severity := if verbose then debug else warning

end Severity

/-- What a run notes down. -/
inductive Event where
  /-- A specification was parsed: the number of its items and its file. -/
  | parsed (count : Nat) (source : Option Text)
  /-- A skip ended at this line of the input, by this line of the specification. -/
  | anchored (line : Nat) (patternLine : Int)
  /-- The file that an item names is about to be checked. -/
  | checking (path : Text)
  /-- A file of a specification directory is about to be read. -/
  | loading (path : Text)
  /-- A file of a specification directory could not be loaded. -/
  | rejected (path message : Text)
  /-- A directory was checked: the number of items and of failures. -/
  | checked (items : Int) (failures : Nat)
  deriving DecidableEq, Repr

namespace Event

/-- How much the event matters. -/
def severity : Event → Severity
  | checked .. => .info
  | _ => .debug

/-- The part of the program that notes the event down. -/
def channel : Event → String
  | parsed .. => "specker.parser"
  | anchored .. => "specker.matcher"
  | checking _ => "specker.runner"
  | loading _ => "specker.walker"
  | rejected .. => "specker.runner"
  | checked .. => "specker.runner"

/-- The event in words. -/
def message : Event → Text
  | parsed count source =>
    let file : Text := match source with
      | none | some [] => "<string>"
      | some file => file
    s!"Parsed {count} item(s) from " ++ file
  | anchored line patternLine =>
    s!"Skip anchored on line {line} by pattern line {patternLine}"
  | checking path => "Checking " ++ path
  | loading path => "Parsing spec file " ++ path
  | rejected path message => "Cannot load spec " ++ path ++ ": " ++ message
  | checked items failures => s!"Checked {items} item(s), {failures} failure(s)"

/-- Whether the event is shown. -/
def isShown (verbose : Bool) (e : Event) : Bool :=
  decide ((Severity.threshold verbose).rank ≤ e.severity.rank)

/-- The line that shows the event: its severity in eight columns, its channel and its wording. A
surrogate is shown by its number. -/
def logLine (e : Event) : String :=
  let label := e.severity.label
  let column := label ++ String.ofList (List.replicate (8 - label.length) ' ')
  s!"{column} | {e.channel} | {Text.shown e.message}"

end Event

/-- A result, and the events on the way to it. -/
structure Noted (α : Type) where
  result : α
  events : List Event := []
  deriving Repr

namespace Noted

variable {α β : Type}

/-- A result without events. -/
def pure (a : α) : Noted α := ⟨a, []⟩

/-- One run after another: the events of both, in order. -/
def bind (x : Noted α) (f : α → Noted β) : Noted β :=
  ⟨(f x.result).result, x.events ++ (f x.result).events⟩

instance : Monad Noted where
  pure := Noted.pure
  bind := Noted.bind

end Noted

end LineSpec
