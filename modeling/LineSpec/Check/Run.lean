import LineSpec.Check.Survey
import LineSpec.Match.Run
import LineSpec.Text.Feed
/-!
# Checking files against specifications

An item that declares a parameter names the file that it is about. Checking the item reads that file
line by line, as far as its body asks for. What is wrong with the specification or the file is a
problem of that item; only a file name that no path can have, or a reading that refuses, ends a
check. The items of a document are checked one after the other or several at a time; either way
failures are listed in document order.
-/

namespace LineSpec.Check

variable {ε : Type}

/-- What ends a check. -/
inductive Escape (ε : Type) where
  /-- No file can have the name that an item gives. -/
  | access (e : AccessError)
  | refused (e : ε)
  deriving DecidableEq, Repr

/-- An item that its file does not match, or a specification that cannot be loaded; the latter has
no target. -/
structure Failure where
  specFile : Text
  itemLine : Int
  target : Text
  problem : Problem
  deriving DecidableEq, Repr

/-- The number of items that were checked, and the failures. -/
structure Outcome where
  checked : Int := 0
  failures : List Failure := []
  deriving DecidableEq, Repr

namespace Outcome

/-- Whether nothing failed. -/
def success (o : Outcome) : Bool := o.failures.isEmpty

/-- The number of items without a failure. A failure without a target was never counted as
checked. -/
def passed (o : Outcome) : Int :=
  o.checked - (o.failures.filter fun f => f.target ≠ []).length

/-- The outcomes of two checks together. -/
def append (o o' : Outcome) : Outcome :=
  ⟨o.checked + o'.checked, o.failures ++ o'.failures⟩

end Outcome

/-! ## One item -/

/-- What a run of the matcher over the lines of a file says about an item. A fault in the file
counts when the run asked for more lines than there are before the fault. -/
def problemOf (strictEnd : Bool) (body : Body) (target : Path) (fault : Option Text.Utf8.Fault)
    (verdict : Match.Verdict (PlaceholderError ⊕ ε)) : Except (Escape ε) (Option Problem) :=
  match fault, verdict.readsEnd strictEnd body with
  | some fault, true => .ok (some (.targetUnreadable target.text fault.message))
  | _, _ =>
    match verdict with
    | .matched => .ok none
    | .failed e => .ok (some (.mismatch e))
    | .unresolved (.inl e) => .ok (some (.placeholder e))
    | .unresolved (.inr e) => .error (.refused e)

/-- Checks the file at `target` against a body. -/
def item (r : Reading ε) (w : Workspace) (body : Body) (target : Path) :
    Noted (Except (Escape ε) (Option Problem)) :=
  let start := Event.checking target.text
  match w.read target with
  | .error (.os .missing _) => ⟨.ok (some (.targetMissing target.text)), [start]⟩
  | .error (.os e _) => ⟨.ok (some (.targetUnreadable target.text e.reason)), [start]⟩
  -- no file can have such a path at all
  | .error e => ⟨.error (.access e), [start]⟩
  | .ok content =>
    let feed := Text.Feed.ofBytes content
    let run := Match.run r.resolve r.strictEnd body feed.lines
    ⟨problemOf r.strictEnd body target feed.fault run.verdict,
      start :: run.anchors.map fun a => .anchored a.line a.patternLine⟩

/-! ## A document -/

/-- The result of checking an item that names its file. -/
abbrev ItemResult (ε : Type) := Except (Escape ε) (Option Problem)

/-- Checks items in order, up to the first that ends the check. -/
def inOrder (check : Item × Text → Noted (ItemResult ε)) :
    List (Item × Text) → Noted (Except (Escape ε) (List (Option Problem)))
  | [] => ⟨.ok [], []⟩
  | t :: ts =>
    match check t with
    | ⟨.error e, es⟩ => ⟨.error e, es⟩
    | ⟨.ok p, es⟩ =>
      let ⟨next, es'⟩ := inOrder check ts
      ⟨next.map (p :: ·), es ++ es'⟩

/-- Checks all items, and only then looks for the first that ends the check. -/
def pooled (check : Item × Text → Noted (ItemResult ε)) (ts : List (Item × Text)) :
    Noted (Except (Escape ε) (List (Option Problem))) :=
  let results := ts.map check
  ⟨(results.map Noted.result).mapM id, results.flatMap Noted.events⟩

/-- The failures of items, from their problems. -/
def failuresOf (specFile : Text) (ts : List (Item × Text)) (ps : List (Option Problem)) :
    List Failure :=
  (ts.zip ps).filterMap fun p =>
    p.2.map fun problem => ⟨specFile, p.1.1.line, p.1.2, problem⟩

/-- The name of a document in failures. -/
def nameOf (d : Document) : Text :=
  match d.source with
  | none | some [] => "<string>"
  | some file => file

/-- Checks the items of a document that declare `param`, with file names as seen from `root`. -/
def document (r : Reading ε) (w : Workspace) (d : Document) (root : Path) (param : Text)
    (jobs : Int) : Noted (Except (Escape ε) Outcome) :=
  let ts := d.declaring param
  let check := fun t : Item × Text => item r w t.1.body (root.child t.2)
  let ⟨ps, es⟩ := if 1 < jobs && 1 < ts.length then pooled check ts else inOrder check ts
  ⟨ps.map fun ps => ⟨ts.length, failuresOf (nameOf d) ts ps⟩, es⟩

/-! ## A directory -/

/-- Why a directory cannot be checked to the end. -/
inductive DirError (ε : Type) where
  | walk (e : Survey.WalkError ε)
  | escape (e : Escape ε)
  deriving DecidableEq, Repr

/-- A specification that cannot be loaded, as a failure without a target, and in words; a reading
that refuses is no failure of the specification. -/
def rejection (file : Path) : Survey.LoadError ε → Except ε (Failure × Text)
  | .parse e => .ok (⟨file.text, e.number, [], .parse e⟩, e.message)
  | .access e =>
    let reason : Text := match e with
      | .os e _ => e.reason
      | e => e.message
    .ok (⟨file.text, 0, [], .targetUnreadable file.text reason⟩, e.message)
  | .encoding fault =>
    .ok (⟨file.text, 0, [], .targetUnreadable file.text fault.message⟩, fault.message)
  | .refused e => .error e

/-- Checks one specification file. -/
def file (r : Reading ε) (w : Workspace) (root : Path) (param : Text) (jobs : Int) (path : Path) :
    Noted (Except (DirError ε) Outcome) :=
  match Survey.visit r w path with
  | ⟨.ok d, es⟩ =>
    let ⟨o, es'⟩ := document r w d root param jobs
    ⟨o.mapError .escape, es ++ es'⟩
  | ⟨.error e, es⟩ =>
    match rejection path e with
    | .ok (failure, message) =>
      ⟨.ok ⟨0, [failure]⟩, es ++ [.rejected path.text message]⟩
    | .error e => ⟨.error (.walk (.load (.refused e))), es⟩

/-- Checks specification files in order. -/
def files (check : Path → Noted (Except (DirError ε) Outcome)) :
    List Path → Noted (Except (DirError ε) Outcome)
  | [] => ⟨.ok {}, []⟩
  | path :: paths =>
    match check path with
    | ⟨.error e, es⟩ => ⟨.error e, es⟩
    | ⟨.ok o, es⟩ =>
      let ⟨next, es'⟩ := files check paths
      ⟨next.map o.append, es ++ es'⟩

/-- Checks all specifications below a directory, with file names as seen from `root`, or from the
directory itself. -/
def directory (r : Reading ε) (w : Workspace) (dir : Path) (extension : Text)
    (root : Option Path) (param : Text) (jobs : Int) : Noted (Except (DirError ε) Outcome) :=
  match Survey.files w dir extension with
  | .error e => ⟨.error (.walk e), []⟩
  | .ok paths =>
    match files (file r w (root.getD dir) param jobs) paths with
    | ⟨.error e, es⟩ => ⟨.error e, es⟩
    | ⟨.ok o, es⟩ => ⟨.ok o, es ++ [.checked o.checked o.failures.length]⟩

end LineSpec.Check
