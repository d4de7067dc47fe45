import LineSpec.Check.Run
import Mathlib.Logic.Relation
/-!
# Checking several items at a time

Where several items are checked at a time, each is a task for a pool of workers. The thread that
asks for the results submits all tasks, then takes their results in the order of submission, and
leaves once no task is waiting or running. The first result that is an error is raised; the tasks
behind it are still performed, since the pool is not left before.

Which waiting task an idle worker picks up, and which running task is finished next, is open: a step
of `Step` is any one that the thread or a worker can take, and a schedule is a sequence of them.
Tasks are told apart by their index. No task changes what another one finds, so the result of a task
is a function of the task.
-/

namespace LineSpec.Check

namespace Pool

/-- What the thread that asks for the results does. -/
inductive Phase (ε β : Type) where
  /-- It has submitted the first `count` tasks. -/
  | submitting (count : Nat)
  /-- It has taken the results of the first tasks. -/
  | collecting (results : List β)
  /-- It has what it will return, and waits for the workers. -/
  | leaving (result : Except ε (List β))
  | returned (result : Except ε (List β))

/-- Where the thread stands, which tasks wait for a worker, which ones workers have in hand, and the
results so far. -/
structure State (ε β : Type) where
  phase : Phase ε β := .submitting 0
  waiting : List Nat := []
  running : List Nat := []
  finished : List (Nat × Except ε β) := []

variable {α ε β : Type}

section
variable (perform : α → Except ε β) (ts : List α) (workers : Nat)

/-- One step of the thread or of one of the workers. -/
inductive Step : State ε β → State ε β → Prop
  | submit {k : Nat} {waiting running : List Nat} {finished : List (Nat × Except ε β)}
      (more : k < ts.length) :
      Step ⟨.submitting k, waiting, running, finished⟩
        ⟨.submitting (k + 1), waiting ++ [k], running, finished⟩
  | submitted {waiting running : List Nat} {finished : List (Nat × Except ε β)} :
      Step ⟨.submitting ts.length, waiting, running, finished⟩
        ⟨.collecting [], waiting, running, finished⟩
  /-- An idle worker picks up a waiting task, not necessarily the first one. -/
  | pickUp {phase : Phase ε β} {before after running : List Nat} {i : Nat}
      {finished : List (Nat × Except ε β)} (idle : running.length < workers) :
      Step ⟨phase, before ++ i :: after, running, finished⟩
        ⟨phase, before ++ after, i :: running, finished⟩
  | finish {phase : Phase ε β} {waiting before after : List Nat} {i : Nat} {t : α}
      {finished : List (Nat × Except ε β)} (task : ts[i]? = some t) :
      Step ⟨phase, waiting, before ++ i :: after, finished⟩
        ⟨phase, waiting, before ++ after, (i, perform t) :: finished⟩
  | collect {results : List β} {b : β} {waiting running : List Nat}
      {finished : List (Nat × Except ε β)} (done : (results.length, .ok b) ∈ finished) :
      Step ⟨.collecting results, waiting, running, finished⟩
        ⟨.collecting (results ++ [b]), waiting, running, finished⟩
  | raise {results : List β} {e : ε} {waiting running : List Nat}
      {finished : List (Nat × Except ε β)} (done : (results.length, .error e) ∈ finished) :
      Step ⟨.collecting results, waiting, running, finished⟩
        ⟨.leaving (.error e), waiting, running, finished⟩
  | collected {results : List β} {waiting running : List Nat}
      {finished : List (Nat × Except ε β)} (all : results.length = ts.length) :
      Step ⟨.collecting results, waiting, running, finished⟩
        ⟨.leaving (.ok results), waiting, running, finished⟩
  /-- The pool is left when it has nothing more to do. -/
  | leave {result : Except ε (List β)} {finished : List (Nat × Except ε β)} :
      Step ⟨.leaving result, [], [], finished⟩ ⟨.returned result, [], [], finished⟩

/-- The states that some schedule leads to. -/
def Reachable (s : State ε β) : Prop := Relation.ReflTransGen (Step perform ts workers) {} s

end

end Pool

variable {ε : Type}

/-- What the check of an item that names its file finds. -/
abbrev resultOf (r : Reading ε) (w : Workspace) (root : Path) (t : Item × Text) : ItemResult ε :=
  (item r w t.1.body (root.child t.2)).result

/-- The outcome of the check of items, from what the check of each of them finds. -/
def outcomeOf (specFile : Text) (ts : List (Item × Text))
    (result : Except (Escape ε) (List (Option Problem))) : Except (Escape ε) Outcome :=
  result.map fun ps => ⟨ts.length, failuresOf specFile ts ps⟩

/-- `Concludes r w d root param jobs o` says that the check of a document, at most `jobs` items at a
time, comes to the outcome `o` under some schedule. Where there is at most one item to check, or one
at a time, the pool is not used. -/
inductive Concludes (r : Reading ε) (w : Workspace) (d : Document) (root : Path) (param : Text)
    (jobs : Int) : Except (Escape ε) Outcome → Prop
  | inOrder (single : ¬(1 < jobs ∧ 1 < (d.declaring param).length)) :
      Concludes r w d root param jobs
        (outcomeOf (nameOf d) (d.declaring param)
          (Check.inOrder (fun t => item r w t.1.body (root.child t.2)) (d.declaring param)).result)
  | pooled {s : Pool.State (Escape ε) (Option Problem)}
      {result : Except (Escape ε) (List (Option Problem))}
      (several : 1 < jobs ∧ 1 < (d.declaring param).length)
      (reached : Pool.Reachable (resultOf r w root) (d.declaring param) jobs.toNat s)
      (returned : s.phase = .returned result) :
      Concludes r w d root param jobs (outcomeOf (nameOf d) (d.declaring param) result)

end LineSpec.Check
