import LineSpec.Check.Pool
import LineSpec.Proofs.Check.Outcome
import Mathlib.Data.List.Chain
import Mathlib.Data.List.Perm.Basic
/-!
# Every schedule comes to the same outcome

A pool of workers performs tasks in an order that nobody controls, while the thread that asks for
the results takes them in the order of submission. What it returns is what the tasks give one after
the other (`Pool.Reachable.returned_eq`), an error being that of the first task with one. The
invariant `Pool.State.Valid` says that the results so far are those of the first tasks; it holds
because a result carries the index of its task.

No schedule gets stuck as long as there is a worker (`Pool.Reachable.exists_step`), and none goes on
for ever: each step takes away from `Pool.State.left`, by which every schedule is at most
`4 * ts.length + 3` steps long.
-/

namespace LineSpec.Check

namespace Pool

variable {α ε β : Type} {perform : α → Except ε β} {ts : List α} {workers : Nat}

/-! ## What holds at each step -/

namespace Phase

/-- How many of `n` tasks are submitted. -/
def submitted (n : Nat) : Phase ε β → Nat
  | submitting count => count
  | _ => n

/-- What the thread has is what the tasks give one after the other, or the first tasks do. -/
def Valid (perform : α → Except ε β) (ts : List α) : Phase ε β → Prop
  | submitting count => count ≤ ts.length
  | collecting results =>
    List.Forall₂ (fun t b => perform t = .ok b) (ts.take results.length) results
  | leaving result => result = ts.mapM perform
  | returned result => result = ts.mapM perform

end Phase

namespace State

/-- The tasks that were submitted, each with its index, wherever they are. -/
def tasks (s : State ε β) : List Nat := s.waiting ++ (s.running ++ s.finished.map Prod.fst)

/-- The invariant of a pool: no task is lost or performed twice, a result is that of the task with
its index, there are not more tasks running than workers, and the thread has the right results. -/
structure Valid (perform : α → Except ε β) (ts : List α) (workers : Nat) (s : State ε β) :
    Prop where
  tasks : s.tasks.Perm (List.range (s.phase.submitted ts.length))
  finished : ∀ i x, (i, x) ∈ s.finished → ∃ t, ts[i]? = some t ∧ perform t = x
  running : s.running.length ≤ workers
  phase : s.phase.Valid perform ts

theorem valid_start : ({} : State ε β).Valid perform ts workers where
  tasks := .refl _
  finished := by simp
  running := Nat.zero_le _
  phase := Nat.zero_le _

end State

/-! ## Each step keeps it -/

theorem forall₂_take_succ {results : List β} {t : α} {b : β}
    (h : List.Forall₂ (fun t b => perform t = .ok b) (ts.take results.length) results)
    (ht : ts[results.length]? = some t) (hb : perform t = .ok b) :
    List.Forall₂ (fun t b => perform t = .ok b) (ts.take (results ++ [b]).length)
      (results ++ [b]) := by
  rw [List.length_append, List.length_singleton, List.take_add_one, ht]
  exact List.rel_append h (.cons hb .nil)

/-- When the first tasks succeed and the next one does not, its error is that of all tasks. -/
theorem mapM_eq_error_of_take {results : List β} {t : α} {e : ε}
    (h : List.Forall₂ (fun t b => perform t = .ok b) (ts.take results.length) results)
    (ht : ts[results.length]? = some t) (he : perform t = .error e) :
    ts.mapM perform = .error e := by
  refine mapM_eq_error_iff.2 ⟨ts.take results.length, t, ts.drop (results.length + 1), ?_,
    exists_mapM_eq_ok_iff.1 ⟨results, mapM_eq_ok_iff.2 h⟩, he⟩
  obtain ⟨hlt, rfl⟩ := List.getElem?_eq_some_iff.1 ht
  rw [← List.drop_eq_getElem_cons hlt, List.take_append_drop]

variable {s s' : State ε β}

theorem Step.tasks_perm (h : Step perform ts workers s s')
    (hs : s.tasks.Perm (List.range (s.phase.submitted ts.length))) :
    s'.tasks.Perm (List.range (s'.phase.submitted ts.length)) := by
  cases h with
  | @submit k waiting running finished more =>
    -- the new task has the next index
    rw [Phase.submitted, List.range_succ]
    have hmove : (waiting ++ [k] ++ (running ++ finished.map Prod.fst)).Perm
        (waiting ++ (running ++ finished.map Prod.fst) ++ [k]) := by
      rw [List.append_assoc, List.append_assoc]
      exact List.perm_append_comm.append_left waiting
    exact hmove.trans (hs.append_right [k])
  | @pickUp phase before after running i finished idle =>
    refine List.Perm.trans ?_ hs
    have hmove : (before ++ after ++ i :: (running ++ finished.map Prod.fst)).Perm
        (i :: (before ++ after ++ (running ++ finished.map Prod.fst))) := List.perm_middle
    refine hmove.trans ?_
    simp only [State.tasks, List.append_assoc, List.cons_append]
    exact List.perm_middle.symm
  | @finish phase waiting before after i t finished task =>
    refine List.Perm.trans (List.Perm.append_left waiting ?_) hs
    rw [List.map_cons, List.append_assoc, List.append_assoc, List.cons_append]
    exact List.Perm.append_left before List.perm_middle
  | submitted | collect | raise | collected | leave => exact hs

theorem Step.finished (h : Step perform ts workers s s')
    (hs : ∀ i x, (i, x) ∈ s.finished → ∃ t, ts[i]? = some t ∧ perform t = x) :
    ∀ i x, (i, x) ∈ s'.finished → ∃ t, ts[i]? = some t ∧ perform t = x := by
  cases h with
  | finish task =>
    intro i x hmem
    rcases List.mem_cons.1 hmem with heq | hmem
    · obtain ⟨rfl, rfl⟩ := Prod.mk.inj heq
      exact ⟨_, task, rfl⟩
    · exact hs i x hmem
  | submit | submitted | pickUp | collect | raise | collected | leave => exact hs

theorem Step.running (h : Step perform ts workers s s') (hs : s.running.length ≤ workers) :
    s'.running.length ≤ workers := by
  cases h with
  | pickUp idle => exact idle
  | finish task =>
    simp only [List.length_append, List.length_cons] at hs ⊢
    omega
  | submit | submitted | collect | raise | collected | leave => exact hs

theorem Step.phase (h : Step perform ts workers s s') (hs : s.Valid perform ts workers) :
    s'.phase.Valid perform ts := by
  have hphase := hs.phase
  cases h with
  | submit more => exact more
  | submitted => exact .nil
  | collect done =>
    obtain ⟨t, ht, hb⟩ := hs.finished _ _ done
    exact forall₂_take_succ hphase ht hb
  | raise done =>
    obtain ⟨t, ht, he⟩ := hs.finished _ _ done
    exact (mapM_eq_error_of_take hphase ht he).symm
  | collected all =>
    rw [Phase.Valid, all, List.take_length] at hphase
    exact (mapM_eq_ok_iff.2 hphase).symm
  | pickUp | finish | leave => exact hphase

/-- What one step keeps. -/
theorem Step.valid (h : Step perform ts workers s s') (hs : s.Valid perform ts workers) :
    s'.Valid perform ts workers where
  tasks := h.tasks_perm hs.tasks
  finished := h.finished hs.finished
  running := h.running hs.running
  phase := h.phase hs

/-- What every schedule keeps. -/
theorem Reachable.valid (h : Reachable perform ts workers s) : s.Valid perform ts workers := by
  induction h with
  | refl => exact State.valid_start
  | tail _ hstep ih => exact hstep.valid ih

/-- Whatever the schedule is, the thread returns what the tasks give one after the other. -/
theorem Reachable.returned_eq (h : Reachable perform ts workers s) {result : Except ε (List β)}
    (hresult : s.phase = .returned result) : result = ts.mapM perform := by
  have hphase := h.valid.phase
  rwa [hresult] at hphase

/-! ## Every schedule can go on until the pool is left -/

/-- A task that is waiting or running keeps the workers busy. -/
theorem State.Valid.exists_step_of_task (hs : s.Valid perform ts workers) (hworkers : 0 < workers)
    (htask : s.waiting ≠ [] ∨ s.running ≠ []) : ∃ s', Step perform ts workers s s' := by
  obtain ⟨phase, waiting, running, finished⟩ := s
  cases running with
  | cons i running =>
    -- a running task can be finished, since it has an index below `ts.length`
    have hmem : i ∈ List.range (phase.submitted ts.length) :=
      hs.tasks.subset (by simp [State.tasks])
    have hle : phase.submitted ts.length ≤ ts.length := by
      have hphase := hs.phase
      cases phase with
      | submitting => exact hphase
      | collecting | leaving | returned => exact Nat.le_refl _
    have hlt : i < ts.length := (List.mem_range.1 hmem).trans_le hle
    show ∃ s', Step perform ts workers ⟨phase, waiting, [] ++ i :: running, finished⟩ s'
    exact ⟨_, .finish (List.getElem?_eq_getElem hlt)⟩
  | nil =>
    cases waiting with
    | nil => exact absurd htask (by simp)
    | cons i waiting =>
      show ∃ s', Step perform ts workers ⟨phase, [] ++ i :: waiting, [], finished⟩ s'
      exact ⟨_, .pickUp hworkers⟩

/-- As long as the thread has not returned, some step is possible. -/
theorem Reachable.exists_step (h : Reachable perform ts workers s) (hworkers : 0 < workers)
    (hs : ∀ result, s.phase ≠ .returned result) : ∃ s', Step perform ts workers s s' := by
  have hvalid := h.valid
  by_cases htask : s.waiting ≠ [] ∨ s.running ≠ []
  · exact hvalid.exists_step_of_task hworkers htask
  -- all tasks that were submitted are finished, so the thread itself can take a step
  obtain ⟨phase, waiting, running, finished⟩ := s
  rw [not_or, not_not, not_not] at htask
  obtain ⟨rfl, rfl⟩ := htask
  have hphase := hvalid.phase
  cases phase with
  | submitting k =>
    rcases Nat.lt_or_eq_of_le hphase with hlt | rfl
    · exact ⟨_, .submit hlt⟩
    · exact ⟨_, .submitted⟩
  | collecting results =>
    have hle : results.length ≤ ts.length := by
      have := List.Forall₂.length_eq hphase
      rw [List.length_take] at this
      omega
    rcases Nat.lt_or_eq_of_le hle with hlt | heq
    · have hmem : results.length ∈ finished.map Prod.fst :=
        hvalid.tasks.symm.subset (List.mem_range.2 hlt)
      obtain ⟨⟨i, x⟩, hx, rfl⟩ := List.mem_map.1 hmem
      cases x with
      | ok b => exact ⟨_, .collect hx⟩
      | error e => exact ⟨_, .raise hx⟩
    · exact ⟨_, .collected heq⟩
  | leaving result => exact ⟨_, .leave⟩
  | returned result => exact absurd rfl (hs result)

/-! ## Every schedule ends -/

/-- How many steps the thread has still to take, where a task that is not yet submitted counts for
the steps of its worker too. -/
def Phase.left (n : Nat) : Phase ε β → Nat
  | submitting count => 3 * (n - count) + n + 3
  | collecting results => n - results.length + 2
  | leaving _ => 1
  | returned _ => 0

/-- How many steps there are at most until the pool is left. -/
def State.left (n : Nat) (s : State ε β) : Nat :=
  s.phase.left n + 2 * s.waiting.length + s.running.length

theorem Step.left_lt (h : Step perform ts workers s s') (hs : s.Valid perform ts workers) :
    s'.left ts.length < s.left ts.length := by
  cases h with
  | submit more =>
    simp only [State.left, Phase.left, List.length_append, List.length_singleton]
    omega
  | submitted =>
    simp only [State.left, Phase.left, List.length_nil]
    omega
  | pickUp idle =>
    simp only [State.left, List.length_append, List.length_cons]
    omega
  | finish task =>
    simp only [State.left, List.length_append, List.length_cons]
    omega
  | @collect results b _ _ _ done =>
    obtain ⟨t, ht, -⟩ := hs.finished _ _ done
    have hlt : results.length < ts.length := (List.getElem?_eq_some_iff.1 ht).1
    simp only [State.left, Phase.left, List.length_append, List.length_singleton]
    omega
  | raise | collected =>
    simp only [State.left, Phase.left]
    omega
  | leave =>
    simp only [State.left, Phase.left]
    omega

theorem length_le_left_of_isChain {ss : List (State ε β)}
    (h : (s :: ss).IsChain (Step perform ts workers)) (hs : s.Valid perform ts workers) :
    ss.length ≤ s.left ts.length := by
  induction ss generalizing s with
  | nil => exact Nat.zero_le _
  | cons s' ss ih =>
    obtain ⟨hstep, hrest⟩ := List.isChain_cons_cons.1 h
    have hle := ih hrest (hstep.valid hs)
    have hlt := hstep.left_lt hs
    rw [List.length_cons]
    omega

/-- A schedule has at most four steps for each task and three more. -/
theorem length_le_of_isChain {ss : List (State ε β)}
    (h : (({} : State ε β) :: ss).IsChain (Step perform ts workers)) :
    ss.length ≤ 4 * ts.length + 3 := by
  have hle := length_le_left_of_isChain h State.valid_start
  simp only [State.left, Phase.left, List.length_nil] at hle
  omega

/-- From each state that a schedule leads to, some schedule goes on to the end. -/
theorem Reachable.exists_returned (h : Reachable perform ts workers s) (hworkers : 0 < workers) :
    ∃ s' result, Reachable perform ts workers s' ∧ s'.phase = .returned result := by
  induction hn : s.left ts.length using Nat.strong_induction_on generalizing s with
  | _ n ih =>
    by_cases hs : ∃ result, s.phase = .returned result
    · obtain ⟨result, hresult⟩ := hs
      exact ⟨s, result, h, hresult⟩
    · rw [not_exists] at hs
      obtain ⟨s', hstep⟩ := h.exists_step hworkers hs
      exact ih _ (hn ▸ hstep.left_lt h.valid) (h.tail hstep) rfl

end Pool

/-! ## Documents -/

section
variable {ε : Type} {r : Reading ε} {w : Workspace} {d : Document} {root : Path} {param : Text}
  {jobs : Int}

theorem result_document_eq_outcomeOf (d : Document) :
    (document r w d root param jobs).result =
      outcomeOf (nameOf d) (d.declaring param)
        ((d.declaring param).mapM (resultOf r w root)) :=
  result_document d

/-- Under each schedule, the check of a document comes to what the check of one item after the other
comes to. -/
theorem concludes_iff (hjobs : 1 < jobs) {o : Except (Escape ε) Outcome} :
    Concludes r w d root param jobs o ↔ o = (document r w d root param 1).result := by
  rw [result_document_eq_outcomeOf]
  constructor
  · intro h
    cases h with
    | inOrder single => rw [result_inOrder]
    | pooled several reached returned => rw [reached.returned_eq returned]
  · rintro rfl
    by_cases hseveral : 1 < (d.declaring param).length
    · have hworkers : 0 < jobs.toNat := by omega
      have hstart : Pool.Reachable (resultOf r w root) (d.declaring param) jobs.toNat {} := .refl
      obtain ⟨s, result, hreached, hreturned⟩ := hstart.exists_returned hworkers
      rw [← hreached.returned_eq hreturned]
      exact .pooled ⟨hjobs, hseveral⟩ hreached hreturned
    · rw [← result_inOrder]
      exact .inOrder fun h => hseveral h.2

/-- A check of several items at a time comes to an end under each schedule, and to the outcome of
the check of one item after the other. This is the number of items with their failures in the order
of the document, or what the first item that ends the check ends it with. -/
theorem concludes_as_one_by_one (hjobs : 1 < jobs) :
    (document r w d root param jobs).result = (document r w d root param 1).result ∧
    (∀ o, Concludes r w d root param jobs o ↔ o = (document r w d root param 1).result) ∧
    (∀ s, Pool.Reachable (resultOf r w root) (d.declaring param) jobs.toNat s →
      (∀ result, s.phase ≠ .returned result) →
      ∃ s', Pool.Step (resultOf r w root) (d.declaring param) jobs.toNat s s') ∧
    (∀ ss, (({} : Pool.State (Escape ε) (Option Problem)) :: ss).IsChain
        (Pool.Step (resultOf r w root) (d.declaring param) jobs.toNat) →
      ss.length ≤ 4 * (d.declaring param).length + 3) ∧
    (∀ o, (document r w d root param 1).result = .ok o ↔
      ∃ ps, List.Forall₂ (fun t p => resultOf r w root t = .ok p) (d.declaring param) ps ∧
        o = ⟨(d.declaring param).length, failuresOf (nameOf d) (d.declaring param) ps⟩) ∧
    ∀ e, (document r w d root param 1).result = .error e ↔
      ∃ before t after, d.declaring param = before ++ t :: after ∧
        (∀ t' ∈ before, ∃ p, resultOf r w root t' = .ok p) ∧ resultOf r w root t = .error e := by
  have hworkers : 0 < jobs.toNat := by omega
  refine ⟨?_, fun o => concludes_iff hjobs, fun s h hs => h.exists_step hworkers hs,
    fun ss h => Pool.length_le_of_isChain h, fun o => ?_, fun e => ?_⟩
  · rw [result_document, result_document]
  · rw [result_document_eq_outcomeOf, outcomeOf, map_eq_ok_iff]
    exact exists_congr fun ps => and_congr mapM_eq_ok_iff eq_comm
  · rw [result_document_eq_outcomeOf, outcomeOf, map_eq_error_iff, mapM_eq_error_iff]

/-- The second of three items ends the check, whichever of two workers comes to it and when: no file
can have its name. The third one would end it too, for another reason. -/
theorem concludes_as_one_by_one_three_items :
    let d : Document := ⟨[⟨[("file", "a")], [.literal "x" 2], 1⟩, ⟨[("file", "\x00")], [], 3⟩,
      ⟨[("file", [CodePoint.ofNat 0xD800])], [], 4⟩], none⟩
    (1 : Int) < 2 ∧
      ∀ o, Concludes (({} : Conventions).reading []) {} d (Path.ofText ".") "file" 2 o ↔
        o = .error (.access .nulInPath) := by
  intro d
  have hone : (document (({} : Conventions).reading []) {} d (Path.ofText ".") "file" 1).result =
      .error (.access .nulInPath) := by decide +kernel
  refine ⟨by decide, fun o => ?_⟩
  rw [← hone]
  exact (concludes_as_one_by_one (by decide)).2.1 o

end

end LineSpec.Check
