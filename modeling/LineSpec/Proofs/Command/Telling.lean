import LineSpec.Proofs.Check.Plain
import LineSpec.Proofs.Command.Check
/-!
# Runs that tell

A run that prints plain text is not broken off: it comes back, and nothing but the printed text is
other than before (`Tells`). Telling the failures of a check is such a run.
-/

namespace LineSpec.Command

namespace Session

variable {α β : Type} {w : Workspace} {P : α → Prop} {Q : β → Prop} {s : Session α}
  {f : α → Session β} {t : Text}

/-- In the workspace `w` a run comes back with a result such that `P`; nothing but the printed text
is other than before. -/
def Tells (w : Workspace) (P : α → Prop) (s : Session α) : Prop :=
  ∀ a : Answer, a.workspace = w → ∃ x stdout, P x ∧ exec s a = (.ok x, { a with stdout })

theorem Tells.pure {x : α} (h : P x) : Tells w P (pure x : Session α) :=
  fun a _ => ⟨x, a.stdout, h, exec_pure x⟩

theorem Tells.bind (h : Tells w P s) (hf : ∀ x, P x → Tells w Q (f x)) : Tells w Q (s >>= f) := by
  intro a ha
  obtain ⟨x, stdout, hx, hs⟩ := h a ha
  obtain ⟨y, stdout', hy, hfx⟩ := hf x hx { a with stdout } ha
  exact ⟨y, stdout', hy, (exec_bind_ok hs).trans hfx⟩

theorem Shows.tells {x : α} {ts : List Text} (h : Shows s x ts) (hx : P x) : Tells w P s := by
  intro a _
  obtain ⟨a', h⟩ := h a
  obtain ⟨cs, -, rfl⟩ := h.shown
  exact ⟨x, _, hx, h.exec⟩

theorem tells_printLine (h : t.Plain) : Tells w (fun _ => True) (printLine t) :=
  (shows_printLine h).tells trivial

/-- A loop tells if each of its rounds does, and goes on after it. -/
theorem tells_forIn {γ : Type} {l : List γ} {g : γ → PUnit → Session (ForInStep PUnit)}
    (h : ∀ x ∈ l, Tells w (· = .yield PUnit.unit) (g x PUnit.unit)) :
    Tells w (fun _ => True) (forIn l PUnit.unit g) := by
  induction l with
  | nil => exact .pure trivial
  | cons x l ih =>
    obtain ⟨hx, hl⟩ := List.forall_mem_cons.1 h
    rw [List.forIn_cons]
    refine hx.bind fun r hr => ?_
    obtain rfl := hr
    exact ih hl

end Session

open Session

variable {w : Workspace}

/-! ## Telling failures -/

/-- The report of a plain problem in a file that can be read is plain. -/
theorem exists_report {p : Problem} (hp : p.Plain) {file : Path}
    (h : ∃ content, w.read file = .ok content) (label : Text) :
    ∃ report, ((w.readLines file).map fun lines => (Report.formatIn? p label lines).getD []) =
      .ok report ∧ report.Plain := by
  obtain ⟨content, hread⟩ := h
  refine ⟨_, by rw [Workspace.readLines, hread]; rfl, ?_⟩
  refine Report.plain_of_formatIn? hp (fun l hl => ?_) label
  exact (Text.plain_ofChars _).of_subset (Text.subset_of_mem_lines hl)

/-- The block about a failure that can be told is plain. -/
theorem exists_block {root : Path} {f : Check.Failure} (h : f.CanTell w root) :
    ∃ b, block w root f = .ok b ∧ b.Plain := by
  have hstring := Text.plain_ofString
  have hheader : Text.Plain ("FAILED " ++ f.specFile ++ s!":{f.itemLine} -> " ++ f.target) :=
    (((hstring _).append h.specFile).append (hstring _)).append h.target
  have hwording : Text.Plain ("\n  " ++ f.problem.message) := (hstring _).append h.problem.message
  rw [block]
  split
  next e he =>
    obtain ⟨report, hreport, hplain⟩ := exists_report h.problem (h.parse e he)
      (Path.ofText f.specFile).text
    exact ⟨_, map_eq_ok_iff.2 ⟨report, hreport, rfl⟩,
      (((hstring _).append h.specFile).append (hstring _)).append hplain⟩
  next p hno =>
    split
    · exact ⟨_, rfl, ((hstring _).append h.specFile).append hwording⟩
    · split
      next e he =>
        obtain ⟨report, hreport, hplain⟩ := exists_report h.problem (h.mismatch e he) f.target
        exact ⟨_, map_eq_ok_iff.2 ⟨report, hreport, rfl⟩,
          (hheader.append (hstring _)).append hplain⟩
      · exact ⟨_, rfl, hheader.append hwording⟩

theorem tells_describe {root : Path} {f : Check.Failure} (h : f.CanTell w root) :
    Tells w Text.Plain (describe root f) := by
  rintro a rfl
  obtain ⟨b, hb, hplain⟩ := exists_block h
  refine ⟨b, a.stdout, hplain, ?_⟩
  rw [exec_describe, hb]
  rfl

theorem tells_tellFailures {root : Path} {fs : List Check.Failure}
    (h : ∀ f ∈ fs, f.CanTell w root) : Tells w (fun _ => True) (tellFailures root fs) := by
  refine tells_forIn fun f hf => (tells_describe (h f hf)).bind fun b hb => ?_
  refine (tells_printLine hb).bind fun _ _ => ?_
  exact (tells_printLine Text.plain_nil).bind fun _ _ => .pure rfl

/-! ## Resolving lines -/

/-- Reading with conventions and plain variables resolves plain lines to plain lines, or says in
plain words why not. -/
theorem plain_of_resolve {c : Conventions} {vars : Bindings Text} (hvars : ∀ p ∈ vars, p.2.Plain)
    {reading : Reading Misfit} (hreading : reading = (c.reading vars).rename Empty.elim)
    {text : Text} (htext : text.Plain) :
    (∀ l, reading.resolve text = .ok l → l.Plain) ∧
      ∀ e, reading.resolve text = .error e → ∃ e', e = .inl e' ∧ e'.message.Plain := by
  obtain ⟨hok, herror⟩ := Check.plain_of_resolve (c := c) hvars htext
  subst hreading
  refine ⟨fun l hl => hok l (mapError_eq_ok_iff.1 hl), fun e he => ?_⟩
  obtain ⟨e' | e', he', rfl⟩ := mapError_eq_error_iff.1 he
  · exact ⟨e', rfl, herror e' he'⟩
  · exact e'.elim

end LineSpec.Command
