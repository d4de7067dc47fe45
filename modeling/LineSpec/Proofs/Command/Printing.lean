import LineSpec.Proofs.Command.Session
/-!
# Runs that print

Most of what a command does after its work is done is printing lines. Such a run either prints all
of its lines and goes on, or breaks off at a line that cannot be printed, or prints why the command
fails and ends it; nothing but the printed text changes.
-/

namespace LineSpec.Command.Session

variable {α β : Type} {s : Session α} {f : α → Session β} {x : α} {y : β} {a a' a'' : Answer}
  {t : Text} {ts ts' : List Text}

/-- What texts look like when they are printed one after the other, unless one of them cannot be
printed. -/
def printedTexts? (ts : List Text) : Option (List Char) :=
  (ts.mapM fun t => (Text.printed t).chars?).map List.flatten

/-- What lines look like when they are printed, unless one of them cannot be printed. -/
def printedLines? (ts : List Text) : Option (List Char) :=
  (ts.mapM fun t => (Text.printed (t ++ "\n")).chars?).map List.flatten

theorem printedTexts?_append {cs cs' : List Char} (h : printedTexts? ts = some cs)
    (h' : printedTexts? ts' = some cs') : printedTexts? (ts ++ ts') = some (cs ++ cs') := by
  simp only [printedTexts?, Option.map_eq_some_iff] at h h' ⊢
  obtain ⟨css, hcss, rfl⟩ := h
  obtain ⟨css', hcss', rfl⟩ := h'
  exact ⟨css ++ css', by simp [List.mapM_append, hcss, hcss'], List.flatten_append⟩

/-- Lines are texts that end in a line feed. -/
theorem printedLines?_eq (ts : List Text) :
    printedLines? ts = printedTexts? (ts.map (· ++ "\n")) := by
  rw [printedLines?, printedTexts?, List.mapM_map]
  rfl

theorem printedLines?_append {cs cs' : List Char} (h : printedLines? ts = some cs)
    (h' : printedLines? ts' = some cs') : printedLines? (ts ++ ts') = some (cs ++ cs') := by
  rw [printedLines?_eq] at h h' ⊢
  rw [List.map_append]
  exact printedTexts?_append h h'

/-- A run prints lines and comes back; only the printed text is other than before. -/
structure Prints (s : Session α) (a : Answer) (x : α) (ts : List Text) (a' : Answer) : Prop where
  exec : exec s a = (.ok x, a')
  shown : ∃ cs, printedLines? ts = some cs ∧
    a' = { a with stdout := a.stdout ++ String.ofList cs }

/-- A run breaks off, perhaps after it has printed something. -/
def Breaks (s : Session α) (a : Answer) : Prop :=
  ∃ cause stdout, exec s a = (.error (.inr cause), { a with stdout })

theorem Prints.of_exec (h : s.exec a = (.ok x, a)) : Prints s a x [] a :=
  ⟨h, [], rfl, by simp⟩

theorem Prints.workspace_eq (h : Prints s a x ts a') : a'.workspace = a.workspace := by
  obtain ⟨cs, -, rfl⟩ := h.shown
  rfl

theorem Prints.bind (h : Prints s a x ts a') (hf : Prints (f x) a' y ts' a'') :
    Prints (s >>= f) a y (ts ++ ts') a'' := by
  refine ⟨(exec_bind_ok h.exec).trans hf.exec, ?_⟩
  obtain ⟨cs, hcs, rfl⟩ := h.shown
  obtain ⟨cs', hcs', rfl⟩ := hf.shown
  refine ⟨cs ++ cs', printedLines?_append hcs hcs', ?_⟩
  simp [String.append_assoc]

theorem Prints.bind_breaks (h : Prints s a x ts a') (hf : Breaks (f x) a') :
    Breaks (s >>= f) a := by
  obtain ⟨cause, stdout, hf⟩ := hf
  refine ⟨cause, stdout, (exec_bind_ok h.exec).trans ?_⟩
  obtain ⟨cs, -, rfl⟩ := h.shown
  exact hf

theorem Breaks.bind (h : Breaks s a) : Breaks (s >>= f) a := by
  obtain ⟨cause, stdout, h⟩ := h
  exact ⟨cause, stdout, exec_bind_error h⟩

/-- A run prints lines and ends the command with exit code 1; nothing but the printed text
changes. -/
def Fails (s : Session α) (a : Answer) (ts : List Text) : Prop :=
  ∃ cs, printedLines? ts = some cs ∧
    exec s a = (.error (.inl 1), { a with stdout := a.stdout ++ String.ofList cs })

theorem fails_exit : Fails (exit 1 : Session α) a [] := ⟨[], rfl, by simp [exec_exit]⟩

theorem Prints.bind_fails (h : Prints s a x ts a') (hf : Fails (f x) a' ts') :
    Fails (s >>= f) a (ts ++ ts') := by
  obtain ⟨cs, hcs, rfl⟩ := h.shown
  obtain ⟨cs', hcs', hf⟩ := hf
  refine ⟨cs ++ cs', printedLines?_append hcs hcs', (exec_bind_ok h.exec).trans ?_⟩
  simp [hf, String.append_assoc]

theorem Fails.bind (h : Fails s a ts) : Fails (s >>= f) a ts := by
  obtain ⟨cs, hcs, h⟩ := h
  exact ⟨cs, hcs, exec_bind_error h⟩

/-- A line is printed, or the run breaks off there. -/
theorem printLine_cases (t : Text) (a : Answer) :
    (∃ a', Prints (printLine t) a () [t] a') ∨ Breaks (printLine t) a := by
  cases h : (Text.printed (t ++ "\n")).chars? with
  | some cs => exact .inl ⟨_, exec_print_ok h, cs, by simp [printedLines?, h], rfl⟩
  | none =>
    obtain ⟨e, he⟩ := exec_print_error (a := a) h
    exact .inr ⟨_, a.stdout, he⟩

/-! ## Lines without surrogates -/

theorem mem_of_mem_afterSequence {c : CodePoint} {cs rest : Text}
    (h : Text.afterSequence? cs = some rest) (hc : c ∈ rest) : c ∈ cs := by
  rw [Text.afterSequence?] at h
  split at h
  next d rest' hdrop =>
    split at h
    · obtain rfl := Option.some.inj h
      exact (List.dropWhile_suffix _).subset (hdrop ▸ List.mem_cons_of_mem _ hc)
    · cases h
  · cases h

theorem mem_of_mem_printed {c : CodePoint} (h : c ∈ Text.printed t) : c ∈ t := by
  fun_induction Text.printed t with
  | case1 | case2 => exact h
  | case3 c' d rest hescape after hafter ih =>
    exact List.mem_cons_of_mem _ (List.mem_cons_of_mem _ (mem_of_mem_afterSequence hafter (ih h)))
  | case4 c' d rest hescape hafter ih | case5 c' d rest hescape ih =>
    rcases List.mem_cons.1 h with rfl | h
    · exact List.mem_cons_self
    · exact List.mem_cons_of_mem _ (ih h)

/-- A line without surrogates is printed. -/
theorem exists_prints_printLine (h : t.Plain) (a : Answer) :
    ∃ a', Prints (printLine t) a () [t] a' := by
  have hprinted : (Text.printed (t ++ "\n")).Plain :=
    (h.append (Text.plain_ofString "\n")).of_subset fun _ => mem_of_mem_printed
  obtain ⟨cs, hcs⟩ := Text.exists_chars?_eq_some_iff.2 hprinted
  exact ⟨_, exec_print_ok hcs, cs, by simp [printedLines?, hcs], rfl⟩

/-- A command that fails with a plain message tells it in a line. -/
theorem fails_fail {message : Text} (h : message.Plain) :
    Fails (fail message : Session α) a ["Error: " ++ message] := by
  obtain ⟨a', hline⟩ := exists_prints_printLine ((Text.plain_ofString "Error: ").append h) a
  exact hline.bind_fails fails_exit

/-! ## Runs that only print -/

/-- Wherever it begins, a run prints the lines `ts` and comes back. -/
def Shows (s : Session α) (x : α) (ts : List Text) : Prop := ∀ a, ∃ a', Prints s a x ts a'

theorem shows_pure (x : α) : Shows (pure x : Session α) x [] := fun a => ⟨a, .of_exec (exec_pure x)⟩

theorem shows_printLine (h : t.Plain) : Shows (printLine t) () [t] := exists_prints_printLine h

theorem Shows.bind (h : Shows s x ts) (hf : Shows (f x) y ts') : Shows (s >>= f) y (ts ++ ts') := by
  intro a
  obtain ⟨a', h⟩ := h a
  obtain ⟨a'', hf⟩ := hf a'
  exact ⟨a'', h.bind hf⟩

/-- What a run gives back can be changed without printing anything. -/
theorem Shows.bind_pure (h : Shows s x ts) (g : α → β) :
    Shows (s >>= fun x => pure (g x)) (g x) ts := by
  have hbind := h.bind (f := fun x => pure (g x)) (shows_pure (g x))
  rwa [List.append_nil] at hbind

/-- A loop prints what its rounds print, one after the other. -/
theorem shows_forIn {γ : Type} {l : List γ} {g : γ → Session PUnit} {lines : γ → List Text}
    (h : ∀ x ∈ l, Shows (g x) PUnit.unit (lines x)) :
    Shows (forIn l PUnit.unit fun x _ => do g x; return .yield PUnit.unit) PUnit.unit
      (l.flatMap lines) := by
  induction l with
  | nil => exact shows_pure _
  | cons x l ih =>
    obtain ⟨hx, hl⟩ := List.forall_mem_cons.1 h
    rw [List.forIn_cons]
    exact (hx.bind_pure _).bind (ih hl)

end LineSpec.Command.Session
