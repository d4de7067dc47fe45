import LineSpec.Proofs.Command.Printing
import LineSpec.Proofs.Command.Setup
import LineSpec.Proofs.Settings.Saving
/-!
# Making a project again

A project that has its settings file is made again by a warning, by its directory of specifications
and by saving the settings that were loaded (`exec_init`). Where the file holds data that can be
written, this changes nothing of what is loaded from it, however the command ends; and once it has
come to its end, there is nothing left to do (`run_init_again`).
-/

namespace LineSpec

/-- The data of a settings file, if it holds any, has neither numbers that are not whole nor
surrogates. -/
def Settings.HoldsPlain (w : Workspace) (root : Path) : Prop :=
  ∀ cs j, w.readChars (file root) = .ok cs → Json.read cs = .ok j → j.Plain

/-- What is loaded from a file of such data can be written. -/
theorem Settings.HoldsPlain.writable {w : Workspace} {root : Path} (h : HoldsPlain w root)
    {s : Settings} (hload : load w root = .ok s) : s.Writable := by
  rw [load] at hload
  split at hload
  · cases hload
  · cases hload
  · split at hload
    · cases hload
    · cases hload
    next hchars =>
      rw [ofChars] at hload
      split at hload
      · cases hload
      · cases hload
      · cases hload
      next hread =>
        split at hload
        · cases hload
        next hsettings =>
          obtain rfl := Except.ok.inj hload
          exact writable_of_ofJson? hsettings (Json.fits_of_read hread) (h _ _ hchars hread)

namespace Command

open Session

variable {w w' : Workspace} {a a' : Answer} {s : Settings} {t : Text}

/-- Makes the directory of specifications and saves the settings. -/
def establish (project : Path) (s : Settings) (t : Text) : Session Unit := do
  act fun w => w.ensureDirs (project.child t)
  let _ ← act fun w => s.save w project

/-- Making a project that has a settings file. -/
theorem exec_init (hpresent : Settings.isPresent a.workspace a.workspace.cwd = .ok true) :
    ∃ a₁ : Answer, a₁.workspace = a.workspace ∧ a₁.exitCode = a.exitCode ∧ exec init a =
      match Settings.load a.workspace a.workspace.cwd with
      | .error e => (.error (.inr (.settings e)), a₁)
      | .ok s =>
        match s.specDir with
        | .text t => exec (establish a.workspace.cwd s t) a₁
        | _ => (.error (.inr (.misfit .specDir)), a₁) := by
  obtain ⟨a₁, hwarning⟩ := exists_prints_printLine
    (Text.plain_ofString
      "Warning: Project is already initialized. Keeping existing configuration.") a
  obtain ⟨cs, -, ha₁⟩ := hwarning.shown
  refine ⟨a₁, by rw [ha₁], by rw [ha₁], ?_⟩
  rw [init, exec_bind_ok exec_workspace]
  simp only [hpresent, pure_bind, if_true]
  rw [exec_bind_ok hwarning.exec]
  cases Settings.load a.workspace a.workspace.cwd with
  | error e => exact exec_bind_error (exec_breakOff _)
  | ok s =>
    simp only
    cases s.specDir with
    | text t => rfl
    | _ => exact exec_bind_error (exec_breakOff _)

/-! ## What is loaded afterwards -/

variable {project : Path}

/-- However it ends, establishing the project with the settings that were loaded does not change
what is loaded. -/
theorem load_establish (hs : s.Writable) (h : Settings.load a.workspace project = .ok s)
    (t : Text) : Settings.load (exec (establish project s t) a).2.workspace project = .ok s := by
  have hdirs := Settings.load_ensureDirs h (project.child t)
  rw [establish, exec_bind, exec_act]
  cases (a.workspace.ensureDirs (project.child t)).2 with
  | error e => exact hdirs
  | ok _ =>
    have hsave := Settings.load_save hs hdirs
    simp only [Except.mapError]
    rw [exec_bind, exec_act]
    simp only
    cases (s.save (a.workspace.ensureDirs (project.child t)).1 project).2 <;> exact hsave

/-- However it ends, making a project again does not change what is loaded. -/
theorem load_init (hpresent : Settings.isPresent a.workspace a.workspace.cwd = .ok true)
    (hplain : Settings.HoldsPlain a.workspace a.workspace.cwd) :
    Settings.load (exec init a).2.workspace a.workspace.cwd =
      Settings.load a.workspace a.workspace.cwd := by
  obtain ⟨a₁, hworkspace, -, hexec⟩ := exec_init hpresent
  rw [hexec]
  cases hload : Settings.load a.workspace a.workspace.cwd with
  | error e => rw [hworkspace, hload]
  | ok s =>
    simp only
    split
    · exact load_establish (hplain.writable hload) (hworkspace ▸ hload) _
    · rw [hworkspace, hload]

/-! ## What is done again -/

theorem exec_establish_eq_ok_iff :
    exec (establish project s t) a = (.ok (), a') ↔ ∃ w₁ f,
      a.workspace.ensureDirs (project.child t) = (w₁, .ok ()) ∧
        s.save w₁ project = (a'.workspace, .ok f) ∧ a' = { a with workspace := a'.workspace } := by
  rw [establish, exec_bind_eq_ok_iff]
  constructor
  · rintro ⟨⟨⟩, a₁, hmake, hrest⟩
    obtain ⟨f, a₂, hkeep, hpure⟩ := exec_bind_eq_ok_iff.1 hrest
    obtain ⟨hdirs, ha₁⟩ := exec_act_eq_ok_iff.1 hmake
    obtain ⟨hsave, ha₂⟩ := exec_act_eq_ok_iff.1 hkeep
    obtain rfl : a₂ = a' := congrArg Prod.snd hpure
    exact ⟨a₁.workspace, f, hdirs, hsave, ha₂.trans (ha₁ ▸ rfl)⟩
  · rintro ⟨w₁, f, hdirs, hsave, ha'⟩
    refine ⟨(), { a with workspace := w₁ }, exec_act_eq_ok_iff.2 ⟨hdirs, rfl⟩, ?_⟩
    refine exec_bind_eq_ok_iff.2 ⟨f, a', exec_act_eq_ok_iff.2 ⟨hsave, ?_⟩, rfl⟩
    exact ha'

/-- A project that is established has its directories and its file, so establishing it again does
nothing. -/
theorem exec_establish_again (h : exec (establish project s t) a = (.ok (), a')) {b : Answer}
    (hworkspace : b.workspace = a'.workspace) : exec (establish project s t) b = (.ok (), b) := by
  obtain ⟨w₁, f, hdirs, hsave, -⟩ := exec_establish_eq_ok_iff.1 h
  obtain ⟨w₂, hdirs', hwrite, rfl⟩ := Settings.save_eq_ok_iff.1 hsave
  obtain ⟨loc, hspec⟩ := Workspace.exists_locate_of_ensureDirs hdirs
  obtain ⟨loc', hdir⟩ := Workspace.exists_locate_of_ensureDirs hdirs'
  have hreceived := Workspace.received_of_write hwrite
  have hgrows' := Workspace.grows_write w₂ (Settings.file project) (Text.Utf8.encode s.toChars)
  rw [hwrite] at hgrows'
  have hgrows := Workspace.grows_ensureDirs w₁ (Settings.dir project)
  rw [hdirs'] at hgrows
  have hspec' := hgrows'.locate_dir (hgrows.locate_dir hspec)
  rw [← hworkspace] at hspec' hgrows' hreceived
  have hsave' : s.save b.workspace project = (b.workspace, .ok (Settings.file project)) :=
    Settings.save_eq_ok_iff.2 ⟨_, Workspace.ensureDirs_of_locate (hgrows'.locate_dir hdir),
      Workspace.write_of_received hreceived, rfl⟩
  exact exec_establish_eq_ok_iff.2 ⟨_, _, Workspace.ensureDirs_of_locate hspec', hsave', rfl⟩

theorem home_establish (h : exec (establish project s t) a = (.ok (), a')) :
    a'.workspace.home = a.workspace.home := by
  obtain ⟨w₁, f, hdirs, hsave, -⟩ := exec_establish_eq_ok_iff.1 h
  obtain ⟨w₂, hdirs', hwrite, rfl⟩ := Settings.save_eq_ok_iff.1 hsave
  have hhome := (Workspace.makesDirs_ensureDirs a.workspace (project.child t)).home
  have hhome' := (Workspace.makesDirs_ensureDirs w₁ (Settings.dir project)).home
  rw [hdirs] at hhome
  rw [hdirs'] at hhome'
  exact (Workspace.keeps_write hwrite).home.trans (hhome'.trans hhome)

/-- Where making a project again has come to its end, making it once more comes to its end and
leaves the workspace as it is. -/
theorem exec_init_again (hpresent : Settings.isPresent a.workspace a.workspace.cwd = .ok true)
    (hplain : Settings.HoldsPlain a.workspace a.workspace.cwd)
    (h : exec init a = (.ok (), a')) {b : Answer} (hworkspace : b.workspace = a'.workspace) :
    ∃ b', exec init b = (.ok (), b') ∧ b'.workspace = b.workspace ∧ b'.exitCode = b.exitCode := by
  have hload := load_init hpresent hplain
  rw [h] at hload
  obtain ⟨a₁, hworkspace₁, -, hexec⟩ := exec_init hpresent
  rw [hexec] at h
  split at h
  · cases congrArg Prod.fst h
  next s hs =>
    split at h
    next t ht =>
      have hcwd : b.workspace.cwd = a.workspace.cwd := by
        rw [hworkspace, Workspace.cwd, home_establish h, hworkspace₁, ← Workspace.cwd]
      have hagain : Settings.load b.workspace b.workspace.cwd = .ok s := by
        rw [hcwd, hworkspace, hload, hs]
      obtain ⟨content, hread⟩ := Settings.exists_read_of_load hagain
      obtain ⟨b₁, hworkspace', hexit, hexec'⟩ := exec_init (Settings.load_of_read hread).1
      rw [hexec', hagain]
      simp only [ht, hcwd]
      exact ⟨b₁, exec_establish_again h (hworkspace'.trans hworkspace), hworkspace', hexit⟩
    · cases congrArg Prod.fst h

/-! ## The command -/

theorem exec_establish_ne_exit {code : Nat} :
    (exec (establish project s t) a).1 ≠ .error (.inl code) := by
  rw [establish, exec_bind, exec_act]
  cases (a.workspace.ensureDirs (project.child t)).2 with
  | error e => simp [Except.mapError]
  | ok _ =>
    simp only [Except.mapError]
    rw [exec_bind, exec_act]
    simp only
    cases (s.save (a.workspace.ensureDirs (project.child t)).1 project).2 with
    | error e => simp [Except.mapError]
    | ok f => simp [Except.mapError, exec_pure]

/-- Making a project again ends early only by breaking off, so with exit code 0 it has come to its
end. -/
theorem exec_init_of_exitCode (hpresent : Settings.isPresent w w.cwd = .ok true)
    (h : (answer init w).exitCode = 0) :
    exec init { workspace := w } = (.ok (), answer init w) := by
  obtain ⟨a₁, -, -, hexec⟩ := exec_init (a := { workspace := w }) hpresent
  have hfails : ∀ code, (exec init { workspace := w }).1 ≠ .error (.inl code) := by
    intro code
    rw [hexec]
    split
    · simp
    · split
      · exact exec_establish_ne_exit
      · simp
  cases hends : exec init { workspace := w } with
  | mk r a' =>
    rw [hends] at hfails
    rw [answer_of_exec hends] at h ⊢
    rcases r with (code | cause) | ⟨⟩
    · exact absurd rfl (hfails code)
    · cases h
    · rfl

theorem run_init {args : List String} {verbose : Bool}
    (hargs : Request.ofArguments w args = .ok (.init, verbose)) :
    (run w args).workspace = (answer init w).workspace ∧
      (run w args).exitCode = (answer init w).exitCode := by
  obtain ⟨events, hrun⟩ := run_of_request hargs
  rw [hrun]
  exact ⟨rfl, rfl⟩

/-- Where a project has its settings file, and data without numbers that are not whole and without
surrogates in it, `init` does not change what is loaded from it, however it ends. Once it has ended
well, `init` ends well again and leaves the workspace as it is. -/
theorem run_init_again {args : List String} {verbose : Bool}
    (hargs : Request.ofArguments w args = .ok (.init, verbose))
    (hpresent : Settings.isPresent w w.cwd = .ok true) (hplain : Settings.HoldsPlain w w.cwd) :
    Settings.load (run w args).workspace w.cwd = Settings.load w w.cwd ∧
    ((run w args).exitCode = 0 → ∀ args' verbose',
      Request.ofArguments (run w args).workspace args' = .ok (.init, verbose') →
        (run (run w args).workspace args').exitCode = 0 ∧
        (run (run w args).workspace args').workspace = (run w args).workspace) := by
  obtain ⟨hworkspace, hexit⟩ := run_init hargs
  rw [hworkspace, hexit]
  constructor
  · cases hexec : exec init { workspace := w } with
    | mk r a' =>
      have hload := load_init (a := { workspace := w }) hpresent hplain
      have hanswer : (answer init w).workspace = a'.workspace := by
        rw [answer_of_exec hexec]
        rcases r with (code | cause) | ⟨⟩ <;> rfl
      rwa [hexec, ← hanswer] at hload
  · intro hzero args' verbose' hargs'
    have hexec := exec_init_of_exitCode hpresent hzero
    obtain ⟨b, hagain, hsame, hcode⟩ := exec_init_again (a := { workspace := w })
      (b := { workspace := (answer init w).workspace }) hpresent hplain hexec rfl
    obtain ⟨hworkspace', hexit'⟩ := run_init hargs'
    rw [hworkspace', hexit', answer_of_exec hagain]
    exact ⟨hcode, hsame⟩

/-- A project whose settings file lacks most of the settings, binds a variable twice, and has a
member that is no setting. -/
def sparse : Workspace where
  tree.entries := [
    ([".specker"], .dir),
    ([".specker", "config.json"], .file (Text.Utf8.encode ("\x7b\"variables\": " ++
      "\x7b\"a\": null, \"b\": [1, \"x\"], \"a\": \"y\"\x7d, \"x\": 5\x7d").toList))]
  tree.nodup := show List.Nodup [[(".specker" : Text)], [".specker", "config.json"]] by decide

theorem run_init_again_sparse :
    Settings.load (run sparse ["init"]).workspace sparse.cwd = Settings.load sparse sparse.cwd ∧
      (run (run sparse ["init"]).workspace ["-v", "init"]).exitCode = 0 ∧
      (run (run sparse ["init"]).workspace ["-v", "init"]).workspace =
        (run sparse ["init"]).workspace := by
  have hplain : Settings.HoldsPlain sparse sparse.cwd := by
    intro cs j hcs hj
    have hall : (((sparse.readChars (Settings.file sparse.cwd)).toOption.bind fun cs =>
        (Json.read cs).toOption).all fun j => decide j.Plain) = true := by
      decide +kernel
    simpa [hcs, hj, Except.toOption] using hall
  obtain ⟨hload, hagain⟩ := @run_init_again sparse ["init"] false (by decide +kernel)
    (by decide +kernel) hplain
  exact ⟨hload, hagain (by decide +kernel) ["-v", "init"] true (by decide +kernel)⟩

end Command

end LineSpec
