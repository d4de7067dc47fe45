import LineSpec.Proofs.Check.Success
import LineSpec.Proofs.Command.Printing
import LineSpec.Proofs.Command.Setup
/-!
# The verdict of a check

A check takes its directories, extension, variables and conventions from the request and the
settings, looks at all specification files, and tells what it found: a block for each failure, in
the order of the files and of the items in them, and one line at the end. The exit code is 0 exactly
when no file and no item has failed (`check_verdict`); a run that breaks off while it tells failures
ends with 1 like one that tells them all. The workspace is only read.
-/

namespace LineSpec.Command

open Session

/-! ## What a request and the settings say together -/

namespace CheckRequest

variable (r : CheckRequest) (s : Settings.Typed)

/-- The directory of specifications. -/
def dirIn : Path := r.specDir.getD (Path.ofText s.specDir)

/-- The directory that is given for targets. -/
def rootIn : Option Path :=
  r.root <|> if s.root = [] then none else some (Path.ofText s.root)

/-- The directory that targets are seen from: the one that is given, or that of the
specifications. -/
def baseIn : Path := (r.rootIn s).getD (r.dirIn s)

/-- The extension of specification files. -/
def extensionIn : Text := (r.extension.filter (· ≠ [])).getD s.extension

end CheckRequest

variable {a : Answer}

theorem exec_specDirOf (r : CheckRequest) (s : Settings.Typed) :
    exec (specDirOf r.specDir s.toSettings) a = (.ok (r.dirIn s), a) := by
  rw [CheckRequest.dirIn]
  cases r.specDir <;> rfl

theorem exec_rootOf (r : CheckRequest) (s : Settings.Typed) :
    exec (rootOf r.root s.toSettings) a = (.ok (r.rootIn s), a) := by
  rw [CheckRequest.rootIn]
  cases r.root <;> rfl

theorem exec_extensionOf (r : CheckRequest) (s : Settings.Typed) (dir : Path) :
    exec (extensionOf r.extension s.toSettings dir) a = (.ok (r.extensionIn s), a) := by
  rw [CheckRequest.extensionIn, extensionOf]
  cases r.extension.filter (· ≠ []) <;> rfl

/-! ## Printing -/

/-- The line at the end of a check. -/
def summaryLine (o : Check.Outcome) : Text :=
  s!"Checked {o.checked} item(s): " ++
    s!"{o.passed} passed, {o.failures.length} failed."

/-- The block about a failure: with a report where the problem has a place, else with its
summary. -/
def block (w : Workspace) (root : Path) (f : Check.Failure) : Except AccessError Text :=
  let report (file : Path) (label : Text) : Except AccessError Text :=
    (w.readLines file).map fun lines => (Report.formatIn? f.problem label lines).getD []
  match f.problem with
  | .parse _ =>
    (report (Path.ofText f.specFile) (Path.ofText f.specFile).text).map fun text =>
      "FAILED " ++ f.specFile ++ ": parse error\n" ++ text
  | p =>
    let wording : Text := "\n  " ++ p.message
    if f.target = [] then .ok ("FAILED " ++ f.specFile ++ wording)
    else
      let header : Text := "FAILED " ++ f.specFile ++ s!":{f.itemLine} -> " ++ f.target
      match p with
      | .mismatch _ => (report (root.child f.target) f.target).map fun text => header ++ "\n" ++ text
      | _ => .ok (header ++ wording)

theorem exec_reportOf (p : Problem) (file : Path) (label : Text) :
    exec (reportOf p file label) a =
      (((a.workspace.readLines file).map fun lines =>
        (Report.formatIn? p label lines).getD []).mapError (.inr ∘ .access), a) := by
  rw [reportOf, exec_bind_ok exec_workspace]
  cases a.workspace.readLines file <;> rfl

theorem exec_describe (root : Path) (f : Check.Failure) :
    exec (describe root f) a = ((block a.workspace root f).mapError (.inr ∘ .access), a) := by
  have hmap : ∀ (x : Except AccessError Text) (s : Session Text) (g : Text → Text),
      exec s a = (x.mapError (.inr ∘ .access), a) →
        exec (s >>= fun report => return g report) a =
          ((x.map g).mapError (.inr ∘ .access), a) := by
    intro x s g hs
    rw [exec_bind, hs]
    cases x <;> rfl
  -- two kinds of problems come with a report, for which a file is read again
  obtain ⟨specFile, itemLine, target, problem⟩ := f
  cases problem with
  | parse e => exact hmap _ _ _ (exec_reportOf ..)
  | mismatch e =>
    by_cases htarget : target = []
    · subst htarget
      rfl
    · simp only [describe, block, if_neg htarget]
      exact hmap _ _ _ (exec_reportOf ..)
  | placeholder _ | skipRendered _ | targetMissing _ | targetUnreadable _ _ | stated _ _ =>
    by_cases htarget : target = []
    · subst htarget
      rfl
    · simp only [describe, block, if_neg htarget]
      rfl

/-- The lines about failures: a block for each of them, and an empty line after it. -/
def blockLines (blocks : List Text) : List Text := blocks.flatMap fun b => [b, []]

/-- Tells failures, each with an empty line after it. -/
def tellFailures (root : Path) (fs : List Check.Failure) : Session PUnit :=
  forIn fs PUnit.unit fun f _ => do
    printLine (← describe root f)
    printLine []
    return .yield PUnit.unit

/-- Tells the outcome of a check. -/
def tell (root : Path) (o : Check.Outcome) : Session Unit := do
  tellFailures root o.failures
  printLine (summaryLine o)
  if !o.success then exit 1

/-- The blocks about failures are printed in order, or the run breaks off at one of them. -/
theorem tellFailures_cases (root : Path) (fs : List Check.Failure) (a : Answer) :
    (∃ blocks a', fs.mapM (block a.workspace root) = .ok blocks ∧
      Prints (tellFailures root fs) a PUnit.unit (blockLines blocks) a') ∨
    Breaks (tellFailures root fs) a := by
  induction fs generalizing a with
  | nil => exact .inl ⟨[], a, rfl, .of_exec (exec_pure _)⟩
  | cons f fs ih =>
    rw [tellFailures, List.forIn_cons]
    have hdescribe := exec_describe (a := a) root f
    cases hblock : block a.workspace root f with
    | error e =>
      rw [hblock] at hdescribe
      exact .inr (.bind (.bind ⟨_, a.stdout, hdescribe⟩))
    | ok b =>
      rw [hblock] at hdescribe
      have hdescribe : Prints (describe root f) a b [] a := .of_exec hdescribe
      rcases printLine_cases b a with ⟨a₁, hline⟩ | hbreaks
      · rcases printLine_cases [] a₁ with ⟨a₂, hempty⟩ | hbreaks
        · have hstep : Prints (do
              printLine (← describe root f)
              printLine []
              return ForInStep.yield PUnit.unit) a (.yield PUnit.unit) [b, []] a₂ :=
            hdescribe.bind (hline.bind (hempty.bind (.of_exec (exec_pure _))))
          rcases ih a₂ with ⟨blocks, a', hblocks, hrest⟩ | hbreaks
          · rw [hempty.workspace_eq, hline.workspace_eq] at hblocks
            have hall := mapM_cons_eq_ok_iff.2 ⟨b, blocks, hblock, hblocks, rfl⟩
            exact .inl ⟨b :: blocks, a', hall, hstep.bind hrest⟩
          · exact .inr (hstep.bind_breaks hbreaks)
        · exact .inr (.bind (hdescribe.bind_breaks (hline.bind_breaks hbreaks.bind)))
      · exact .inr (.bind (hdescribe.bind_breaks hbreaks.bind))

/-- The line at the end is always printed. -/
theorem exists_prints_summaryLine (o : Check.Outcome) (a : Answer) :
    ∃ a', Prints (printLine (summaryLine o)) a () [summaryLine o] a' := by
  exact exists_prints_printLine ((Text.plain_ofString _).append (Text.plain_ofString _)) a

/-! ## The run -/

variable {w : Workspace} {r : CheckRequest} {s : Settings.Typed} {vars : Bindings Text}
  {c : Conventions}

/-- The check that a request asks for, with the settings, variables and conventions that count. -/
def CheckRequest.outcome (r : CheckRequest) (s : Settings.Typed) (c : Conventions)
    (vars : Bindings Text) (w : Workspace) :
    Noted (Except (Check.DirError Empty) Check.Outcome) :=
  Check.directory (c.reading vars) w (r.dirIn s) (r.extensionIn s) (r.rootIn s) r.param
    (max 1 r.jobs)

/-- A check comes to an outcome, which it then tells. -/
theorem exec_check (hsettings : projectSettings w = .ok s.toSettings)
    (hvars : Variables.collect w s.vars r.varsFile r.assignments = .ok vars)
    (hconventions : s.conventions r.strictEnd = .ok c) :
    ∃ events, exec (check r) { workspace := w } =
      exec (outcomeOrFail (r.dirIn s)
        ((r.outcome s c vars w).result.mapError (Check.DirError.rename Empty.elim)) >>=
          tell (r.baseIn s)) { workspace := w, events } := by
  obtain ⟨o, ho, hreading⟩ := Settings.Typed.exists_options hconventions
  refine ⟨(Check.directory (o.reading vars) w (r.dirIn s) (r.extensionIn s) (r.rootIn s) r.param
    (max 1 r.jobs)).events, ?_⟩
  rw [CheckRequest.outcome, ← Check.result_directory_rename, ← hreading, check,
    exec_bind_ok (exec_settingsOrFail_ok hsettings), exec_bind_ok (exec_variablesOrFail_ok hvars),
    exec_bind_ok (exec_optionsOrFail_ok ho), exec_bind_ok (exec_specDirOf r s),
    exec_bind_ok (exec_rootOf r s), exec_bind_ok (exec_extensionOf r s _),
    exec_bind_ok exec_workspace]
  rfl

/-- The outcome of a check is told: block by block, and then in one line. A run that breaks off has
a failure to tell. -/
theorem exec_tell (root : Path) (o : Check.Outcome) (a : Answer) :
    (∃ blocks cs, o.failures.mapM (block a.workspace root) = .ok blocks ∧
      printedLines? (blockLines blocks ++ [summaryLine o]) = some cs ∧
      exec (tell root o) a =
        (if o.success then .ok () else .error (.inl 1),
          { a with stdout := a.stdout ++ String.ofList cs })) ∨
    (o.success = false ∧ Breaks (tell root o) a) := by
  rcases tellFailures_cases root o.failures a with ⟨blocks, a₁, hblocks, hfailures⟩ | hbreaks
  · obtain ⟨a₂, hsummary⟩ := exists_prints_summaryLine o a₁
    obtain ⟨cs₁, hcs₁, rfl⟩ := hfailures.shown
    obtain ⟨cs₂, hcs₂, rfl⟩ := hsummary.shown
    refine .inl ⟨blocks, cs₁ ++ cs₂, hblocks, printedLines?_append hcs₁ hcs₂, ?_⟩
    rw [tell, exec_bind_ok hfailures.exec, exec_bind_ok hsummary.exec, String.ofList_append,
      ← String.append_assoc]
    cases o.success <;> rfl
  · refine .inr ⟨?_, hbreaks.bind⟩
    cases hsuccess : o.success with
    | false => rfl
    | true =>
      -- without failures there is nothing to break off at
      rw [Check.Outcome.success, List.isEmpty_iff] at hsuccess
      rw [hsuccess] at hbreaks
      obtain ⟨cause, stdout, hrun⟩ := hbreaks
      cases congrArg Prod.fst hrun

/-- Whatever the outcome is, a check tells it or breaks off. It succeeds only if the outcome
does. -/
theorem check_cases (hsettings : projectSettings w = .ok s.toSettings)
    (hvars : Variables.collect w s.vars r.varsFile r.assignments = .ok vars)
    (hconventions : s.conventions r.strictEnd = .ok c) (hdir : w.isDir (r.dirIn s) = .ok true) :
    (∃ o blocks cs events, (r.outcome s c vars w).result = .ok o ∧
      o.failures.mapM (block w (r.baseIn s)) = .ok blocks ∧
      printedLines? (blockLines blocks ++ [summaryLine o]) = some cs ∧
      answer (check r) w =
        { workspace := w, stdout := String.ofList cs, exitCode := if o.success then 0 else 1,
          events }) ∨
    ((∀ o, (r.outcome s c vars w).result = .ok o → o.success = false) ∧
      ∃ cause stdout events, answer (check r) w =
        { workspace := w, stdout, exitCode := 1, cause := some cause, events }) := by
  obtain ⟨events, hrun⟩ := exec_check hsettings hvars hconventions
  cases hresult : (r.outcome s c vars w).result with
  | error e =>
    -- the directory exists and nothing is refused, so no error is left that a check words itself
    refine .inr ⟨nofun, ?_⟩
    have hbreaks : ∃ cause, exec (outcomeOrFail (r.dirIn s) (.error (e.rename Empty.elim)))
        { workspace := w, events } = (.error (.inr cause), { workspace := w, events }) := by
      rcases Check.directory_eq_error hdir hresult with ⟨e' | e', rfl⟩ | ⟨e', rfl⟩
      · exact ⟨_, exec_breakOff _⟩
      · exact ⟨_, exec_breakOff _⟩
      · exact ⟨_, exec_breakOff _⟩
    obtain ⟨cause, hbreaks⟩ := hbreaks
    rw [hresult, Except.mapError, exec_bind_error hbreaks] at hrun
    exact ⟨cause, _, _, answer_of_exec hrun⟩
  | ok o =>
    have hok : exec (outcomeOrFail (r.dirIn s) (.ok o)) { workspace := w, events } =
        (.ok o, { workspace := w, events }) := exec_pure o
    rw [hresult, Except.mapError, exec_bind_ok hok] at hrun
    rcases exec_tell (r.baseIn s) o { workspace := w, events } with
      ⟨blocks, cs, hblocks, hcs, htell⟩ | ⟨hfails, cause, stdout, hbreaks⟩
    · refine .inl ⟨o, blocks, cs, events, rfl, hblocks, hcs, ?_⟩
      rw [htell] at hrun
      rw [answer_of_exec hrun]
      cases o.success <;> simp [Answer.ended]
    · refine .inr ⟨fun o' ho' => Except.ok.inj ho' ▸ hfails, cause, stdout, events, ?_⟩
      rw [hbreaks] at hrun
      exact answer_of_exec hrun

/-- The exit code of a check is 0 when every specification file is met, and else 1. A check that is
not broken off prints a block for each failure that a file contributes, file by file and within a
file item by item, and then one line for all of them. The workspace stays as it is. -/
theorem check_verdict {args : List String} {verbose : Bool}
    (hargs : Request.ofArguments w args = .ok (.check r, verbose))
    (hsettings : projectSettings w = .ok s.toSettings)
    (hvars : Variables.collect w s.vars r.varsFile r.assignments = .ok vars)
    (hconventions : s.conventions r.strictEnd = .ok c) (hdir : w.isDir (r.dirIn s) = .ok true) :
    ((run w args).exitCode = 0 ↔
      ∃ fs, Survey.find w (r.dirIn s) (r.extensionIn s) = .ok fs ∧
        ∀ f ∈ fs, Check.IsMet c vars w (r.baseIn s) r.param f) ∧
    ((run w args).exitCode = 0 ∧ (run w args).cause = none ∨ (run w args).exitCode = 1) ∧
    ((run w args).cause = none →
      ∃ fs blocks cs, Survey.find w (r.dirIn s) (r.extensionIn s) = .ok fs ∧
        (∀ f ∈ fs, Check.Contributes c vars w (r.baseIn s) r.param (max 1 r.jobs) f
          (Check.ofFile (c.reading vars) w (r.baseIn s) r.param f)) ∧
        (fs.flatMap fun f => (Check.ofFile (c.reading vars) w (r.baseIn s) r.param f).failures).mapM
          (block w (r.baseIn s)) = .ok blocks ∧
        printedLines? (blockLines blocks ++ [summaryLine (Check.total
          (fs.map (Check.ofFile (c.reading vars) w (r.baseIn s) r.param)))]) = some cs ∧
        (run w args).stdout = String.ofList cs) ∧
    (run w args).workspace = w := by
  have hrun : (run w args).exitCode = (answer (check r) w).exitCode ∧
      (run w args).cause = (answer (check r) w).cause ∧
      (run w args).stdout = (answer (check r) w).stdout ∧
      (run w args).workspace = (answer (check r) w).workspace := by
    rw [run, hargs]
    exact ⟨rfl, rfl, rfl, rfl⟩
  -- only the events that are kept depend on whether they are to be shown
  obtain ⟨hexit, hcause, hstdout, hworkspace⟩ := hrun
  have hsucceeds : (∃ o, (r.outcome s c vars w).result = .ok o ∧ o.success = true) ↔
      ∃ fs, Survey.find w (r.dirIn s) (r.extensionIn s) = .ok fs ∧
        ∀ f ∈ fs, Check.IsMet c vars w (r.baseIn s) r.param f :=
    Check.directory_success_iff hdir
  rw [hexit, hcause, hstdout, hworkspace, ← hsucceeds]
  rcases check_cases hsettings hvars hconventions hdir with
    ⟨o, blocks, cs, events, hresult, hblocks, hcs, hanswer⟩ |
    ⟨hfails, cause, stdout, events, hanswer⟩
  · rw [hanswer]
    refine ⟨?_, ?_, fun _ => ?_, rfl⟩
    · constructor
      · intro h
        refine ⟨o, hresult, ?_⟩
        by_contra hsuccess
        simp [hsuccess] at h
      · rintro ⟨o', ho', hsuccess⟩
        obtain rfl := Except.ok.inj (hresult.symm.trans ho')
        exact if_pos hsuccess
    · cases o.success
      · exact .inr rfl
      · exact .inl ⟨rfl, rfl⟩
    · obtain ⟨fs, hfind, rfl, hcontributes⟩ := Check.contributes_of_directory hdir hresult
      rw [Check.total_map] at hblocks
      exact ⟨fs, blocks, cs, hfind, hcontributes, hblocks, hcs, rfl⟩
  · rw [hanswer]
    refine ⟨iff_of_false Nat.one_ne_zero ?_, .inr rfl, nofun, rfl⟩
    rintro ⟨o, ho, hsuccess⟩
    rw [hfails o ho] at hsuccess
    cases hsuccess

/-- A workspace with one specification, whose two items are fitted by their files. -/
def settled : Workspace where
  tree.entries := [(["s"], .dir),
    (["s", "t"], .file (Text.Utf8.encode "x\n".toList)),
    (["s", "u"], .file (Text.Utf8.encode "a\ny\n".toList)),
    (["s", "a.txt"], .file (Text.Utf8.encode "## file: t\nx\n## file: u\n..\ny\n".toList))]

theorem check_verdict_settled_troubled :
    (run settled ["check", "s"]).exitCode = 0 ∧
    (run settled ["check", "s"]).stdout = "Checked 2 item(s): 2 passed, 0 failed.\n" ∧
    (run Survey.troubled ["check", "s"]).exitCode = 1 := by
  have hargs : Request.ofArguments settled ["check", "s"] =
      .ok (.check { specDir := some ⟨.relative, ["s"]⟩ }, false) := by
    decide +kernel
  have hargs' : Request.ofArguments Survey.troubled ["check", "s"] =
      .ok (.check { specDir := some ⟨.relative, ["s"]⟩ }, false) := by
    decide +kernel
  have hdir : settled.isDir ⟨.relative, ["s"]⟩ = .ok true := by decide +kernel
  have hdir' : Survey.troubled.isDir ⟨.relative, ["s"]⟩ = .ok true := by decide +kernel
  have hfind : Survey.find settled ⟨.relative, ["s"]⟩ "txt" =
      .ok [⟨.relative, ["s", "a.txt"]⟩] := by
    apply Survey.find_eq_ok_of_pairwise hdir
    · decide
    · decide
    · decide +kernel
    · decide +kernel
    · decide
  have hconventions : Settings.Typed.conventions {} none = .ok {} := by decide
  have hnames : Check.NamesFiles (Conventions.reading {} []) settled ⟨.relative, ["s"]⟩ "file"
      ⟨.relative, ["s", "a.txt"]⟩ := by
    decide +kernel
  have hmet : Check.IsMet {} [] settled ⟨.relative, ["s"]⟩ "file" ⟨.relative, ["s", "a.txt"]⟩ :=
    Check.isMet_iff.2 ⟨fun d hd t ht => Check.exists_item_eq_ok_iff.2 (hnames d hd t ht),
      by decide +kernel⟩
  have hunmet : ¬Check.IsMet {} [] Survey.troubled ⟨.relative, ["s"]⟩ "file"
      ⟨.relative, ["s", "b.txt"]⟩ := by
    rintro ⟨cs, d, hcs, -⟩
    have hfault : (Survey.troubled.readChars ⟨.relative, ["s", "b.txt"]⟩).isOk = false := by
      decide +kernel
    rw [hcs] at hfault
    cases hfault
  obtain ⟨hzero, hends, htold, -⟩ := check_verdict (s := {}) hargs rfl rfl hconventions hdir
  obtain ⟨hzero', hends', -⟩ := check_verdict (s := {}) hargs' rfl rfl hconventions hdir'
  have hexit := hzero.2 ⟨_, hfind, List.forall_mem_singleton.2 hmet⟩
  refine ⟨hexit, ?_, hends'.resolve_left fun hwell => ?_⟩
  · have hcause := (hends.resolve_right fun hone => nomatch hexit.symm.trans hone).2
    obtain ⟨fs, blocks, cs, hfs, -, hblocks, hcs, hstdout⟩ := htold hcause
    obtain rfl := Except.ok.inj (hfind.symm.trans hfs)
    obtain rfl := Except.ok.inj ((show _ = Except.ok [] by decide +kernel).symm.trans hblocks)
    obtain rfl := Option.some.inj ((show _ = some
      "Checked 2 item(s): 2 passed, 0 failed.\n".toList by decide +kernel).symm.trans hcs)
    rw [hstdout, String.ofList_toList]
  · obtain ⟨fs, hfs, hall⟩ := hzero'.1 hwell.1
    obtain rfl := Except.ok.inj (Survey.find_troubled.symm.trans hfs)
    exact hunmet (hall _ (by decide))

end LineSpec.Command
