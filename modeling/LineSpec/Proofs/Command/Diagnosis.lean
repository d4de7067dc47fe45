import LineSpec.Proofs.Command.Dealing
import LineSpec.Proofs.Command.Inspection
import LineSpec.Proofs.Command.Telling
import LineSpec.Proofs.Settings.RoundTrip
/-!
# What commands say of a specification that cannot be loaded

Three commands load specifications. In a project with plain settings, variables and names of files,
no content of a specification breaks off rendering without a directory: octets that are no text and
lines that cannot be parsed are told in a line. Parsing tells of lines that cannot be parsed with a
report, but breaks off where the octets are no text. A check tells of both in a block among the
others, and breaks off exactly where an item gives a path that no file can have
(`specification_diagnosed`).
-/

namespace LineSpec

/-- The document that the content of a file gives under conventions, unless its octets are no text
or its lines cannot be parsed. -/
def Document.ofContent (c : Conventions) (file : Path) (content : List UInt8) :
    Except (Text.Utf8.Fault ⊕ ParseError) Document :=
  match Text.Utf8.decode content with
  | .error fault => .error (.inl fault)
  | .ok cs =>
    (parse c (some file.text) (Text.ofChars (Text.unifyNewlines cs))).mapError .inr

namespace Command

open Session

variable {w : Workspace} {s : Settings.Typed} {c : Conventions} {vars : Bindings Text} {file : Path}

/-! ## The content of a specification -/

theorem result_loadFile (c : Conventions) (vars : Bindings Text) {content : List UInt8}
    (hread : w.read file = .ok content) :
    (Survey.loadFile (c.reading vars) w file).result =
      (Document.ofContent c file content).mapError (Sum.elim .encoding .parse) := by
  simp only [Survey.loadFile, Workspace.readChars, hread, Document.ofContent]
  cases Text.Utf8.decode content with
  | error fault => rfl
  | ok cs =>
    simp only [Survey.parse, Conventions.reading]
    cases Document.parse c (some file.text) (Text.ofChars (Text.unifyNewlines cs)) <;> rfl

/-! ## How commands end -/

/-- The answer of a command that prints the given lines and ends with exit code 1. -/
structure Answer.Reports (a : Answer) (ts : List Text) : Prop where
  exitCode : a.exitCode = 1
  cause : a.cause = none
  shown : ∃ cs, printedLines? ts = some cs ∧ a.stdout = String.ofList cs

/-- A check ends with exit code 1. If it is not broken off, one of the blocks that it prints is
about the failure `f`. -/
structure Answer.TellsOf (a : Answer) (w : Workspace) (root : Path) (f : Check.Failure) :
    Prop where
  exitCode : a.exitCode = 1
  shown : a.cause = none → ∃ b blocks o cs, block w root f = .ok b ∧ b ∈ blocks ∧
    printedLines? (blockLines blocks ++ [summaryLine o]) = some cs ∧ a.stdout = String.ofList cs

theorem Answer.Reports.with_events {a : Answer} {ts : List Text} (h : a.Reports ts)
    (events : List Event) : { a with events }.Reports ts :=
  ⟨h.exitCode, h.cause, h.shown⟩

theorem Answer.TellsOf.with_events {a : Answer} {root : Path} {f : Check.Failure}
    (h : a.TellsOf w root f) (events : List Event) : { a with events }.TellsOf w root f :=
  ⟨h.exitCode, h.shown⟩

theorem reports_of_fails {command run : Session Unit} {events : List Event} {ts : List Text}
    (h : Fails run { workspace := w, events } ts)
    (hcommand : exec command { workspace := w } = exec run { workspace := w, events }) :
    (answer command w).Reports ts := by
  obtain ⟨cs, hcs, hrun⟩ := h
  rw [answer_of_exec (hcommand.trans hrun)]
  exact ⟨rfl, rfl, cs, hcs, by simp [Answer.ended]⟩

/-- A command that at last only decides between its exit codes is not broken off there. -/
theorem cause_of_exit {command : Session Unit} {p : Prop} [Decidable p] {a : Answer}
    (h : exec command { workspace := w } = exec (if p then exit 1 else pure ()) a) :
    (answer command w).cause = a.cause := by
  split at h
  · rw [answer_of_exec (h.trans (exec_exit 1))]
    rfl
  · rw [answer_of_exec (h.trans (exec_pure ()))]
    rfl

/-! ## Parsing -/

/-- What parsing answers about a file with the given content. -/
structure Answer.OfParse (a : Answer) (w : Workspace) (c : Conventions) (file : Path)
    (content : List UInt8) : Prop where
  /-- Where the octets are no text, it breaks off and says nothing. -/
  undecodable : ∀ fault, Document.ofContent c file content = .error (.inl fault) →
    a.exitCode = 1 ∧ a.cause = some (.encoding fault) ∧ a.stdout = ""
  /-- Lines that cannot be parsed are shown in a report. -/
  unparsed : ∀ e, Document.ofContent c file content = .error (.inr e) →
    ∃ lines, w.readLines file = .ok lines ∧
      a.Reports [(Report.formatIn? (.parse e) file.text lines).getD []]
  /-- A document is shown to its end. -/
  parsed : ∀ d, Document.ofContent c file content = .ok d → a.exitCode = 0 ∧ a.cause = none

section
variable (hsettings : projectSettings w = .ok s.toSettings)
  (hconventions : s.conventions none = .ok c) (inspect : Bool)
include hsettings hconventions

theorem exec_parse (file : Path) :
    ∃ o events, s.toSettings.options none = .ok o ∧
      exec (parse file inspect) { workspace := w } =
        exec (showLoaded o file inspect ((Survey.loadFile (c.reading []) w file).result.mapError
          (Survey.LoadError.rename Empty.elim))) { workspace := w, events } := by
  obtain ⟨o, ho, hreading⟩ := Settings.Typed.exists_options hconventions
  refine ⟨o, (Survey.loadFile (o.reading []) w file).events, ho, ?_⟩
  rw [exec_parse_of_options hsettings ho, ← Survey.result_loadFile_rename, ← hreading]

/-- Octets that are no text break parsing off, and nothing is printed. -/
theorem answer_parse_undecodable {fault : Text.Utf8.Fault}
    (hload : (Survey.loadFile (c.reading []) w file).result = .error (.encoding fault)) :
    ∃ events, answer (parse file inspect) w =
      { workspace := w, exitCode := 1, cause := some (.encoding fault), events } := by
  obtain ⟨o, events, -, hrun⟩ := exec_parse hsettings hconventions inspect file
  rw [hload] at hrun
  exact ⟨events, answer_of_exec (hrun.trans (exec_breakOff _))⟩

/-- Lines that cannot be parsed are shown in a report. -/
theorem reports_parse (hfile : file.Plain) {e : ParseError}
    (hload : (Survey.loadFile (c.reading []) w file).result = .error (.parse e)) :
    ∃ lines, w.readLines file = .ok lines ∧
      (answer (parse file inspect) w).Reports
        [(Report.formatIn? (.parse e) file.text lines).getD []] := by
  obtain ⟨o, events, -, hrun⟩ := exec_parse hsettings hconventions inspect file
  rw [hload] at hrun
  obtain ⟨hplain, hread⟩ := Survey.plain_of_loadFile_eq_error hfile hload
  obtain ⟨report, hreport, hreportPlain⟩ := exists_report hplain hread file.text
  obtain ⟨lines, hlines, rfl⟩ := map_eq_ok_iff.1 hreport
  refine ⟨lines, hlines, reports_of_fails ?_ hrun⟩
  have hreportOf : Prints (reportOf (.parse e) file file.text) { workspace := w, events }
      ((Report.formatIn? (.parse e) file.text lines).getD []) [] { workspace := w, events } := by
    refine .of_exec ?_
    rw [exec_reportOf, hreport]
    rfl
  obtain ⟨a', hline⟩ := exists_prints_printLine hreportPlain { workspace := w, events }
  exact hreportOf.bind_fails (hline.bind_fails fails_exit)

/-- A document is shown to its end. -/
theorem ends_parse (hfile : file.Plain) {d : Document}
    (hload : (Survey.loadFile (c.reading []) w file).result = .ok d) :
    (answer (parse file inspect) w).exitCode = 0 ∧
      (answer (parse file inspect) w).cause = none := by
  obtain ⟨o, ho, hreading⟩ := Settings.Typed.exists_options hconventions
  have hdocument : (Survey.loadFile (o.reading []) w file).result = .ok d := by
    rw [hreading, Survey.result_loadFile_rename, hload]
    rfl
  obtain ⟨hopening, hclosing⟩ := Settings.Typed.isText_of_options ho
  have hloads : Loads w file o d := ⟨⟨_, hsettings, ho⟩, hopening, hclosing, hdocument⟩
  have hprints := hloads.prints_parse hfile inspect
  exact ⟨hprints.exitCode, hprints.cause⟩

/-- Parsing tells of a specification that cannot be loaded, unless its octets are no text. -/
theorem parse_answers {content : List UInt8} (hread : w.read file = .ok content)
    {args : List String} {verbose : Bool}
    (hargs : Request.ofArguments w args = .ok (.parse file inspect, verbose)) :
    (run w args).OfParse w c file content := by
  have hfile : file.Plain := Request.plain_of_ofArguments hargs
  have hload := result_loadFile c [] hread
  obtain ⟨events, hrun⟩ := run_of_request hargs
  rw [hrun]
  refine ⟨fun fault hcontent => ?_, fun e hcontent => ?_, fun d hcontent => ?_⟩
  · rw [hcontent] at hload
    obtain ⟨events', hanswer⟩ := answer_parse_undecodable hsettings hconventions inspect hload
    rw [perform, hanswer]
    exact ⟨rfl, rfl, rfl⟩
  · rw [hcontent] at hload
    obtain ⟨lines, hlines, hreports⟩ := reports_parse hsettings hconventions inspect hfile hload
    exact ⟨lines, hlines, hreports.with_events events⟩
  · rw [hcontent] at hload
    exact ends_parse hsettings hconventions inspect hfile hload

end

/-! ## Rendering without a directory -/

/-- What rendering without a directory answers about a file with the given content. -/
structure Answer.OfRender (a : Answer) (c : Conventions) (file : Path) (content : List UInt8) :
    Prop where
  undecodable : ∀ fault, Document.ofContent c file content = .error (.inl fault) →
    a.Reports ["Error: " ++ fault.message]
  unparsed : ∀ e, Document.ofContent c file content = .error (.inr e) →
    a.Reports ["Error: " ++ e.message]
  /-- No item of a document breaks it off. -/
  parsed : ∀ d, Document.ofContent c file content = .ok d → a.cause = none

/-- The document that was loaded; a specification that is wrong ends the command. -/
def loadedOrFail : Except (Survey.LoadError Misfit) Document → Session Document
  | .ok d => return d
  | .error (.parse e) => fail e.message
  | .error (.encoding fault) => fail fault.message
  | .error (.access e) => if isReportedAccess e then fail e.message else breakOff (.access e)
  | .error (.refused m) => breakOff (.misfit m)

section
variable {r : RenderRequest} (hsettings : projectSettings w = .ok s.toSettings)
  (hvars : Variables.collect w s.vars r.varsFile r.assignments = .ok vars)
  (hconventions : s.conventions none = .ok c)
include hsettings hvars hconventions

theorem exec_render :
    ∃ events, exec (render r) { workspace := w } =
      exec (loadedOrFail ((Survey.loadFile (c.reading vars) w r.specFile).result.mapError
          (Survey.LoadError.rename Empty.elim)) >>=
        renderItems ((c.reading vars).rename Empty.elim) r) { workspace := w, events } := by
  obtain ⟨o, ho, hreading⟩ := Settings.Typed.exists_options hconventions
  refine ⟨(Survey.loadFile (o.reading vars) w r.specFile).events, ?_⟩
  rw [render, exec_bind_ok (exec_settingsOrFail_ok hsettings),
    exec_bind_ok (exec_variablesOrFail_ok hvars), exec_bind_ok (exec_optionsOrFail_ok ho),
    ← Survey.result_loadFile_rename, ← hreading, exec_bind, exec_bind, documentOrFail,
    exec_bind_ok exec_workspace, exec_bind_ok (exec_noted _)]
  rcases (Survey.loadFile (o.reading vars) w r.specFile).result with (e | e | fault | m) | d <;> rfl

/-- Octets that are no text are told in a line. -/
theorem reports_render_undecodable {fault : Text.Utf8.Fault}
    (hload : (Survey.loadFile (c.reading vars) w r.specFile).result = .error (.encoding fault)) :
    (answer (render r) w).Reports ["Error: " ++ fault.message] := by
  obtain ⟨events, hrun⟩ := exec_render hsettings hvars hconventions
  rw [hload] at hrun
  exact reports_of_fails (fails_fail (Text.plain_ofString _)).bind hrun

/-- Lines that cannot be parsed are told in a line. -/
theorem reports_render_unparsed (hfile : r.specFile.Plain) {e : ParseError}
    (hload : (Survey.loadFile (c.reading vars) w r.specFile).result = .error (.parse e)) :
    (answer (render r) w).Reports ["Error: " ++ e.message] := by
  obtain ⟨events, hrun⟩ := exec_render hsettings hvars hconventions
  obtain ⟨hplain, -⟩ := Survey.plain_of_loadFile_eq_error hfile hload
  rw [hload] at hrun
  exact reports_of_fails (fails_fail hplain.message).bind hrun

/-- The items of a document are told one after the other, and no plain content breaks that off. -/
theorem cause_render (hout : r.out = none) (hplain : ∀ p ∈ vars, p.2.Plain) {d : Document}
    (hload : (Survey.loadFile (c.reading vars) w r.specFile).result = .ok d) :
    (answer (render r) w).cause = none := by
  obtain ⟨o, ho, hreading⟩ := Settings.Typed.exists_options hconventions
  have hloads : r.Loads w (o.reading vars) d := by
    refine ⟨s.toSettings, vars, o, hsettings, hvars, ho, rfl, ?_⟩
    rw [hreading, Survey.result_loadFile_rename, hload]
    rfl
  have hnone : ∀ dir ∈ r.out, dir.Plain := by
    rw [hout]
    nofun
  have hsettles : ∀ t ∈ d.declaring r.param, Settles (o.reading vars) t.1 := by
    intro t ht
    obtain ⟨hitem, -⟩ := Check.plain_of_mem_declaring (Survey.plain_of_loadFile hload).1 ht
    exact .of_plain hitem fun text => plain_of_resolve hplain (hreading vars)
  cases hcause : (answer (render r) w).cause with
  | none => rfl
  | some cause =>
    obtain ⟨dir, e, hsome, -⟩ := (ofItems_render hloads hnone).refused hsettles cause hcause
    cases hout.symm.trans hsome

/-- Rendering without a directory tells why a specification cannot be loaded. -/
theorem render_answers (hout : r.out = none) (hplain : ∀ p ∈ vars, p.2.Plain) {content : List UInt8}
    (hread : w.read r.specFile = .ok content) {args : List String} {verbose : Bool}
    (hargs : Request.ofArguments w args = .ok (.render r, verbose)) :
    (run w args).OfRender c r.specFile content := by
  have hr : (Request.render r).Plain := Request.plain_of_ofArguments hargs
  have hload := result_loadFile c vars hread
  obtain ⟨events, hrun⟩ := run_of_request hargs
  rw [hrun]
  refine ⟨fun fault hcontent => ?_, fun e hcontent => ?_, fun d hcontent => ?_⟩
  · rw [hcontent] at hload
    exact (reports_render_undecodable hsettings hvars hconventions hload).with_events events
  · rw [hcontent] at hload
    exact (reports_render_unparsed hsettings hvars hconventions hr.1 hload).with_events events
  · rw [hcontent] at hload
    exact cause_render hsettings hvars hconventions hout hplain hload

end

/-! ## Checking -/

/-- What a check of a directory answers about a file among its specifications `fs` with the given
content, where targets are seen from `root`. -/
structure Answer.OfCheck (a : Answer) (w : Workspace) (c : Conventions) (vars : Bindings Text)
    (root : Path) (param : Text) (fs : List Path) (file : Path) (content : List UInt8) : Prop where
  /-- It is broken off exactly where an item gives a path that no file can have. -/
  cause_iff : a.cause = none ↔ ∀ f ∈ fs, Check.NamesFiles (c.reading vars) w root param f
  undecodable : ∀ fault, Document.ofContent c file content = .error (.inl fault) →
    a.TellsOf w root ⟨file.text, 0, [], .targetUnreadable file.text fault.message⟩
  unparsed : ∀ e, Document.ofContent c file content = .error (.inr e) →
    a.TellsOf w root ⟨file.text, e.number, [], .parse e⟩

namespace CheckRequest

variable {r : CheckRequest} (hs : s.IsPlain) (hr : (Request.check r).Plain)
include hs hr

theorem plain_dirIn : (r.dirIn s).Plain := by
  rw [dirIn]
  cases hdir : r.specDir with
  | some dir => exact hr.1 dir hdir
  | none => exact Path.plain_ofText (hs.texts s.specDir (by simp [Settings.Typed.texts]))

theorem plain_baseIn : (r.baseIn s).Plain := by
  rw [baseIn, rootIn]
  cases hroot : r.root with
  | some dir => exact hr.2.1 dir hroot
  | none =>
    dsimp only [HOrElse.hOrElse, OrElse.orElse, Option.orElse]
    split
    · exact plain_dirIn hs hr
    · exact Path.plain_ofText (hs.texts s.root (by simp [Settings.Typed.texts]))

theorem plain_extensionIn : (r.extensionIn s).Plain := by
  rw [extensionIn]
  cases hextension : r.extension.filter (· ≠ []) with
  | some extension => exact hr.2.2 extension (Option.filter_eq_some_iff.1 hextension).1
  | none => exact hs.texts s.extension (by simp [Settings.Typed.texts])

end CheckRequest

section
variable {r : CheckRequest} {fs : List Path} (hdir : w.isDir (r.dirIn s) = .ok true)
  (hfind : Survey.find w (r.dirIn s) (r.extensionIn s) = .ok fs)
include hdir hfind

theorem outcome_eq_ok_iff {o : Check.Outcome} :
    (r.outcome s c vars w).result = .ok o ↔
      (∀ f ∈ fs, Check.NamesFiles (c.reading vars) w (r.baseIn s) r.param f) ∧
        o = Check.total (fs.map (Check.ofFile (c.reading vars) w (r.baseIn s) r.param)) := by
  simp only [CheckRequest.outcome, Check.directory_eq_ok_iff, Survey.files_eq_ok_iff hdir, hfind,
    Except.ok.injEq, exists_eq_left', Check.exists_item_eq_ok_iff]
  rfl

/-- The failures of a check can be told. -/
theorem canTell_of_outcome (hs : s.IsPlain) (hr : (Request.check r).Plain) (hw : w.tree.Plain)
    (hplain : ∀ p ∈ vars, p.2.Plain) {o : Check.Outcome}
    (hresult : (r.outcome s c vars w).result = .ok o) :
    ∀ failure ∈ o.failures, failure.CanTell w (r.baseIn s) := by
  obtain ⟨-, rfl⟩ := (outcome_eq_ok_iff hdir hfind).1 hresult
  rw [Check.total_map]
  intro failure hfailure
  obtain ⟨f, hf, hfailure⟩ := List.mem_flatMap.1 hfailure
  have hfPlain : f.Plain := Survey.plain_of_mem_find hw (r.plain_dirIn hs hr)
    (r.plain_extensionIn hs hr) hdir hfind hf
  exact Check.canTell_of_ofFile hplain (r.plain_baseIn hs hr) hfPlain hfailure

variable (hsettings : projectSettings w = .ok s.toSettings)
  (hvars : Variables.collect w s.vars r.varsFile r.assignments = .ok vars)
  (hconventions : s.conventions r.strictEnd = .ok c)
include hsettings hvars hconventions

/-- A check is broken off exactly where an item gives a path that no file can have. -/
theorem cause_check_iff (hs : s.IsPlain) (hr : (Request.check r).Plain) (hw : w.tree.Plain)
    (hplain : ∀ p ∈ vars, p.2.Plain) :
    (answer (check r) w).cause = none ↔
      ∀ f ∈ fs, Check.NamesFiles (c.reading vars) w (r.baseIn s) r.param f := by
  constructor
  · intro hcause
    rcases check_cases hsettings hvars hconventions hdir with
      ⟨o, -, -, -, hresult, -⟩ | ⟨-, cause, stdout, events, hanswer⟩
    · exact ((outcome_eq_ok_iff hdir hfind).1 hresult).1
    · rw [hanswer] at hcause
      cases hcause
  · intro hnames
    obtain ⟨o, hresult⟩ : ∃ o, (r.outcome s c vars w).result = .ok o :=
      ⟨_, (outcome_eq_ok_iff hdir hfind).2 ⟨hnames, rfl⟩⟩
    have hcanTell := canTell_of_outcome hdir hfind hs hr hw hplain hresult
    obtain ⟨events, hrun⟩ := exec_check hsettings hvars hconventions
    have hok : exec (outcomeOrFail (r.dirIn s) (.ok o)) { workspace := w, events } =
        (.ok o, { workspace := w, events }) := exec_pure o
    obtain ⟨_, stdout, -, hfailures⟩ := tells_tellFailures hcanTell { workspace := w, events } rfl
    obtain ⟨a, hsummary⟩ := exists_prints_summaryLine o { workspace := w, events, stdout }
    rw [hresult, Except.mapError, exec_bind_ok hok, tell, exec_bind_ok hfailures,
      exec_bind_ok hsummary.exec] at hrun
    obtain ⟨cs, -, rfl⟩ := hsummary.shown
    exact cause_of_exit hrun

/-- Each failure of each specification is told by a check that is not broken off. -/
theorem tellsOf_check {f : Path} (hf : f ∈ fs) {failure : Check.Failure}
    (hfailure : failure ∈
      (Check.ofFile (c.reading vars) w (r.baseIn s) r.param f).failures) :
    (answer (check r) w).TellsOf w (r.baseIn s) failure := by
  rcases check_cases hsettings hvars hconventions hdir with
    ⟨o, blocks, cs, events, hresult, hblocks, hcs, hanswer⟩ | ⟨-, cause, stdout, events, hanswer⟩
  · have ho := ((outcome_eq_ok_iff hdir hfind).1 hresult).2
    have hmem : failure ∈ o.failures := by
      rw [ho, Check.total_map]
      exact List.mem_flatMap.2 ⟨f, hf, hfailure⟩
    have hsuccess : o.success = false := by
      rw [Check.Outcome.success, List.isEmpty_eq_false_iff]
      exact List.ne_nil_of_mem hmem
    obtain ⟨b, hb⟩ := exists_mapM_eq_ok_iff.1 ⟨blocks, hblocks⟩ failure hmem
    have hmemBlocks : b ∈ blocks := (mem_mapM_iff hblocks).2 ⟨failure, hmem, hb⟩
    rw [hanswer, hsuccess]
    exact ⟨rfl, fun _ => ⟨b, blocks, o, cs, hb, hmemBlocks, hcs, rfl⟩⟩
  · rw [hanswer]
    exact ⟨rfl, fun hnone => by cases hnone⟩

/-- A check tells why a specification cannot be loaded, unless an item of one of them breaks it
off. -/
theorem check_answers (hs : s.IsPlain) (hw : w.tree.Plain) (hplain : ∀ p ∈ vars, p.2.Plain)
    (hfile : file ∈ fs) {content : List UInt8} (hread : w.read file = .ok content)
    {args : List String} {verbose : Bool}
    (hargs : Request.ofArguments w args = .ok (.check r, verbose)) :
    (run w args).OfCheck w c vars (r.baseIn s) r.param fs file content := by
  have hr : (Request.check r).Plain := Request.plain_of_ofArguments hargs
  have hload := result_loadFile c vars hread
  have htells : ∀ failure ∈ (Check.ofFile (c.reading vars) w (r.baseIn s) r.param file).failures,
      (answer (check r) w).TellsOf w (r.baseIn s) failure := fun failure =>
    tellsOf_check hdir hfind hsettings hvars hconventions hfile
  obtain ⟨events, hrun⟩ := run_of_request hargs
  rw [hrun]
  refine ⟨?_, fun fault hcontent => ?_, fun e hcontent => ?_⟩
  · exact cause_check_iff hdir hfind hsettings hvars hconventions hs hr hw hplain
  · rw [hcontent] at hload
    refine (htells _ ?_).with_events events
    simp [Check.ofFile, hload, Except.mapError, Check.rejection]
  · rw [hcontent] at hload
    refine (htells _ ?_).with_events events
    simp [Check.ofFile, hload, Except.mapError, Check.rejection]

end

/-! ## All three commands -/

/-- Whatever the octets of a specification are, in a project with plain settings and names of files,
parsing tells of it unless they are no text; rendering without a directory always tells of it, with
plain variables; and a check tells of it unless an item of one of the specifications gives a path
that no file can have. -/
theorem specification_diagnosed {content : List UInt8}
    (hsettings : projectSettings w = .ok s.toSettings) (hs : s.IsPlain)
    (hconventions : s.conventions none = .ok c) (hw : w.tree.Plain)
    (hread : w.read file = .ok content) :
    (∀ args inspect verbose,
      Request.ofArguments w args = .ok (.parse file inspect, verbose) →
      (run w args).OfParse w c file content) ∧
    (∀ args r verbose vars, Request.ofArguments w args = .ok (.render r, verbose) →
      r.specFile = file → r.out = none →
      Variables.collect w s.vars r.varsFile r.assignments = .ok vars → (∀ p ∈ vars, p.2.Plain) →
      (run w args).OfRender c file content) ∧
    (∀ args r verbose vars c' fs, Request.ofArguments w args = .ok (.check r, verbose) →
      Variables.collect w s.vars r.varsFile r.assignments = .ok vars → (∀ p ∈ vars, p.2.Plain) →
      s.conventions r.strictEnd = .ok c' → w.isDir (r.dirIn s) = .ok true →
      Survey.find w (r.dirIn s) (r.extensionIn s) = .ok fs → file ∈ fs →
      (run w args).OfCheck w c' vars (r.baseIn s) r.param fs file content) := by
  refine ⟨?_, ?_, ?_⟩
  · intro args inspect verbose hargs
    exact parse_answers hsettings hconventions inspect hread hargs
  · intro args r verbose vars hargs hfile hout hvars hplain
    subst hfile
    exact render_answers hsettings hvars hconventions hout hplain hread hargs
  · intro args r verbose vars c' fs hargs hvars hplain hconventions' hdir hfind hfile
    exact check_answers hdir hfind hsettings hvars hconventions' hs hw hplain hfile hread hargs

theorem specification_diagnosed_troubled :
    (∃ lines, Survey.troubled.readLines ⟨.relative, ["s", "c.txt"]⟩ = .ok lines ∧
      (run Survey.troubled ["parse", "s/c.txt"]).Reports
        [(Report.formatIn? (.parse ⟨.noParameter, 1, "##", some "s/c.txt"⟩) "s/c.txt"
          lines).getD []]) ∧
    (run Survey.troubled ["render", "s/b.txt"]).Reports
      ["Error: 'utf-8' codec can't decode byte 0xff in position 0: invalid start byte"] ∧
    (run Survey.troubled ["check", "s"]).exitCode = 1 ∧
    (run Survey.troubled ["check", "s"]).cause = none := by
  have hparse : Request.ofArguments Survey.troubled ["parse", "s/c.txt"] =
      .ok (.parse ⟨.relative, ["s", "c.txt"]⟩ false, false) := by
    decide +kernel
  have hrender : Request.ofArguments Survey.troubled ["render", "s/b.txt"] =
      .ok (.render { specFile := ⟨.relative, ["s", "b.txt"]⟩ }, false) := by
    decide +kernel
  have hcheck : Request.ofArguments Survey.troubled ["check", "s"] =
      .ok (.check { specDir := some ⟨.relative, ["s"]⟩ }, false) := by
    decide +kernel
  have hs : Settings.Typed.IsPlain {} := by decide
  have hconventions : Settings.Typed.conventions {} none = .ok {} := by decide
  have hw : Survey.troubled.tree.Plain := by decide +kernel
  have hreadB : Survey.troubled.read ⟨.relative, ["s", "b.txt"]⟩ = .ok [0xFF] := by decide +kernel
  have hreadC : Survey.troubled.read ⟨.relative, ["s", "c.txt"]⟩ =
      .ok (Text.Utf8.encode "##\n".toList) := by
    decide +kernel
  have hdir : Survey.troubled.isDir ⟨.relative, ["s"]⟩ = .ok true := by decide +kernel
  have hcontentB : Document.ofContent {} ⟨.relative, ["s", "b.txt"]⟩ [0xFF] =
      .error (.inl ⟨0, 1, 0xFF, .start⟩) := by
    decide +kernel
  have hcontentC : Document.ofContent {} ⟨.relative, ["s", "c.txt"]⟩
      (Text.Utf8.encode "##\n".toList) =
        .error (.inr ⟨.noParameter, 1, "##", some "s/c.txt"⟩) := by
    decide +kernel
  have hnames : ∀ f ∈ [(⟨.relative, ["s", "a.txt"]⟩ : Path), ⟨.relative, ["s", "b.txt"]⟩,
      ⟨.relative, ["s", "c.txt"]⟩, ⟨.relative, ["s", "d.txt"]⟩],
      Check.NamesFiles (Conventions.reading {} []) Survey.troubled ⟨.relative, ["s"]⟩ "file" f := by
    decide +kernel
  have hmessage : ("Error: " ++ (⟨0, 1, 0xFF, .start⟩ : Text.Utf8.Fault).message : Text) =
      "Error: 'utf-8' codec can't decode byte 0xff in position 0: invalid start byte" := by
    decide +kernel
  obtain ⟨-, hrenders, hchecks⟩ :=
    specification_diagnosed (s := {}) rfl hs hconventions hw hreadB
  obtain ⟨hparses, -, -⟩ := specification_diagnosed (s := {}) rfl hs hconventions hw hreadC
  have hanswer := hchecks _ _ _ [] _ _ hcheck rfl nofun hconventions hdir Survey.find_troubled
    (by decide)
  refine ⟨(hparses _ _ _ hparse).unparsed _ hcontentC, ?_, ?_, hanswer.cause_iff.2 hnames⟩
  · have hreports := (hrenders _ _ _ [] hrender rfl rfl rfl nofun).undecodable _ hcontentB
    rwa [hmessage] at hreports
  · exact (hanswer.undecodable _ hcontentB).exitCode

/-- Octets that are no text break parsing off, and it tells nothing of them. -/
theorem parse_breaks_off :
    (run Survey.troubled ["parse", "s/b.txt"]).exitCode = 1 ∧
    (run Survey.troubled ["parse", "s/b.txt"]).cause =
      some (.encoding ⟨0, 1, 0xFF, .start⟩) ∧
    (run Survey.troubled ["parse", "s/b.txt"]).stdout = "" ∧
    (run Survey.troubled ["render", "s/b.txt"]).cause = none := by
  decide +kernel

end Command

end LineSpec
