import LineSpec.Proofs.Check.Outcome
import LineSpec.Proofs.Match.Step
import LineSpec.Settings.Typed
/-!
# Refusals by another name

A reading may refuse a specification. If its refusals get other names, a check does the same as
before and ends with the refusals' new names (`result_directory_rename`). So where settings give
markers that are texts, reading with the settings is reading with the conventions of these texts,
and nothing is ever refused (`Settings.Options.reading_of_text`).
-/

namespace LineSpec

variable {ε δ : Type} {g : ε → δ}

/-- A reading with other names for its refusals. -/
def Reading.rename (g : ε → δ) (r : Reading ε) : Reading δ where
  parse source text := (r.parse source text).mapError (Sum.map id g)
  resolve line := (r.resolve line).mapError (Sum.map id g)
  strictEnd := r.strictEnd

/-! ## Matches -/

namespace Match

/-- A verdict with other names for what resolving refuses. -/
def Verdict.rename (g : ε → δ) : Verdict ε → Verdict δ
  | matched => matched
  | failed e => failed e
  | unresolved e => unresolved (g e)

/-- A run with other names for what resolving refuses. -/
def Run.rename (g : ε → δ) (r : Run ε) : Run δ := ⟨r.verdict.rename g, r.rest, r.anchors⟩

variable {resolve : Text → Except ε Text}

theorem mapError_resolve {t expected : Text} (h : resolve t = .ok expected) :
    (resolve t).mapError g = .ok expected := by
  rw [h]
  rfl

theorem runFrom_mapError (strictEnd : Bool) (body : Body) (pending : Bool) (consumed : Nat)
    (ls : List Text) :
    runFrom (fun t => (resolve t).mapError g) strictEnd body pending consumed ls =
      (runFrom resolve strictEnd body pending consumed ls).rename g := by
  -- where resolving succeeds both runs take the same step
  induction body, pending, consumed, ls using runFrom_induction resolve strictEnd with
  | canStop pending consumed ls hopen =>
    simp only [runFrom, if_pos hopen]
    rfl
  | atEnd consumed hstrict | surplus consumed l rest hstrict =>
    rw [hstrict]
    rfl
  | skip line body pending consumed ls ih =>
    rw [runFrom_skip, runFrom_skip, ih]
  | refused text line body pending consumed ls e he =>
    have he' : (resolve text).mapError g = .error (g e) := by
      rw [he]
      rfl
    rw [runFrom_refused _ _ _ _ he, runFrom_refused _ _ _ _ he']
    rfl
  | sought text line body consumed ls expected skipped rest ht hseek ih =>
    rw [runFrom_sought _ _ _ _ ht hseek, runFrom_sought _ _ _ _ (mapError_resolve ht) hseek, ih]
    rfl
  | notFound text line body consumed ls expected ht hseek =>
    rw [runFrom_not_found _ _ _ _ ht hseek, runFrom_not_found _ _ _ _ (mapError_resolve ht) hseek]
    rfl
  | next text line body consumed l rest ht ih =>
    rw [runFrom_next _ _ _ _ ht, runFrom_next _ _ _ _ (mapError_resolve ht), ih]
  | differs text line body consumed l rest expected ht hne =>
    rw [runFrom_differs _ _ _ _ ht hne, runFrom_differs _ _ _ _ (mapError_resolve ht) hne]
    rfl
  | noLine text line body consumed expected ht =>
    rw [runFrom_at_end _ _ _ _ ht, runFrom_at_end _ _ _ _ (mapError_resolve ht)]
    rfl

theorem run_mapError (strictEnd : Bool) (body : Body) (ls : List Text) :
    run (fun t => (resolve t).mapError g) strictEnd body ls =
      (run resolve strictEnd body ls).rename g :=
  runFrom_mapError strictEnd body false 0 ls

theorem Run.verdict_rename (r : Run ε) : (r.rename g).verdict = r.verdict.rename g := rfl

theorem Verdict.rename_eq_matched_iff {v : Verdict ε} : v.rename g = .matched ↔ v = .matched := by
  cases v <;> simp [rename]

theorem Verdict.readsEnd_rename (v : Verdict ε) (strictEnd : Bool) (body : Body) :
    (v.rename g).readsEnd strictEnd body = v.readsEnd strictEnd body := by
  cases v with
  | failed e => cases e <;> rfl
  | matched | unresolved e => rfl

end Match

/-! ## Loading -/

namespace Survey

/-- The error of loading with other names for refusals. -/
def LoadError.rename (g : ε → δ) : LoadError ε → LoadError δ
  | parse e => parse e
  | access e => access e
  | encoding fault => encoding fault
  | refused e => refused (g e)

/-- The error of a walk with other names for refusals. -/
def WalkError.rename (g : ε → δ) : WalkError ε → WalkError δ
  | noDirectory dir => noDirectory dir
  | find e => find e
  | load e => load (e.rename g)

theorem result_loadFile_rename (r : Reading ε) (w : Workspace) (file : Path) :
    (loadFile (r.rename g) w file).result =
      (loadFile r w file).result.mapError (LoadError.rename g) := by
  rw [loadFile, loadFile]
  cases w.readChars file with
  | error e => cases e <;> rfl
  | ok cs =>
    simp only [parse, Reading.rename]
    rcases r.parse (some file.text) (Text.ofChars cs) with (e | e) | d <;> rfl

theorem files_rename (w : Workspace) (dir : Path) (extension : Text) :
    files (ε := δ) w dir extension =
      (files (ε := ε) w dir extension).mapError (WalkError.rename g) := by
  rw [files, files]
  split
  · rfl
  · rfl
  · cases find w dir extension <;> rfl

end Survey

/-! ## Checks -/

namespace Check

/-- What ends a check, with other names for refusals. -/
def Escape.rename (g : ε → δ) : Escape ε → Escape δ
  | access e => access e
  | refused e => refused (g e)

/-- Why a directory cannot be checked, with other names for refusals. -/
def DirError.rename (g : ε → δ) : DirError ε → DirError δ
  | walk e => walk (e.rename g)
  | escape e => escape (e.rename g)

variable (r : Reading ε) (w : Workspace) (root : Path) (param : Text) (jobs : Int)

theorem problemOf_rename (strictEnd : Bool) (body : Body) (target : Path)
    (fault : Option Text.Utf8.Fault) (v : Match.Verdict (PlaceholderError ⊕ ε)) :
    problemOf strictEnd body target fault (v.rename (Sum.map id g)) =
      (problemOf strictEnd body target fault v).mapError (Escape.rename g) := by
  simp only [problemOf, Match.Verdict.readsEnd_rename]
  split
  · rfl
  · rcases v with _ | e | e | e <;> rfl

theorem rejection_rename (f : Path) (e : Survey.LoadError ε) :
    rejection f (e.rename g) = (rejection f e).mapError g := by
  cases e <;> rfl

theorem result_item_rename (body : Body) (target : Path) :
    (item (r.rename g) w body target).result =
      (item r w body target).result.mapError (Escape.rename g) := by
  rw [item, item]
  cases w.read target with
  | error e =>
    cases e with
    | nulInPath | unencodable e => rfl
    | os cause path => cases cause <;> rfl
  | ok content =>
    dsimp only [Reading.rename]
    rw [Match.run_mapError]
    exact problemOf_rename ..

theorem result_document_rename (d : Document) :
    (document (r.rename g) w d root param jobs).result =
      (document r w d root param jobs).result.mapError (Escape.rename g) := by
  simp only [result_document, result_item_rename, mapM_mapError]
  cases (d.declaring param).mapM fun t => (item r w t.1.body (root.child t.2)).result <;> rfl

theorem result_file_rename (f : Path) :
    (file (r.rename g) w root param jobs f).result =
      (file r w root param jobs f).result.mapError (DirError.rename g) := by
  rw [result_file, result_file, Survey.result_loadFile_rename]
  cases (Survey.loadFile r w f).result with
  | ok d =>
    simp only [Except.mapError, result_document_rename]
    cases (document r w d root param jobs).result <;> rfl
  | error e =>
    simp only [Except.mapError, rejection_rename]
    cases rejection f e <;> rfl

/-- The check of a directory is the same, and ends with the new names. -/
theorem result_directory_rename (dir : Path) (extension : Text) (root : Option Path) :
    (directory (r.rename g) w dir extension root param jobs).result =
      (directory r w dir extension root param jobs).result.mapError (DirError.rename g) := by
  have hfiles : Survey.files (ε := δ) w dir extension =
      (Survey.files (ε := ε) w dir extension).mapError (Survey.WalkError.rename g) :=
    Survey.files_rename ..
  simp only [result_directory, result_files, result_file_rename, mapM_mapError, hfiles]
  cases Survey.files (ε := ε) w dir extension with
  | error e => rfl
  | ok fs =>
    simp only [Except.mapError, bind, Except.bind]
    cases fs.mapM fun f => (file r w (root.getD dir) param jobs f).result <;> rfl

end Check

/-! ## Settings of texts -/

namespace Settings.Options

/-- Markers that are texts give the reading of their conventions, which refuses nothing. -/
theorem reading_of_text {skip item opening closing : Text} {strictEnd : Bool} {c : Conventions}
    (h : Conventions.of? skip item opening closing strictEnd = .ok c) (vars : Bindings Text) :
    (Options.mk (.text skip) (.text item) (.text opening) (.text closing)
      (.bool strictEnd)).reading vars = (c.reading vars).rename Empty.elim := by
  obtain rfl := conventions_of_text
    (show Conventions.of? skip item opening closing (Json.bool strictEnd).truthy = .ok c from h)
  have hmap : ∀ {α β : Type} (x : Except α β), (x.mapError (.inl : α → α ⊕ Misfit)) =
      (x.mapError (.inl : α → α ⊕ Empty)).mapError (Sum.map id Empty.elim) := by
    intro α β x
    cases x <;> rfl
  simp only [reading, Reading.rename, Conventions.reading, Reading.mk.injEq]
  refine ⟨?_, ?_, rfl⟩
  · funext source text
    exact hmap _
  · funext line
    exact hmap _

end Settings.Options

namespace Settings.Typed

variable {s : Typed} {strictEnd : Option Bool} {c : Conventions}

/-- Settings whose markers give conventions give options that read as these conventions do. -/
theorem exists_options (h : s.conventions strictEnd = .ok c) :
    ∃ o, s.toSettings.options strictEnd = .ok o ∧
      ∀ vars, o.reading vars = (c.reading vars).rename Empty.elim := by
  refine ⟨⟨.text s.skip, .text s.item, .text s.opening, .text s.closing,
    .bool (strictEnd.getD s.strictEnd)⟩, ?_, Options.reading_of_text h⟩
  rw [conventions, Conventions.of?] at h
  repeat' split at h
  all_goals cases h
  simp [options, toSettings, Json.truthy, *]

/-- The two ends of a placeholder are texts then. -/
theorem isText_of_options {o : Options} (h : s.toSettings.options strictEnd = .ok o) :
    Options.isText o.opening ∧ Options.isText o.closing := by
  rw [options] at h
  repeat' split at h
  all_goals cases h
  exact ⟨rfl, rfl⟩

end Settings.Typed

end LineSpec
