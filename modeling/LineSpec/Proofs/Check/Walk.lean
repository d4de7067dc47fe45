import LineSpec.Proofs.Check.Listed
import LineSpec.Proofs.Check.Loading
/-!
# Two ways to walk a directory

A walk loads the files below a directory in order. Where it collects errors, it puts each file on
one of two lists, by whether the file loads (`Sorts`). Where it does not, it ends at the first file
that the other walk would have put on the list of errors, with the same error (`Sorts.walkFiles`).
So both agree on which files are bad, and no file is lost or comes out of its place
(`walk_sorts_or_stops`).
-/

namespace LineSpec.Survey

variable {c : Conventions} {vars : Bindings Text} {w : Workspace} {dir f : Path} {fs : List Path}
  {specs : List Found} {errors : List (Path × LoadError Empty)}

/-! ## One round of a walk -/

theorem result_walkFiles_of_loads {d : Document} (h : Loads c w f d) (collect : Bool) :
    (walkFiles (c.reading vars) w dir collect (f :: fs)).result =
      { (walkFiles (c.reading vars) w dir collect fs).result with
        specs := ⟨f, relative dir f, d⟩ ::
          (walkFiles (c.reading vars) w dir collect fs).result.specs } := by
  have hload : (loadFile (c.reading vars) w f).result = .ok d := loadFile_eq_ok_iff.2 h
  rw [walkFiles, visit]
  generalize loadFile (c.reading vars) w f = loaded at hload
  obtain ⟨result, es⟩ := loaded
  obtain rfl : result = .ok d := hload
  rfl

theorem result_walkFiles_of_fails {e : LoadError Empty} (h : Fails c w f e) (collect : Bool) :
    (walkFiles (c.reading vars) w dir collect (f :: fs)).result =
      if collect then
        { (walkFiles (c.reading vars) w dir true fs).result with
          errors := (f, e) :: (walkFiles (c.reading vars) w dir true fs).result.errors }
      else { ended := some (.load e) } := by
  have hload : (loadFile (c.reading vars) w f).result = .error e := loadFile_eq_error_iff.2 h
  rw [walkFiles, visit]
  generalize loadFile (c.reading vars) w f = loaded at hload
  obtain ⟨result, es⟩ := loaded
  obtain rfl : result = .error e := hload
  cases collect
  · rfl
  · simp only [h.isCollected, Bool.and_self, if_true]

/-! ## All files -/

/-- `Sorts c w dir fs specs errors`: of the files `fs`, those that load make up `specs`, and those
that do not, with their errors, `errors`. Both lists keep the order, and each file is on one of
them. -/
inductive Sorts (c : Conventions) (w : Workspace) (dir : Path) :
    List Path → List Found → List (Path × LoadError Empty) → Prop
  | nil : Sorts c w dir [] [] []
  | loads {f : Path} {d : Document} {fs : List Path} {specs : List Found}
      {errors : List (Path × LoadError Empty)} (file : Loads c w f d)
      (rest : Sorts c w dir fs specs errors) :
      Sorts c w dir (f :: fs) (⟨f, relative dir f, d⟩ :: specs) errors
  | fails {f : Path} {e : LoadError Empty} {fs : List Path} {specs : List Found}
      {errors : List (Path × LoadError Empty)} (file : Fails c w f e)
      (rest : Sorts c w dir fs specs errors) :
      Sorts c w dir (f :: fs) specs ((f, e) :: errors)

theorem exists_sorts (c : Conventions) (w : Workspace) (dir : Path) (fs : List Path) :
    ∃ specs errors, Sorts c w dir fs specs errors := by
  induction fs with
  | nil => exact ⟨[], [], .nil⟩
  | cons f fs ih =>
    obtain ⟨specs, errors, hrest⟩ := ih
    rcases loads_or_fails c w f with ⟨d, hd⟩ | ⟨e, he⟩
    · exact ⟨_, _, .loads hd hrest⟩
    · exact ⟨_, _, .fails he hrest⟩

namespace Sorts

/-- A specification comes from one of the files, which loads as its document. -/
theorem of_mem (h : Sorts c w dir fs specs errors) {s : Found} (hs : s ∈ specs) :
    s.path ∈ fs ∧ s.relative = relative dir s.path ∧ Loads c w s.path s.document := by
  induction h with
  | nil => exact absurd hs List.not_mem_nil
  | loads file _ ih =>
    rcases List.mem_cons.1 hs with rfl | hs
    · exact ⟨List.mem_cons_self, rfl, file⟩
    · exact ⟨List.mem_cons_of_mem _ (ih hs).1, (ih hs).2⟩
  | fails _ _ ih => exact ⟨List.mem_cons_of_mem _ (ih hs).1, (ih hs).2⟩

/-- A walk that collects errors brings the files on the two lists. -/
theorem walkFiles_collecting (h : Sorts c w dir fs specs errors) :
    (walkFiles (c.reading vars) w dir true fs).result = ⟨specs, errors, none⟩ := by
  induction h with
  | nil => rfl
  | loads file _ ih => rw [result_walkFiles_of_loads file, ih]
  | fails file _ ih => rw [result_walkFiles_of_fails file, if_pos rfl, ih]

/-- A walk that does not collect errors ends at the first file on the list of errors, if there is
one. -/
theorem walkFiles_stopping (h : Sorts c w dir fs specs errors) :
    (errors = [] ∧ (walkFiles (c.reading vars) w dir false fs).result = ⟨specs, [], none⟩) ∨
    ∃ before f after loaded e later, fs = before ++ f :: after ∧ Sorts c w dir before loaded [] ∧
      errors = (f, e) :: later ∧ loaded <+: specs ∧
      (walkFiles (c.reading vars) w dir false fs).result = ⟨loaded, [], some (.load e)⟩ := by
  induction h with
  | nil => exact .inl ⟨rfl, rfl⟩
  | @loads f d fs specs errors file rest ih =>
    rw [result_walkFiles_of_loads file]
    rcases ih with ⟨rfl, hrest⟩ | ⟨before, g, after, loaded, e, later, rfl, hbefore, rfl, hloaded,
      hrest⟩
    · exact .inl ⟨rfl, by rw [hrest]⟩
    · exact .inr ⟨f :: before, g, after, _ :: loaded, e, later, rfl, .loads file hbefore, rfl,
        (List.prefix_cons_inj _).2 hloaded, by rw [hrest]⟩
  | @fails f e fs specs errors file rest _ =>
    exact .inr ⟨[], f, fs, [], e, errors, rfl, .nil, rfl, List.nil_prefix,
      result_walkFiles_of_fails file false⟩

end Sorts

/-! ## A directory -/

theorem walk_of_find {collect : Bool} {extension : Text} (hdir : w.isDir dir = .ok true)
    (hfind : find w dir extension = .ok fs) :
    walk (c.reading vars) w dir extension collect =
      walkFiles (c.reading vars) w dir collect fs := by
  rw [walk, (files_eq_ok_iff hdir).2 hfind]

/-- Below a directory that exists, a walk that collects errors brings each listed file once, in
order: as a specification with its path from the directory and the document that names it as its
source, or as an error. A walk that does not collect errors brings all specifications if there is no
error; otherwise it brings those of the files before the first one with an error, and ends with this
error. Where the files cannot be listed, both end with the reason. -/
theorem walk_sorts_or_stops (c : Conventions) (vars : Bindings Text) (extension : Text)
    (hdir : w.isDir dir = .ok true) :
    (∀ e, find w dir extension = .error e → ∀ collect,
      (walk (c.reading vars) w dir extension collect).result = ⟨[], [], some (.find e)⟩) ∧
    ∀ fs, find w dir extension = .ok fs → fs.Nodup ∧
      ∃ specs errors, Sorts c w dir fs specs errors ∧
        (∀ s ∈ specs, s.path = dir.below s.relative.parts ∧
          s.document.source = some s.path.text) ∧
        (walk (c.reading vars) w dir extension true).result = ⟨specs, errors, none⟩ ∧
        ((errors = [] ∧
            (walk (c.reading vars) w dir extension false).result = ⟨specs, [], none⟩) ∨
          ∃ before f after loaded e later, fs = before ++ f :: after ∧
            Sorts c w dir before loaded [] ∧ errors = (f, e) :: later ∧ loaded <+: specs ∧
            (walk (c.reading vars) w dir extension false).result =
              ⟨loaded, [], some (.load e)⟩) := by
  constructor
  · intro e hfind collect
    have hfiles : files (ε := Empty) w dir extension = .error (.find e) := by
      rw [files, hdir, hfind]
      rfl
    rw [walk, hfiles]
  · intro fs hfind
    obtain ⟨specs, errors, hsorts⟩ := exists_sorts c w dir fs
    refine ⟨nodup_find hdir hfind, specs, errors, hsorts, fun s hs => ?_, ?_, ?_⟩
    · obtain ⟨hmem, hrelative, hloads⟩ := hsorts.of_mem hs
      rw [hrelative]
      exact ⟨eq_below_of_mem_find hdir hfind hmem, hloads.source_eq⟩
    · rw [walk_of_find hdir hfind]
      exact hsorts.walkFiles_collecting
    · rw [walk_of_find hdir hfind]
      exact hsorts.walkFiles_stopping

theorem walk_sorts_or_stops_troubled :
    troubled.isDir ⟨.relative, ["s"]⟩ = .ok true ∧
    ∃ specs errors,
      (walk (Conventions.reading {} []) troubled ⟨.relative, ["s"]⟩ "txt" true).result =
        ⟨specs, errors, none⟩ ∧
      specs.map Found.relative = [⟨.relative, ["a.txt"]⟩, ⟨.relative, ["d.txt"]⟩] ∧
      errors.map Prod.fst = [⟨.relative, ["s", "b.txt"]⟩, ⟨.relative, ["s", "c.txt"]⟩] ∧
      ∃ loaded e,
        (walk (Conventions.reading {} []) troubled ⟨.relative, ["s"]⟩ "txt" false).result =
          ⟨loaded, [], some (.load e)⟩ ∧
        loaded.map Found.relative = [⟨.relative, ["a.txt"]⟩] ∧
        errors.head? = some (⟨.relative, ["s", "b.txt"]⟩, e) := by
  have hdir : troubled.isDir ⟨.relative, ["s"]⟩ = .ok true := by decide +kernel
  obtain ⟨-, specs, errors, -, -, hcollecting, hstopping⟩ :=
    (walk_sorts_or_stops {} [] "txt" hdir).2 _ find_troubled
  have hwalk : ∀ collect, walk (Conventions.reading {} []) troubled ⟨.relative, ["s"]⟩ "txt"
      collect = walkFiles _ _ _ _ _ := fun collect => walk_of_find hdir find_troubled
  have hspecs : specs.map Found.relative =
      [⟨.relative, ["a.txt"]⟩, ⟨.relative, ["d.txt"]⟩] := by
    refine (congrArg (fun r : Walk Empty => r.specs.map Found.relative) hcollecting).symm.trans ?_
    rw [hwalk]
    decide +kernel
  have herrors : errors.map Prod.fst =
      [⟨.relative, ["s", "b.txt"]⟩, ⟨.relative, ["s", "c.txt"]⟩] := by
    refine (congrArg (fun r : Walk Empty => r.errors.map Prod.fst) hcollecting).symm.trans ?_
    rw [hwalk]
    decide +kernel
  refine ⟨hdir, specs, errors, hcollecting, hspecs, herrors, ?_⟩
  rcases hstopping with ⟨rfl, -⟩ | ⟨_, f, _, loaded, e, later, -, -, rfl, -, hended⟩
  · cases herrors
  · obtain rfl := (List.cons.inj herrors).1
    refine ⟨loaded, e, hended, ?_, rfl⟩
    refine (congrArg (fun r : Walk Empty => r.specs.map Found.relative) hended).symm.trans ?_
    rw [hwalk]
    decide +kernel

end LineSpec.Survey
