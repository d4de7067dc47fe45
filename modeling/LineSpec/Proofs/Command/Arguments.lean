import LineSpec.Command.Request
import LineSpec.Proofs.Steps
import LineSpec.Proofs.Tree.Spelling
/-!
# What a request names

Arguments are strings, so the paths and the extension that a request takes from them hold no
surrogate (`Request.plain_of_ofArguments`).
-/

namespace LineSpec.Command.Request

variable {w : Workspace} {s : String} {p : Path} {a : Arguments} {q : Request}

/-- The paths that a request names, and the extension of specification files, are plain. -/
def Plain : Request → Prop
  | .help | .version | .init => True
  | .check r => (∀ dir ∈ r.specDir, dir.Plain) ∧ (∀ dir ∈ r.root, dir.Plain) ∧
      ∀ extension ∈ r.extension, extension.Plain
  | .parse specFile _ => specFile.Plain
  | .render r => r.specFile.Plain ∧ ∀ dir ∈ r.out, dir.Plain

theorem plain_of_directory (h : directory w s = .ok p) : p.Plain := by
  rw [directory] at h
  split at h
  · cases h
  · obtain rfl := Except.ok.inj h
    exact Path.plain_ofText (Text.plain_ofString s)
  · cases h
  · split at h
    · obtain rfl := Except.ok.inj h
      exact Path.plain_ofText (Text.plain_ofString s)
    · cases h

theorem plain_of_file (h : file w s = .ok p) : p.Plain := by
  rw [file] at h
  split at h
  · cases h
  · cases h
  · cases h
  · split at h
    · obtain rfl := Except.ok.inj h
      exact Path.plain_ofText (Text.plain_ofString s)
    · cases h

theorem plain_of_specFile (h : specFile w a = .ok p) : p.Plain := by
  rw [specFile] at h
  split at h
  · cases h
  · obtain ⟨p', hp', h⟩ := bind_eq_ok_iff.1 h
    split at h
    · obtain rfl := Except.ok.inj h
      exact plain_of_file hp'
    · cases h

theorem plain_of_mapM_directory {o : Option String} {dir : Option Path}
    (h : o.mapM (directory w) = .ok dir) : ∀ p ∈ dir, p.Plain := by
  cases o with
  | none =>
    obtain rfl := Except.ok.inj h
    nofun
  | some s =>
    obtain ⟨p', hp', hdir⟩ := map_eq_ok_iff.1 h
    obtain rfl := hdir
    rintro p hp
    obtain rfl := Option.some.inj hp
    exact plain_of_directory hp'

theorem plain_of_ofCheck (h : ofCheck w a = .ok q) : q.Plain := by
  have hextension : ∀ extension ∈ (a.value? .extension).map Text.ofString, extension.Plain := by
    intro extension hmem
    obtain ⟨s, -, rfl⟩ := Option.map_eq_some_iff.1 hmem
    exact Text.plain_ofString s
  -- without an operand there is no directory of specifications, and with more there is no request
  rw [ofCheck] at h
  split at h
  · obtain ⟨specDir, hspecDir, h⟩ := bind_eq_ok_iff.1 h
    obtain ⟨root, hroot, h⟩ := bind_eq_ok_iff.1 h
    obtain ⟨varsFile, -, h⟩ := bind_eq_ok_iff.1 h
    obtain ⟨jobs, -, h⟩ := bind_eq_ok_iff.1 h
    obtain rfl := Except.ok.inj hspecDir
    obtain rfl := Except.ok.inj h
    exact ⟨nofun, plain_of_mapM_directory hroot, hextension⟩
  · obtain ⟨specDir, hspecDir, h⟩ := bind_eq_ok_iff.1 h
    obtain ⟨root, hroot, h⟩ := bind_eq_ok_iff.1 h
    obtain ⟨varsFile, -, h⟩ := bind_eq_ok_iff.1 h
    obtain ⟨jobs, -, h⟩ := bind_eq_ok_iff.1 h
    obtain rfl := Except.ok.inj h
    refine ⟨fun dir hdir => ?_, plain_of_mapM_directory hroot, hextension⟩
    obtain ⟨p, hp, rfl⟩ := map_eq_ok_iff.1 hspecDir
    obtain rfl := Option.some.inj hdir
    exact plain_of_directory hp
  · obtain ⟨p, -, h⟩ := bind_eq_ok_iff.1 h
    cases h

theorem plain_of_ofRender (h : ofRender w a = .ok q) : q.Plain := by
  rw [ofRender] at h
  obtain ⟨path, hpath, h⟩ := bind_eq_ok_iff.1 h
  obtain ⟨varsFile, -, h⟩ := bind_eq_ok_iff.1 h
  obtain ⟨out, hout, h⟩ := bind_eq_ok_iff.1 h
  obtain rfl := Except.ok.inj h
  exact ⟨plain_of_specFile hpath, plain_of_mapM_directory hout⟩

theorem plain_of_ofCommand {forms : List OptionForm} {build : Arguments → Except Refusal Request}
    {args : List String} (hbuild : ∀ a q, build a = .ok q → q.Plain)
    (h : ofCommand w forms build args = .ok q) : q.Plain := by
  rw [ofCommand] at h
  obtain ⟨a, -, h⟩ := bind_eq_ok_iff.1 h
  split at h
  · obtain rfl := Except.ok.inj h
    trivial
  · obtain ⟨-, -, h⟩ := bind_eq_ok_iff.1 h
    exact hbuild a q h

theorem plain_of_eager? (h : eager? a = some q) : q.Plain := by
  obtain ⟨g, -, hg⟩ := List.exists_of_findSome?_eq_some h
  split at hg
  · obtain rfl := Option.some.inj hg
    trivial
  · obtain rfl := Option.some.inj hg
    trivial
  · cases hg

theorem plain_of_ofName {name : String} {args : List String} (h : ofName w name args = .ok q) :
    q.Plain := by
  unfold ofName at h
  split at h
  · refine plain_of_ofCommand (fun a q hq => ?_) h
    split at hq
    · obtain rfl := Except.ok.inj hq
      trivial
    · cases hq
  · exact plain_of_ofCommand (fun a q => plain_of_ofCheck) h
  · refine plain_of_ofCommand (fun a q hq => ?_) h
    obtain ⟨p, hp, rfl⟩ := map_eq_ok_iff.1 hq
    exact plain_of_specFile hp
  · exact plain_of_ofCommand (fun a q => plain_of_ofRender) h
  · rw [ofUnknown] at h
    split at h
    next a _ =>
      cases heager : eager? a with
      | none =>
        rw [heager] at h
        cases h
      | some q' =>
        rw [heager] at h
        obtain rfl := Except.ok.inj h
        exact plain_of_eager? heager
    · cases h

/-- What a request takes from the arguments is plain. -/
theorem plain_of_ofArguments {args : List String} {verbose : Bool}
    (h : ofArguments w args = .ok (q, verbose)) : q.Plain := by
  rw [ofArguments] at h
  obtain ⟨a, -, h⟩ := bind_eq_ok_iff.1 h
  split at h
  next heager =>
    obtain ⟨rfl, -⟩ := Prod.mk.inj (Except.ok.inj h)
    exact plain_of_eager? heager
  · cases h
  · obtain ⟨q', hq', h⟩ := bind_eq_ok_iff.1 h
    obtain ⟨rfl, -⟩ := Prod.mk.inj (Except.ok.inj h)
    exact plain_of_ofName hq'

end LineSpec.Command.Request
