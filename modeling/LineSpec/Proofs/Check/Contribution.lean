import LineSpec.Proofs.Check.Listed
import LineSpec.Proofs.Check.Loading
import LineSpec.Proofs.Check.Return
import Mathlib.Algebra.Ring.Int.Defs
/-!
# What each file contributes

The outcome of checking a directory is put together from what its specification files contribute, in
the order of their paths (`directory_concatenates`). A file that cannot be loaded contributes one
failure and nothing that was checked; a file that can be loaded contributes what the check of its
document brings, which is one failure for each item with a problem.

What a file contributes depends on the file and on the files that its items are about. So a change
of another file does not matter to it, unless one of its items is about the changed file. There is
one more way: a file that is new, or gone, also matters to a path that goes on below it as if it
were a directory, because such a path is missing before and is not one of a directory after
(`ofFile_differs_below_new_file`).
-/

namespace LineSpec.Check

variable {w w' : Workspace} {root : Path} {param : Text} {jobs : Int} {f : Path} {loc : Location}

/-! ## Contributions -/

/-- Outcomes together count what each of them counts, and their failures follow each other. -/
theorem total_map {α : Type} (g : α → Outcome) (l : List α) :
    total (l.map g) = ⟨(l.map fun a => (g a).checked).sum, l.flatMap fun a => (g a).failures⟩ := by
  induction l with
  | nil => rfl
  | cons a l ih =>
    rw [List.map_cons, total_cons, ih, Outcome.append, List.map_cons, List.sum_cons,
      List.flatMap_cons]

/-- The items of a document bring one failure for each of them that has a problem. -/
theorem ofItems_eq (r : Reading Empty) (w : Workspace) (root : Path) (param : Text)
    (d : Document) :
    ofItems r w root param d =
      ⟨(d.declaring param).length, (d.declaring param).filterMap fun t =>
        (problem? r w root t).map fun p => ⟨nameOf d, t.1.line, t.2, p⟩⟩ := by
  rw [ofItems, total_map, List.filterMap_eq_flatMap_toList]
  simp [ofItem]

/-- The items of a specification file that declare the parameter, with their values. A file that
cannot be loaded has none. -/
def itemsOf (r : Reading Empty) (w : Workspace) (param : Text) (f : Path) : List (Item × Text) :=
  match (Survey.loadFile r w f).result with
  | .ok d => d.declaring param
  | .error _ => []

variable {c : Conventions} {vars : Bindings Text}

/-- `Contributes c vars w root param jobs f o`: the specification file `f` contributes `o`. -/
inductive Contributes (c : Conventions) (vars : Bindings Text) (w : Workspace) (root : Path)
    (param : Text) (jobs : Int) (f : Path) : Outcome → Prop
  /-- A file that may not be read. -/
  | unreadable {cause : OsError} {path : Text} (read : w.read f = .error (.os cause path)) :
      Contributes c vars w root param jobs f
        ⟨0, [⟨f.text, 0, [], .targetUnreadable f.text cause.reason⟩]⟩
  /-- A file that is no text. -/
  | undecodable {fault : Text.Utf8.Fault} (chars : w.readChars f = .error (.inr fault)) :
      Contributes c vars w root param jobs f
        ⟨0, [⟨f.text, 0, [], .targetUnreadable f.text fault.message⟩]⟩
  /-- A file that cannot be parsed, with the line at which it is wrong. -/
  | unparsed {cs : List Char} {e : ParseError} (chars : w.readChars f = .ok cs)
      (parse : Document.parse c (some f.text) (Text.ofChars cs) = .error e) :
      Contributes c vars w root param jobs f ⟨0, [⟨f.text, e.number, [], .parse e⟩]⟩
  /-- A file that can be parsed contributes what the check of its document brings: a failure for
  each item that declares the parameter and has a problem. -/
  | parsed {cs : List Char} {d : Document} {o : Outcome} (chars : w.readChars f = .ok cs)
      (parse : Document.parse c (some f.text) (Text.ofChars cs) = .ok d)
      (check : (document (c.reading vars) w d root param jobs).result = .ok o)
      (checked : o.checked = (d.declaring param).length)
      (items : ∀ t ∈ d.declaring param, (item (c.reading vars) w t.1.body (root.child t.2)).result =
        .ok (problem? (c.reading vars) w root t))
      (failures : o.failures = (d.declaring param).filterMap fun t =>
        (problem? (c.reading vars) w root t).map fun p => ⟨nameOf d, t.1.line, t.2, p⟩) :
      Contributes c vars w root param jobs f o

/-- A file contributes its outcome, where the checks of its items come to an end. -/
theorem contributes_ofFile (hname : f.Nameable)
    (hitems : ∀ d, (Survey.loadFile (c.reading vars) w f).result = .ok d →
      ∀ t ∈ d.declaring param,
        ∃ p, (item (c.reading vars) w t.1.body (root.child t.2)).result = .ok p) :
    Contributes c vars w root param jobs f (ofFile (c.reading vars) w root param f) := by
  rw [ofFile]
  cases hload : (Survey.loadFile (c.reading vars) w f).result with
  | error e =>
    cases Survey.loadFile_eq_error_iff.1 hload with
    | unreadable hchars =>
      have hread := Workspace.readChars_eq_error_inl_iff.1 hchars
      obtain ⟨cause, path, rfl⟩ := Workspace.nameable_iff_read.1 hname _ hread
      exact .unreadable hread
    | undecodable hchars => exact .undecodable hchars
    | unparsed hchars hparse => exact .unparsed hchars hparse
  | ok d =>
    obtain ⟨cs, hchars, hparse⟩ := Survey.loadFile_eq_ok_iff.1 hload
    change Contributes c vars w root param jobs f (ofItems (c.reading vars) w root param d)
    refine .parsed hchars hparse (document_eq_ok_iff.2 ⟨hitems d hload, rfl⟩) ?_
      (fun t ht => result_eq_ok_problem? (hitems d hload t ht)) ?_
    · rw [ofItems_eq]
    · rw [ofItems_eq]

/-- What the files of a directory contribute to the outcome of its check. -/
theorem contributes_of_directory {dir : Path} {extension : Text} {root : Option Path} {o : Outcome}
    (hdir : w.isDir dir = .ok true)
    (h : (directory (c.reading vars) w dir extension root param jobs).result = .ok o) :
    ∃ fs, Survey.find w dir extension = .ok fs ∧
      o = total (fs.map (ofFile (c.reading vars) w (root.getD dir) param)) ∧
      ∀ f ∈ fs, Contributes c vars w (root.getD dir) param jobs f
        (ofFile (c.reading vars) w (root.getD dir) param f) := by
  obtain ⟨fs, hfiles, hitems, ho⟩ := directory_eq_ok_iff.1 h
  have hfind := (Survey.files_eq_ok_iff hdir).1 hfiles
  refine ⟨fs, hfind, ho, fun f hf => ?_⟩
  obtain ⟨l, content, hplace⟩ := Survey.locate_of_mem_find hdir hfind hf
  exact contributes_ofFile (Workspace.nameable_of_locate hplace) (hitems f hf)

/-! ## After a change -/

theorem item_eq_of_read {ε : Type} {r : Reading ε} {body : Body} {target : Path}
    (h : w'.read target = w.read target) : item r w' body target = item r w body target := by
  rw [item, item, h]

theorem loadFile_eq_of_read {ε : Type} {r : Reading ε} (h : w'.read f = w.read f) :
    Survey.loadFile r w' f = Survey.loadFile r w f := by
  rw [Survey.loadFile, Survey.loadFile, Workspace.readChars, Workspace.readChars, h]

/-- What a file contributes depends only on the file and on the files that its items are about. -/
theorem ofFile_eq_of_read {r : Reading Empty} (hfile : w'.read f = w.read f)
    (htargets : ∀ t ∈ itemsOf r w param f,
      w'.read (root.child t.2) = w.read (root.child t.2)) :
    ofFile r w' root param f = ofFile r w root param f := by
  rw [itemsOf] at htargets
  rw [ofFile, ofFile, loadFile_eq_of_read hfile]
  cases hload : (Survey.loadFile r w f).result with
  | error e => rfl
  | ok d =>
    rw [hload] at htargets
    change ofItems r w' root param d = ofItems r w root param d
    rw [ofItems, ofItems]
    refine congrArg total (List.map_congr_left fun t ht => ?_)
    rw [ofItem, ofItem, problem?, problem?, item_eq_of_read (htargets t ht)]

/-- The outcome of checking a directory is put together from what its files contribute, in order. A
change at one location leaves the other files as they are listed, and what each of them contributes
if the paths that its items are about are clear of the change. -/
theorem directory_concatenates (c : Conventions) (vars : Bindings Text) (w : Workspace) (dir : Path)
    (extension : Text) (root : Option Path) (param : Text) (jobs : Int) (o : Outcome)
    (hcheck : (directory (c.reading vars) w dir extension root param jobs).result = .ok o) :
    ∃ fs, Survey.find w dir extension = .ok fs ∧
      (∀ f ∈ fs, Contributes c vars w (root.getD dir) param jobs f
        (ofFile (c.reading vars) w (root.getD dir) param f)) ∧
      o.checked =
        (fs.map fun f => (ofFile (c.reading vars) w (root.getD dir) param f).checked).sum ∧
      o.failures =
        fs.flatMap (fun f => (ofFile (c.reading vars) w (root.getD dir) param f).failures) ∧
      ∀ loc w' o', w.AgreeOff loc w' →
        (directory (c.reading vars) w' dir extension root param jobs).result = .ok o' →
        ∃ fs', Survey.find w' dir extension = .ok fs' ∧
          fs'.filter (w'.destination · ≠ some loc) = fs.filter (w.destination · ≠ some loc) ∧
          ∀ f ∈ fs, w.destination f ≠ some loc →
            (∀ t ∈ itemsOf (c.reading vars) w param f,
              Workspace.Clear loc w w' ((root.getD dir).child t.2)) →
            ofFile (c.reading vars) w' (root.getD dir) param f =
              ofFile (c.reading vars) w (root.getD dir) param f := by
  obtain ⟨fs, hfiles, hitems, rfl⟩ := directory_eq_ok_iff.1 hcheck
  obtain ⟨hdir, hfind⟩ := Survey.files_eq_ok hfiles
  rw [total_map]
  refine ⟨fs, hfind, fun f hf => ?_, rfl, rfl, ?_⟩
  · obtain ⟨l, content, hplace⟩ := Survey.locate_of_mem_find hdir hfind hf
    exact contributes_ofFile (Workspace.nameable_of_locate hplace) (hitems f hf)
  · intro loc w' o' hagree hcheck'
    obtain ⟨fs', hfiles', -, -⟩ := directory_eq_ok_iff.1 hcheck'
    obtain ⟨hdir', hfind'⟩ := Survey.files_eq_ok hfiles'
    refine ⟨fs', hfind', Survey.find_agreeOff hagree hdir hfind hdir' hfind', ?_⟩
    intro f hf hne hclear
    -- the file itself is listed, so it stands somewhere; its targets need not
    obtain ⟨l, content, hplace⟩ := Survey.locate_of_mem_find hdir hfind hf
    have hl : l ≠ loc := Workspace.location_ne_of_destination_ne hplace hne
    have hfile : w'.read f = w.read f := by
      refine Workspace.read_congr ((hagree.locate_file hplace hl).trans hplace.symm) ?_
      intro l' _ hplace'
      cases hplace.symm.trans hplace'
      exact hagree.rights l hl
    exact ofFile_eq_of_read hfile fun t ht => hagree.read_eq (hclear t ht)

/-! ## Workspaces with a change -/

/-- The check of a directory whose listed files name only files comes back with what they
contribute. -/
theorem directory_eq_ok_total (r : Reading Empty) (param : Text) (jobs : Int) {dir : Path}
    {extension : Text} {fs : List Path} (hdir : w.isDir dir = .ok true)
    (hfind : Survey.find w dir extension = .ok fs) (hnames : ∀ f ∈ fs, NamesFiles r w dir param f) :
    (directory r w dir extension none param jobs).result =
      .ok (total (fs.map (ofFile r w dir param))) :=
  directory_eq_ok_iff.2 ⟨fs, (Survey.files_eq_ok_iff hdir).2 hfind,
    fun f hf d hd t ht => exists_item_eq_ok_iff.2 (hnames f hf d hd t ht), rfl⟩

/-- The workspace `Survey.troubled` where the specification that cannot be parsed is mended. -/
def mended : Workspace :=
  Survey.troubled.put ["s", "c.txt"] (.file (Text.Utf8.encode "## file: t\nx\n".toList))

theorem directory_concatenates_troubled :
    ∃ o, (directory (Conventions.reading {} []) Survey.troubled ⟨.relative, ["s"]⟩ "txt" none "file"
        1).result = .ok o ∧
      o.failures.map (·.specFile) = ["s/a.txt", "s/b.txt", "s/c.txt", "s/d.txt"] ∧
      Survey.troubled.AgreeOff ["s", "c.txt"] mended ∧
      ∀ f ∈ [(⟨.relative, ["s", "a.txt"]⟩ : Path), ⟨.relative, ["s", "b.txt"]⟩,
          ⟨.relative, ["s", "d.txt"]⟩],
        ofFile (Conventions.reading {} []) mended ⟨.relative, ["s"]⟩ "file" f =
          ofFile (Conventions.reading {} []) Survey.troubled ⟨.relative, ["s"]⟩ "file" f := by
  have hdir : Survey.troubled.isDir ⟨.relative, ["s"]⟩ = .ok true := by decide +kernel
  have hdir' : mended.isDir ⟨.relative, ["s"]⟩ = .ok true := by decide +kernel
  have hfind' : Survey.find mended ⟨.relative, ["s"]⟩ "txt" =
      .ok [⟨.relative, ["s", "a.txt"]⟩, ⟨.relative, ["s", "b.txt"]⟩, ⟨.relative, ["s", "c.txt"]⟩,
        ⟨.relative, ["s", "d.txt"]⟩] := by
    apply Survey.find_eq_ok_of_pairwise hdir'
    · decide
    · decide
    · decide +kernel
    · decide +kernel
    · decide +kernel
  have hagree : Survey.troubled.AgreeOff ["s", "c.txt"] mended :=
    Workspace.agreeOff_put (by decide +kernel) _
  have hcheck := directory_eq_ok_total (Conventions.reading {} []) "file" 1 hdir
    Survey.find_troubled (by decide +kernel)
  have hcheck' := directory_eq_ok_total (Conventions.reading {} []) "file" 1 hdir' hfind'
    (by decide +kernel)
  obtain ⟨fs, hfs, -, -, hfailures, hchange⟩ := directory_concatenates {} [] Survey.troubled
    ⟨.relative, ["s"]⟩ "txt" none "file" 1 _ hcheck
  obtain rfl := Except.ok.inj (Survey.find_troubled.symm.trans hfs)
  obtain ⟨_, -, -, hsame⟩ := hchange _ mended _ hagree hcheck'
  refine ⟨_, hcheck, ?_, hagree, fun f hf => hsame f ?_ ?_ ?_⟩
  · rw [hfailures]
    decide +kernel
  · revert f
    decide +kernel
  · revert f
    decide +kernel
  · revert f
    decide +kernel

/-- A specification whose item is about a path below a file that is not there. -/
def lone : Workspace where
  tree.entries := [(["s"], .dir),
    (["s", "a.txt"], .file (Text.Utf8.encode "## file: b.txt/x\nx\n".toList))]

/-- The workspace `lone` with that file, as a specification of its own. -/
def joined : Workspace :=
  lone.put ["s", "b.txt"] (.file (Text.Utf8.encode "y\n".toList))

/-- A new specification that no item is about can change what another one contributes: the path of
an item that goes on below it was missing, and now is not one of a directory. -/
theorem ofFile_differs_below_new_file :
    lone.AgreeOff ["s", "b.txt"] joined ∧
    Survey.find lone ⟨.relative, ["s"]⟩ "txt" = .ok [⟨.relative, ["s", "a.txt"]⟩] ∧
    Survey.find joined ⟨.relative, ["s"]⟩ "txt" =
      .ok [⟨.relative, ["s", "a.txt"]⟩, ⟨.relative, ["s", "b.txt"]⟩] ∧
    (∀ f ∈ [(⟨.relative, ["s", "a.txt"]⟩ : Path), ⟨.relative, ["s", "b.txt"]⟩],
      ∀ t ∈ itemsOf (Conventions.reading {} []) joined "file" f,
        lone.destination (Path.child ⟨.relative, ["s"]⟩ t.2) ≠
          some (["s", "b.txt"] : Location) ∧
        joined.destination (Path.child ⟨.relative, ["s"]⟩ t.2) ≠
          some (["s", "b.txt"] : Location)) ∧
    (directory (Conventions.reading {} []) lone ⟨.relative, ["s"]⟩ "txt" none "file" 1).result =
      .ok ⟨1, [⟨"s/a.txt", 1, "b.txt/x", .targetMissing "s/b.txt/x"⟩]⟩ ∧
    (directory (Conventions.reading {} []) joined ⟨.relative, ["s"]⟩ "txt" none "file" 1).result =
      .ok ⟨1, [⟨"s/a.txt", 1, "b.txt/x", .targetUnreadable "s/b.txt/x" "Not a directory"⟩]⟩ ∧
    ofFile (Conventions.reading {} []) joined ⟨.relative, ["s"]⟩ "file"
        ⟨.relative, ["s", "a.txt"]⟩ ≠
      ofFile (Conventions.reading {} []) lone ⟨.relative, ["s"]⟩ "file"
        ⟨.relative, ["s", "a.txt"]⟩ := by
  have hdir : lone.isDir ⟨.relative, ["s"]⟩ = .ok true := by decide +kernel
  have hdir' : joined.isDir ⟨.relative, ["s"]⟩ = .ok true := by decide +kernel
  have hfind : Survey.find lone ⟨.relative, ["s"]⟩ "txt" = .ok [⟨.relative, ["s", "a.txt"]⟩] := by
    apply Survey.find_eq_ok_of_pairwise hdir
    · decide
    · decide
    · decide +kernel
    · decide +kernel
    · decide
  have hfind' : Survey.find joined ⟨.relative, ["s"]⟩ "txt" =
      .ok [⟨.relative, ["s", "a.txt"]⟩, ⟨.relative, ["s", "b.txt"]⟩] := by
    apply Survey.find_eq_ok_of_pairwise hdir'
    · decide
    · decide
    · decide +kernel
    · decide +kernel
    · decide +kernel
  refine ⟨Workspace.agreeOff_put (by decide +kernel) _, hfind, hfind', by decide +kernel, ?_, ?_,
    by decide +kernel⟩
  · rw [directory_eq_ok_total _ _ _ hdir hfind (by decide +kernel)]
    decide +kernel
  · rw [directory_eq_ok_total _ _ _ hdir' hfind' (by decide +kernel)]
    decide +kernel

end LineSpec.Check
