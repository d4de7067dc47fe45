import LineSpec.Proofs.Check.Listing
import LineSpec.Proofs.Check.Outcome
import LineSpec.Proofs.Text.Surrogate
/-!
# When a check comes back with an outcome

The problems of a file are failures, and the check goes on. Only a path that no file can have ends
the check of an item, and with it the whole check. So the check of a directory comes back with an
outcome exactly when the directory can be listed and each item that declares the parameter gives a
path that a file can have (`directory_returns_iff`). One item that does not loses the outcome of all
files.
-/

namespace LineSpec

/-! ## Paths that a file can have -/

/-- A file can have a path that holds neither U+0000 nor a surrogate, except for those that stand
for an octet. -/
def Path.Nameable (p : Path) : Prop :=
  ∀ c ∈ p.text, c ≠ '\x00' ∧ (c.isSurrogate = true → Text.isOctetMark c = true)

theorem Path.nameable_iff {p : Path} :
    p.Nameable ↔ Text.Unencodable.inName? p.text = none ∧ ¬p.text.contains '\x00' := by
  rw [Nameable, Text.Unencodable.inName?, Text.Unencodable.first?_eq_none_iff,
    List.contains_iff_mem]
  simp only [Bool.or_eq_true, Bool.not_eq_true']
  constructor
  · intro h
    refine ⟨fun c hc => ?_, fun hmem => (h _ hmem).1 rfl⟩
    cases hs : c.isSurrogate with
    | false => exact .inl rfl
    | true => exact .inr ((h c hc).2 hs)
  · rintro ⟨hmarks, hnul⟩ c hc
    refine ⟨fun heq => hnul (heq ▸ hc), fun hs => ?_⟩
    exact (hmarks c hc).resolve_left (by simp [hs])

instance (p : Path) : Decidable p.Nameable := decidable_of_iff _ p.nameable_iff.symm

namespace Workspace

variable {w : Workspace} {p : Path}

/-- A file can have a path exactly when following it is not refused, or for a cause that the
operating system gives. -/
theorem nameable_iff_locate :
    p.Nameable ↔ ∀ e, w.locate p = .error e → ∃ cause path, e = .os cause path := by
  rw [Path.nameable_iff]
  constructor
  · rintro ⟨hencodable, hnul⟩ e he
    rw [locate, find, hencodable] at he
    simp only [if_neg hnul] at he
    split at he
    · exact ⟨_, _, (Except.error.inj he).symm⟩
    · cases hfollow : follow w.tree (if p.root = .relative then w.home else []) p.parts with
      | error cause =>
        rw [hfollow] at he
        exact ⟨_, _, (Except.error.inj he).symm⟩
      | ok place =>
        rw [hfollow] at he
        cases he
  · intro h
    have hencodable : Text.Unencodable.inName? p.text = none := by
      cases hfirst : Text.Unencodable.inName? p.text with
      | none => rfl
      | some e =>
        obtain ⟨_, _, he⟩ := h (.unencodable e) (by rw [locate, find, hfirst])
        cases he
    refine ⟨hencodable, fun hnul => ?_⟩
    obtain ⟨_, _, he⟩ := h .nulInPath (by rw [locate, find, hencodable]; exact if_pos hnul)
    cases he

theorem nameable_of_locate {place : Place} (h : w.locate p = .ok place) : p.Nameable := by
  rw [nameable_iff_locate (w := w)]
  intro e he
  rw [h] at he
  cases he

/-- Reading a file adds only causes that the operating system gives. -/
theorem nameable_iff_read :
    p.Nameable ↔ ∀ e, w.read p = .error e → ∃ cause path, e = .os cause path := by
  rw [nameable_iff_locate (w := w)]
  refine forall_congr' fun e => ?_
  constructor
  · intro h he
    rw [read] at he
    split at he
    next hlocate =>
      obtain rfl := Except.error.inj he
      exact h hlocate
    · exact ⟨_, _, (Except.error.inj he).symm⟩
    · split at he
      · split at he
        · exact ⟨_, _, (Except.error.inj he).symm⟩
        · cases he
        · cases he
      · exact ⟨_, _, (Except.error.inj he).symm⟩
  · intro h he
    exact h (by rw [read, he])

end Workspace

/-! ## Checks that come back -/

namespace Check

variable {w : Workspace}

/-- What a run of the matcher says is never a reason to end a check. -/
theorem exists_problemOf_eq_ok (strictEnd : Bool) (body : Body) (target : Path)
    (fault : Option Text.Utf8.Fault) (verdict : Match.Verdict (PlaceholderError ⊕ Empty)) :
    ∃ p, problemOf strictEnd body target fault verdict = .ok p := by
  unfold problemOf
  split
  · exact ⟨_, rfl⟩
  · split
    · exact ⟨_, rfl⟩
    · exact ⟨_, rfl⟩
    · exact ⟨_, rfl⟩
    next e _ => exact e.elim

/-- The check of an item comes to an end exactly when a file can have the path that it gives. -/
theorem exists_item_eq_ok_iff {r : Reading Empty} {body : Body} {target : Path} :
    (∃ p, (item r w body target).result = .ok p) ↔ target.Nameable := by
  rw [Workspace.nameable_iff_read (w := w), item]
  cases w.read target with
  | error e =>
    cases e with
    | nulInPath | unencodable e =>
      constructor
      · rintro ⟨p, hp⟩
        cases hp
      · intro h
        obtain ⟨_, _, he⟩ := h _ rfl
        cases he
    | os cause path =>
      refine iff_of_true ?_ fun e he => ⟨cause, path, (Except.error.inj he).symm⟩
      cases cause <;> exact ⟨_, rfl⟩
  | ok content =>
    refine iff_of_true ?_ fun e he => ?_
    · exact exists_problemOf_eq_ok ..
    · cases he

/-- Each item in a specification that can be loaded gives a path that a file can have. -/
def NamesFiles (r : Reading Empty) (w : Workspace) (root : Path) (param : Text) (f : Path) : Prop :=
  ∀ d, (Survey.loadFile r w f).result = .ok d →
    ∀ t ∈ d.declaring param, (root.child t.2).Nameable

instance (r : Reading Empty) (w : Workspace) (root : Path) (param : Text) (f : Path) :
    Decidable (NamesFiles r w root param f) :=
  match h : (Survey.loadFile r w f).result with
  | .ok d => decidable_of_iff (∀ t ∈ d.declaring param, (root.child t.2).Nameable)
      ⟨fun hd _ hd' => Except.ok.inj (h.symm.trans hd') ▸ hd, fun hd => hd d h⟩
  | .error _ => isTrue fun _ hd => nomatch h.symm.trans hd

/-- The check of a directory that exists comes back with an outcome exactly when the directory can
be listed and all items in its specifications give paths that a file can have. The outcome is then
the sum of those of the specifications, each with a failure of its own for what is wrong with it. -/
theorem directory_returns_iff (c : Conventions) (vars : Bindings Text) (w : Workspace) (dir : Path)
    (extension : Text) (root : Option Path) (param : Text) (jobs : Int)
    (hdir : w.isDir dir = .ok true) (hslash : ('/' : CodePoint) ∉ extension)
    (hstar : ('*' : CodePoint) ∉ extension) :
    ((∃ o, (directory (c.reading vars) w dir extension root param jobs).result = .ok o) ↔
      Survey.Listable w dir extension ∧ ∀ fs, Survey.find w dir extension = .ok fs →
        ∀ f ∈ fs, NamesFiles (c.reading vars) w (root.getD dir) param f) ∧
    ∀ o, (directory (c.reading vars) w dir extension root param jobs).result = .ok o →
      ∃ fs, Survey.find w dir extension = .ok fs ∧
        o = total (fs.map (ofFile (c.reading vars) w (root.getD dir) param)) := by
  have hreturns : ∀ o, (directory (c.reading vars) w dir extension root param jobs).result = .ok o ↔
      ∃ fs, Survey.find w dir extension = .ok fs ∧
        (∀ f ∈ fs, NamesFiles (c.reading vars) w (root.getD dir) param f) ∧
        o = total (fs.map (ofFile (c.reading vars) w (root.getD dir) param)) := by
    intro o
    simp only [directory_eq_ok_iff, Survey.files_eq_ok_iff hdir, exists_item_eq_ok_iff, NamesFiles]
  refine ⟨?_, fun o ho => ?_⟩
  · rw [← Survey.exists_find_eq_ok_iff hdir hslash hstar]
    constructor
    · rintro ⟨o, ho⟩
      obtain ⟨fs, hfs, hnames, -⟩ := (hreturns o).1 ho
      refine ⟨⟨fs, hfs⟩, fun fs' hfs' => ?_⟩
      obtain rfl := Except.ok.inj (hfs.symm.trans hfs')
      exact hnames
    · rintro ⟨⟨fs, hfs⟩, hnames⟩
      exact ⟨_, (hreturns _).2 ⟨fs, hfs, hnames fs hfs, rfl⟩⟩
  · obtain ⟨fs, hfs, -, ho⟩ := (hreturns o).1 ho
    exact ⟨fs, hfs, ho⟩

theorem directory_returns_troubled :
    Survey.troubled.isDir ⟨.relative, ["s"]⟩ = .ok true ∧
    ('/' : CodePoint) ∉ ("txt" : Text) ∧ ('*' : CodePoint) ∉ ("txt" : Text) ∧
    ∃ o, (directory (Conventions.reading {} []) Survey.troubled ⟨.relative, ["s"]⟩ "txt" none "file"
        1).result = .ok o ∧
      o.checked = 3 ∧
      o.failures.map (·.specFile) = ["s/a.txt", "s/b.txt", "s/c.txt", "s/d.txt"] := by
  have hdir : Survey.troubled.isDir ⟨.relative, ["s"]⟩ = .ok true := by decide +kernel
  have hslash : ('/' : CodePoint) ∉ ("txt" : Text) := by decide
  have hstar : ('*' : CodePoint) ∉ ("txt" : Text) := by decide
  obtain ⟨hreturns, htotal⟩ := directory_returns_iff {} [] Survey.troubled ⟨.relative, ["s"]⟩ "txt"
    none "file" 1 hdir hslash hstar
  obtain ⟨o, ho⟩ := hreturns.2 ⟨by decide +kernel, fun fs hfs => by
    obtain rfl := Except.ok.inj (Survey.find_troubled.symm.trans hfs)
    decide +kernel⟩
  obtain ⟨fs, hfs, hsum⟩ := htotal o ho
  obtain rfl := Except.ok.inj (Survey.find_troubled.symm.trans hfs)
  refine ⟨hdir, hslash, hstar, o, ho, ?_⟩
  rw [hsum]
  decide +kernel

/-- No file can have the path of the one item in this workspace. -/
def misnamed : Workspace where
  tree.entries := [(["s"], .dir),
    (["s", "a.txt"], .file (Text.Utf8.encode "## file: a\x00b\nx\n".toList))]

/-- The check of a directory that exists need not come back with an outcome: the name that an item
gives ends it. -/
theorem directory_misnamed_escapes :
    misnamed.isDir ⟨.relative, ["s"]⟩ = .ok true ∧
    (directory (Conventions.reading {} []) misnamed ⟨.relative, ["s"]⟩ "txt" none "file" 1).result =
      .error (.escape (.access .nulInPath)) := by
  have hdir : misnamed.isDir ⟨.relative, ["s"]⟩ = .ok true := by decide +kernel
  have hfind : Survey.find misnamed ⟨.relative, ["s"]⟩ "txt" =
      .ok [⟨.relative, ["s", "a.txt"]⟩] := by
    apply Survey.find_eq_ok_of_pairwise hdir
    · decide
    · decide
    · decide +kernel
    · decide +kernel
    · decide
  refine ⟨hdir, ?_⟩
  rw [directory, (Survey.files_eq_ok_iff hdir).2 hfind]
  decide +kernel

end Check

end LineSpec
