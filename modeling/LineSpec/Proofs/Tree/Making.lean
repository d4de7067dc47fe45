import LineSpec.Proofs.Tree.Directories
import Mathlib.Data.List.Infix
/-!
# What making directories and writing a file leaves

Making a directory and those above it looks for the innermost one first and turns back where one
above it is missing. Where that succeeds it leaves what the plain way would: from the outside in,
each directory that is missing is made (`ensureDirs_eq_ok`). So a file that is written behind it
stands in the workspace with these directories, and nothing else is other than before
(`write_ensureDirs_eq_ok`).
-/

namespace LineSpec

namespace Path

/-- The paths above a path and the path itself, from the outside in. -/
def chain (p : Path) : List Path := p.parts.inits.map fun parts => ⟨p.root, parts⟩

theorem chain_concat (root : Root) (parts : List Text) (part : Text) :
    chain ⟨root, parts ++ [part]⟩ = chain ⟨root, parts⟩ ++ [⟨root, parts ++ [part]⟩] := by
  simp [chain, List.inits_append]

theorem mem_chain_iff {p q : Path} : q ∈ p.chain ↔ q.IsAbove p := by
  obtain ⟨root, parts⟩ := q
  simp only [chain, List.mem_map, List.mem_inits, mk.injEq, IsAbove]
  constructor
  · rintro ⟨_, hprefix, hroot, rfl⟩
    exact ⟨hroot.symm, hprefix⟩
  · rintro ⟨hroot, hprefix⟩
    exact ⟨parts, hprefix, hroot.symm, rfl⟩

end Path

namespace Workspace

variable {w w' w'' : Workspace} {p q : Path}

/-- The workspace with a directory where a path leads to nothing yet. -/
def withDir (w : Workspace) (p : Path) : Workspace :=
  match w.locate p with
  | .ok (.free loc) => w.put loc .dir
  | _ => w

/-- The workspace with the directories above a path and at it, each of which is made where it is
missing. -/
def withDirs (w : Workspace) (p : Path) : Workspace := p.chain.foldl withDir w

/-- The workspace with a file at a path, and with the directories above it. -/
def withFile (w : Workspace) (p : Path) (content : List UInt8) : Workspace :=
  (w.withDirs p.parent).withContent (w.resolved p) content

theorem withDirs_concat (w : Workspace) (root : Path.Root) (parts : List Text) (part : Text) :
    w.withDirs ⟨root, parts ++ [part]⟩ =
      (w.withDirs ⟨root, parts⟩).withDir ⟨root, parts ++ [part]⟩ := by
  rw [withDirs, Path.chain_concat, List.foldl_append]
  rfl

/-! ## Directories that are there -/

theorem withDir_of_ne_free (h : ∀ loc, w.locate p ≠ .ok (.free loc)) : w.withDir p = w := by
  rw [withDir]
  split
  next loc hfree => exact absurd hfree (h loc)
  · rfl

theorem foldl_withDir_of_ne_free {qs : List Path}
    (h : ∀ q ∈ qs, ∀ loc, w.locate q ≠ .ok (.free loc)) : qs.foldl withDir w = w := by
  induction qs with
  | nil => rfl
  | cons q qs ih =>
    obtain ⟨hq, hqs⟩ := List.forall_mem_cons.1 h
    rw [List.foldl_cons, withDir_of_ne_free hq, ih hqs]

/-- A path that goes on to a place does not lead to a free one before. -/
theorem locate_ne_free_of_isAbove {place : Place} (h : w.locate p = .ok place) (hq : q.IsAbove p)
    (hne : q ≠ p) (loc : Location) : w.locate q ≠ .ok (.free loc) := by
  intro hfree
  obtain ⟨hroot, names, hparts⟩ := hq
  have hnames : names ≠ [] := by
    rintro rfl
    rw [List.append_nil] at hparts
    obtain ⟨root, parts⟩ := q
    exact hne (by cases hroot; cases hparts; rfl)
  have horigin : w.origin p = w.origin q := by rw [origin, origin, hroot]
  have hfollows := follows_of_locate h
  rw [horigin, ← hparts] at hfollows
  obtain ⟨loc', hdir, -⟩ := hfollows.exists_of_append hnames
  cases hdir.follow_eq.symm.trans (follows_of_locate hfree).follow_eq

/-- Where a path leads to a place, only that place can be missing on the way. -/
theorem withDirs_of_locate {place : Place} (h : w.locate p = .ok place) :
    w.withDirs p = w.withDir p := by
  obtain ⟨root, parts⟩ := p
  obtain rfl | ⟨parts, part, rfl⟩ := List.eq_nil_or_concat' parts
  · rfl
  · rw [withDirs_concat]
    congr 1
    refine foldl_withDir_of_ne_free fun q hq => locate_ne_free_of_isAbove h ?_ ?_
    · obtain ⟨hroot, hprefix⟩ := Path.mem_chain_iff.1 hq
      exact ⟨hroot, hprefix.trans (List.prefix_append _ _)⟩
    · rintro rfl
      have hle := (Path.mem_chain_iff.1 hq).2.length_le
      rw [List.length_append] at hle
      exact absurd hle (by simp)

theorem withDirs_of_locate_dir {loc : Location} (h : w.locate p = .ok (.taken loc .dir)) :
    w.withDirs p = w := by
  rw [withDirs_of_locate h]
  exact withDir_of_ne_free fun loc' hfree => by cases h.symm.trans hfree

/-! ## Directories that are made -/

theorem makeDir_eq_ok (h : w.makeDir p = (w', .ok ())) :
    ∃ loc, w.locate p = .ok (.free loc) ∧ w' = w.put loc .dir := by
  rw [makeDir] at h
  split at h
  · cases h
  · cases h
  next loc hfree => exact ⟨loc, hfree, (congrArg Prod.fst h).symm⟩

theorem eq_of_makeDir_eq_error {e : AccessError} (h : w.makeDir p = (w', .error e)) : w' = w := by
  rw [makeDir] at h
  split at h
  · exact (congrArg Prod.fst h).symm
  · exact (congrArg Prod.fst h).symm
  · cases congrArg Prod.snd h

theorem withDir_of_makeDir (h : w.makeDir p = (w', .ok ())) : w' = w.withDir p := by
  obtain ⟨loc, hfree, rfl⟩ := makeDir_eq_ok h
  rw [withDir, hfree]

theorem ensureDir_eq_ok (h : w.ensureDir p = (w', .ok ())) : w' = w.withDir p := by
  rw [ensureDir] at h
  split at h
  next w₁ hmake =>
    obtain rfl := congrArg Prod.fst h
    exact withDir_of_makeDir hmake
  · cases congrArg Prod.snd h
  next w₁ e _ hmake =>
    obtain ⟨rfl, hforgive⟩ := Prod.mk.inj h
    obtain rfl := eq_of_makeDir_eq_error hmake
    obtain ⟨loc, hdir⟩ := exists_locate_of_forgive hforgive
    exact (withDir_of_ne_free fun loc' hfree => by cases hdir.symm.trans hfree).symm

theorem ensureDirsFrom_eq_ok {root : Path.Root} {parts : List Text}
    (h : w.ensureDirsFrom root parts = (w', .ok ())) : w' = w.withDirs ⟨root, parts.reverse⟩ := by
  induction parts generalizing w' with
  | nil => exact ensureDir_eq_ok h
  | cons part parts ih =>
    rw [ensureDirsFrom] at h
    split at h
    next w₁ hmake =>
      obtain rfl := congrArg Prod.fst h
      obtain ⟨loc, hfree, -⟩ := makeDir_eq_ok hmake
      rw [withDirs_of_locate hfree]
      exact withDir_of_makeDir hmake
    next w₁ path hmake =>
      -- one above it is missing: these are made, and then the directory again
      obtain rfl := eq_of_makeDir_eq_error hmake
      split at h
      next w₂ habove =>
        rw [List.reverse_cons] at h ⊢
        rw [withDirs_concat, ← ih habove]
        exact ensureDir_eq_ok h
      · cases congrArg Prod.snd h
    next w₁ e _ hmake =>
      obtain ⟨rfl, hforgive⟩ := Prod.mk.inj h
      obtain rfl := eq_of_makeDir_eq_error hmake
      obtain ⟨loc, hdir⟩ := exists_locate_of_forgive hforgive
      exact (withDirs_of_locate_dir hdir).symm

/-- Where making a directory and those above it succeeds, it leaves the workspace with each of them
that was missing, and nothing else. -/
theorem ensureDirs_eq_ok (h : w.ensureDirs p = (w', .ok ())) : w' = w.withDirs p := by
  have hdirs := ensureDirsFrom_eq_ok h
  rwa [List.reverse_reverse] at hdirs

/-- Where the directories above a file can be made and the file can be written, that leaves the
workspace with the file and these directories. -/
theorem write_ensureDirs_eq_ok {content : List UInt8}
    (hdirs : w.ensureDirs p.parent = (w', .ok ())) (hfile : w'.write p content = (w'', .ok ())) :
    w'' = w.withFile p content := by
  have hhome : w'.home = w.home := by
    have hkeeps := w.keeps_ensureDirs p.parent
    rw [hdirs] at hkeeps
    exact hkeeps.home
  rw [(write_eq_ok hfile).1, resolved_eq hhome, ensureDirs_eq_ok hdirs, withFile]

end Workspace

end LineSpec
