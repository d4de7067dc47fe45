import LineSpec.Proofs.Check.Listing
import LineSpec.Proofs.Tree.Order
import LineSpec.Proofs.Tree.Selection
import Mathlib.Data.List.Sort
/-!
# Which files are listed

The specifications below a directory are the files that the pattern for the extension leads to and
none of whose names is hidden (`mem_find_iff`), in strict order (`pairwise_find`). Whether a file is
one of them does not depend on the other files, so a change at one location leaves the list of all
files that stand elsewhere as it is (`find_agreeOff`).
-/

namespace LineSpec.Survey

variable {w w' : Workspace} {dir f : Path} {extension : Text} {fs fs' : List Path} {loc : Location}

theorem isSpec_eq_true_iff :
    isSpec w dir f = .ok true ↔
      (∃ l content, w.locate f = .ok (.taken l (.file content))) ∧
        (relative dir f).parts.any isHidden = false := by
  rw [isSpec, map_eq_ok_iff, exists_comm]
  simp only [← Workspace.node?_eq_some_iff]
  constructor
  · rintro ⟨node, hnode, heq⟩
    obtain ⟨hfile, hhidden⟩ := Bool.and_eq_true_iff.1 heq
    refine ⟨?_, by simpa using hhidden⟩
    split at hfile
    next content => exact ⟨content, hnode⟩
    · cases hfile
  · rintro ⟨⟨content, hnode⟩, hhidden⟩
    exact ⟨_, hnode, by simp [hhidden]⟩

theorem files_eq_ok {ε : Type} (h : files (ε := ε) w dir extension = .ok fs) :
    w.isDir dir = .ok true ∧ find w dir extension = .ok fs := by
  have hdir : w.isDir dir = .ok true := by
    rw [files] at h
    cases hisDir : w.isDir dir with
    | error e =>
      rw [hisDir] at h
      cases h
    | ok isDir =>
      cases isDir with
      | true => rfl
      | false =>
        rw [hisDir] at h
        cases h
  exact ⟨hdir, (files_eq_ok_iff hdir).1 h⟩

/-- A file is listed when the pattern for the extension leads to it and no name below the directory
is hidden. -/
theorem mem_find_iff (hdir : w.isDir dir = .ok true) (hfind : find w dir extension = .ok fs) :
    f ∈ fs ↔ (∃ parts, patternOf extension = .ok parts ∧ w.Selects dir parts f) ∧
      (∃ l content, w.locate f = .ok (.taken l (.file content))) ∧
        (relative dir f).parts.any isHidden = false := by
  obtain ⟨parts, hpattern, selected, hselected, found, hfound, rfl⟩ :=
    (find_eq_ok_iff_select hdir).1 hfind
  rw [List.mem_mergeSort, filterM_eq_filter hfound, List.mem_filter, List.mem_eraseDups,
    Workspace.mem_select_iff hselected, ← isSpec_eq_true_iff, hpattern]
  refine and_congr ⟨fun h => ⟨parts, rfl, h⟩, ?_⟩ ?_
  · rintro ⟨_, hparts, h⟩
    cases hparts
    exact h
  · cases isSpec w dir f <;> simp [Except.toOption]

/-- The files are listed in the order of their paths, each of them once. -/
theorem pairwise_find (hdir : w.isDir dir = .ok true) (hfind : find w dir extension = .ok fs) :
    fs.Pairwise fun p q => p.parts < q.parts := by
  obtain ⟨parts, -, selected, hselected, found, hfound, rfl⟩ :=
    (find_eq_ok_iff_select hdir).1 hfind
  rw [filterM_eq_filter hfound]
  have hroot : ∀ p ∈ selected.eraseDups, p.root = dir.root := fun p hp =>
    ((Workspace.mem_select_iff hselected).1 (List.mem_eraseDups.1 hp)).root_eq
  exact Path.pairwise_mergeSort_lt ((nodup_eraseDups selected).filter _)
    fun p hp => hroot p (List.mem_of_mem_filter hp)

theorem nodup_find (hdir : w.isDir dir = .ok true) (hfind : find w dir extension = .ok fs) :
    fs.Nodup := by
  refine (pairwise_find hdir hfind).imp ?_
  rintro f _ hlt rfl
  exact lt_irrefl _ hlt

/-- A listed file is one that can be read. -/
theorem locate_of_mem_find (hdir : w.isDir dir = .ok true)
    (hfind : find w dir extension = .ok fs) (hf : f ∈ fs) :
    ∃ l content, w.locate f = .ok (.taken l (.file content)) :=
  ((mem_find_iff hdir hfind).1 hf).2.1

theorem relative_below (dir : Path) (names : List Text) :
    relative dir (dir.below names) = ⟨.relative, names⟩ := by
  rw [relative, Path.below, List.drop_left]

/-- A listed file is below the directory, where its path leads as seen from there. -/
theorem eq_below_of_mem_find (hdir : w.isDir dir = .ok true)
    (hfind : find w dir extension = .ok fs) (hf : f ∈ fs) :
    f = dir.below (relative dir f).parts := by
  obtain ⟨⟨_, -, hselects⟩, -, -⟩ := (mem_find_iff hdir hfind).1 hf
  obtain ⟨names, hnames⟩ := hselects.parts_prefix
  have hroot := hselects.root_eq
  obtain ⟨root, parts⟩ := f
  obtain rfl : dir.parts ++ names = parts := hnames
  obtain rfl : root = dir.root := hroot
  exact congrArg (fun p : Path => dir.below p.parts) (relative_below dir names).symm

/-! ## After a change -/

section
variable (hagree : w.AgreeOff loc w')
include hagree

/-- A listed file that stands elsewhere is listed after the change, and stands where it stood. -/
theorem mem_find_agreeOff (hdir : w.isDir dir = .ok true) (hfind : find w dir extension = .ok fs)
    (hdir' : w'.isDir dir = .ok true) (hfind' : find w' dir extension = .ok fs') (hf : f ∈ fs)
    (hne : w.destination f ≠ some loc) : f ∈ fs' ∧ w'.destination f ≠ some loc := by
  obtain ⟨⟨parts, hpattern, hselects⟩, ⟨l, content, hplace⟩, hhidden⟩ :=
    (mem_find_iff hdir hfind).1 hf
  have hl : l ≠ loc := Workspace.location_ne_of_destination_ne hplace hne
  have hplace' := hagree.locate_file hplace hl
  have hselects' := hselects.agreeOff hagree hplace hl
  constructor
  · exact (mem_find_iff hdir' hfind').2
      ⟨⟨parts, hpattern, hselects'⟩, ⟨l, content, hplace'⟩, hhidden⟩
  · rwa [Workspace.destination, hplace', ← hplace]

/-- The list of the files that stand elsewhere is the same after the change. -/
theorem find_agreeOff (hdir : w.isDir dir = .ok true) (hfind : find w dir extension = .ok fs)
    (hdir' : w'.isDir dir = .ok true) (hfind' : find w' dir extension = .ok fs') :
    fs'.filter (w'.destination · ≠ some loc) = fs.filter (w.destination · ≠ some loc) := by
  -- lists in strict order are the same when they have the same members
  have hirrefl : Std.Irrefl fun p q : Path => p.parts < q.parts := ⟨fun p => lt_irrefl p.parts⟩
  refine List.Pairwise.eq_of_mem_iff (r := fun p q : Path => p.parts < q.parts)
    ((pairwise_find hdir' hfind').filter _) ((pairwise_find hdir hfind).filter _) fun f => ?_
  simp only [List.mem_filter, decide_eq_true_eq]
  constructor
  · rintro ⟨hf, hne⟩
    exact mem_find_agreeOff hagree.symm hdir' hfind' hdir hfind hf hne
  · rintro ⟨hf, hne⟩
    exact mem_find_agreeOff hagree hdir hfind hdir' hfind' hf hne

end

end LineSpec.Survey
