import LineSpec.Check.Survey
import LineSpec.Proofs.Steps
import LineSpec.Proofs.Text.Cutting
import LineSpec.Proofs.Text.Occurrence
/-!
# When a directory can be listed

The specifications below a directory are found by a pattern for their paths, and each path that the
pattern selects is then looked up. All that can go wrong with a directory that exists is a path that
is too long to be looked up: that of a directory below it, or that of something with the extension
in one of these (`exists_find_eq_ok_iff`).
-/

namespace LineSpec

/-! ## The pattern for an extension -/

namespace Glob

/-- The pattern for names with the extension `t`. -/
def extensionPattern (t : Text) : Text := "*." ++ t

theorem not_infix_extensionPattern {t : Text} (hstar : ('*' : CodePoint) ∉ t) :
    ¬(("**" : Text) <:+: extensionPattern t) := by
  intro h
  change ("**" : Text) <:+: (('*' : CodePoint) :: ('.' : CodePoint) :: t) at h
  -- the one star is followed by a dot
  rcases List.infix_cons_iff.1 h with hprefix | hinfix
  · obtain ⟨s, hs⟩ := hprefix
    exact absurd (List.cons.inj (List.cons.inj hs).2).1 (by decide)
  · have hmem : ('*' : CodePoint) ∈ ('.' : CodePoint) :: t := hinfix.subset (by decide)
    rcases List.mem_cons.1 hmem with heq | hmem
    · exact absurd heq (by decide)
    · exact hstar hmem

/-- An extension without a slash and without a star gives a pattern for names. -/
theorem ofText_extensionPattern {t : Text} (hslash : ('/' : CodePoint) ∉ t)
    (hstar : ('*' : CodePoint) ∉ t) :
    ofText (extensionPattern t) = .ok [.name (extensionPattern t)] := by
  have hempty : extensionPattern t ≠ [] := List.cons_ne_nil _ _
  have hdot : extensionPattern t ≠ "." := fun h =>
    absurd (List.cons.inj h).1 (by decide)
  have hstars : extensionPattern t ≠ "**" := fun h =>
    absurd (List.cons.inj (List.cons.inj h).2).1 (by decide)
  have hdots : extensionPattern t ≠ ".." := fun h =>
    absurd (List.cons.inj h).1 (by decide)
  have hpart : Part.ofText (extensionPattern t) = .ok (.name (extensionPattern t)) := by
    rw [Part.ofText, if_neg hempty, if_neg hstars, if_neg hdots,
      Text.splitFirst?_eq_none_iff.2 (not_infix_extensionPattern hstar)]
    rfl
  have hslash' : ('/' : CodePoint) ∉ extensionPattern t := by
    rw [extensionPattern, List.mem_append, not_or]
    exact ⟨by decide, hslash⟩
  have hlast : (extensionPattern t).getLast? ≠ some ('/' : CodePoint) := fun h =>
    hslash' (List.mem_of_getLast? h)
  rw [ofText, Text.pieces_eq_singleton hslash', if_neg hlast]
  simp only [List.filter_cons, hempty, hdot, ne_eq, not_false_eq_true, decide_true, Bool.and_self,
    if_true, List.filter_nil, List.mapM_cons, hpart, List.mapM_nil]
  rfl

end Glob

/-! ## Selecting -/

namespace Workspace

/-- The paths of the things in a directory whose names match a pattern. -/
def named (w : Workspace) (pattern : Text) (p : Path) : List Path :=
  ((w.children p).filter fun e => Glob.matchesName pattern e.1).map fun e => p.below [e.1]

/-- Whether a path can be looked up: it is not too long, and neither is a name in it. -/
def CanLookUp (w : Workspace) (p : Path) : Prop :=
  ∃ node, w.node? p = .ok node

instance (w : Workspace) (p : Path) : Decidable (w.CanLookUp p) :=
  match h : w.node? p with
  | .ok node => isTrue ⟨node, h⟩
  | .error _ => isFalse fun ⟨_, h'⟩ => nomatch h.symm.trans h'

/-- A pattern for a name selects what matches it in a directory that can be looked up. -/
theorem select_name (w : Workspace) (pattern : Text) (p : Path) :
    w.select p [.name pattern] = (w.node? p).map fun _ => w.named pattern p := by
  have hmapM : ∀ (step : Text × Node → Except AccessError (List Path)) (l : List (Text × Node)),
      (∀ name node, step (name, node) = .ok [p.below [name]]) →
        l.mapM step = .ok (l.map fun e => [p.below [e.1]]) := by
    intro step l hstep
    rw [mapM_eq_ok_iff, List.forall₂_map_right_iff, List.forall₂_same]
    exact fun e _ => hstep e.1 e.2
  rw [select]
  cases w.node? p with
  | error e => rfl
  | ok node =>
    rw [Except.map, named, List.map_eq_flatMap, List.flatMap_def]
    refine bind_eq_ok_iff.2 ⟨node, rfl, bind_eq_ok_iff.2 ⟨_, hmapM _ _ fun name node => ?_, rfl⟩⟩
    cases node <;> rfl

theorem select_deep_name_eq_ok_iff {w : Workspace} {pattern : Text} {p : Path} {ps : List Path} :
    w.select p [.deep, .name pattern] = .ok ps ↔
      (∀ q ∈ w.dirsFrom p, w.CanLookUp q) ∧ ps = (w.dirsFrom p).flatMap (w.named pattern) := by
  have hstep : ∀ q b, (do let _ ← w.node? q; w.select q [.name pattern]) = .ok b →
      w.CanLookUp q ∧ w.named pattern q = b := by
    intro q b h
    obtain ⟨node, hnode, h⟩ := bind_eq_ok_iff.1 h
    rw [select_name, hnode] at h
    exact ⟨⟨node, hnode⟩, Except.ok.inj h⟩
  rw [select, bind_eq_ok_iff]
  simp only [mapM_eq_ok_iff_map fun q b h => (hstep q b h).2]
  constructor
  · rintro ⟨_, ⟨hall, rfl⟩, h⟩
    refine ⟨fun q hq => ?_, (Except.ok.inj h).symm⟩
    obtain ⟨b, hb⟩ := hall q hq
    exact (hstep q b hb).1
  · rintro ⟨hall, rfl⟩
    refine ⟨_, ⟨fun q hq => ?_, rfl⟩, rfl⟩
    obtain ⟨node, hnode⟩ := hall q hq
    refine ⟨w.named pattern q, ?_⟩
    rw [select_name, hnode]
    rfl

end Workspace

/-! ## Listing -/

namespace Survey

variable {w : Workspace} {dir : Path} {extension : Text}

/-- The pattern for names with an extension, of which leading dots are dropped. -/
def namePattern (extension : Text) : Text :=
  Glob.extensionPattern (extension.dropWhile fun c => c == '.')

/-- The paths that listing the specifications below a directory looks up can all be looked up. -/
structure Listable (w : Workspace) (dir : Path) (extension : Text) : Prop where
  dirs : ∀ q ∈ w.dirsFrom dir, w.CanLookUp q
  named : ∀ q ∈ w.dirsFrom dir, ∀ p ∈ w.named (namePattern extension) q, w.CanLookUp p

instance (w : Workspace) (dir : Path) (extension : Text) : Decidable (Listable w dir extension) :=
  decidable_of_iff ((∀ q ∈ w.dirsFrom dir, w.CanLookUp q) ∧
      ∀ q ∈ w.dirsFrom dir, ∀ p ∈ w.named (namePattern extension) q, w.CanLookUp p)
    ⟨fun h => ⟨h.1, h.2⟩, fun h => ⟨h.dirs, h.named⟩⟩

theorem patternOf_eq_ok (hslash : ('/' : CodePoint) ∉ extension)
    (hstar : ('*' : CodePoint) ∉ extension) :
    patternOf extension = .ok [.deep, .name (namePattern extension)] := by
  have hsuffix := List.dropWhile_suffix (l := extension) fun c => c == CodePoint.ofChar '.'
  have hofText := Glob.ofText_extensionPattern (fun h => hslash (hsuffix.subset h))
    fun h => hstar (hsuffix.subset h)
  rw [Glob.extensionPattern] at hofText
  rw [patternOf, hofText]
  rfl

theorem exists_isSpec_eq_ok_iff {p : Path} :
    (∃ b, isSpec w dir p = .ok b) ↔ w.CanLookUp p := by
  simp only [isSpec, map_eq_ok_iff]
  constructor
  · rintro ⟨_, node, hnode, -⟩
    exact ⟨node, hnode⟩
  · rintro ⟨node, hnode⟩
    exact ⟨_, node, hnode, rfl⟩

/-- The specifications below a directory that exists are what the pattern selects, each path once,
without what is no specification, in order. -/
theorem find_eq_ok_iff_select (hdir : w.isDir dir = .ok true) {fs : List Path} :
    find w dir extension = .ok fs ↔
      ∃ parts, patternOf extension = .ok parts ∧ ∃ selected, w.select dir parts = .ok selected ∧
        ∃ found, selected.eraseDups.filterM (isSpec w dir) = .ok found ∧
          found.mergeSort Path.le = fs := by
  simp only [find, hdir, bind_eq_ok_iff, mapError_eq_ok_iff, Except.ok.injEq, exists_eq_left',
    if_true, pure, Except.pure]

theorem find_eq_ok_iff (hdir : w.isDir dir = .ok true) (hslash : ('/' : CodePoint) ∉ extension)
    (hstar : ('*' : CodePoint) ∉ extension) {fs : List Path} :
    find w dir extension = .ok fs ↔
      ∃ selected, w.select dir [.deep, .name (namePattern extension)] = .ok selected ∧
        ∃ found, selected.eraseDups.filterM (isSpec w dir) = .ok found ∧
          found.mergeSort Path.le = fs := by
  simp only [find_eq_ok_iff_select hdir, patternOf_eq_ok hslash hstar, Except.ok.injEq,
    exists_eq_left']

theorem files_eq_ok_iff {ε : Type} (hdir : w.isDir dir = .ok true) {fs : List Path} :
    files (ε := ε) w dir extension = .ok fs ↔ find w dir extension = .ok fs := by
  rw [files, hdir, mapError_eq_ok_iff]

/-- The specifications below a directory that exists can be listed exactly when all paths can be
looked up. -/
theorem exists_find_eq_ok_iff (hdir : w.isDir dir = .ok true)
    (hslash : ('/' : CodePoint) ∉ extension) (hstar : ('*' : CodePoint) ∉ extension) :
    (∃ fs, find w dir extension = .ok fs) ↔ Listable w dir extension := by
  simp only [find_eq_ok_iff hdir hslash hstar, Workspace.select_deep_name_eq_ok_iff]
  constructor
  · rintro ⟨_, _, ⟨hdirs, rfl⟩, found, hfound, -⟩
    refine ⟨hdirs, fun q hq p hp => ?_⟩
    have hmem := List.mem_eraseDups.2 (List.mem_flatMap.2 ⟨q, hq, hp⟩)
    exact exists_isSpec_eq_ok_iff.1 (exists_filterM_eq_ok_iff.1 ⟨found, hfound⟩ p hmem)
  · rintro ⟨hdirs, hnamed⟩
    have hall : ∀ p ∈ ((w.dirsFrom dir).flatMap (w.named (namePattern extension))).eraseDups,
        ∃ b, isSpec w dir p = .ok b := by
      intro p hp
      obtain ⟨q, hq, hp⟩ := List.mem_flatMap.1 (List.mem_eraseDups.1 hp)
      exact exists_isSpec_eq_ok_iff.2 (hnamed q hq p hp)
    obtain ⟨found, hfound⟩ := exists_filterM_eq_ok_iff.2 hall
    exact ⟨_, _, ⟨hdirs, rfl⟩, found, hfound, rfl⟩

/-- Files that are found in order are listed as they are found. -/
theorem find_eq_ok_of_pairwise (hdir : w.isDir dir = .ok true)
    (hslash : ('/' : CodePoint) ∉ extension) (hstar : ('*' : CodePoint) ∉ extension)
    (hdirs : ∀ q ∈ w.dirsFrom dir, w.CanLookUp q) {fs : List Path}
    (hfound : ((w.dirsFrom dir).flatMap (w.named (namePattern extension))).eraseDups.filterM
      (isSpec w dir) = .ok fs)
    (hsorted : fs.Pairwise fun p q => Path.le p q = true) : find w dir extension = .ok fs :=
  (find_eq_ok_iff hdir hslash hstar).2
    ⟨_, Workspace.select_deep_name_eq_ok_iff.2 ⟨hdirs, rfl⟩, fs, hfound,
      List.mergeSort_of_pairwise hsorted⟩

/-- A directory of specifications that each check has something to say about: two cannot be loaded,
and the items of the others are about a file that is there, one that is not, and a directory. -/
def troubled : Workspace where
  tree.entries := [(["s"], .dir),
    (["s", "t"], .file (Text.Utf8.encode "x\n".toList)),
    (["s", "a.txt"], .file (Text.Utf8.encode "## file: t\nx\n## file: u\ny\n".toList)),
    (["s", "b.txt"], .file [0xFF]),
    (["s", "c.txt"], .file (Text.Utf8.encode "##\n".toList)),
    (["s", "d.txt"], .file (Text.Utf8.encode "## file: .\nz\n".toList))]

theorem find_troubled : find troubled ⟨.relative, ["s"]⟩ "txt" =
    .ok [⟨.relative, ["s", "a.txt"]⟩, ⟨.relative, ["s", "b.txt"]⟩, ⟨.relative, ["s", "c.txt"]⟩,
      ⟨.relative, ["s", "d.txt"]⟩] := by
  apply find_eq_ok_of_pairwise
  · decide +kernel
  · decide
  · decide
  · decide +kernel
  · decide +kernel
  · decide +kernel

end Survey

end LineSpec
