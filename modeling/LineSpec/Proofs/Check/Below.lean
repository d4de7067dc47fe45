import LineSpec.Proofs.Check.Listed
import LineSpec.Proofs.Check.Standing
import LineSpec.Proofs.Tree.Directories
import Mathlib.Order.Monotone.Defs
/-!
# What stands below a directory

The specifications below a directory are the files at any depth whose names have the extension, and
on the way to which no name is hidden. The pattern loses none of them that listing the directories
shows (`Survey.Lists`), whatever order the tree is in and whatever the path of the directory looks
like (`Survey.find_lists`).

There are two limits (`Survey.listing_falls_short`). A directory whose own path is long can hold a
file whose path is too long to be looked up, and then nothing is listed. And what is in a directory
that may not be listed is passed over.
-/

namespace LineSpec

/-! ## The pattern for an extension -/

namespace Glob

/-- Where a pattern begins with a star, its rest describes some end of the name. -/
theorem matchesElems_star_iff {es : List Elem} {cs : Text} :
    matchesElems (.star :: es) cs = true ↔ ∃ rest, rest <:+ cs ∧ matchesElems es rest = true := by
  induction cs with
  | nil => simp [matchesElems]
  | cons c cs ih =>
    rw [matchesElems, Bool.or_eq_true, ih]
    simp only [List.suffix_cons_iff, or_and_right, exists_or, exists_eq_left]

/-- Code points stand for themselves. -/
theorem matchesElems_points_iff {t cs : Text} :
    matchesElems (t.map .point) cs = true ↔ t = cs := by
  induction t generalizing cs with
  | nil => rw [List.map_nil, matchesElems, List.isEmpty_iff, eq_comm]
  | cons d t ih =>
    cases cs with
    | nil => simp [matchesElems]
    | cons c cs =>
      rw [List.map_cons, matchesElems, Bool.and_eq_true, beq_iff_eq, ih, List.cons.injEq,
        eq_comm (a := c)]

/-- A text without marks is a pattern for itself. -/
theorem elems_of_no_marks {t : Text} (h : ∀ c ∈ t, c ≠ '*' ∧ c ≠ '?' ∧ c ≠ '[') :
    elems t = t.map .point := by
  induction t with
  | nil => rw [elems, List.map_nil]
  | cons c t ih =>
    obtain ⟨⟨hstar, hone, hset⟩, ht⟩ := List.forall_mem_cons.1 h
    rw [elems, if_neg hstar, if_neg hone, if_neg hset, ih ht, List.map_cons]

/-- A name has an extension without marks when it ends with a dot and the extension. -/
theorem matchesName_extensionPattern_iff {t name : Text}
    (h : ∀ c ∈ t, c ≠ '*' ∧ c ≠ '?' ∧ c ≠ '[') :
    matchesName (extensionPattern t) name = true ↔ ('.' : CodePoint) :: t <:+ name := by
  have hdot : ∀ c ∈ ('.' : CodePoint) :: t, c ≠ '*' ∧ c ≠ '?' ∧ c ≠ '[' :=
    List.forall_mem_cons.2 ⟨by decide, h⟩
  have helems : elems (extensionPattern t) = .star :: (('.' : CodePoint) :: t).map .point := by
    change elems (('*' : CodePoint) :: ('.' : CodePoint) :: t) = _
    rw [elems, if_pos rfl, elems_of_no_marks hdot]
  rw [matchesName, helems, matchesElems_star_iff]
  constructor
  · rintro ⟨rest, hrest, hpoints⟩
    rwa [matchesElems_points_iff.1 hpoints]
  · exact fun hname => ⟨_, hname, matchesElems_points_iff.2 rfl⟩

end Glob

namespace Survey

variable {w w' : Workspace} {dir dir' : Path} {l l' : Location} {extension E : Text}
  {fs fs' : List Path} {names : List Text}

/-- An extension without its leading dots. -/
def bare (extension : Text) : Text := extension.dropWhile fun c => c == '.'

/-- In an extension that holds neither a slash nor the mark of a pattern, each code point stands for
itself. -/
def IsLiteral (E : Text) : Prop := ∀ c ∈ E, c ≠ '/' ∧ c ≠ '*' ∧ c ≠ '?' ∧ c ≠ '['

theorem isLiteral_iff :
    IsLiteral E ↔ E.all (fun c => c ≠ '/' ∧ c ≠ '*' ∧ c ≠ '?' ∧ c ≠ '[') = true := by
  simp only [IsLiteral, List.all_eq_true, decide_eq_true_eq]

instance (E : Text) : Decidable (IsLiteral E) := decidable_of_iff _ isLiteral_iff.symm

theorem namePattern_eq (extension : Text) :
    namePattern extension = Glob.extensionPattern (bare extension) := rfl

theorem not_mem_of_bare {c : CodePoint} (hc : c ≠ '.') (h : ∀ d ∈ bare extension, d ≠ c) :
    c ∉ extension := by
  intro hmem
  rw [← List.takeWhile_append_dropWhile (p := fun c : CodePoint => c == '.') (l := extension),
    List.mem_append] at hmem
  rcases hmem with hdots | hrest
  · exact hc (beq_iff_eq.1 (List.mem_takeWhile_imp (p := fun c : CodePoint => c == '.') hdots))
  · exact h c hrest rfl

namespace IsLiteral

variable (hE : IsLiteral (bare extension))
include hE

theorem noSlash : ('/' : CodePoint) ∉ extension :=
  not_mem_of_bare (by decide) fun c hc => (hE c hc).1

theorem noStar : ('*' : CodePoint) ∉ extension :=
  not_mem_of_bare (by decide) fun c hc => (hE c hc).2.1

theorem noMarks : ∀ c ∈ bare extension, c ≠ '*' ∧ c ≠ '?' ∧ c ≠ '[' := fun c hc => (hE c hc).2

end IsLiteral

/-! ## The specifications below a directory -/

/-- The last of the names ends with a dot and the extension `E`. -/
def HasExtension (E : Text) (names : List Text) : Prop :=
  ∃ name ∈ names.getLast?, ('.' : CodePoint) :: E <:+ name

theorem HasExtension.ne_nil (h : HasExtension E names) : names ≠ [] := by
  rintro rfl
  obtain ⟨_, hlast, -⟩ := h
  cases hlast

/-- From the directory at `l`, `names` lead to a specification: to a file with the extension `E`,
where neither its name nor one on the way is hidden. -/
structure LeadsToSpec (t : Tree) (l : Location) (E : Text) (names : List Text) : Prop where
  file : ∃ content, t.get? (l ++ names) = some (.file content)
  extension : HasExtension E names
  shown : ∀ name ∈ names, isHidden name = false

/-- `Lists t l dir E fs`: with `dir` as the path of the directory at `l`, `fs` are the paths of the
specifications at any depth below it that listing shows, each of them once, in the order of their
parts. -/
structure Lists (t : Tree) (l : Location) (dir : Path) (E : Text) (fs : List Path) : Prop where
  mem_iff : ∀ f, f ∈ fs ↔ ∃ names, LeadsToSpec t l E names ∧ t.Shows l names ∧ f = dir.below names
  sorted : fs.Pairwise fun p q => p.parts < q.parts

/-- What listing shows below a directory is looked up if it is a directory or has the extension. -/
structure IsLookedUp (t : Tree) (l : Location) (E : Text) (names : List Text) : Prop where
  ne_nil : names ≠ []
  shown : t.Shows l names
  found : ∃ node, t.get? (l ++ names) = some node ∧ (node = .dir ∨ HasExtension E names)

/-- `Alike t l t' l'`: below `l'` in `t'` stands what stands below `l` in `t`, and of that the same
may be read. -/
structure Alike (t : Tree) (l : Location) (t' : Tree) (l' : Location) : Prop where
  get? : ∀ names, t'.get? (l' ++ names) = t.get? (l ++ names)
  rights : ∀ names, t'.CanRead (l' ++ names) ↔ t.CanRead (l ++ names)

section
variable {t t' : Tree}

namespace Alike

theorem shows_iff (h : Alike t l t' l') : t'.Shows l' names ↔ t.Shows l names :=
  forall₂_congr fun _ _ => by rw [Tree.CanList, Tree.CanList, h.get?, h.rights]

theorem leadsToSpec_iff (h : Alike t l t' l') :
    LeadsToSpec t' l' E names ↔ LeadsToSpec t l E names :=
  ⟨fun hspec => ⟨h.get? names ▸ hspec.file, hspec.extension, hspec.shown⟩,
    fun hspec => ⟨(h.get? names).symm ▸ hspec.file, hspec.extension, hspec.shown⟩⟩

/-- Trees that are alike from the root on are alike from each location on. -/
theorem of_root (h : Alike t [] t' []) (l : Location) : Alike t l t' l :=
  ⟨fun names => h.get? (l ++ names), fun names => h.rights (l ++ names)⟩

end Alike

theorem IsLookedUp.alike (h : IsLookedUp t' l' E names) (hagree : Alike t l t' l') :
    IsLookedUp t l E names := by
  obtain ⟨hne, hshows, node, hget, hor⟩ := h
  exact ⟨hne, hagree.shows_iff.1 hshows, node, hagree.get? names ▸ hget, hor⟩

end

namespace Lists

theorem mem_map_relative_iff {t : Tree} (h : Lists t l dir E fs) {p : Path} :
    p ∈ fs.map (relative dir) ↔
      ∃ names, LeadsToSpec t l E names ∧ t.Shows l names ∧ p = ⟨.relative, names⟩ := by
  rw [List.mem_map]
  constructor
  · rintro ⟨f, hf, rfl⟩
    obtain ⟨names, hspec, hshows, rfl⟩ := (h.mem_iff f).1 hf
    exact ⟨names, hspec, hshows, relative_below dir names⟩
  · rintro ⟨names, hspec, hshows, rfl⟩
    exact ⟨_, (h.mem_iff _).2 ⟨names, hspec, hshows, rfl⟩, relative_below dir names⟩

/-- What the paths have in common does not matter to their order. -/
theorem pairwise_map_relative {t : Tree} (h : Lists t l dir E fs) :
    (fs.map (relative dir)).Pairwise fun p q => p.parts < q.parts := by
  rw [List.pairwise_map]
  refine h.sorted.imp_of_mem ?_
  intro p q hp hq hlt
  obtain ⟨names, -, -, rfl⟩ := (h.mem_iff p).1 hp
  obtain ⟨names', -, -, rfl⟩ := (h.mem_iff q).1 hq
  rw [relative_below, relative_below]
  have hmono : StrictMono fun names => dir.parts ++ names :=
    fun names names' hlt => List.Lex.append_left (· < ·) hlt dir.parts
  exact hmono.lt_iff_lt.1 hlt

/-- The specifications below a directory as seen from there depend on nothing but what stands below
it. -/
theorem map_relative_eq {t t' : Tree} (h : Lists t l dir E fs) (h' : Lists t' l' dir' E fs')
    (hagree : Alike t l t' l') : fs'.map (relative dir') = fs.map (relative dir) := by
  -- lists in strict order are the same when they have the same members
  have hirrefl : Std.Irrefl fun p q : Path => p.parts < q.parts := ⟨fun p => lt_irrefl p.parts⟩
  refine List.Pairwise.eq_of_mem_iff (r := fun p q : Path => p.parts < q.parts)
    h'.pairwise_map_relative h.pairwise_map_relative fun p => ?_
  rw [h'.mem_map_relative_iff, h.mem_map_relative_iff]
  simp only [hagree.leadsToSpec_iff, hagree.shows_iff]

theorem map_below {t : Tree} (h : Lists t l dir E fs) :
    (fs.map (relative dir)).map (fun p => dir.below p.parts) = fs := by
  rw [List.map_map]
  refine (List.map_congr_left fun f hf => ?_).trans (List.map_id fs)
  obtain ⟨names, -, -, rfl⟩ := (h.mem_iff f).1 hf
  exact congrArg (fun p : Path => dir.below p.parts) (relative_below dir names)

/-- The specifications below a directory do not depend on the order that the tree is in. -/
theorem eq {t t' : Tree} (h : Lists t l dir E fs) (h' : Lists t' l dir E fs')
    (hagree : Alike t [] t' []) : fs' = fs := by
  rw [← h'.map_below, ← h.map_below, h.map_relative_eq h' (hagree.of_root l)]

end Lists

section
variable (hw : w.tree.WellFormed) (hdir : w.locate dir = .ok (.taken l .dir))
include hw hdir

/-- A directory below the directory is found at its path, if that can be looked up. -/
theorem locate_of_mem_dirsFrom {q : Path} (hq : q ∈ w.dirsFrom dir) (hshort : w.CanLookUp q) :
    ∃ init, q = dir.below init ∧ w.tree.Shows l init ∧
      w.locate q = .ok (.taken (l ++ init) .dir) := by
  rcases Workspace.mem_dirsFrom_iff.1 hq with rfl | ⟨l', init, hdir', hne, hget, hshows, rfl⟩
  · refine ⟨[], ?_, nofun, ?_⟩
    · rw [Path.below, List.append_nil]
    · rwa [List.append_nil]
  · obtain ⟨rfl, -⟩ := Workspace.Place.taken.inj (Except.ok.inj (hdir.symm.trans hdir'))
    exact ⟨init, rfl, hshows, Workspace.locate_below_of_canLookUp hw hdir hne hget hshort⟩

/-- Where all directories can be looked up, the pattern selects what listing shows at any depth
below the directory and has the extension. -/
theorem exists_mem_named_iff (hmarks : ∀ c ∈ E, c ≠ '*' ∧ c ≠ '?' ∧ c ≠ '[')
    (hdirs : ∀ q ∈ w.dirsFrom dir, w.CanLookUp q) {p : Path} :
    (∃ q ∈ w.dirsFrom dir, p ∈ w.named (Glob.extensionPattern E) q) ↔
      ∃ names node, w.tree.get? (l ++ names) = some node ∧ w.tree.Shows l names ∧
        HasExtension E names ∧ p = dir.below names := by
  simp only [Workspace.named, List.mem_map, List.mem_filter,
    Glob.matchesName_extensionPattern_iff hmarks]
  constructor
  · rintro ⟨q, hq, ⟨name, node⟩, ⟨hchild, hsuffix⟩, rfl⟩
    obtain ⟨init, rfl, hshows, hlocate⟩ := locate_of_mem_dirsFrom hw hdir hq (hdirs q hq)
    obtain ⟨l', hlocate', hget, hopen⟩ := Workspace.mem_children_iff.1 hchild
    obtain ⟨rfl, -⟩ := Workspace.Place.taken.inj (Except.ok.inj (hlocate.symm.trans hlocate'))
    refine ⟨init ++ [name], node, ?_, Tree.shows_concat_iff.2 ⟨hshows, hopen⟩,
      ⟨name, by simp, hsuffix⟩, ?_⟩
    · rwa [← List.append_assoc]
    · simp only [Path.below, List.append_assoc]
  · rintro ⟨names, node, hget, hshows, ⟨name, hlast, hsuffix⟩, rfl⟩
    obtain ⟨init, rfl⟩ : ∃ init, names = init ++ [name] :=
      ⟨_, (List.dropLast_append_getLast? _ hlast).symm⟩
    rw [← List.append_assoc] at hget
    obtain ⟨hshows, hopen⟩ := Tree.shows_concat_iff.1 hshows
    have hinit := (hw _ _ _ hget).1
    have hq : dir.below init ∈ w.dirsFrom dir := by
      rw [Workspace.mem_dirsFrom_iff]
      by_cases hnil : init = []
      · exact .inl (by rw [hnil, Path.below, List.append_nil])
      · exact .inr ⟨l, init, hdir, hnil, hinit, hshows, rfl⟩
    obtain ⟨init', hinit', -, hlocate⟩ := locate_of_mem_dirsFrom hw hdir hq (hdirs _ hq)
    obtain rfl : init = init' := List.append_cancel_left (congrArg Path.parts hinit')
    refine ⟨_, hq, (name, node), ⟨?_, hsuffix⟩, ?_⟩
    · exact Workspace.mem_children_iff.2 ⟨_, hlocate, hget, hopen⟩
    · simp only [Path.below, List.append_assoc]

end

/-! ## What is found -/

section
variable (hw : w.tree.WellFormed) (hdir : w.locate dir = .ok (.taken l .dir))
  (hE : IsLiteral (bare extension))
include hw hdir hE

/-- Listing succeeds where no path that is looked up is too long. -/
theorem exists_find_of_short
    (hshort : ∀ names, IsLookedUp w.tree l (bare extension) names →
      Text.nameSize (dir.below names).text ≤ Workspace.maxPath) :
    ∃ fs, find w dir extension = .ok fs := by
  rw [exists_find_eq_ok_iff (Workspace.isDir_of_locate hdir) hE.noSlash hE.noStar]
  have hdirs : ∀ q ∈ w.dirsFrom dir, w.CanLookUp q := by
    intro q hq
    rcases Workspace.mem_dirsFrom_iff.1 hq with rfl | ⟨l', names, hdir', hne, hget, hshows, rfl⟩
    · exact ⟨_, Workspace.node?_eq_some_iff.2 ⟨l, hdir⟩⟩
    · obtain ⟨rfl, -⟩ := Workspace.Place.taken.inj (Except.ok.inj (hdir.symm.trans hdir'))
      exact (Workspace.canLookUp_below_iff hw hdir hne hget).2
        (hshort names ⟨hne, hshows, _, hget, .inl rfl⟩)
  refine ⟨hdirs, fun q hq p hp => ?_⟩
  obtain ⟨names, node, hget, hshows, hsuffix, rfl⟩ :=
    (exists_mem_named_iff hw hdir hE.noMarks hdirs).1 ⟨q, hq, hp⟩
  exact (Workspace.canLookUp_below_iff hw hdir hsuffix.ne_nil hget).2
    (hshort names ⟨hsuffix.ne_nil, hshows, node, hget, .inr hsuffix⟩)

/-- Where listing succeeds, it gives the specifications below the directory. -/
theorem lists_of_find (hfind : find w dir extension = .ok fs) :
    Lists w.tree l dir (bare extension) fs := by
  have hisDir := Workspace.isDir_of_locate hdir
  have hlistable := (exists_find_eq_ok_iff hisDir hE.noSlash hE.noStar).1 ⟨fs, hfind⟩
  refine ⟨fun f => ?_, pairwise_find hisDir hfind⟩
  have hselects : (∃ parts, patternOf extension = .ok parts ∧ w.Selects dir parts f) ↔
      ∃ q ∈ w.dirsFrom dir, f ∈ w.named (Glob.extensionPattern (bare extension)) q := by
    have hselect : w.select dir [.deep, .name (namePattern extension)] = .ok _ :=
      Workspace.select_deep_name_eq_ok_iff.2 ⟨hlistable.dirs, rfl⟩
    rw [← List.mem_flatMap, ← namePattern_eq, Workspace.mem_select_iff hselect,
      patternOf_eq_ok hE.noSlash hE.noStar]
    simp only [Except.ok.injEq, exists_eq_left']
  rw [mem_find_iff hisDir hfind, hselects]
  constructor
  · rintro ⟨hnamed, ⟨lf, content, hlocate⟩, hshown⟩
    obtain ⟨names, node, hget, hshows, hsuffix, rfl⟩ :=
      (exists_mem_named_iff hw hdir hE.noMarks hlistable.dirs).1 hnamed
    have hstands := Workspace.locate_below_of_canLookUp hw hdir hsuffix.ne_nil hget
      ⟨_, Workspace.node?_eq_some_iff.2 ⟨lf, hlocate⟩⟩
    obtain ⟨rfl, rfl⟩ := Workspace.Place.taken.inj (Except.ok.inj (hstands.symm.trans hlocate))
    rw [relative_below, List.any_eq_false] at hshown
    refine ⟨names, ⟨⟨content, hget⟩, hsuffix, fun name hname => ?_⟩, hshows, rfl⟩
    exact Bool.not_eq_true _ ▸ hshown name hname
  · rintro ⟨names, ⟨⟨content, hget⟩, hsuffix, hshown⟩, hshows, rfl⟩
    have hnamed := (exists_mem_named_iff hw hdir hE.noMarks hlistable.dirs).2
      ⟨names, _, hget, hshows, hsuffix, rfl⟩
    obtain ⟨q, hq, hp⟩ := hnamed
    have hstands := Workspace.locate_below_of_canLookUp hw hdir hsuffix.ne_nil hget
      (hlistable.named q hq _ hp)
    refine ⟨⟨q, hq, hp⟩, ⟨_, content, hstands⟩, ?_⟩
    rw [relative_below, List.any_eq_false]
    exact fun name hname => Bool.not_eq_true _ ▸ hshown name hname

end

/-- What is found below a directory. If of what listing shows there no directory, and nothing with
the extension, has a path that is too long, all specifications that listing shows are found, each
once and in order. They do not depend on the order that the tree is in, and as seen from the
directory they depend only on what stands below it, not on its own path. -/
theorem find_lists (w : Workspace) (dir : Path) (l : Location) (extension : Text)
    (hw : w.tree.WellFormed) (hdir : w.locate dir = .ok (.taken l .dir))
    (hE : IsLiteral (bare extension))
    (hshort : ∀ names, IsLookedUp w.tree l (bare extension) names →
      Text.nameSize (dir.below names).text ≤ Workspace.maxPath) :
    ∃ fs, find w dir extension = .ok fs ∧ Lists w.tree l dir (bare extension) fs ∧
      (∀ w', w'.home = w.home → Alike w.tree [] w'.tree [] → find w' dir extension = .ok fs) ∧
      ∀ w' dir' l', w'.tree.WellFormed → w'.locate dir' = .ok (.taken l' .dir) →
        Alike w.tree l w'.tree l' →
        (∀ names, IsLookedUp w'.tree l' (bare extension) names →
          Text.nameSize (dir'.below names).text ≤ Workspace.maxPath) →
        ∃ fs', find w' dir' extension = .ok fs' ∧
          fs'.map (relative dir') = fs.map (relative dir) := by
  obtain ⟨fs, hfind⟩ := exists_find_of_short hw hdir hE hshort
  have hlists := lists_of_find hw hdir hE hfind
  refine ⟨fs, hfind, hlists, ?_, ?_⟩
  · intro w' hhome hagree
    have hw' := hw.congr hagree.get?
    have hdir' : w'.locate dir = .ok (.taken l .dir) := by
      rw [Workspace.locate_congr hhome hagree.get?, hdir]
    obtain ⟨fs', hfind'⟩ := exists_find_of_short hw' hdir' hE fun names h =>
      hshort names (h.alike (hagree.of_root l))
    rw [hfind', hlists.eq (lists_of_find hw' hdir' hE hfind') hagree]
  · intro w' dir' l' hw' hdir' hagree hshort'
    obtain ⟨fs', hfind'⟩ := exists_find_of_short hw' hdir' hE hshort'
    exact ⟨fs', hfind', hlists.map_relative_eq (lists_of_find hw' hdir' hE hfind') hagree⟩

/-- A tree with hidden files and directories, a device, a directory that may not be listed, and names
that are in another order with the slash behind them than on their own. -/
def tangled : Workspace where
  tree.entries := [([".h"], .dir), ([".h", "s"], .dir),
    ([".h", "s", "b.txt"], .file []), ([".h", "s", "a-b.txt"], .file []),
    ([".h", "s", "a"], .dir), ([".h", "s", "a", "x.txt"], .file []),
    ([".h", "s", "a", ".x.txt"], .file []), ([".h", "s", "a", "d.txt"], .dir),
    ([".h", "s", ".g"], .dir), ([".h", "s", ".g", "x.txt"], .file []),
    ([".h", "s", "n.txt"], .device), ([".h", "s", "c"], .dir),
    ([".h", "s", "c", "x.txt"], .file []), ([".h", "s", "xtxt"], .file []),
    ([".h", "c.txt"], .file [])]
  tree.closed := [[".h", "s", "c"]]
  tree.closed_subset := by decide

theorem find_tangled : find tangled ⟨.relative, [".h", "s"]⟩ "..txt" =
    .ok [⟨.relative, [".h", "s", "a", "x.txt"]⟩, ⟨.relative, [".h", "s", "a-b.txt"]⟩,
      ⟨.relative, [".h", "s", "b.txt"]⟩] := by
  rw [find_eq_ok_iff (by decide +kernel) (by decide) (by decide)]
  refine ⟨_, Workspace.select_deep_name_eq_ok_iff.2 ⟨by decide +kernel, rfl⟩,
    [⟨.relative, [".h", "s", "b.txt"]⟩, ⟨.relative, [".h", "s", "a-b.txt"]⟩,
      ⟨.relative, [".h", "s", "a", "x.txt"]⟩], by decide +kernel, ?_⟩
  have hab : Path.le ⟨.relative, [".h", "s", "b.txt"]⟩ ⟨.relative, [".h", "s", "a-b.txt"]⟩ =
    false := by decide +kernel
  have hax : Path.le ⟨.relative, [".h", "s", "a-b.txt"]⟩ ⟨.relative, [".h", "s", "a", "x.txt"]⟩ =
    false := by decide +kernel
  simp [List.mergeSort, hab, hax]

theorem find_lists_tangled :
    Lists tangled.tree [".h", "s"] ⟨.relative, [".h", "s"]⟩ (bare "..txt")
      [⟨.relative, [".h", "s", "a", "x.txt"]⟩, ⟨.relative, [".h", "s", "a-b.txt"]⟩,
        ⟨.relative, [".h", "s", "b.txt"]⟩] := by
  have hshort : ∀ e ∈ tangled.tree.entries, ∀ n ≤ e.1.length, Text.nameSize
      (Path.below ⟨.relative, [".h", "s"]⟩ (e.1.drop n)).text ≤ Workspace.maxPath := by
    decide +kernel
  obtain ⟨fs, hfind, hlists, -⟩ := find_lists tangled ⟨.relative, [".h", "s"]⟩ [".h", "s"] "..txt"
    (by decide +kernel) (by decide +kernel) (by decide +kernel) (by
      rintro names ⟨hne, -, node, hget, -⟩
      have hentry := Assoc.mem_of_get? ((Tree.get?_of_ne_nil _ (by simp)).symm.trans hget)
      exact hshort _ hentry 2 (by simp))
  obtain rfl := Except.ok.inj (find_tangled.symm.trans hfind)
  exact hlists

/-- A path with the same directory on it over and over. The files in the directory that it leads to
have paths that are too long. -/
def roundabout : Path where
  parts := (List.replicate 15 [List.replicate 255 (CodePoint.ofChar 'n'), ".."]).flatten ++
    [Text.ofString "s"]

/-- A directory at a long path, with a file in it that has a long name. -/
def beyondLimit : Workspace where
  tree.entries := [([List.replicate 255 'n'], .dir), (["s"], .dir),
    (["s", List.replicate 246 (CodePoint.ofChar 'b') ++ ".txt"], .file [])]

/-- A directory with a directory in it that may not be listed. -/
def shut : Workspace where
  tree.entries := [(["s"], .dir), (["s", "c"], .dir), (["s", "c", "a.txt"], .file [])]
  tree.closed := [["s", "c"]]
  tree.closed_subset := by decide

/-- Not every directory can be listed, and where one can, not all specifications below it need be
found. -/
theorem listing_falls_short :
    (¬∀ (w : Workspace) (dir : Path) (l : Location) (extension : Text), w.tree.WellFormed →
      w.tree.closed = [] → w.locate dir = .ok (.taken l .dir) → bare extension ≠ [] →
      IsLiteral (bare extension) → ∃ fs, find w dir extension = .ok fs) ∧
    ¬∀ (w : Workspace) (dir : Path) (l : Location) (extension : Text), w.tree.WellFormed →
      w.locate dir = .ok (.taken l .dir) → bare extension ≠ [] → IsLiteral (bare extension) →
      ∀ fs, find w dir extension = .ok fs →
        ∀ names, LeadsToSpec w.tree l (bare extension) names → dir.below names ∈ fs := by
  constructor
  · intro h
    obtain ⟨fs, hfind⟩ := h beyondLimit roundabout ["s"] "txt" (by decide +kernel) rfl
      (by decide +kernel) (by decide +kernel) (by decide +kernel)
    have hfails : (find beyondLimit roundabout "txt").isOk = false := by decide +kernel
    rw [hfind] at hfails
    cases hfails
  · intro h
    have hspec : LeadsToSpec shut.tree ["s"] (bare "txt") ["c", "a.txt"] :=
      ⟨⟨[], by decide +kernel⟩, ⟨"a.txt", rfl, ['a'], by decide⟩, by decide +kernel⟩
    have hmem := h shut ⟨.relative, ["s"]⟩ ["s"] "txt" (by decide +kernel) (by decide +kernel)
      (by decide +kernel) (by decide +kernel) [] (by decide +kernel) _ hspec
    cases hmem

end Survey

end LineSpec
