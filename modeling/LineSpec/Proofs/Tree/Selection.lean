import LineSpec.Proofs.Tree.Change
import LineSpec.Tree.Select
/-!
# What a pattern selects

The paths that a pattern selects, as a relation with one rule for each way to follow a part
(`mem_select_iff`). All of them begin where the path of the directory begins. A change at one
location does not take away a file that stands elsewhere (`Selects.agreeOff`).
-/

namespace LineSpec.Workspace

variable {w w' : Workspace} {p q f : Path} {loc : Location} {parts : List Glob.Part}

/-! ## Directories and what is in them -/

theorem mem_below_iff {names : List Text} {node : Node} :
    (names, node) ∈ w.below p ↔ ∃ l, w.locate p = .ok (.taken l .dir) ∧ names ≠ [] ∧
      w.tree.get? (l ++ names) = some node ∧ w.tree.Shows l names := by
  rw [below]
  constructor
  · intro hmem
    split at hmem
    next l hplace =>
      obtain ⟨hbelow, hshows⟩ := List.mem_filter.1 hmem
      obtain ⟨hnames, hget⟩ := Tree.mem_below_iff.1 hbelow
      exact ⟨l, hplace, hnames, hget, of_decide_eq_true hshows⟩
    · cases hmem
  · rintro ⟨l, hplace, hnames, hget, hshows⟩
    rw [hplace]
    exact List.mem_filter.2 ⟨Tree.mem_below_iff.2 ⟨hnames, hget⟩, decide_eq_true hshows⟩

theorem mem_children_iff {name : Text} {node : Node} :
    (name, node) ∈ w.children p ↔ ∃ l, w.locate p = .ok (.taken l .dir) ∧
      w.tree.get? (l ++ [name]) = some node ∧ w.tree.CanList l := by
  have hchildren : (name, node) ∈ w.children p ↔ ([name], node) ∈ w.below p := by
    rw [children, List.mem_filterMap]
    constructor
    · rintro ⟨⟨names, node'⟩, hmem, heq⟩
      dsimp only at heq
      split at heq
      · cases heq
        exact hmem
      · cases heq
    · exact fun hmem => ⟨_, hmem, rfl⟩
  simp only [hchildren, mem_below_iff, Tree.shows_singleton_iff, ne_eq, List.cons_ne_nil,
    not_false_eq_true, true_and]

theorem mem_dirsFrom_iff :
    q ∈ w.dirsFrom p ↔ q = p ∨ ∃ l names, w.locate p = .ok (.taken l .dir) ∧ names ≠ [] ∧
      w.tree.get? (l ++ names) = some .dir ∧ w.tree.Shows l names ∧ q = p.below names := by
  rw [dirsFrom, List.mem_cons, List.mem_filterMap]
  refine or_congr_right ⟨?_, ?_⟩
  · rintro ⟨⟨names, node⟩, hmem, heq⟩
    obtain ⟨l, hplace, hnames, hget, hshows⟩ := mem_below_iff.1 hmem
    split at heq
    next hdir =>
      obtain rfl : node = .dir := hdir
      exact ⟨l, names, hplace, hnames, hget, hshows, (Option.some.inj heq).symm⟩
    · cases heq
  · rintro ⟨l, names, hplace, hnames, hget, hshows, rfl⟩
    exact ⟨(names, .dir), mem_below_iff.2 ⟨l, hplace, hnames, hget, hshows⟩, if_pos rfl⟩

/-- A file whose path is that of a directory with one more name stands in that directory. -/
theorem location_of_child {l lf : Location} {name : Text} {content : List UInt8}
    (hdir : w.locate p = .ok (.taken l .dir))
    (hfile : w.locate (p.below [name]) = .ok (.taken lf (.file content))) : lf = l ++ [name] := by
  rcases locate_cases p with ⟨e, he⟩ | hp
  · cases (he w).symm.trans hdir
  rcases locate_cases (p.below [name]) with ⟨e, he⟩ | hf
  · cases (he w).symm.trans hfile
  rw [hp, mapError_eq_ok_iff] at hdir
  rw [hf, mapError_eq_ok_iff] at hfile
  -- the path of the file begins where that of the directory does
  obtain ⟨l', hdir', hname⟩ := (follow_eq_ok_iff.1 hfile).exists_of_append (List.cons_ne_nil _ _)
  obtain ⟨rfl, -⟩ := Place.taken.inj (Except.ok.inj (hdir.symm.trans hdir'.follow_eq))
  cases hname with
  | dot rest | dots rest | passes _ _ rest => cases rest
  | ends _ location => exact location

/-! ## Selecting -/

/-- `w.Selects p parts f`: the parts of a pattern lead from `p` to `f`. -/
inductive Selects (w : Workspace) : Path → List Glob.Part → Path → Prop
  | here {p : Path} : Selects w p [] p
  | up {p f : Path} {parts : List Glob.Part} (next : Selects w (p.below [".."]) parts f) :
      Selects w p (.up :: parts) f
  | exactDir {p f : Path} {name : Text} {parts : List Glob.Part}
      (dir : w.node? (p.below [name]) = .ok (some .dir))
      (next : Selects w (p.below [name]) parts f) : Selects w p (.exact name :: parts) f
  | exactEnds {p : Path} {name : Text} {node : Node}
      (found : w.node? (p.below [name]) = .ok (some node)) :
      Selects w p [.exact name] (p.below [name])
  | nameDir {p f : Path} {pattern name : Text} {parts : List Glob.Part}
      (child : (name, .dir) ∈ w.children p) (isMatch : Glob.matchesName pattern name)
      (next : Selects w (p.below [name]) parts f) : Selects w p (.name pattern :: parts) f
  | nameEnds {p : Path} {pattern name : Text} {node : Node}
      (child : (name, node) ∈ w.children p) (isMatch : Glob.matchesName pattern name) :
      Selects w p [.name pattern] (p.below [name])
  | deep {p q f : Path} {parts : List Glob.Part} (dir : q ∈ w.dirsFrom p)
      (next : Selects w q parts f) : Selects w p (.deep :: parts) f

/-- What is no directory is selected when no part of the pattern is left. -/
theorem eq_of_mem_of_noDir {fs : List Path}
    (h : (.ok (if parts.isEmpty then [q] else []) : Except AccessError (List Path)) = .ok fs)
    (hf : f ∈ fs) : parts = [] ∧ f = q := by
  obtain rfl := Except.ok.inj h
  simpa using hf

theorem selects_of_mem {ps : List Path} (h : w.select p parts = .ok ps) (hf : f ∈ ps) :
    w.Selects p parts f := by
  induction parts generalizing p ps with
  | nil =>
    obtain rfl := Except.ok.inj h
    obtain rfl := List.mem_singleton.1 hf
    exact .here
  | cons part parts ih =>
    cases part with
    | directory =>
      obtain rfl := Except.ok.inj h
      exact absurd hf List.not_mem_nil
    | up => exact .up (ih h hf)
    | exact name =>
      rw [select] at h
      obtain ⟨node, hnode, h⟩ := bind_eq_ok_iff.1 h
      split at h
      · obtain rfl := Except.ok.inj h
        exact absurd hf List.not_mem_nil
      · exact .exactDir hnode (ih h hf)
      · obtain ⟨rfl, rfl⟩ := eq_of_mem_of_noDir h hf
        exact .exactEnds hnode
    | name pattern =>
      rw [select] at h
      obtain ⟨-, -, h⟩ := bind_eq_ok_iff.1 h
      obtain ⟨selected, hselected, h⟩ := bind_eq_ok_iff.1 h
      obtain rfl := Except.ok.inj h
      obtain ⟨fs, hfs, hf⟩ := List.mem_flatten.1 hf
      obtain ⟨⟨name, node⟩, hmem, hfs⟩ := (mem_mapM_iff hselected).1 hfs
      obtain ⟨child, isMatch⟩ := List.mem_filter.1 hmem
      dsimp only at hfs
      split at hfs
      · exact .nameDir child isMatch (ih hfs hf)
      · obtain ⟨rfl, rfl⟩ := eq_of_mem_of_noDir hfs hf
        exact .nameEnds child isMatch
    | deep =>
      rw [select] at h
      obtain ⟨selected, hselected, h⟩ := bind_eq_ok_iff.1 h
      obtain rfl := Except.ok.inj h
      obtain ⟨fs, hfs, hf⟩ := List.mem_flatten.1 hf
      obtain ⟨q, dir, hfs⟩ := (mem_mapM_iff hselected).1 hfs
      obtain ⟨-, -, hfs⟩ := bind_eq_ok_iff.1 hfs
      exact .deep dir (ih hfs hf)

theorem mem_filter_children {pattern name : Text} {node : Node}
    (child : (name, node) ∈ w.children p) (isMatch : Glob.matchesName pattern name) :
    (name, node) ∈ (w.children p).filter fun e => Glob.matchesName pattern e.1 :=
  List.mem_filter.2 ⟨child, isMatch⟩

namespace Selects

/-- What the parts of a pattern lead to is selected, where nothing is refused. -/
theorem mem_select (hf : w.Selects p parts f) {ps : List Path} (h : w.select p parts = .ok ps) :
    f ∈ ps := by
  induction hf generalizing ps with
  | here =>
    obtain rfl := Except.ok.inj h
    exact List.mem_singleton_self _
  | up _ ih => exact ih h
  | exactDir dir _ ih =>
    rw [select, dir] at h
    exact ih h
  | @exactEnds _ _ node found =>
    rw [select, found] at h
    cases node <;> obtain rfl := Except.ok.inj h <;> exact List.mem_singleton_self _
  | nameDir child isMatch _ ih =>
    rw [select] at h
    obtain ⟨-, -, h⟩ := bind_eq_ok_iff.1 h
    obtain ⟨selected, hselected, h⟩ := bind_eq_ok_iff.1 h
    obtain rfl := Except.ok.inj h
    have hmem := mem_filter_children child isMatch
    obtain ⟨fs, hfs⟩ := exists_mapM_eq_ok_iff.1 ⟨_, hselected⟩ _ hmem
    exact List.mem_flatten.2 ⟨fs, (mem_mapM_iff hselected).2 ⟨_, hmem, hfs⟩, ih hfs⟩
  | @nameEnds _ _ _ node child isMatch =>
    rw [select] at h
    obtain ⟨-, -, h⟩ := bind_eq_ok_iff.1 h
    obtain ⟨selected, hselected, h⟩ := bind_eq_ok_iff.1 h
    obtain rfl := Except.ok.inj h
    have hmem := mem_filter_children child isMatch
    refine List.mem_flatten.2
      ⟨_, (mem_mapM_iff hselected).2 ⟨_, hmem, ?_⟩, List.mem_singleton_self _⟩
    cases node <;> rfl
  | deep dir _ ih =>
    rw [select] at h
    obtain ⟨selected, hselected, h⟩ := bind_eq_ok_iff.1 h
    obtain rfl := Except.ok.inj h
    obtain ⟨fs, hfs⟩ := exists_mapM_eq_ok_iff.1 ⟨_, hselected⟩ _ dir
    obtain ⟨-, -, hselect⟩ := bind_eq_ok_iff.1 hfs
    exact List.mem_flatten.2 ⟨fs, (mem_mapM_iff hselected).2 ⟨_, dir, hfs⟩, ih hselect⟩

/-- What a pattern selects begins where the path of the directory does. -/
theorem root_eq (h : w.Selects p parts f) : f.root = p.root := by
  induction h with
  | here | exactEnds | nameEnds => rfl
  | up _ ih | exactDir _ _ ih | nameDir _ _ _ ih => exact ih
  | deep dir _ ih =>
    rcases mem_dirsFrom_iff.1 dir with rfl | ⟨_, _, _, _, _, _, rfl⟩
    · exact ih
    · exact ih

/-- What a pattern selects goes on from the path of the directory. -/
theorem parts_prefix (h : w.Selects p parts f) : p.parts <+: f.parts := by
  have hbelow : ∀ {p f : Path} {names : List Text}, (p.below names).parts <+: f.parts →
      p.parts <+: f.parts := fun {p _ names} h => (List.prefix_append p.parts names).trans h
  induction h with
  | here => exact List.prefix_rfl
  | exactEnds | nameEnds => exact List.prefix_append ..
  | up _ ih | exactDir _ _ ih | nameDir _ _ _ ih => exact hbelow ih
  | deep dir _ ih =>
    rcases mem_dirsFrom_iff.1 dir with rfl | ⟨_, _, _, _, _, _, rfl⟩
    · exact ih
    · exact hbelow ih

/-- A file that stands elsewhere is still selected after a change at one location. -/
theorem agreeOff (hagree : AgreeOff loc w w') {l : Location} {content : List UInt8}
    (hfile : w.locate f = .ok (.taken l (.file content))) (hne : l ≠ loc)
    (h : w.Selects p parts f) : w'.Selects p parts f := by
  induction h with
  | here => exact .here
  | up _ ih => exact .up (ih hfile)
  | exactDir dir _ ih =>
    obtain ⟨ld, hdir⟩ := node?_eq_some_iff.1 dir
    exact .exactDir (node?_eq_some_iff.2 ⟨ld, hagree.locate_dir hdir⟩) (ih hfile)
  | exactEnds =>
    exact .exactEnds (node?_eq_some_iff.2 ⟨l, hagree.locate_file hfile hne⟩)
  | nameDir child isMatch _ ih =>
    obtain ⟨ld, hdir, hget, hopen⟩ := mem_children_iff.1 child
    refine .nameDir ?_ isMatch (ih hfile)
    exact mem_children_iff.2
      ⟨ld, hagree.locate_dir hdir, hagree.get?_eq_dir hget, hagree.canList_iff.2 hopen⟩
  | nameEnds child isMatch =>
    obtain ⟨ld, hdir, hget, hopen⟩ := mem_children_iff.1 child
    -- the file stands in the directory that was listed, so its entry there is not the changed one
    obtain rfl := location_of_child hdir hfile
    have hget' := (hagree.elsewhere _ hne).trans hget
    exact .nameEnds (mem_children_iff.2
      ⟨ld, hagree.locate_dir hdir, hget', hagree.canList_iff.2 hopen⟩) isMatch
  | deep dir _ ih =>
    refine .deep (mem_dirsFrom_iff.2 ?_) (ih hfile)
    refine (mem_dirsFrom_iff.1 dir).imp_right ?_
    rintro ⟨ld, names, hdir, hnames, hget, hshows, hq⟩
    exact ⟨ld, names, hagree.locate_dir hdir, hnames, hagree.get?_eq_dir hget,
      hagree.shows_iff.2 hshows, hq⟩

end Selects

/-- Where nothing is refused, a pattern selects the paths that its parts lead to. -/
theorem mem_select_iff {ps : List Path} (h : w.select p parts = .ok ps) :
    f ∈ ps ↔ w.Selects p parts f :=
  ⟨selects_of_mem h, fun hf => hf.mem_select h⟩

end LineSpec.Workspace
