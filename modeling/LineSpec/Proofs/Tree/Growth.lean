import LineSpec.Proofs.Tree.Change
import Mathlib.Logic.Relation
/-!
# Workspaces that grow

Making directories and writing files takes nothing away. A step makes a directory where nothing
stands, or puts a content where a file stands or nothing does, so directories stay directories and
files stay files, with the same or another content. A path that led to something still leads there
after any number of steps, and each location where something is new or other than before is one that
the path of a step leads to (`Grows.leadsTo_of_changed`).

A path that goes on from a directory without ever climbing above it only leads to what lies below
the directory (`atOrBelow_of_stays`).
-/

namespace LineSpec

namespace Path

/-- `q` is `p` itself or a path above it. -/
def IsAbove (q p : Path) : Prop := q.root = p.root ∧ q.parts <+: p.parts

instance (q p : Path) : Decidable (q.IsAbove p) := inferInstanceAs (Decidable (_ ∧ _))

theorem IsAbove.rfl {p : Path} : p.IsAbove p := ⟨.refl _, List.prefix_rfl⟩

theorem IsAbove.trans {p q r : Path} (h : p.IsAbove q) (h' : q.IsAbove r) : p.IsAbove r :=
  ⟨h.1.trans h'.1, h.2.trans h'.2⟩

theorem parent_isAbove (p : Path) : p.parent.IsAbove p := ⟨.refl _, List.dropLast_prefix _⟩

/-- `stays depth names`: names that are followed from a place `depth` names below a directory never
climb above the directory. -/
def stays : (depth : Nat) → List Text → Bool
  | _, [] => true
  | depth, name :: names =>
    if name = "." then stays depth names
    else if name = ".." then
      match depth with
      | 0 => false
      | depth + 1 => stays depth names
    else stays (depth + 1) names

section
variable {depth : Nat} {name : Text} {names : List Text}

theorem stays_dot : stays depth ("." :: names) = stays depth names := by
  rw [stays.eq_def]
  exact if_pos rfl

theorem stays_dots : stays (depth + 1) (".." :: names) = stays depth names := by
  rw [stays.eq_def]
  exact (if_neg (by decide)).trans (if_pos rfl)

theorem stays_cons (hdot : name ≠ ".") (hdots : name ≠ "..") :
    stays depth (name :: names) = stays (depth + 1) names := by
  rw [stays.eq_def]
  exact (if_neg hdot).trans (if_neg hdots)

end

/-- A text that, as a path seen from a directory, never climbs above it. -/
def StaysBelow (t : Text) : Prop := (ofText t).root = .relative ∧ stays 0 (ofText t).parts = true

instance (t : Text) : Decidable (StaysBelow t) := inferInstanceAs (Decidable (_ ∧ _))

theorem stays_of_append {depth : Nat} {names names' : List Text}
    (h : stays depth (names ++ names') = true) : stays depth names = true := by
  induction names generalizing depth with
  | nil => rfl
  | cons name names ih =>
    rw [List.cons_append] at h
    by_cases hdot : name = "."
    · subst hdot
      rw [stays_dot] at h ⊢
      exact ih h
    by_cases hdots : name = ".."
    · subst hdots
      cases depth with
      | zero => cases h
      | succ depth =>
        rw [stays_dots] at h ⊢
        exact ih h
    · rw [stays_cons hdot hdots] at h ⊢
      exact ih h

end Path

namespace Workspace

variable {w w' w'' : Workspace} {p q : Path} {loc : Location} {node : Node}

/-! ## What stays -/

/-- What stands in `t` still stands in `t'`, a directory as a directory and anything else as no
directory. -/
def StaysIn (t t' : Tree) : Prop :=
  ∀ l node, t.get? l = some node → ∃ node', t'.get? l = some node' ∧ (node = .dir ↔ node' = .dir)

theorem StaysIn.get?_eq_dir {t t' : Tree} (h : StaysIn t t') (hdir : t.get? loc = some .dir) :
    t'.get? loc = some .dir := by
  obtain ⟨node, hnode, hiff⟩ := h _ _ hdir
  rw [hnode, hiff.1 rfl]

theorem StaysIn.put {t : Tree} (h : ∀ old, t.get? loc = some old → (old = .dir ↔ node = .dir)) :
    StaysIn t (t.put loc node) := by
  intro l old hold
  by_cases hl : loc = l
  · subst hl
    by_cases hroot : loc = []
    · subst hroot
      exact ⟨.dir, rfl, by simp [← Option.some.inj hold]⟩
    · exact ⟨node, Tree.get?_put_self _ _ hroot, h _ hold⟩
  · exact ⟨old, by rw [Tree.get?_put_of_ne _ _ hl, hold], .rfl⟩

/-- Names that led to something still do. -/
theorem StaysIn.follows {t t' : Tree} (h : StaysIn t t') {start : Location} {names : List Text}
    (hfollows : Follows t start names (.taken loc node)) :
    ∃ node', Follows t' start names (.taken loc node') ∧ (node = .dir ↔ node' = .dir) := by
  generalize hplace : Place.taken loc node = place at hfollows
  induction hfollows with
  | here =>
    obtain ⟨rfl, rfl⟩ := Place.taken.inj hplace
    exact ⟨.dir, .here, .rfl⟩
  | dot _ ih => exact (ih hplace).imp fun _ => .imp_left .dot
  | dots _ ih => exact (ih hplace).imp fun _ => .imp_left .dots
  | passes plain dir _ ih =>
    exact (ih hplace).imp fun _ => .imp_left (.passes plain (h.get?_eq_dir dir))
  | ends plain location hnode noDir =>
    subst hplace
    obtain ⟨node', hnode', hiff⟩ := h _ _ hnode
    refine ⟨node', .ends plain location hnode' fun heq => noDir ?_, hiff⟩
    rw [Place.node?, hiff.2 (Option.some.inj heq)]

/-- The names of a path lead to something at a location. -/
def LeadsTo (w : Workspace) (p : Path) (loc : Location) : Prop :=
  ∃ node, follow w.tree (w.origin p) p.parts = .ok (.taken loc node)

theorem leadsTo_iff :
    w.LeadsTo p loc ↔ ∃ node, Follows w.tree (w.origin p) p.parts (.taken loc node) :=
  exists_congr fun _ => follow_eq_ok_iff

theorem follows_of_locate {place : Place} (h : w.locate p = .ok place) :
    Follows w.tree (w.origin p) p.parts place := by
  rcases locate_cases p with ⟨e, he⟩ | hfollow
  · cases (he w).symm.trans h
  · rwa [hfollow, mapError_eq_ok_iff, follow_eq_ok_iff] at h

/-! ## Steps -/

/-- Names end where the tree has what they lead to, unless that is the directory they begin at. -/
theorem Follows.get?_eq {t : Tree} {start : Location} {names : List Text} {place : Place}
    (h : Follows t start names place) (hdir : place.node? ≠ some .dir) :
    t.get? place.location = place.node? := by
  induction h with
  | here => exact absurd rfl hdir
  | dot _ ih | dots _ ih | passes _ _ _ ih => exact ih hdir
  | ends _ location hnode => rw [location, hnode]

/-- Names lead to what is put where they end. -/
theorem Follows.put {t : Tree} {start : Location} {names : List Text} {place : Place}
    (h : Follows t start names place) (hdir : place.node? ≠ some .dir) (node : Node) :
    Follows (t.put place.location node) start names (.taken place.location node) := by
  have hget := h.get?_eq hdir
  induction h with
  | here => exact absurd rfl hdir
  | dot _ ih => exact (ih hdir hget).dot
  | dots _ ih => exact (ih hdir hget).dots
  | @passes start name _ place plain dir _ ih =>
    -- a directory on the way is not where the names end
    have hne : place.location ≠ start ++ [name] := fun heq => hdir (by rw [← hget, heq, dir])
    exact .passes plain (by rw [Tree.get?_put_of_ne _ _ hne, dir]) (ih hdir hget)
  | @ends start name place plain location hnode noDir =>
    have hput : (t.put place.location node).get? (start ++ [name]) = some node := by
      rw [location, Tree.get?_put_self _ _ (by simp)]
    cases node with
    | dir => exact .passes plain hput (location ▸ .here)
    | file | device => exact .ends plain location hput nofun

/-- A place for a file: a file stands there, or nothing does. -/
def Place.IsForFile (place : Place) : Prop :=
  ∀ node, place.node? = some node → ∃ content, node = .file content

theorem Place.IsForFile.node?_ne {place : Place} (h : place.IsForFile)
    (hnode : ∀ content, node ≠ .file content) : place.node? ≠ some node := by
  intro heq
  obtain ⟨content, rfl⟩ := h node heq
  exact hnode content rfl

theorem isForFile_free (loc : Location) : (Place.free loc).IsForFile := nofun

theorem isForFile_file (loc : Location) (content : List UInt8) :
    (Place.taken loc (.file content)).IsForFile := by
  rintro _ ⟨⟩
  exact ⟨content, rfl⟩

/-- `Step P w w'`: a directory is made, or a file is written, where a path in `P` leads. -/
inductive Step (P : Path → Prop) (w : Workspace) : Workspace → Prop
  | makesDir {p : Path} {loc : Location} (path : P p) (free : w.locate p = .ok (.free loc)) :
      Step P w (w.put loc .dir)
  | writes {p : Path} {place : Place} (content : List UInt8) (path : P p)
      (leads : w.locate p = .ok place) (forFile : place.IsForFile) :
      Step P w (w.put place.location (.file content))

variable {P Q : Path → Prop}

/-- What a step puts, and where. -/
theorem Step.exists_put (h : Step P w w') :
    ∃ p loc node, P p ∧ w' = w.put loc node ∧ w'.LeadsTo p loc ∧
      ∀ old, w.tree.get? loc = some old → (old = .dir ↔ node = .dir) := by
  cases h with
  | @makesDir p loc hp hfree =>
    have hfollows := follows_of_locate hfree
    have hget := hfollows.get?_eq nofun
    refine ⟨p, loc, .dir, hp, rfl, leadsTo_iff.2 ⟨_, hfollows.put nofun _⟩, fun old hold => ?_⟩
    cases hget.symm.trans hold
  | @writes p place content hp hplace hforFile =>
    have hdir : place.node? ≠ some .dir := hforFile.node?_ne nofun
    have hfollows := follows_of_locate hplace
    have hget := hfollows.get?_eq hdir
    refine ⟨p, _, _, hp, rfl, leadsTo_iff.2 ⟨_, hfollows.put hdir _⟩, fun old hold => ?_⟩
    refine iff_of_false ?_ Node.noConfusion
    rintro rfl
    exact hdir (hget.symm.trans hold)

theorem Step.mono (h : Step P w w') (hPQ : ∀ p, P p → Q p) : Step Q w w' := by
  cases h with
  | makesDir hp hfree => exact .makesDir (hPQ _ hp) hfree
  | writes content hp hplace hforFile => exact .writes content (hPQ _ hp) hplace hforFile

/-- A path that led to something still leads there. -/
theorem Step.leadsTo (hstep : Step P w w') (h : w.LeadsTo q loc) : w'.LeadsTo q loc := by
  obtain ⟨_, _, _, -, rfl, -, hkind⟩ := hstep.exists_put
  obtain ⟨node, hfollows⟩ := leadsTo_iff.1 h
  obtain ⟨node', hfollows', -⟩ := (StaysIn.put hkind).follows hfollows
  exact leadsTo_iff.2 ⟨node', hfollows'⟩

/-! ## Growing -/

/-- `Grows P w w'`: any number of steps at paths in `P`. -/
abbrev Grows (P : Path → Prop) : Workspace → Workspace → Prop :=
  Relation.ReflTransGen (Step P)

namespace Grows

theorem mono (h : Grows P w w') (hPQ : ∀ p, P p → Q p) : Grows Q w w' :=
  Relation.ReflTransGen.mono (fun _ _ hstep => hstep.mono hPQ) _ _ h

/-- Where something is new or other than before, the path of a step leads. -/
theorem leadsTo_of_changed (h : Grows P w w') (hne : w'.tree.get? loc ≠ w.tree.get? loc) :
    ∃ p, P p ∧ w'.LeadsTo p loc := by
  induction h with
  | refl => exact absurd rfl hne
  | @tail w₁ w₂ _ hstep ih =>
    -- the last step put something there, or else an earlier one did
    by_cases hsame : w₂.tree.get? loc = w₁.tree.get? loc
    · obtain ⟨p, hp, hleads⟩ := ih (hsame ▸ hne)
      exact ⟨p, hp, hstep.leadsTo hleads⟩
    · obtain ⟨p, loc', node, hp, rfl, hleads, -⟩ := hstep.exists_put
      obtain rfl : loc' = loc := by
        by_contra hloc
        exact hsame (Tree.get?_put_of_ne _ _ hloc)
      exact ⟨p, hp, hleads⟩

end Grows

theorem grows_write (w : Workspace) (p : Path) (content : List UInt8) :
    Grows (·.IsAbove p) w (w.write p content).1 := by
  rw [write]
  split
  · exact .refl
  · exact .refl
  next hplace => exact .single (.writes content .rfl hplace (isForFile_file _ _))
  · exact .refl
  next hplace => exact .single (.writes content .rfl hplace (isForFile_free _))

/-! ## Making directories -/

section
variable {R : Workspace → Workspace → Prop} [Std.Refl R]

theorem rel_makeDir (h : ∀ loc, w.locate p = .ok (.free loc) → R w (w.put loc .dir)) :
    R w (w.makeDir p).1 := by
  rw [makeDir]
  split
  · exact refl _
  · exact refl _
  next loc hfree => exact h loc hfree

theorem rel_ensureDir (h : ∀ loc, w.locate p = .ok (.free loc) → R w (w.put loc .dir)) :
    R w (w.ensureDir p).1 := by
  have hmake := rel_makeDir h
  rw [ensureDir]
  split
  all_goals
    next heq =>
      rw [heq] at hmake
      exact hmake

variable [IsTrans Workspace R]

theorem rel_ensureDirsFrom {root : Path.Root} {parts : List Text}
    (h : ∀ w q loc, q.IsAbove ⟨root, parts.reverse⟩ → w.locate q = .ok (.free loc) →
      R w (w.put loc .dir)) : R w (w.ensureDirsFrom root parts).1 := by
  induction parts generalizing w with
  | nil => exact rel_ensureDir fun loc => h w _ loc .rfl
  | cons part parts ih =>
    have habove : Path.IsAbove ⟨root, parts.reverse⟩ ⟨root, (part :: parts).reverse⟩ :=
      ⟨rfl, by rw [List.reverse_cons]; exact List.prefix_append _ _⟩
    have hfirst : R w (w.makeDir ⟨root, (part :: parts).reverse⟩).1 :=
      rel_makeDir fun loc => h w _ loc .rfl
    rw [ensureDirsFrom]
    split
    next heq =>
      rw [heq] at hfirst
      exact hfirst
    -- the directory above is missing: it is made first, and then the directory again
    next w₁ path heq =>
      rw [heq] at hfirst
      have hdirs : R w₁ (w₁.ensureDirsFrom root parts).1 :=
        ih fun w q loc hq => h w q loc (hq.trans habove)
      have hrest := IsTrans.trans _ _ _ hfirst hdirs
      split
      next heq' =>
        rw [heq'] at hrest
        exact IsTrans.trans _ _ _ hrest (rel_ensureDir fun loc => h _ _ loc .rfl)
      next heq' =>
        rw [heq'] at hrest
        exact hrest
    next heq =>
      rw [heq] at hfirst
      exact hfirst

/-- Making a directory and those above it is any number of changes, each of them a directory that is
made where nothing stands yet and the path of one of these directories leads. -/
theorem rel_ensureDirs (h : ∀ w q loc, q.IsAbove p → w.locate q = .ok (.free loc) →
    R w (w.put loc .dir)) : R w (w.ensureDirs p).1 := by
  refine rel_ensureDirsFrom fun w q loc hq => h w q loc ?_
  rwa [List.reverse_reverse] at hq

end

/-- Making a directory and those above it puts something only where its path, or one above it,
leads. -/
theorem grows_ensureDirs (w : Workspace) (p : Path) :
    Grows (·.IsAbove p) w (w.ensureDirs p).1 :=
  rel_ensureDirs fun _ _ _ hq hfree => .single (.makesDir hq hfree)

/-! ## At or below a directory -/

/-- A location is that of a directory or of one above it, or lies below the directory. -/
inductive AtOrBelow (w : Workspace) (dir : Path) (loc : Location) : Prop
  | above {q : Path} (above : q.IsAbove dir) (leads : w.LeadsTo q loc)
  | below {l : Location} (leads : w.LeadsTo dir l) (begins : l <+: loc)

/-- Names that are followed from somewhere below a directory, and never climb above it, lead to what
lies below it. -/
theorem Follows.prefix_location {t : Tree} {start below : Location} {names : List Text}
    {place : Place} (h : Follows t (start ++ below) names place)
    (hstays : Path.stays below.length names = true) : start <+: place.location := by
  generalize hfrom : start ++ below = origin at h
  induction h generalizing below with
  | here => exact ⟨below, hfrom⟩
  | dot _ ih => exact ih (Path.stays_dot ▸ hstays) hfrom
  | dots _ ih =>
    obtain rfl | ⟨below, name, rfl⟩ := List.eq_nil_or_concat below
    · cases hstays
    · rw [List.length_concat, Path.stays_dots] at hstays
      exact ih hstays (by simp [← hfrom, ← List.append_assoc])
  | @passes _ name _ _ plain _ _ ih =>
    rw [Path.stays_cons plain.noDot plain.noDots, ← List.length_concat (a := name)] at hstays
    exact ih hstays (by simp [← hfrom])
  | @ends _ name _ _ location =>
    rw [location, ← hfrom, List.append_assoc]
    exact List.prefix_append _ _

/-- What a path leads to, or one above it, is at or below a directory if the path goes on from there
and never climbs above it. -/
theorem atOrBelow_of_stays {dir : Path} {names : List Text}
    (hq : q.IsAbove (dir.below names)) (hleads : w.LeadsTo q loc)
    (hstays : Path.stays 0 names = true) : w.AtOrBelow dir loc := by
  obtain ⟨hroot, hparts⟩ := hq
  rw [Path.below] at hroot hparts
  -- the path that leads there is above the directory, or goes on behind it
  rcases List.prefix_or_prefix_of_prefix hparts (List.prefix_append _ _) with hshort | hlong
  · exact .above ⟨hroot, hshort⟩ hleads
  obtain ⟨names', hnames'⟩ := hlong
  by_cases hne : names' = []
  · exact .above ⟨hroot, by simp [← hnames', hne]⟩ hleads
  rw [← hnames', List.prefix_append_right_inj] at hparts
  obtain ⟨names'', rfl⟩ := hparts
  obtain ⟨node, hfollows⟩ := leadsTo_iff.1 hleads
  have horigin : w.origin q = w.origin dir := by rw [origin, origin, hroot]
  rw [← hnames', horigin] at hfollows
  obtain ⟨l, hdir, hrest⟩ := hfollows.exists_of_append hne
  rw [← List.append_nil l] at hrest
  exact .below (leadsTo_iff.2 ⟨_, hdir⟩) (hrest.prefix_location (Path.stays_of_append hstays))

end Workspace

end LineSpec
