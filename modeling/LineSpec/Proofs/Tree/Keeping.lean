import LineSpec.Proofs.Tree.Growth
/-!
# Files that stay as they are

Where names lead depends on the tree only in whether they lead to a place at all: the place is the
one that the names spell out (`Workspace.resolved`), with each `..` taking back the name before it.
So two paths that are spelled out to different locations never lead to the same file.

A file that was written is found where its path leads (`locate_of_write`), and it keeps its content
while directories are made and files are written elsewhere (`Keeps`).
-/

namespace LineSpec.Workspace

variable {w w' w'' : Workspace} {p q : Path} {loc : Location} {node : Node}

/-! ## Where names lead -/

/-- The location that names spell out, from a location on. -/
def spelled (start : Location) : List Text → Location
  | [] => start
  | name :: names =>
    if name = "." then spelled start names
    else if name = ".." then spelled start.dropLast names
    else spelled (start ++ [name]) names

/-- The location that a path spells out. -/
def resolved (w : Workspace) (p : Path) : Location := spelled (w.origin p) p.parts

theorem resolved_eq (h : w'.home = w.home) (p : Path) : w'.resolved p = w.resolved p := by
  rw [resolved, resolved, origin, origin, h]

/-- Names lead to the location that they spell out, if they lead anywhere. -/
theorem Follows.location_eq {t : Tree} {start : Location} {names : List Text} {place : Place}
    (h : Follows t start names place) : place.location = spelled start names := by
  induction h with
  | here => rfl
  | dot _ ih => rw [spelled, if_pos rfl, ih]
  | dots _ ih => rw [spelled, if_neg (by decide), if_pos rfl, ih]
  | passes plain _ _ ih => rw [spelled, if_neg plain.noDot, if_neg plain.noDots, ih]
  | ends plain location => rw [spelled, if_neg plain.noDot, if_neg plain.noDots, location, spelled]

theorem location_eq_resolved {place : Place} (h : w.locate p = .ok place) :
    place.location = w.resolved p :=
  (follows_of_locate h).location_eq

theorem canRead_resolved_of_read {content : List UInt8} (h : w.read p = .ok content) :
    w.tree.CanRead (w.resolved p) := by
  obtain ⟨loc, node, hplace, hopen⟩ := exists_locate_of_read h
  exact location_eq_resolved hplace ▸ hopen

/-- What names lead to can be located, in any workspace in which the path itself can be. -/
theorem locate_of_follows {place place' : Place} (h : w.locate p = .ok place)
    (hfollows : Follows w'.tree (w'.origin p) p.parts place') : w'.locate p = .ok place' := by
  rcases locate_cases p with ⟨e, he⟩ | hfollow
  · cases (he w).symm.trans h
  · rw [hfollow, hfollows.follow_eq]
    rfl

/-! ## Written files -/

/-- The workspace with a content at a location. A device keeps none. -/
def withContent (w : Workspace) (loc : Location) (content : List UInt8) : Workspace :=
  if w.tree.get? loc = some .device then w else w.put loc (.file content)

/-- Writing that succeeds leaves the content at the location that the path spells out. -/
theorem write_eq_ok {content : List UInt8} (h : w.write p content = (w', .ok ())) :
    w' = w.withContent (w.resolved p) content ∧
      ∃ place, w.locate p = .ok place ∧ place.node? ≠ some .dir := by
  have hleaves : ∀ place, w.locate p = .ok place → place.node? ≠ some .dir →
      w' = (if place.node? = some .device then w else w.put place.location (.file content)) →
      w' = w.withContent (w.resolved p) content ∧
        ∃ place, w.locate p = .ok place ∧ place.node? ≠ some .dir := by
    intro place hplace hdir hw'
    rw [withContent, ← location_eq_resolved hplace, (follows_of_locate hplace).get?_eq hdir]
    exact ⟨hw', place, hplace, hdir⟩
  rw [write] at h
  split at h
  · cases congrArg Prod.snd h
  · cases congrArg Prod.snd h
  all_goals
    next hplace =>
      obtain ⟨rfl, -⟩ := Prod.mk.inj h
      exact hleaves _ hplace (by simp [Place.node?]) rfl

theorem get?_withContent_of_ne {content : List UInt8} {l : Location} (h : l ≠ loc) :
    (w.withContent loc content).tree.get? l = w.tree.get? l := by
  rw [withContent]
  split
  · rfl
  · exact Tree.get?_put_of_ne _ _ (Ne.symm h)

/-- Where writing succeeds, the path leads to a file with the content then, or to a device, and
nothing has changed. -/
theorem locate_of_write {content : List UInt8} (h : w.write p content = (w', .ok ())) :
    w'.locate p = .ok (.taken (w.resolved p) (.file content)) ∨
      w' = w ∧ w.locate p = .ok (.taken (w.resolved p) .device) := by
  obtain ⟨rfl, place, hplace, hdir⟩ := write_eq_ok h
  have hfollows := follows_of_locate hplace
  have hget := hfollows.get?_eq hdir
  have hput := hfollows.put hdir (.file content)
  rw [location_eq_resolved hplace] at hget hput
  rw [withContent]
  split
  next hdevice =>
    refine .inr ⟨rfl, ?_⟩
    rw [hplace, ← Place.holding_eq place, ← hget, hdevice, location_eq_resolved hplace]
    rfl
  · exact .inl (locate_of_follows hplace hput)

/-- A file that may be read stands where a path leads. -/
def HasFile (w : Workspace) (p : Path) : Prop :=
  ∃ loc content, w.locate p = .ok (.taken loc (.file content)) ∧ w.tree.CanRead loc

instance (w : Workspace) (p : Path) : Decidable (w.HasFile p) :=
  match h : w.locate p with
  | .ok (.taken loc (.file _)) => decidable_of_iff (w.tree.CanRead loc) (by simp [HasFile, h])
  | .ok (.taken _ .dir) | .ok (.taken _ .device) | .ok (.free _) | .error _ =>
    isFalse (by simp [HasFile, h])

/-- A path leads to a file with the content, or to a device, which keeps none. -/
def Received (w : Workspace) (p : Path) (content : List UInt8) : Prop :=
  w.locate p = .ok (.taken (w.resolved p) (.file content)) ∨
    w.locate p = .ok (.taken (w.resolved p) .device)

theorem received_of_write {content : List UInt8} (h : w.write p content = (w', .ok ())) :
    w'.Received p content := by
  rcases locate_of_write h with hplace | ⟨rfl, hplace⟩
  · have hresolved : w.resolved p = w'.resolved p := location_eq_resolved hplace
    exact .inl (hresolved ▸ hplace)
  · exact .inr hplace

/-- A file keeps what its path has received. -/
theorem Received.content_eq {content content' : List UInt8} (h : w.Received p content)
    (hplace : w.locate p = .ok (.taken loc (.file content'))) : content = content' := by
  rcases h with hreceived | hdevice
  · cases hreceived.symm.trans hplace
    rfl
  · cases hdevice.symm.trans hplace

/-- A content that was received is read where a file stands that may be read. -/
theorem Received.read_eq_ok {content : List UInt8} (h : w.Received p content)
    (hfile : w.HasFile p) : w.read p = .ok content := by
  obtain ⟨loc, old, hplace, hopen⟩ := hfile
  rw [h.content_eq hplace]
  exact read_of_locate hplace hopen

/-! ## Kept things -/

/-- `Keeps changed w w'`: in `w'` each thing in `w` is found where it was, a file with its content,
unless its location is among those that are changed. -/
structure Keeps (changed : Location → Prop) (w w' : Workspace) : Prop where
  home : w'.home = w.home
  closed : w'.tree.closed = w.tree.closed
  thing : ∀ (p : Path) (loc : Location) (node : Node), ¬changed loc →
    w.locate p = .ok (.taken loc node) → w'.locate p = .ok (.taken loc node)

namespace Keeps

variable {changed changed' : Location → Prop}

instance refl_keeps : Std.Refl (Keeps changed) := ⟨fun _ => ⟨rfl, rfl, fun _ _ _ _ h => h⟩⟩

instance isTrans_keeps : IsTrans Workspace (Keeps changed) :=
  ⟨fun _ _ _ h h' => ⟨h'.home.trans h.home, h'.closed.trans h.closed,
    fun p loc node hloc hplace => h'.thing p loc node hloc (h.thing p loc node hloc hplace)⟩⟩

theorem mono (h : Keeps changed w w') (himp : ∀ loc, changed loc → changed' loc) :
    Keeps changed' w w' :=
  ⟨h.home, h.closed,
    fun p loc node hloc => h.thing p loc node fun hchanged => hloc (himp loc hchanged)⟩

/-- Putting something where no directory stands, or a directory where nothing does, changes only
what stood there. -/
theorem put (hkind : ∀ old, w.tree.get? loc = some old → (old = .dir ↔ node = .dir)) :
    Keeps (fun l => l = loc ∧ w.tree.get? l ≠ none) w (w.put loc node) := by
  refine ⟨rfl, rfl, fun p l old hl hplace => locate_of_follows hplace ?_⟩
  have hfollows := follows_of_locate hplace
  obtain ⟨new, hfollows', hiff⟩ := (StaysIn.put hkind).follows hfollows
  by_cases hdir : old = .dir
  · rwa [hdir, ← hiff.1 hdir]
  -- what is no directory stands in the tree, at another location
  have hold : w.tree.get? l = some old :=
    hfollows.get?_eq fun heq => hdir (Option.some.inj heq)
  have hnew : (w.tree.put loc node).get? l = some new :=
    hfollows'.get?_eq fun heq => hdir (hiff.2 (Option.some.inj heq))
  have hne : loc ≠ l := fun heq => hl ⟨heq.symm, by simp [hold]⟩
  rw [Tree.get?_put_of_ne _ _ hne, hold] at hnew
  rwa [Option.some.inj hnew]

/-- A file is read as before, unless its location is among those that are changed. -/
theorem read_eq_ok {content : List UInt8} (h : Keeps changed w w')
    (hloc : ¬changed (w.resolved p)) (hread : w.read p = .ok content) :
    w'.read p = .ok content := by
  obtain ⟨loc, node, hplace, -⟩ := exists_locate_of_read hread
  rw [← location_eq_resolved hplace] at hloc
  have hsame := (h.thing p loc node hloc hplace).trans hplace.symm
  rw [read_congr hsame fun _ _ _ => by rw [Tree.CanRead, Tree.CanRead, h.closed], hread]

theorem received {content : List UInt8} (h : Keeps changed w w')
    (hloc : ¬changed (w.resolved p)) (hreceived : w.Received p content) :
    w'.Received p content := by
  rw [Received, resolved_eq h.home]
  exact hreceived.imp (h.thing _ _ _ hloc) (h.thing _ _ _ hloc)

end Keeps

/-- Making directories changes nothing that is there. -/
theorem keeps_ensureDirs (w : Workspace) (p : Path) :
    Keeps (fun _ => False) w (w.ensureDirs p).1 := by
  refine rel_ensureDirs fun w q loc _ hfree => ?_
  have hnone := (follows_of_locate hfree).get?_eq nofun
  have hput : Keeps _ w (w.put loc .dir) := .put fun old hold => by cases hnone.symm.trans hold
  refine hput.mono ?_
  rintro _ ⟨rfl, hsome⟩
  exact hsome hnone

theorem keeps_write {content : List UInt8} (h : w.write p content = (w', .ok ())) :
    Keeps (· = w.resolved p) w w' := by
  obtain ⟨rfl, place, hplace, hdir⟩ := write_eq_ok h
  have hget := (follows_of_locate hplace).get?_eq hdir
  rw [location_eq_resolved hplace] at hget
  rw [withContent]
  split
  · exact refl _
  · refine (Keeps.put fun old hold => iff_of_false ?_ Node.noConfusion).mono fun _ => And.left
    rintro rfl
    exact hdir (hget.symm.trans hold)

end LineSpec.Workspace
