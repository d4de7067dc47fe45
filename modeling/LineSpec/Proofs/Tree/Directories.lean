import LineSpec.Proofs.Tree.Keeping
/-!
# Directories that are made

Making a directory and those above it succeeds only if the path leads to a directory then
(`exists_locate_of_ensureDirs`), and where it does already, nothing is done
(`ensureDirs_of_locate`). Whatever is done, a location changes only by becoming a directory where
nothing stood, and only if a path on the way, that led to nothing, spells it out (`MakesDirs`).

Doing something again changes nothing: a directory stays where it was made while the workspace
grows, and a file that is written with the content that it has stays as it is.
-/

namespace LineSpec

namespace Assoc

/-- Binding a name to the value that it has changes nothing. -/
theorem bind_of_get? {κ α : Type} [DecidableEq κ] {b : Assoc κ α} {name : κ} {value : α}
    (h : b.get? name = some value) : b.bind name value = b := by
  induction b with
  | nil => cases h
  | cons p b ih =>
    obtain ⟨m, v⟩ := p
    rw [get?] at h
    rw [bind]
    split at h
    next hm =>
      obtain rfl := Option.some.inj h
      rw [if_pos hm]
    next hm => rw [if_neg hm, ih h]

end Assoc

namespace Workspace

variable {w w' w'' : Workspace} {p q : Path} {loc : Location} {node : Node}

/-! ## A directory that is there -/

theorem exists_locate_of_isDir (h : w.isDir p = .ok true) :
    ∃ loc, w.locate p = .ok (.taken loc .dir) := by
  obtain ⟨node, hnode, hdir⟩ := map_eq_ok_iff.1 h
  rw [beq_iff_eq] at hdir
  exact node?_eq_some_iff.1 (hdir ▸ hnode)

theorem isDir_of_locate (h : w.locate p = .ok (.taken loc .dir)) : w.isDir p = .ok true := by
  rw [isDir, node?_eq_some_iff.2 ⟨loc, h⟩]
  rfl

/-- A refusal is forgiven only where a directory stands. -/
theorem exists_locate_of_forgive {e : AccessError} (h : w.forgive p e = .ok ()) :
    ∃ loc, w.locate p = .ok (.taken loc .dir) := by
  cases e with
  | nulInPath | unencodable => cases h
  | os =>
    rw [forgive] at h
    split at h
    next hdir => exact exists_locate_of_isDir hdir
    · cases h
    · cases h

theorem forgive_of_locate (h : w.locate p = .ok (.taken loc .dir)) (e : OsError) (path : Text) :
    w.forgive p (.os e path) = .ok () := by
  rw [forgive, isDir_of_locate h]

theorem makeDir_of_locate (h : w.locate p = .ok (.taken loc .dir)) :
    w.makeDir p = (w, .error (.os .exists p.text)) := by
  rw [makeDir, h]

theorem ensureDir_of_locate (h : w.locate p = .ok (.taken loc .dir)) :
    w.ensureDir p = (w, .ok ()) := by
  rw [ensureDir, makeDir_of_locate h]
  exact congrArg _ (forgive_of_locate h _ _)

/-- Where a directory stands, none is made. -/
theorem ensureDirs_of_locate (h : w.locate p = .ok (.taken loc .dir)) :
    w.ensureDirs p = (w, .ok ()) := by
  obtain ⟨root, parts⟩ := p
  rw [ensureDirs]
  generalize hnames : parts.reverse = names
  obtain rfl : parts = names.reverse := by rw [← hnames, List.reverse_reverse]
  cases names with
  | nil => exact ensureDir_of_locate h
  | cons part parts =>
    rw [ensureDirsFrom, makeDir_of_locate h]
    exact congrArg _ (forgive_of_locate h _ _)

/-! ## A directory that is made -/

theorem exists_locate_of_makeDir (h : w.makeDir p = (w', .ok ())) :
    ∃ loc, w'.locate p = .ok (.taken loc .dir) := by
  rw [makeDir] at h
  split at h
  · cases h
  · cases h
  next loc hfree =>
    obtain ⟨rfl, -⟩ := Prod.mk.inj h
    have hfollows := (follows_of_locate hfree).put (by simp [Place.node?]) .dir
    exact ⟨loc, locate_of_follows hfree hfollows⟩

theorem exists_locate_of_ensureDir (h : w.ensureDir p = (w', .ok ())) :
    ∃ loc, w'.locate p = .ok (.taken loc .dir) := by
  rw [ensureDir] at h
  split at h
  next hmake =>
    obtain ⟨rfl, -⟩ := Prod.mk.inj h
    exact exists_locate_of_makeDir hmake
  · cases h
  · obtain ⟨rfl, hforgive⟩ := Prod.mk.inj h
    exact exists_locate_of_forgive hforgive

/-- Where making a directory succeeds, the directory is there. -/
theorem exists_locate_of_ensureDirs (h : w.ensureDirs p = (w', .ok ())) :
    ∃ loc, w'.locate p = .ok (.taken loc .dir) := by
  obtain ⟨root, parts⟩ := p
  rw [ensureDirs] at h
  generalize hnames : parts.reverse = names at h
  obtain rfl : parts = names.reverse := by rw [← hnames, List.reverse_reverse]
  cases names with
  | nil => exact exists_locate_of_ensureDir h
  | cons part parts =>
    rw [ensureDirsFrom] at h
    split at h
    next hmake =>
      obtain ⟨rfl, -⟩ := Prod.mk.inj h
      exact exists_locate_of_makeDir hmake
    · split at h
      · exact exists_locate_of_ensureDir h
      · cases h
    · obtain ⟨rfl, hforgive⟩ := Prod.mk.inj h
      exact exists_locate_of_forgive hforgive

/-- A directory stays where it was. -/
theorem Step.locate_dir {P : Path → Prop} (hstep : Step P w w')
    (h : w.locate q = .ok (.taken loc .dir)) : w'.locate q = .ok (.taken loc .dir) := by
  obtain ⟨_, _, _, -, rfl, -, hkind⟩ := hstep.exists_put
  obtain ⟨node', hfollows, hiff⟩ := (StaysIn.put hkind).follows (follows_of_locate h)
  obtain rfl := hiff.1 rfl
  exact locate_of_follows h hfollows

theorem Grows.locate_dir {P : Path → Prop} (h : Grows P w w')
    (hplace : w.locate q = .ok (.taken loc .dir)) : w'.locate q = .ok (.taken loc .dir) := by
  induction h with
  | refl => exact hplace
  | tail _ hstep ih => exact hstep.locate_dir ih

/-! ## What changes -/

/-- From `w` to `w'`, directories are made for a path: each location that changes had nothing, and a
path on the way that led to nothing spells it out. -/
structure MakesDirs (p : Path) (w w' : Workspace) : Prop where
  home : w'.home = w.home
  made : ∀ loc, w'.tree.get? loc ≠ w.tree.get? loc →
    w.tree.get? loc = none ∧ w'.tree.get? loc = some .dir ∧
      ∃ q, q.IsAbove p ∧ loc = w.resolved q ∧ ¬∃ l, w.LeadsTo q l

namespace MakesDirs

theorem staysIn (h : MakesDirs p w w') : StaysIn w.tree w'.tree := by
  intro l node hnode
  by_cases hsame : w'.tree.get? l = w.tree.get? l
  · exact ⟨node, hsame.trans hnode, .rfl⟩
  · cases hnode.symm.trans (h.made l hsame).1

theorem leadsTo (h : MakesDirs p w w') (hleads : w.LeadsTo q loc) : w'.LeadsTo q loc := by
  obtain ⟨node, hfollows⟩ := leadsTo_iff.1 hleads
  obtain ⟨node', hfollows', -⟩ := h.staysIn.follows hfollows
  refine leadsTo_iff.2 ⟨node', ?_⟩
  rwa [origin, h.home, ← origin]

instance refl_makesDirs : Std.Refl (MakesDirs p) := ⟨fun _ => ⟨rfl, fun _ h => absurd rfl h⟩⟩

instance isTrans_makesDirs : IsTrans Workspace (MakesDirs p) where
  trans w₁ w₂ w₃ h h' := by
    refine ⟨h'.home.trans h.home, fun loc hne => ?_⟩
    -- what one of the two changed, the other left as it was
    by_cases hfirst : w₂.tree.get? loc = w₁.tree.get? loc
    · obtain ⟨hnone, hdir, q, hq, hloc, hleads⟩ := h'.made loc (hfirst ▸ hne)
      refine ⟨hfirst ▸ hnone, hdir, q, hq, ?_, ?_⟩
      · rw [hloc, resolved_eq h.home]
      · exact fun ⟨l, hl⟩ => hleads ⟨l, h.leadsTo hl⟩
    · obtain ⟨hnone, hdir, hq⟩ := h.made loc hfirst
      exact ⟨hnone, h'.staysIn.get?_eq_dir hdir, hq⟩

end MakesDirs

theorem makesDirs_put (hq : q.IsAbove p) (hfree : w.locate q = .ok (.free loc)) :
    MakesDirs p w (w.put loc .dir) := by
  have hfollows := follows_of_locate hfree
  have hnone : w.tree.get? loc = none := hfollows.get?_eq nofun
  refine ⟨rfl, fun l hne => ?_⟩
  obtain rfl : loc = l := by
    by_contra hloc
    exact hne (Tree.get?_put_of_ne _ _ hloc)
  refine ⟨hnone, Tree.get?_put_self _ _ ?_, q, hq, location_eq_resolved hfree, ?_⟩
  · rintro rfl
    cases hnone
  · rintro ⟨l, node, hleads⟩
    cases hleads.symm.trans hfollows.follow_eq

theorem makesDirs_ensureDirs (w : Workspace) (p : Path) : MakesDirs p w (w.ensureDirs p).1 :=
  rel_ensureDirs fun _ _ _ => makesDirs_put

/-- Names on the way to a directory lead to directories themselves. -/
theorem exists_leadsTo_of_isAbove (hplace : w.locate p = .ok (.taken loc .dir))
    (hq : q.IsAbove p) : ∃ l, w.LeadsTo q l := by
  obtain ⟨hroot, names, hparts⟩ := hq
  have hfollows := follows_of_locate hplace
  have horigin : w.origin q = w.origin p := by rw [origin, origin, hroot]
  rw [← horigin, ← hparts] at hfollows
  by_cases hnames : names = []
  · rw [hnames, List.append_nil] at hfollows
    exact ⟨loc, leadsTo_iff.2 ⟨_, hfollows⟩⟩
  · obtain ⟨l, hl, -⟩ := hfollows.exists_of_append hnames
    exact ⟨l, leadsTo_iff.2 ⟨_, hl⟩⟩

/-- Below a directory that is there, only the directory itself is made. -/
theorem MakesDirs.eq_resolved_of_below {name : Text} (h : MakesDirs (p.below [name]) w w')
    (hplace : w.locate p = .ok (.taken loc .dir)) {l : Location}
    (hne : w'.tree.get? l ≠ w.tree.get? l) : l = w.resolved (p.below [name]) := by
  obtain ⟨-, -, q, ⟨hroot, hparts⟩, hl, hleads⟩ := h.made l hne
  -- the path is the one to be made, or one above the directory that is there
  rcases List.prefix_concat_iff.1 hparts with heq | hprefix
  · obtain rfl : q = p.below [name] := by
      cases q
      cases p
      simp_all [Path.below]
    exact hl
  · exact absurd (exists_leadsTo_of_isAbove hplace ⟨hroot, hprefix⟩) hleads

/-! ## A file that is not written, or written again -/

theorem eq_of_write_eq_error {content : List UInt8} {e : AccessError}
    (h : w.write p content = (w', .error e)) : w' = w := by
  rw [write] at h
  split at h
  · exact (congrArg Prod.fst h).symm
  · exact (congrArg Prod.fst h).symm
  all_goals cases congrArg Prod.snd h

theorem put_eq_self (h : w.tree.entries.get? loc = some node) : w.put loc node = w := by
  have hentries := Assoc.bind_of_get? h
  obtain ⟨⟨entries, nodup⟩, home⟩ := w
  simp only [put, Tree.put]
  congr 1
  simp only [hentries]

/-- Writing a content once more leaves all as it is. -/
theorem write_of_received {content : List UInt8} (h : w.Received p content) :
    w.write p content = (w, .ok ()) := by
  rcases h with hplace | hplace
  · have hget : w.tree.get? (w.resolved p) = some (.file content) :=
      (follows_of_locate hplace).get?_eq fun hdir => Node.noConfusion (Option.some.inj hdir)
    have hne : w.resolved p ≠ [] := by
      intro hroot
      rw [hroot] at hget
      cases hget
    rw [Tree.get?_of_ne_nil _ hne] at hget
    rw [write, hplace]
    simp only [put_eq_self hget]
  · rw [write, hplace]

end Workspace

end LineSpec
