import LineSpec.Proofs.Steps
import LineSpec.Tree.Workspace
/-!
# A change at one location

Two workspaces that agree everywhere but at one location, where neither has a directory: a file was
written there, rewritten or removed. A path is followed to the same end in both, unless it ends at
that location, or something is new or gone there and the path goes on below it as if it were a
directory (`AgreeOff.locate_eq`). What stands elsewhere is found in both
(`AgreeOff.locate_eq_ok`).

Where names lead to a place at all, they do so one by one, through directories (`Follows`).
-/

namespace LineSpec.Workspace

/-! ## Where a path leads -/

/-- The location of a place. -/
def Place.location : Place → Location
  | taken loc _ => loc
  | free loc => loc

/-- The locations that are looked up when names are followed from the directory at `loc`. -/
def trail (t : Tree) (loc : Location) : List Text → List Location
  | [] => []
  | name :: names =>
    if name = "." then trail t loc names
    else if name = ".." then trail t loc.dropLast names
    else if maxName < Text.nameSize name then []
    else
      (loc ++ [name]) ::
        if t.get? (loc ++ [name]) = some .dir then trail t (loc ++ [name]) names else []

/-- Where a path begins. -/
def origin (w : Workspace) (p : Path) : Location :=
  if p.root = .relative then w.home else []

/-- The locations that are looked up when a path is followed. -/
def lookups (w : Workspace) (p : Path) : List Location :=
  trail w.tree (w.origin p) p.parts

/-- The location that a path leads to, whether or not something stands there. -/
def destination (w : Workspace) (p : Path) : Option Location :=
  (w.locate p).toOption.map Place.location

theorem destination_eq_some_iff {w : Workspace} {p : Path} {loc : Location} :
    w.destination p = some loc ↔ ∃ place, w.locate p = .ok place ∧ place.location = loc := by
  rw [destination]
  cases w.locate p <;> simp [Except.toOption]

theorem location_ne_of_destination_ne {w : Workspace} {p : Path} {place : Place} {loc : Location}
    (hplace : w.locate p = .ok place) (hne : w.destination p ≠ some loc) : place.location ≠ loc :=
  fun hlocation => hne (destination_eq_some_iff.2 ⟨place, hplace, hlocation⟩)

/-- A path is refused for its text alone, or else it is followed. -/
theorem locate_cases (p : Path) :
    (∃ e, ∀ w : Workspace, w.locate p = .error e) ∨
      ∀ w : Workspace,
        w.locate p = (follow w.tree (w.origin p) p.parts).mapError (.os · p.text) := by
  by_cases hname : ∃ e, Text.Unencodable.inName? p.text = some e
  · obtain ⟨e, he⟩ := hname
    exact .inl ⟨.unencodable e, fun w => by rw [locate, find, he]⟩
  · have hnone : Text.Unencodable.inName? p.text = none :=
      Option.eq_none_iff_forall_ne_some.2 fun e he => hname ⟨e, he⟩
    by_cases hnul : p.text.contains '\x00'
    · exact .inl ⟨.nulInPath, fun w => by rw [locate, find, hnone]; exact if_pos hnul⟩
    · by_cases hlong : maxPath < Text.nameSize p.text
      · refine .inl ⟨.os .nameTooLong p.text, fun w => ?_⟩
        rw [locate, find, hnone]
        simp only [if_neg hnul, if_pos hlong]
      · refine .inr fun w => ?_
        rw [locate, find, hnone]
        simp only [if_neg hnul, if_neg hlong, origin]

theorem node?_eq_some_iff {w : Workspace} {p : Path} {node : Node} :
    w.node? p = .ok (some node) ↔ ∃ loc, w.locate p = .ok (.taken loc node) := by
  rw [node?]
  constructor
  · intro h
    split at h
    next loc node' hplace =>
      obtain rfl := Option.some.inj (Except.ok.inj h)
      exact ⟨loc, hplace⟩
    · cases h
    · cases h
  · rintro ⟨loc, hplace⟩
    rw [hplace]

theorem read_of_locate {w : Workspace} {p : Path} {loc : Location} {content : List UInt8}
    (h : w.locate p = .ok (.taken loc (.file content))) (hopen : w.tree.CanRead loc) :
    w.read p = .ok content := by
  rw [read, h]
  exact if_pos hopen

/-- What is read is there and may be read. -/
theorem exists_locate_of_read {w : Workspace} {p : Path} {content : List UInt8}
    (h : w.read p = .ok content) :
    ∃ loc node, w.locate p = .ok (.taken loc node) ∧ w.tree.CanRead loc := by
  rw [read] at h
  split at h
  · cases h
  · cases h
  next loc node hplace =>
    split at h
    next hopen => exact ⟨loc, node, hplace, hopen⟩
    · cases h

/-- What is read depends on what the path leads to, and on whether that may be read. -/
theorem read_congr {w w' : Workspace} {p : Path} (hplace : w'.locate p = w.locate p)
    (hopen : ∀ loc node, w.locate p = .ok (.taken loc node) →
      (w'.tree.CanRead loc ↔ w.tree.CanRead loc)) : w'.read p = w.read p := by
  rw [read, read, hplace]
  split
  · rfl
  · rfl
  next loc node htaken => exact if_congr (hopen loc node htaken) rfl rfl

/-! ## The names on the way -/

/-- What stands at a place. -/
def Place.node? : Place → Option Node
  | taken _ node => some node
  | free _ => none

/-- A name that is looked up: it has no meaning of its own and is not too long. -/
structure IsPlain (name : Text) : Prop where
  noDot : name ≠ "."
  noDots : name ≠ ".."
  short : ¬maxName < Text.nameSize name

/-- The place at a location where the given node stands, or nothing does. -/
def Place.holding (loc : Location) : Option Node → Place
  | some node => .taken loc node
  | none => .free loc

theorem Place.location_holding (loc : Location) (node : Option Node) :
    (Place.holding loc node).location = loc := by
  cases node <;> rfl

theorem Place.holding_eq (place : Place) : Place.holding place.location place.node? = place := by
  cases place <;> rfl

theorem Place.node?_holding (loc : Location) (node : Option Node) :
    (Place.holding loc node).node? = node := by
  cases node <;> rfl

section
variable {t : Tree} {start : Location} {name : Text} {names : List Text} (plain : IsPlain name)
include plain

theorem trail_of_plain : trail t start (name :: names) =
    (start ++ [name]) ::
      if t.get? (start ++ [name]) = some .dir then trail t (start ++ [name]) names else [] := by
  rw [trail, if_neg plain.noDot, if_neg plain.noDots, if_neg plain.short]

/-- Names go on through a directory. -/
theorem follow_of_dir (hdir : t.get? (start ++ [name]) = some .dir) :
    follow t start (name :: names) = follow t (start ++ [name]) names := by
  rw [follow, if_neg plain.noDot, if_neg plain.noDots, if_neg plain.short, hdir]

/-- Names end where no directory stands. -/
theorem follow_of_noDir (hdir : t.get? (start ++ [name]) ≠ some .dir) :
    follow t start (name :: names) =
      if names.isEmpty then .ok (.holding (start ++ [name]) (t.get? (start ++ [name])))
      else .error (if (t.get? (start ++ [name])).isSome then .notDirectory else .missing) := by
  rw [follow, if_neg plain.noDot, if_neg plain.noDots, if_neg plain.short]
  cases hget : t.get? (start ++ [name]) with
  | none => rfl
  | some node =>
    cases node with
    | dir => exact absurd hget hdir
    | file | device => rfl

end

/-- `Follows t start names place`: from the directory at `start`, the names lead to a place. -/
inductive Follows (t : Tree) : Location → List Text → Place → Prop
  | here {start : Location} : Follows t start [] (.taken start .dir)
  | dot {start : Location} {names : List Text} {place : Place}
      (rest : Follows t start names place) : Follows t start ("." :: names) place
  | dots {start : Location} {names : List Text} {place : Place}
      (rest : Follows t start.dropLast names place) : Follows t start (".." :: names) place
  | passes {start : Location} {name : Text} {names : List Text} {place : Place}
      (plain : IsPlain name) (dir : t.get? (start ++ [name]) = some .dir)
      (rest : Follows t (start ++ [name]) names place) : Follows t start (name :: names) place
  | ends {start : Location} {name : Text} {place : Place} (plain : IsPlain name)
      (location : place.location = start ++ [name])
      (node : t.get? (start ++ [name]) = place.node?) (noDir : place.node? ≠ some .dir) :
      Follows t start [name] place

theorem Follows.follow_eq {t : Tree} {start : Location} {names : List Text} {place : Place}
    (h : Follows t start names place) : follow t start names = .ok place := by
  induction h with
  | here => rfl
  | dot _ ih => rw [follow, if_pos rfl, ih]
  | dots _ ih => rw [follow, if_neg (by decide), if_pos rfl, ih]
  | passes plain dir _ ih => rw [follow_of_dir plain dir, ih]
  | @ends start name place plain location node noDir =>
    rw [follow_of_noDir plain (node ▸ noDir), node, ← location]
    cases place <;> rfl

theorem follow_eq_ok_iff {t : Tree} {start : Location} {names : List Text} {place : Place} :
    follow t start names = .ok place ↔ Follows t start names place := by
  refine ⟨fun h => ?_, Follows.follow_eq⟩
  fun_induction follow t start names with
  | case1 start =>
    obtain rfl := Except.ok.inj h
    exact .here
  | case2 start names ih => exact .dot (ih h)
  | case3 start names hdot ih => exact .dots (ih h)
  | case7 start name names hdot hdots hshort hget ih =>
    exact .passes ⟨hdot, hdots, hshort⟩ hget (ih h)
  | case5 start name names hdot hdots hshort hget hempty =>
    obtain rfl := Except.ok.inj h
    obtain rfl := List.isEmpty_iff.1 hempty
    exact .ends ⟨hdot, hdots, hshort⟩ rfl hget nofun
  | case8 start name names hdot hdots hshort node hnode hget hempty =>
    obtain rfl := Except.ok.inj h
    obtain rfl := List.isEmpty_iff.1 hempty
    exact .ends ⟨hdot, hdots, hshort⟩ rfl hget (by simpa [Place.node?] using hnode)
  -- everywhere else the names lead to no place
  | _ => cases h

/-- Names that go on lead through a directory, from which the rest of them are followed. -/
theorem Follows.exists_of_append {t : Tree} {start : Location} {names names' : List Text}
    {place : Place} (h : Follows t start (names ++ names') place) (hne : names' ≠ []) :
    ∃ loc, Follows t start names (.taken loc .dir) ∧ Follows t loc names' place := by
  induction names generalizing start with
  | nil => exact ⟨start, .here, h⟩
  | cons name names ih =>
    rw [List.cons_append] at h
    generalize hall : names ++ names' = all at h
    cases h with
    | dot rest =>
      obtain ⟨loc, hdir, hrest⟩ := ih (hall ▸ rest)
      exact ⟨loc, hdir.dot, hrest⟩
    | dots rest =>
      obtain ⟨loc, hdir, hrest⟩ := ih (hall ▸ rest)
      exact ⟨loc, hdir.dots, hrest⟩
    | passes plain dir rest =>
      obtain ⟨loc, hdir, hrest⟩ := ih (hall ▸ rest)
      exact ⟨loc, .passes plain dir hdir, hrest⟩
    -- the names do not end here
    | ends => exact absurd (List.append_eq_nil_iff.1 hall).2 hne

/-! ## Agreement -/

/-- Two workspaces agree off a location, where neither has a directory. -/
structure AgreeOff (loc : Location) (w w' : Workspace) : Prop where
  home : w'.home = w.home
  elsewhere : ∀ l, l ≠ loc → w'.tree.get? l = w.tree.get? l
  rights : ∀ l, l ≠ loc → (w'.tree.CanRead l ↔ w.tree.CanRead l)
  noDir : w.tree.get? loc ≠ some .dir
  noDir' : w'.tree.get? loc ≠ some .dir

/-- Something is new or gone at a location. -/
def AddsOrRemoves (loc : Location) (w w' : Workspace) : Prop :=
  (w.tree.get? loc).isSome ≠ (w'.tree.get? loc).isSome

instance (loc : Location) (w w' : Workspace) : Decidable (AddsOrRemoves loc w w') :=
  inferInstanceAs (Decidable (_ ≠ _))

/-- A path is clear of a change at a location: it does not lead there and, where something is new or
gone, it does not go on below it either. -/
structure Clear (loc : Location) (w w' : Workspace) (p : Path) : Prop where
  ends : w.destination p ≠ some loc
  passes : AddsOrRemoves loc w w' → loc ∉ w.lookups p

instance (loc : Location) (w w' : Workspace) (p : Path) : Decidable (Clear loc w w' p) :=
  decidable_of_iff
    (w.destination p ≠ some loc ∧ (AddsOrRemoves loc w w' → loc ∉ w.lookups p))
    ⟨fun h => ⟨h.1, h.2⟩, fun h => ⟨h.ends, h.passes⟩⟩

/-- Writing a file changes nothing elsewhere. -/
theorem agreeOff_put {w : Workspace} {loc : Location} (h : w.tree.get? loc ≠ some .dir)
    (content : List UInt8) : AgreeOff loc w (w.put loc (.file content)) where
  home := rfl
  elsewhere _ hne := Tree.get?_put_of_ne _ _ (Ne.symm hne)
  rights _ _ := Iff.rfl
  noDir := h
  noDir' := by
    have hne : loc ≠ [] := by
      rintro rfl
      exact h rfl
    rw [put, Tree.get?_put_self _ _ hne]
    exact fun heq => by cases heq

namespace AgreeOff

variable {w w' : Workspace} {loc : Location} {p : Path}

theorem symm (h : AgreeOff loc w w') : AgreeOff loc w' w :=
  ⟨h.home.symm, fun l hl => (h.elsewhere l hl).symm, fun l hl => (h.rights l hl).symm, h.noDir',
    h.noDir⟩

theorem get?_eq_dir (h : AgreeOff loc w w') {l : Location} (hdir : w.tree.get? l = some .dir) :
    w'.tree.get? l = some .dir := by
  rw [h.elsewhere l, hdir]
  rintro rfl
  exact h.noDir hdir

theorem canList_iff (h : AgreeOff loc w w') {l : Location} :
    w'.tree.CanList l ↔ w.tree.CanList l := by
  by_cases hl : l = loc
  · -- no directory stands there that could be closed
    subst hl
    exact iff_of_true (fun hdir => absurd hdir h.noDir') (fun hdir => absurd hdir h.noDir)
  · rw [Tree.CanList, Tree.CanList, h.rights l hl, h.elsewhere l hl]

theorem shows_iff (h : AgreeOff loc w w') {l : Location} {names : List Text} :
    w'.tree.Shows l names ↔ w.tree.Shows l names :=
  forall₂_congr fun _ _ => h.canList_iff

theorem origin_eq (h : AgreeOff loc w w') : w'.origin p = w.origin p := by
  rw [origin, origin, h.home]

/-- Names are followed to the same end, unless they end at the location of the change, where no
directory stands, or are stopped there because something is new or gone. -/
theorem follow_cases (h : AgreeOff loc w w') (start : Location) (names : List Text) :
    follow w'.tree start names = follow w.tree start names ∨
    (∃ place, follow w.tree start names = .ok place ∧ place.location = loc ∧
      place ≠ .taken loc .dir) ∨
    (loc ∈ trail w.tree start names ∧ AddsOrRemoves loc w w' ∧
      ∃ e, follow w.tree start names = .error e) := by
  induction names generalizing start with
  | nil => exact .inl rfl
  | cons name names ih =>
    by_cases hdot : name = "."
    · simpa only [follow, trail, if_pos hdot] using ih start
    by_cases hdots : name = ".."
    · simpa only [follow, trail, if_neg hdot, if_pos hdots] using ih start.dropLast
    by_cases hlong : maxName < Text.nameSize name
    · simp only [follow, if_neg hdot, if_neg hdots, if_pos hlong, true_or]
    have plain : IsPlain name := ⟨hdot, hdots, hlong⟩
    rw [trail_of_plain plain]
    by_cases hloc : start ++ [name] = loc
    · -- here the two trees may differ
      subst hloc
      rw [follow_of_noDir plain h.noDir, follow_of_noDir plain h.noDir']
      by_cases hnames : names.isEmpty
      · refine .inr (.inl ⟨_, if_pos hnames, Place.location_holding .., fun heq => h.noDir ?_⟩)
        exact (Place.node?_holding _ _).symm.trans (congrArg Place.node? heq)
      · simp only [if_neg hnames]
        by_cases hchange : AddsOrRemoves (start ++ [name]) w w'
        · exact .inr (.inr ⟨List.mem_cons_self, hchange, _, rfl⟩)
        · exact .inl (by rw [not_ne_iff.1 hchange])
    · have helsewhere := h.elsewhere _ hloc
      by_cases hdir : w.tree.get? (start ++ [name]) = some .dir
      · rw [follow_of_dir plain hdir, follow_of_dir plain (helsewhere.trans hdir), if_pos hdir]
        refine (ih (start ++ [name])).imp_right (.imp_right ?_)
        rintro ⟨hmem, hrest⟩
        exact ⟨List.mem_cons_of_mem _ hmem, hrest⟩
      · rw [follow_of_noDir plain hdir, follow_of_noDir plain (helsewhere ▸ hdir), helsewhere]
        exact .inl rfl

/-- A path that is clear of the change is followed to the same end. -/
theorem locate_eq (h : AgreeOff loc w w') (hclear : Clear loc w w' p) :
    w'.locate p = w.locate p := by
  rcases locate_cases p with ⟨e, he⟩ | hfollow
  · rw [he, he]
  · rw [hfollow, hfollow, h.origin_eq]
    rcases h.follow_cases (w.origin p) p.parts with heq | ⟨place, hplace, hlocation, -⟩ |
      ⟨hmem, hchange, -⟩
    · rw [heq]
    · have hlocate : w.locate p = .ok place := by
        rw [hfollow, hplace]
        rfl
      exact absurd hlocation (location_ne_of_destination_ne hlocate hclear.ends)
    · exact absurd hmem (hclear.passes hchange)

/-- What a path leads to is found in both, unless it is a file at the location of the change, or a
free place there. -/
theorem locate_eq_ok (h : AgreeOff loc w w') {place : Place} (hplace : w.locate p = .ok place)
    (hne : place.location = loc → place = .taken loc .dir) : w'.locate p = .ok place := by
  rcases locate_cases p with ⟨e, he⟩ | hfollow
  · cases (he w).symm.trans hplace
  · rw [hfollow, mapError_eq_ok_iff] at hplace ⊢
    rw [h.origin_eq]
    rcases h.follow_cases (w.origin p) p.parts with heq | ⟨place', hplace', hlocation, hdir⟩ |
      ⟨-, -, e, he⟩
    · rw [heq, hplace]
    · obtain rfl := Except.ok.inj (hplace.symm.trans hplace')
      exact absurd (hne hlocation) hdir
    · cases he.symm.trans hplace

theorem locate_dir (h : AgreeOff loc w w') {l : Location}
    (hplace : w.locate p = .ok (.taken l .dir)) : w'.locate p = .ok (.taken l .dir) :=
  h.locate_eq_ok hplace fun hl => congrArg (Place.taken · .dir) hl

theorem locate_file (h : AgreeOff loc w w') {l : Location} {content : List UInt8}
    (hplace : w.locate p = .ok (.taken l (.file content))) (hne : l ≠ loc) :
    w'.locate p = .ok (.taken l (.file content)) :=
  h.locate_eq_ok hplace fun hl => absurd hl hne

theorem read_eq (h : AgreeOff loc w w') (hclear : Clear loc w w' p) : w'.read p = w.read p := by
  refine read_congr (h.locate_eq hclear) fun l _ hplace => h.rights l ?_
  exact location_ne_of_destination_ne hplace hclear.ends

end AgreeOff

end LineSpec.Workspace
