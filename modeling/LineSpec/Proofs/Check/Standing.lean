import LineSpec.Proofs.Check.Listing
import LineSpec.Proofs.Check.Return
import LineSpec.Proofs.Tree.Growth
/-!
# Trees as file systems have them

In the tree of a file system each thing stands in a directory, under a name that a file can have
(`Tree.WellFormed`). So where the path of a directory leads to the directory, the path of what
stands anywhere below it leads there, unless it is too long (`Workspace.locate_below`); one that is
too long cannot be looked up (`Workspace.canLookUp_below_iff`).
-/

namespace LineSpec

/-! ## Trees as file systems have them -/

/-- A name that a file can have. -/
structure IsFileName (name : Text) : Prop extends Workspace.IsPlain name where
  nonempty : name ≠ []
  noSlash : ('/' : CodePoint) ∉ name
  nameable : Path.Nameable ⟨.relative, [name]⟩

theorem isFileName_iff {name : Text} :
    IsFileName name ↔ (name ≠ "." ∧ name ≠ ".." ∧ ¬Workspace.maxName < Text.nameSize name) ∧
      name ≠ [] ∧ ¬name.contains '/' ∧ Path.Nameable ⟨.relative, [name]⟩ := by
  rw [List.contains_iff_mem]
  exact ⟨fun h => ⟨⟨h.noDot, h.noDots, h.short⟩, h.nonempty, h.noSlash, h.nameable⟩,
    fun h => ⟨⟨h.1.1, h.1.2.1, h.1.2.2⟩, h.2.1, h.2.2.1, h.2.2.2⟩⟩

instance (name : Text) : Decidable (IsFileName name) := decidable_of_iff _ isFileName_iff.symm

namespace Tree

variable {t : Tree} {loc : Location} {names : List Text} {node : Node}

/-- In the tree of a file system, things stand in directories, under names that files can have. -/
def WellFormed (t : Tree) : Prop :=
  ∀ loc name node, t.get? (loc ++ [name]) = some node → t.get? loc = some .dir ∧ IsFileName name

theorem wellFormed_iff : t.WellFormed ↔
    ∀ e ∈ t.entries, ∀ name ∈ e.1.getLast?, t.get? e.1.dropLast = some .dir ∧ IsFileName name := by
  constructor
  · rintro h ⟨loc, node⟩ hmem name hlast
    have hloc : loc.dropLast ++ [name] = loc := List.dropLast_append_getLast? _ hlast
    refine h _ _ node ?_
    rw [get?_of_ne_nil t (by simp), hloc]
    exact (Assoc.mem_iff_get? t.nodup).1 hmem
  · intro h loc name node hget
    rw [get?_of_ne_nil t (by simp)] at hget
    simpa using h _ ((Assoc.mem_iff_get? t.nodup).2 hget) name (by simp)

instance (t : Tree) : Decidable t.WellFormed := decidable_of_iff _ wellFormed_iff.symm

namespace WellFormed

theorem congr {t' : Tree} (h : t.WellFormed) (hagree : ∀ loc, t'.get? loc = t.get? loc) :
    t'.WellFormed := fun loc name node hget => by
  rw [hagree] at hget ⊢
  exact h loc name node hget

/-- What is above something in the tree is a directory. -/
theorem get?_above (h : t.WellFormed) (hget : t.get? (loc ++ names) = some node)
    (hne : names ≠ []) : t.get? loc = some .dir := by
  induction names using List.reverseRecOn generalizing node with
  | nil => exact absurd rfl hne
  | append_singleton names name ih =>
    rw [← List.append_assoc] at hget
    have hdir := (h _ _ _ hget).1
    by_cases hnil : names = []
    · rwa [hnil, List.append_nil] at hdir
    · exact ih hdir hnil

theorem isFileName (h : t.WellFormed) (hget : t.get? (loc ++ names) = some node) :
    ∀ name ∈ names, IsFileName name := by
  induction names using List.reverseRecOn generalizing node with
  | nil => exact List.forall_mem_nil _
  | append_singleton names name ih =>
    rw [← List.append_assoc] at hget
    obtain ⟨hdir, hname⟩ := h _ _ _ hget
    exact List.forall_mem_append.2 ⟨ih hdir, List.forall_mem_singleton.2 hname⟩

end WellFormed

end Tree

/-! ## Following names into a directory -/

theorem Path.text_name (name : Text) : (Path.mk .relative [name]).text = name := by
  change Text.join "/" [name] = name
  exact List.intercalate_singleton

/-- A file can have a path when it can have each of the names in it. -/
theorem Path.nameable_iff_parts {p : Path} :
    p.Nameable ↔ ∀ name ∈ p.parts, Path.Nameable ⟨.relative, [name]⟩ := by
  have hslash : CodePoint.ofChar '/' ≠ '\x00' ∧
      (CodePoint.isSurrogate '/' = true → Text.isOctetMark '/' = true) := by decide
  have hroot : ∀ c ∈ p.root.text, c = CodePoint.ofChar '/' := by
    cases p.root with
    | relative => exact List.forall_mem_nil _
    | single => exact List.forall_mem_singleton.2 rfl
    | double => exact List.forall_mem_cons.2 ⟨rfl, List.forall_mem_singleton.2 rfl⟩
  have hseparator : ∀ c ∈ Text.ofString "/", c = CodePoint.ofChar '/' :=
    List.forall_mem_singleton.2 rfl
  simp only [Nameable, text_name]
  rw [Path.text]
  split
  next hparts =>
    rw [hparts]
    exact iff_of_true (List.forall_mem_singleton.2 (by decide)) (List.forall_mem_nil _)
  · rw [List.forall_mem_append, and_iff_right fun c hc => hroot c hc ▸ hslash]
    exact Text.forall_mem_join_iff fun c hc => hseparator c hc ▸ hslash

namespace Workspace

variable {w : Workspace} {dir : Path} {l : Location} {names : List Text} {node : Node}

/-- Names that lead on from a directory are followed from there. -/
theorem Follows.append {t : Tree} {start loc : Location} {names names' : List Text} {place : Place}
    (h : Follows t start names (.taken loc .dir)) (h' : Follows t loc names' place) :
    Follows t start (names ++ names') place := by
  generalize hdir : Place.taken loc .dir = middle at h
  induction h with
  | here =>
    cases hdir
    exact h'
  | dot _ ih => exact .dot (ih hdir)
  | dots _ ih => exact .dots (ih hdir)
  | passes plain dir _ ih => exact .passes plain dir (ih hdir)
  | ends _ _ _ noDir => exact absurd (hdir ▸ rfl) noDir

/-- In the tree of a file system, names lead to what stands there. -/
theorem follows_of_get? {t : Tree} (hw : t.WellFormed) {loc : Location} (hne : names ≠ [])
    (hget : t.get? (loc ++ names) = some node) :
    Follows t loc names (.taken (loc ++ names) node) := by
  induction names generalizing loc with
  | nil => exact absurd rfl hne
  | cons name names ih =>
    have hplain := (hw.isFileName hget name List.mem_cons_self).toIsPlain
    rw [List.append_cons] at hget ⊢
    by_cases hnil : names = []
    · subst hnil
      rw [List.append_nil] at hget ⊢
      cases node with
      | dir => exact .passes hplain hget .here
      | file | device => exact .ends hplain rfl hget nofun
    · exact .passes hplain (hw.get?_above hget hnil) (ih hnil hget)

theorem locate_congr {w' : Workspace} (hhome : w'.home = w.home)
    (hagree : ∀ loc, w'.tree.get? loc = w.tree.get? loc) (p : Path) : w'.locate p = w.locate p := by
  have hfollow : ∀ start names, follow w'.tree start names = follow w.tree start names := by
    intro start names
    induction names generalizing start with
    | nil => rfl
    | cons name names ih => rw [follow, follow, hagree, ih, ih, ih]
  simp only [locate, find, hfollow, hhome]

theorem locate_of_nameable {p : Path} (h : p.Nameable) :
    w.locate p = if maxPath < Text.nameSize p.text then .error (.os .nameTooLong p.text)
      else (follow w.tree (w.origin p) p.parts).mapError (.os · p.text) := by
  obtain ⟨hencodable, hnul⟩ := Path.nameable_iff.1 h
  rw [locate, find, hencodable]
  simp only [if_neg hnul, origin]

section
variable (hw : w.tree.WellFormed) (hdir : w.locate dir = .ok (.taken l .dir))
  (hne : names ≠ []) (hget : w.tree.get? (l ++ names) = some node)
include hw hdir hne hget

/-- The path of what stands below a directory leads there, unless it is too long. -/
theorem locate_below : w.locate (dir.below names) =
    if maxPath < Text.nameSize (dir.below names).text then
      .error (.os .nameTooLong (dir.below names).text)
    else .ok (.taken (l ++ names) node) := by
  have hnameable : (dir.below names).Nameable := by
    have hall := nameable_of_locate hdir
    rw [Path.nameable_iff_parts] at hall ⊢
    exact List.forall_mem_append.2
      ⟨hall, fun name hname => (hw.isFileName hget name hname).nameable⟩
  have hfollows := (follows_of_locate hdir).append (follows_of_get? hw hne hget)
  rw [locate_of_nameable hnameable]
  refine if_congr Iff.rfl rfl ?_
  rw [show w.origin (dir.below names) = w.origin dir from rfl,
    show (dir.below names).parts = dir.parts ++ names from rfl, hfollows.follow_eq]
  rfl

theorem canLookUp_below_iff :
    w.CanLookUp (dir.below names) ↔ Text.nameSize (dir.below names).text ≤ maxPath := by
  have hlocate := locate_below hw hdir hne hget
  rw [← Nat.not_lt]
  split at hlocate
  next hlong =>
    refine iff_of_false ?_ (not_not.2 hlong)
    rintro ⟨node', hnode'⟩
    rw [node?, hlocate] at hnode'
    cases hnode'
  next hshort => exact iff_of_true ⟨_, node?_eq_some_iff.2 ⟨_, hlocate⟩⟩ hshort

theorem locate_below_of_canLookUp (hshort : w.CanLookUp (dir.below names)) :
    w.locate (dir.below names) = .ok (.taken (l ++ names) node) := by
  rw [locate_below hw hdir hne hget,
    if_neg (Nat.not_lt.2 ((canLookUp_below_iff hw hdir hne hget).1 hshort))]

end

end Workspace

end LineSpec
