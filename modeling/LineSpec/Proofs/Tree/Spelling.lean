import LineSpec.Proofs.Text.Fragment
import LineSpec.Proofs.Tree.Selection
/-!
# Paths that are spelled out

A path that goes through plain names has a plain text, and is the path that its text gives
(`Path.Plain.ofText_text`). The paths that texts give are of this kind, and so are those that a
pattern selects in a tree of files with plain names (`Workspace.Selects.plain`).
-/

namespace LineSpec

namespace Path

/-- A name between two slashes of a path: the text of the path keeps it, and it holds no
surrogate. -/
structure IsName (t : Text) : Prop where
  nonempty : t ≠ []
  noDot : t ≠ "."
  noSlash : ('/' : CodePoint) ∉ t
  plain : t.Plain

theorem isName_iff {t : Text} :
    IsName t ↔ t ≠ [] ∧ t ≠ "." ∧ ¬t.contains '/' ∧ t.Plain := by
  rw [List.contains_iff_mem]
  exact ⟨fun h => ⟨h.1, h.2, h.3, h.4⟩, fun h => ⟨h.1, h.2.1, h.2.2.1, h.2.2.2⟩⟩

instance (t : Text) : Decidable (IsName t) := decidable_of_iff _ isName_iff.symm

/-- A path through plain names. -/
def Plain (p : Path) : Prop := ∀ name ∈ p.parts, IsName name

variable {p q : Path} {t : Text}

/-! ## From texts -/

theorem plain_ofText (h : t.Plain) : (ofText t).Plain := by
  intro name hname
  rw [ofText, partsOfText, List.mem_filter, List.mem_filter, decide_eq_true_iff,
    decide_eq_true_iff] at hname
  obtain ⟨⟨hpiece, hne⟩, hdot⟩ := hname
  exact ⟨hne, hdot, Text.not_mem_of_mem_pieces hpiece,
    h.of_subset (Text.subset_of_mem_pieces hpiece)⟩

theorem Plain.below {names : List Text} (h : p.Plain) (hnames : ∀ name ∈ names, IsName name) :
    (p.below names).Plain :=
  List.forall_mem_append.2 ⟨h, hnames⟩

theorem Plain.child (h : p.Plain) (ht : t.Plain) : (p.child t).Plain := by
  have htext := plain_ofText ht
  rw [Path.child, join]
  split
  · exact List.forall_mem_append.2 ⟨h, htext⟩
  · exact htext

/-! ## To texts -/

theorem Plain.text (h : p.Plain) : p.text.Plain := by
  have hroot : p.root.text.Plain := by
    cases p.root with
    | relative => exact Text.plain_nil
    | single | double => exact Text.plain_ofString _
  rw [Path.text]
  split
  · exact Text.plain_ofString _
  · exact hroot.append
      (Text.plain_join (Text.plain_ofString _) fun name hname => (h name hname).plain)

/-- Names with slashes between them do not begin with a slash. -/
theorem Plain.takeWhile_join (h : p.Plain) :
    (Text.join "/" p.parts).takeWhile (· == ('/' : CodePoint)) = [] := by
  cases hparts : p.parts with
  | nil => rfl
  | cons name names =>
    obtain ⟨hne, -, hslash, -⟩ := h name (hparts ▸ List.mem_cons_self)
    obtain ⟨c, cs, rfl⟩ := List.exists_cons_of_ne_nil hne
    have hjoin : ∃ rest, Text.join "/" ((c :: cs) :: names) = c :: rest := by
      cases names with
      | nil => exact ⟨cs, List.intercalate_singleton⟩
      | cons name' names => exact ⟨_, List.intercalate_cons_cons⟩
    have hc : (c == ('/' : CodePoint)) = false :=
      beq_eq_false_iff_ne.2 fun heq => hslash (heq ▸ List.mem_cons_self)
    obtain ⟨rest, hjoin⟩ := hjoin
    rw [hjoin, List.takeWhile_cons, hc]
    rfl

theorem Plain.partsOfText_join (h : p.Plain) : partsOfText (Text.join "/" p.parts) = p.parts := by
  rw [partsOfText]
  by_cases hparts : p.parts = []
  · rw [hparts]
    rfl
  · have hpieces : Text.pieces (Text.join "/" p.parts) ('/' : CodePoint) = p.parts :=
      Text.pieces_intercalate hparts fun name hname => (h name hname).noSlash
    rw [hpieces]
    exact List.filter_eq_self.2 fun name hname => decide_eq_true (h name hname).nonempty

/-- Slashes at the beginning end no part. -/
theorem partsOfText_root (root : Root) (t : Text) :
    partsOfText (root.text ++ t) = partsOfText t := by
  have hslash : ∀ t : Text, partsOfText (('/' : CodePoint) :: t) = partsOfText t := by
    intro t
    rw [partsOfText, Text.pieces, if_pos rfl]
    rfl
  cases root with
  | relative => rfl
  | single => exact hslash t
  | double => exact (hslash _).trans (hslash t)

theorem rootOfText_append (root : Root) {t : Text}
    (h : t.takeWhile (· == ('/' : CodePoint)) = []) : Root.ofText (root.text ++ t) = root := by
  have hslashes : ∀ c ∈ root.text, (c == ('/' : CodePoint)) = true := by
    cases root with
    | relative => exact List.forall_mem_nil _
    | single => exact List.forall_mem_singleton.2 rfl
    | double => exact List.forall_mem_cons.2 ⟨rfl, List.forall_mem_singleton.2 rfl⟩
  rw [Root.ofText, List.takeWhile_append_of_pos hslashes, h, List.append_nil]
  cases root <;> rfl

/-- The path is read again from its text. -/
theorem Plain.ofText_text (h : p.Plain) : ofText p.text = p := by
  have hparts : p.parts.filter (fun name => name ≠ (".": Text)) = p.parts :=
    List.filter_eq_self.2 fun name hname => decide_eq_true (h name hname).noDot
  have hwhile := h.takeWhile_join
  have hjoin := h.partsOfText_join
  obtain ⟨root, parts⟩ := p
  rw [Path.text]
  split
  next hroot hnil =>
    obtain rfl : root = .relative := hroot
    obtain rfl : parts = [] := hnil
    rfl
  · rw [ofText, partsOfText_root, hjoin, hparts, rootOfText_append root hwhile]

end Path

/-! ## Selected paths -/

/-- The names in a tree are plain. -/
def Tree.Plain (t : Tree) : Prop := ∀ e ∈ t.entries, ∀ name ∈ e.1, Path.IsName name

instance (t : Tree) : Decidable t.Plain :=
  inferInstanceAs (Decidable (∀ e ∈ t.entries, ∀ name ∈ e.1, Path.IsName name))

namespace Workspace

variable {w : Workspace} {p q f : Path} {parts : List Glob.Part}

theorem isName_of_get? (hw : w.tree.Plain) {loc : Location} {names : List Text} {node : Node}
    (hnames : names ≠ []) (h : w.tree.get? (loc ++ names) = some node) :
    ∀ name ∈ names, Path.IsName name := by
  rw [Tree.get?_of_ne_nil _ (by simp [hnames])] at h
  exact fun name hname =>
    hw _ ((Assoc.mem_iff_get? w.tree.nodup).2 h) name (List.mem_append_right _ hname)

/-- In a tree of files with plain names, a plain pattern leads from a plain path to plain paths. -/
theorem Selects.plain (hw : w.tree.Plain) (h : w.Selects p parts f)
    (hexact : ∀ name, .exact name ∈ parts → Path.IsName name) (hp : p.Plain) : f.Plain := by
  have hchild : ∀ {p : Path} {name : Text} {node : Node}, p.Plain → (name, node) ∈ w.children p →
      (p.below [name]).Plain := by
    intro p name node hp hmem
    obtain ⟨l, -, hget, -⟩ := mem_children_iff.1 hmem
    exact hp.below (isName_of_get? hw (List.cons_ne_nil _ _) hget)
  have hnext : ∀ {part : Glob.Part} {parts : List Glob.Part},
      (∀ name, .exact name ∈ part :: parts → Path.IsName name) →
      ∀ name, .exact name ∈ parts → Path.IsName name :=
    fun h name hmem => h name (List.mem_cons_of_mem _ hmem)
  induction h with
  | here => exact hp
  | up _ ih => exact ih (hnext hexact) (hp.below (by decide))
  | exactDir _ _ ih =>
    have hname := hexact _ List.mem_cons_self
    exact ih (hnext hexact) (hp.below (List.forall_mem_singleton.2 hname))
  | exactEnds _ =>
    exact hp.below (List.forall_mem_singleton.2 (hexact _ List.mem_cons_self))
  | nameDir child _ _ ih => exact ih (hnext hexact) (hchild hp child)
  | nameEnds child _ => exact hchild hp child
  | deep dir _ ih =>
    refine ih (hnext hexact) ?_
    rcases mem_dirsFrom_iff.1 dir with rfl | ⟨l, names, -, hne, hget, -, rfl⟩
    · exact hp
    · exact hp.below (isName_of_get? hw hne hget)

end Workspace

namespace Glob

/-- The names that a pattern looks up are plain if its text is. -/
theorem isName_of_exact {t name : Text} {parts : List Part} (ht : t.Plain)
    (h : ofText t = .ok parts) (hmem : .exact name ∈ parts) : Path.IsName name := by
  obtain ⟨piece, hpiece, hpart⟩ := (mem_mapM_iff h).1 hmem
  have hne : piece ≠ [] := by
    rintro rfl
    cases hpart
  have hname : name = piece := by
    rw [Part.ofText, if_neg hne] at hpart
    repeat' split at hpart
    all_goals cases hpart
    rfl
  have hpieces : piece ∈ (Text.pieces t ('/' : CodePoint)).filter
      fun name => name ≠ [] && name ≠ "." := by
    split at hpiece
    · rcases List.mem_append.1 hpiece with hpiece | hpiece
      · exact hpiece
      · exact absurd (List.mem_singleton.1 hpiece) hne
    · exact hpiece
  rw [List.mem_filter, Bool.and_eq_true, decide_eq_true_iff, decide_eq_true_iff] at hpieces
  obtain ⟨hpiece, -, hdot⟩ := hpieces
  rw [hname]
  exact ⟨hne, hdot, Text.not_mem_of_mem_pieces hpiece,
    ht.of_subset (Text.subset_of_mem_pieces hpiece)⟩

end Glob

end LineSpec
