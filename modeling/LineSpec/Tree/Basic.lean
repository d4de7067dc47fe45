import LineSpec.Assoc
/-!
# Directory trees

A tree is what stands below the root of a file system: directories, files with their octets, and
devices. Each thing has a location, the names that lead to it from the root. The root itself is a
directory and is not listed. No location is listed twice; that is part of the type. A thing may be
closed to reading, a directory among them to listing. Everything may be written to and searched, and
there are no links: a thing has one location.
-/

namespace LineSpec

/-- What stands at a location. A file keeps what is written to it. A device, as the null device is
one, takes whatever is written, keeps nothing of it, and is empty when it is read. -/
inductive Node where
  | dir
  | file (content : List UInt8)
  | device
  deriving DecidableEq, Repr

/-- The names that lead from the root to a place. -/
abbrev Location := List Text

/-- The things below a root, each at its location. -/
structure Tree where
  entries : Assoc Location Node := []
  /-- The things that may not be read. -/
  closed : List Location := []
  nodup : entries.names.Nodup := by decide
  closed_subset : closed ⊆ entries.names := by exact List.nil_subset _

namespace Tree

/-- What stands at a location. -/
def get? (t : Tree) (loc : Location) : Option Node :=
  if loc.isEmpty then some .dir else t.entries.get? loc

/-- The tree with `node` at `loc`, in the place of what stood there. What is new is not closed. -/
def put (t : Tree) (loc : Location) (node : Node) : Tree where
  entries := t.entries.bind loc node
  closed := t.closed
  nodup := Assoc.nodup_names_bind t.nodup loc node
  closed_subset := List.Subset.trans t.closed_subset (t.entries.names_subset_names_bind loc node)

/-- The things below `loc`, each with the names that lead to it from there, in the order in which
they were made. -/
def below (t : Tree) (loc : Location) : List (List Text × Node) :=
  t.entries.filterMap fun e =>
    if loc.isPrefixOf e.1 && loc.length < e.1.length then some (e.1.drop loc.length, e.2) else none

/-- Whether what stands at a location may be read. -/
def CanRead (t : Tree) (loc : Location) : Prop := loc ∉ t.closed

instance (t : Tree) (loc : Location) : Decidable (t.CanRead loc) :=
  inferInstanceAs (Decidable (¬_))

/-- Whether what stands at a location may be listed, if it is a directory. -/
def CanList (t : Tree) (loc : Location) : Prop := t.get? loc = some .dir → t.CanRead loc

instance (t : Tree) (loc : Location) : Decidable (t.CanList loc) :=
  inferInstanceAs (Decidable (_ → _))

/-- Whether what `names` lead to comes to light when the directory at `loc`, and on the way one
directory after the other, is listed. -/
def Shows (t : Tree) (loc : Location) (names : List Text) : Prop :=
  ∀ n < names.length, t.CanList (loc ++ names.take n)

instance (t : Tree) (loc : Location) (names : List Text) : Decidable (t.Shows loc names) :=
  inferInstanceAs (Decidable (∀ n < names.length, _))

/-- A node stands at another location as before. -/
theorem get?_put_of_ne (t : Tree) {loc loc' : Location} (node : Node) (h : loc ≠ loc') :
    (t.put loc node).get? loc' = t.get? loc' := by
  simp [get?, put, Assoc.get?_bind, h]

theorem get?_put_self (t : Tree) {loc : Location} (node : Node) (h : loc ≠ []) :
    (t.put loc node).get? loc = some node := by
  simp [get?, put, Assoc.get?_bind, h]

theorem get?_of_ne_nil (t : Tree) {loc : Location} (h : loc ≠ []) :
    t.get? loc = t.entries.get? loc := by
  rw [get?, if_neg (by simpa using h)]

/-- The things below a location are those that stand where further names lead. -/
theorem mem_below_iff {t : Tree} {loc : Location} {names : List Text} {node : Node} :
    (names, node) ∈ t.below loc ↔ names ≠ [] ∧ t.get? (loc ++ names) = some node := by
  have hmem : ∀ loc', (loc', node) ∈ t.entries ↔ t.entries.get? loc' = some node :=
    fun _ => Assoc.mem_iff_get? t.nodup
  constructor
  · intro h
    obtain ⟨⟨loc', node'⟩, hentry, h⟩ := List.mem_filterMap.1 h
    dsimp only at h
    split at h
    next hcond =>
      obtain ⟨rfl, rfl⟩ := Prod.mk.inj (Option.some.inj h)
      obtain ⟨hbegins, hlt⟩ := Bool.and_eq_true_iff.1 hcond
      obtain ⟨rest, rfl⟩ := List.isPrefixOf_iff_prefix.1 hbegins
      have hrest : rest ≠ [] := by
        rintro rfl
        simp at hlt
      rw [List.drop_left, get?_of_ne_nil t (by simp [hrest])]
      exact ⟨hrest, (hmem _).1 hentry⟩
    · cases h
  · rintro ⟨hnames, hget⟩
    have hne : loc ++ names ≠ [] := by simp [hnames]
    rw [get?_of_ne_nil t hne] at hget
    refine List.mem_filterMap.2 ⟨_, (hmem _).2 hget, ?_⟩
    have hbegins : loc.isPrefixOf (loc ++ names) = true :=
      List.isPrefixOf_iff_prefix.2 (List.prefix_append loc names)
    simp [hbegins, List.length_pos_iff.2 hnames]

theorem shows_singleton_iff {t : Tree} {loc : Location} {name : Text} :
    t.Shows loc [name] ↔ t.CanList loc := by
  simp [Shows]

/-- One name more comes to light where the directory that it is in may be listed as well. -/
theorem shows_concat_iff {t : Tree} {loc : Location} {names : List Text} {name : Text} :
    t.Shows loc (names ++ [name]) ↔ t.Shows loc names ∧ t.CanList (loc ++ names) := by
  simp only [Shows, List.length_append, List.length_singleton, Nat.lt_succ_iff_lt_or_eq, or_imp,
    forall_and, forall_eq]
  refine and_congr (forall₂_congr fun n hn => ?_) ?_
  · rw [List.take_append_of_le_length (Nat.le_of_lt hn)]
  · rw [List.take_left]

end Tree

end LineSpec
